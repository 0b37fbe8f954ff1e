/-
The deterministic aggregation: events counted into days, severities, categories, hosts and
techniques, and the whole skeleton of a report built from the counts.
-/
import KnIg.Lib.Dict
import KnIg.Lib.Fallible
import KnIg.Report.Evidence
import KnIg.Report.Skeleton
import Mathlib

namespace KnIg.Report

open Lib Lib.Text Classify

/-! ## Counting -/

/-- The days from the first to the last, of more than 31 the last 31. -/
def dayLabels (first last : Int) : List Int :=
  let days := (List.range ((last - first).toNat + 1)).map fun i : Nat => first + i
  days.drop (days.length - 31)

/-- The host of an agent's id; of several agents with one id the last counts. -/
def hostName (agents : List AgentIn) (agentId : Str) : Str :=
  match agents.reverse.find? (·.agentId = agentId) with
  | some a => if a.hostname = [] then a.agentId else a.hostname
  | none => if agentId = [] then txt "unknown" else agentId

structure Counts where
  blocked : BySev (List Nat)
  sevTotal : BySev Nat
  catCount : Dict Str Nat
  catIsCritical : Dict Str Bool
  hostBlocked : Dict Str Nat
  hostUnblockedEvents : Dict Str Nat
  techCount : Dict Str Nat
  dailyTotal : List Nat
  dailyBlocked : List Nat
  dailyUnblocked : List Nat
  dailyCrit : List Nat

namespace Counts

def init (n : Nat) : Counts where
  blocked := ⟨.replicate n 0, .replicate n 0, .replicate n 0, .replicate n 0⟩
  sevTotal := ⟨0, 0, 0, 0⟩
  catCount := Dict.empty
  catIsCritical := Dict.empty
  hostBlocked := Dict.empty
  hostUnblockedEvents := Dict.empty
  techCount := Dict.empty
  dailyTotal := .replicate n 0
  dailyBlocked := .replicate n 0
  dailyUnblocked := .replicate n 0
  dailyCrit := .replicate n 0

/-- `series[idx] += 1` -/
def bump (idx : Nat) (series : List Nat) : List Nat := series.modify idx (· + 1)

/-- An event on the day `idx`. -/
def addDay (c : Counts) (idx : Nat) (sev : Severity) (blocked : Bool) : Counts :=
  { c with
    blocked := if blocked then c.blocked.modify sev (bump idx) else c.blocked
    dailyBlocked := if blocked then bump idx c.dailyBlocked else c.dailyBlocked
    dailyUnblocked := if blocked then c.dailyUnblocked else bump idx c.dailyUnblocked
    dailyTotal := bump idx c.dailyTotal
    dailyCrit := if sev = .critical then bump idx c.dailyCrit else c.dailyCrit }

variable (rt : Runtime) (agents : List AgentIn)

/-- An event of the severity, category, host and techniques it has. -/
def addTotals (c : Counts) (ev : EventIn) : Counts :=
  let prof := classify ev.filePath
  let host := hostName agents ev.agentId
  { c with
    sevTotal := c.sevTotal.modify prof.severity (· + 1)
    catCount := c.catCount.incr prof.category
    catIsCritical := c.catIsCritical.upd false (· || prof.severity = .critical) prof.category
    hostBlocked := if ev.blocked then c.hostBlocked.incr host else c.hostBlocked
    hostUnblockedEvents := if ev.blocked then c.hostUnblockedEvents else c.hostUnblockedEvents.incr host
    techCount := (eventMitre rt ev prof).foldl Dict.incr c.techCount }

/-- One turn of the loop over the events. -/
def add (dayDates : List Int) (c : Counts) (ev : EventIn) : Counts :=
  if ev.filePath = [] then c else
  match ev.occurredAt.bind fun t => dayDates.idxOf? t.day with
  | some idx => (c.addTotals rt agents ev).addDay idx (classify ev.filePath).severity ev.blocked
  -- no time, or a day without a label: the event counts in the totals alone
  | none => c.addTotals rt agents ev

end Counts

def countEvents (rt : Runtime) (req : ReportRequest) (dayDates : List Int) : Counts :=
  req.events.foldl (Counts.add rt req.agents dayDates) (Counts.init dayDates.length)

/-- The previous period's counts: events of each day, critical ones, and ones not blocked. -/
structure PrevCounts where
  daily : List Nat
  crit : Nat
  unblocked : Nat

def PrevCounts.add (prevDates : List Int) (c : PrevCounts) (ev : EventIn) : PrevCounts :=
  if ev.filePath = [] then c else
  { daily := match ev.occurredAt.bind fun t => prevDates.idxOf? t.day with
      | some idx => Counts.bump idx c.daily
      | none => c.daily
    crit := if (classify ev.filePath).severity = .critical then c.crit + 1 else c.crit
    unblocked := if ev.blocked then c.unblocked else c.unblocked + 1 }

/-! ## Rows and texts -/

def spark (series : List Nat) : List Nat :=
  match series with
  | [] => [0, 0]
  | [x] => [x, x]
  | _ => series

/-- Label and tone of a change of totals. -/
def deltaPct (rt : Runtime) (cur prev : Nat) : Str × Str :=
  if prev = 0 then
    if 0 < cur then (txt "신규", txt "bad") else (txt "—", txt "good")
  else
    -- `pct` is rounded, so a small change is none
    let pct := rt.pct cur prev
    if 0 < pct then (txt "▲ " ++ dec pct ++ txt "%", txt "bad")
    else if pct < 0 then (txt "▼ " ++ dec (-pct) ++ txt "%", txt "good")
    else (txt "± 0%", txt "good")

/-- The columns of the ATT&CK matrix in the order of the tactics, techniques by falling count. -/
def attackMatrix (techCount : Dict Str Nat) : List MatrixColumn :=
  tacticOrder.filterMap fun (ko, en) =>
    let techs := (techCount.rows.filter fun r => (tacticOf r.1).ko = ko).map fun (id, n) => Tech.mk id (techName id) n
    if techs = [] then none else some ⟨ko, en, sortDown Tech.n techs⟩

/-- Phases of the kill chain that techniques stand for. -/
def killFor (mitre : List Str) : List Nat :=
  let kill := sortOn id (mitre.map fun t => (tacticOf t).phase).dedup
  if kill = [] then [0] else kill

/-- System call and attempt of an event's type. -/
def op (rt : Runtime) (eventType : Str) : Str × Str :=
  let et := rt.upper eventType
  if et = txt "DELETE" then (txt "unlink", txt "삭제 시도")
  else if et = txt "MOVE" then (txt "rename", txt "이동/교체 시도")
  else if et = txt "ATTRIB" then (txt "chmod/chown", txt "속성 변경 시도")
  else if et = txt "CREATE" then (txt "open/write", txt "생성 시도")
  else (txt "write", txt "수정 시도")

/-- The user of a process as text, and whether its privileges rose. -/
def fmtUser (uid euid : Int) : Str × Bool :=
  if uid ≠ euid then (txt "uid " ++ dec uid ++ txt " → euid " ++ dec euid, true)
  else if uid = 0 then (txt "root (uid 0)", false)
  else (txt "uid " ++ dec uid, false)

def nodeNote (comm tty : Str) (esc : Bool) (uid euid : Int) : Str :=
  List.intercalate (txt " · ") (
    (if contains comm "sshd" = true then [txt "원격 SSH 데몬"] else []) ++
    (if startsWith tty "pts" = true then [txt "원격 세션(" ++ tty ++ txt ")"] else []) ++
    (if esc = true then [txt "실행 중 권한 상승 uid " ++ dec uid ++ txt "→" ++ dec euid] else []))

def blockedNote (ev : EventIn) : Str :=
  (if ev.blocked then txt "무결성 가드가 시스템 콜 진입 단계에서 차단" else txt "무결성 가드가 사후 탐지로 기록") ++
  (if ev.chainTruncated then txt " · PID 계보 일부가 수집 한도에서 잘림" else [])

def chainNodeFromProc (n : ProcessNodeIn) (step : Nat) : ChainNode :=
  let (user, esc) := fmtUser n.uid n.euid
  { step
    name := if n.comm = [] then txt "process" else n.comm
    pid := n.pid
    ppid := n.ppid
    exe := n.exe
    cmd := if n.cmdline = [] then none else some n.cmdline
    user
    tty := some n.tty
    note := nodeNote n.comm n.tty esc n.uid n.euid
    esc := some esc
    blocked := none
    tech := none }

/-- The node of the attempt itself, behind its processes. -/
def attemptNode (ev : EventIn) (prof : Profile) (syscall : Str) (step : Nat) (pid ppid : Int) (user : Str) :
    ChainNode where
  step := step
  name := if ev.blocked then txt "차단된 시도" else txt "탐지된 시도"
  pid := pid
  ppid := ppid
  exe := syscall ++ txt "() → " ++ ev.filePath
  cmd := none
  user := user
  tty := none
  note := blockedNote ev
  esc := none
  blocked := some ev.blocked
  tech := some (prof.mitre.headD [])

/-- The chain of an event from its oldest ancestor on; without one, its actor; without one, the attempt. -/
def buildChain (ev : EventIn) (prof : Profile) (syscall : Str) : List ChainNode :=
  match ev.chain with
  | actor :: _ =>
    -- the chain begins with the process that made the attempt, the report with its oldest ancestor
    let procs := ev.chain.reverse.mapIdx fun i n => chainNodeFromProc n (i + 1)
    procs ++ [attemptNode ev prof syscall (procs.length + 1) actor.pid actor.ppid (fmtUser actor.uid actor.euid).1]
  | [] =>
    if ev.hasActor = true then
      let actor : ProcessNodeIn :=
        { pid := if ev.actorPid ≠ 0 then ev.actorPid else ev.pid
          ppid := ev.actorPpid
          uid := ev.actorUid
          euid := ev.actorEuid
          tty := ev.actorTty
          comm := if ev.actorComm = [] then txt "process" else ev.actorComm
          exe := ev.actorExe
          cmdline := ev.actorCmdline }
      [chainNodeFromProc actor 1, attemptNode ev prof syscall 2 actor.pid actor.ppid (fmtUser actor.uid actor.euid).1]
    else [attemptNode ev prof syscall 1 ev.pid 0 (txt "—")]

/-- The card of an event at its time. -/
def incident (rt : Runtime) (agents : List AgentIn) (ev : EventIn) (t : DateTime) : Incident :=
  let prof := classify ev.filePath
  let (syscall, attempt) := op rt ev.eventType
  let mitre := eventMitre rt ev prof
  { sev := prof.severity.name
    path := ev.filePath
    host := hostName agents ev.agentId
    time := monthDayText t.day ++ txt " " ++ t.clockText
    type := attempt
    action := if ev.blocked then txt "차단" else txt "탐지"
    desc := txt "보호 대상 자원 \"" ++ ev.filePath ++ txt "\"에 대한 " ++ attempt ++
      if ev.blocked then txt "가 감지되어 차단되었습니다."
      else txt "가 사후 탐지되었습니다. 실제 변경 여부 확인이 필요합니다."
    mitre
    kill := killFor mitre
    detail := prof.role
    finding := prof.scenarios.headD prof.role
    chain := buildChain ev prof syscall }

/-- `round(a / b)`, halves to the even side. -/
def roundDiv (a b : Nat) : Nat :=
  if 2 * (a % b) < b ∨ 2 * (a % b) = b ∧ a / b % 2 = 0 then a / b else a / b + 1

/-- Times compare if all of them have an offset or none has. -/
def comparable (ts : List DateTime) : Bool := ts.all (·.offset.isSome) || ts.all (·.offset.isNone)

/-- The ranked events on the campaign's ribbon in the order of time, and their hosts. -/
def campaignOf (agents : List AgentIn) (events : List (EventIn × DateTime)) :
    Except PyError (List CampaignPoint × List Str) :=
  if comparable (events.map Prod.snd) = true then
    let events := sortOn (fun e : EventIn × DateTime => e.2.wall - e.2.offset.getD 0) events
    let n := events.length
    .ok (events.mapIdx fun i (ev, t) =>
        { host := hostName agents ev.agentId
          t := if 1 < n then roundDiv (i * 15) (n - 1) else 7
          sev := (classify ev.filePath).severity.name
          label := (if behind 47 ev.filePath = [] then ev.filePath else behind 47 ev.filePath) ++ txt " " ++
            t.clockText },
      events.foldl (fun hosts e =>
        let host := hostName agents e.1.agentId
        if host ∈ hosts then hosts else hosts ++ [host]) [])
  else .error .typeError

def templateFindings (crit : Nat) (rate : Str) (category : List (Str × Nat × Bool)) (hosts : List (Str × Nat × Nat)) :
    List Finding :=
  let topCat := (category.head?.map (·.1)).getD (txt "보호 자원")
  let topHost := (hosts.head?.map (·.1)).getD (txt "감시 호스트")
  [{ sev := txt "crit", stat := dec crit ++ txt "건", tag := txt "치명적 표적", title := txt "치명적 자산 대상 시도"
     body := txt "이번 기간 치명적 등급 시도 " ++ dec crit ++ txt "건이 관측됐습니다. 가장 많이 노려진 자산은 \"" ++ topCat ++
       txt "\"입니다." },
   { sev := txt "low", stat := rate ++ txt "% 차단", tag := txt "차단율 " ++ rate ++ txt "%", title := txt "위협 사전 차단"
     body := txt "탐지된 변조 시도를 시스템 콜 단계에서 사전 차단했습니다. 미차단 항목은 변경 여부 확인이 필요합니다." },
   { sev := txt "high", stat := topHost, tag := txt "호스트 집중", title := txt "특정 호스트 집중"
     body := txt "\"" ++ topHost ++
       txt "\" 호스트에서 시도가 가장 많이 관측됐습니다. 해당 호스트의 로그인·프로세스 이력 확보를 권고합니다." }]

def templateRecs (unblockedTotal : Nat) (hosts : List (Str × Nat × Nat)) (incidents : List Incident) : List Rec :=
  let topHost := (hosts.head?.map (·.1)).getD (txt "시도 발생 호스트")
  let links := List.intercalate (txt "·") ((List.range (min incidents.length 4)).map fun i : Nat => txt "#" ++ dec (i + 1))
  let incidentLinks := if links = [] then txt "전체 사건" else links
  let unblockedLabel :=
    if unblockedTotal ≠ 0 then txt "사후 탐지 " ++ dec unblockedTotal ++ txt "건" else txt "사후 탐지 항목"
  [{ p := 1, sev := txt "crit", title := topHost ++ txt " 집중 점검", when := txt "권장 시점 · 즉시 (1시간 이내)"
     body := txt "시도가 집중된 호스트의 로그인 기록과 프로세스 실행 내역을 확보해 시도 주체(UID·PID·부모 프로세스)를 식별합니다."
     link := txt "관련 사건 " ++ incidentLinks },
   { p := 2, sev := txt "crit", title := txt "자격증명·접속 설정 무결성 재검증", when := txt "권장 시점 · 즉시 (1시간 이내)"
     body := txt "비밀번호 파일과 원격 접속 설정의 베이스라인 해시를 현재 값과 대조해 무단 변경 여부를 확인합니다."
     link := txt "치명적 자산 KPI 연계" },
   { p := 3, sev := txt "high", title := unblockedLabel ++ txt " 개별 점검", when := txt "권장 시점 · 24시간 이내"
     body := txt "차단되지 않고 탐지된 건은 실제 변경 여부가 불확실합니다. 변경 전후 상태를 확인하고 필요 시 복구합니다."
     link := txt "미차단 KPI 연계" },
   { p := 4, sev := txt "med", title := txt "증적 보존 후 보안팀 이관", when := txt "권장 시점 · 24시간 이내"
     body := txt "사건을 사건관리 시스템에 등록하고 표준 증적을 보존한 뒤 SOC로 이관해 추적 감시를 요청합니다."
     link := txt "관련 사건 " ++ incidentLinks }]

def templateExecutiveSummary (total blockedTotal : Nat) (rate : Str) (critTotal unblockedTotal : Nat)
    (category : List (Str × Nat × Bool)) (hosts : List (Str × Nat × Nat)) (incidents : List Incident) : Str :=
  if total = 0 then
    txt "## 종합 분석\n" ++
    txt "선택 기간에는 보호 경로 변조 이벤트가 관측되지 않았습니다. 현재 상태를 기준선으로 보존하고, " ++
    txt "Agent 연결 상태와 정책 배포 상태를 계속 모니터링하세요."
  else
    let topCat := (category.head?.map (·.1)).getD (txt "보호 자원")
    let topHost := (hosts.head?.map (·.1)).getD (txt "감시 호스트")
    let firstPath := (incidents.head?.map (·.path)).getD (txt "주요 보호 경로")
    let ids := List.intercalate (txt ", ") (((incidents.head?.map (·.mitre)).getD []).take 3)
    let firstMitre := if ids = [] then txt "ATT&CK 매핑" else ids
    let unblockedSentence :=
      if unblockedTotal ≠ 0 then
        txt "미차단·확인 필요 항목 " ++ dec unblockedTotal ++
        txt "건은 실제 변경 여부와 운영 작업 승인 기록을 우선 대조해야 합니다."
      else txt "미차단·확인 필요 항목은 없어 차단 정책이 전반적으로 정상 작동한 것으로 해석됩니다."
    txt "## 종합 분석\n" ++
    txt "선택 기간 동안 총 " ++ dec total ++ txt "건의 보호 경로 이벤트가 관측됐고, 이 중 " ++ dec blockedTotal ++
    txt "건이 사전 차단되어 " ++ txt "차단율은 " ++ rate ++ txt "%입니다. 치명적 자산 표적은 " ++ dec critTotal ++
    txt "건이며, 주요 표적 범주는 " ++ txt "'" ++ topCat ++ txt "', 집중 호스트는 '" ++ topHost ++ txt "'입니다.\n" ++
    txt "대표 사건은 '" ++ firstPath ++ txt "' 관련 시도로, PID Chain과 프로세스 증거를 기반으로 " ++ firstMitre ++
    txt " 기법에 " ++ txt "연결됩니다. " ++ unblockedSentence

/-! ## The skeleton -/

/-- The events with a path and a time. -/
def timed (events : List EventIn) : List (EventIn × DateTime) :=
  events.filterMap fun ev => if ev.filePath = [] then none else ev.occurredAt.map (ev, ·)

def sevRank : Severity → Nat
  | .critical => 0
  | .high => 1
  | .medium => 2
  | .low => 3

/-- Severe events first, of equal severity the later ones. -/
def rankEvents (rt : Runtime) (events : List (EventIn × DateTime)) : Except PyError (List (EventIn × DateTime)) := do
  let keyed ← events.mapM fun e => do
    let ts ← e.2.timestamp rt
    return (toLex (sevRank (classify e.1.filePath).severity, -ts), e)
  return (sortOn Prod.fst keyed).map Prod.snd

/-- The eight categories of the most events, and whether one of them was critical. -/
def categoryRows (c : Counts) : List (Str × Nat × Bool) :=
  ((sortDown Prod.snd c.catCount.rows).take 8).map fun (cat, cnt) => (cat, cnt, c.catIsCritical.getD cat false)

/-- The six most active hosts. -/
def hostRows (rt : Runtime) (req : ReportRequest) (c : Counts) : List (Str × Nat × Nat) :=
  let alerts := Dict.tally (req.alerts.map fun al => hostName req.agents al.agentId)
  -- of equally active hosts the set's order decides
  let names := rt.setOrder (c.hostBlocked.keys ++ c.hostUnblockedEvents.keys ++ alerts.keys).dedup
  let activity (h : Str) : Nat := c.hostBlocked.getD h 0 + c.hostUnblockedEvents.getD h 0 + alerts.getD h 0
  ((sortDown activity names).take 6).map fun h => (h, c.hostBlocked.getD h 0, c.hostUnblockedEvents.getD h 0)

/-- The techniques of all events with a path. -/
def seenTechniques (rt : Runtime) (events : List EventIn) : List Str :=
  (events.filter fun ev => ev.filePath ≠ []).flatMap fun ev => eventMitre rt ev (classify ev.filePath)

/-- The glossary of techniques seen that have a row of their own, by id. -/
def glossaryRows (seen : List Str) : List (Str × Str × Str) :=
  (sortOn id seen.dedup).filterMap fun t => (glossaryGet t).map (t, ·)

def kpiRows (rt : Runtime) (req : ReportRequest) (c : Counts) (prev : PrevCounts) : List Kpi :=
  let total := c.sevTotal.toList.sum
  let blockedTotal := req.events.countP fun ev => ev.filePath ≠ [] && ev.blocked
  -- `max(0, total - blocked_total)`
  let unblockedTotal := total - blockedTotal
  let rate := if total = 0 then txt "100.0" else rt.rate blockedTotal total
  let d1 := deltaPct rt total req.prevEvents.length
  let d3 := deltaPct rt unblockedTotal prev.unblocked
  let d4 := deltaPct rt c.sevTotal.critical prev.crit
  [{ label := txt "전체 이벤트", num := total, delta := d1.1, tone := d1.2
     sub := txt "전기간 " ++ dec req.prevEvents.length ++ txt "건", color := txt "--blue", icon := txt "folder"
     spark := spark c.dailyTotal },
   { label := txt "차단 (사전 차단율)", num := blockedTotal, delta := rate ++ txt "%", tone := txt "good"
     sub := txt "차단율 " ++ rate ++ txt "%", color := txt "--low", icon := txt "shield"
     spark := spark c.dailyBlocked },
   { label := txt "미차단 · 확인 필요", num := unblockedTotal, delta := d3.1, tone := d3.2
     sub := txt "사후 탐지 · 추가 조사", color := txt "--high", icon := txt "search"
     spark := spark c.dailyUnblocked },
   { label := txt "치명적 자산 표적", num := c.sevTotal.critical, delta := d4.1, tone := d4.2
     sub := txt "자격증명·권한·원격접속", color := txt "--crit", icon := txt "alert"
     spark := spark c.dailyCrit }]

/-- The counts of the events of a period as long as the range and before it. -/
def prevCounts (req : ReportRequest) (days : Nat) : Except PyError PrevCounts := do
  let dur ← req.range.toTime.sub req.range.fromTime
  let start ← req.range.fromTime.minus dur
  -- as many days as the range has labels, however long the period is
  let prevDates ← (List.range days).mapM (addDays start.day)
  return req.prevEvents.foldl (PrevCounts.add prevDates) ⟨.replicate days 0, 0, 0⟩

/-- The fields of the skeleton, from the counts of both periods, the ranked events and the campaign. -/
def skeletonOf (rt : Runtime) (req : ReportRequest) (c : Counts) (prev : PrevCounts)
    (ranked : List (EventIn × DateTime)) (campaign : List CampaignPoint × List Str) : Skeleton :=
  let category := categoryRows c
  let hosts := hostRows rt req c
  let incidents := (ranked.take 4).map fun (ev, t) => incident rt req.agents ev t
  let total := c.sevTotal.toList.sum
  let blockedTotal := req.events.countP fun ev => ev.filePath ≠ [] && ev.blocked
  let rate := if total = 0 then txt "100.0" else rt.rate blockedTotal total
  { days := (dayLabels req.range.fromTime.day req.range.toTime.day).map monthDayText
    blockedBySev := c.blocked
    prevPeriodDaily := prev.daily
    severity := c.sevTotal
    category
    hosts
    findings := templateFindings c.sevTotal.critical rate category hosts
    kpis := kpiRows rt req c prev
    attackMatrix := attackMatrix c.techCount
    killPhases
    campaign := campaign.1
    campaignHosts := campaign.2
    incidents
    recs := templateRecs (total - blockedTotal) hosts incidents
    mitreGlossary := glossaryRows (seenTechniques rt req.events)
    executiveSummary := templateExecutiveSummary total blockedTotal rate c.sevTotal.critical (total - blockedTotal)
      category hosts incidents }

def buildSkeleton (rt : Runtime) (req : ReportRequest) : Except PyError Skeleton := do
  let dayDates := dayLabels req.range.fromTime.day req.range.toTime.day
  let c := countEvents rt req dayDates
  let prev ← prevCounts req dayDates.length
  let ranked ← rankEvents rt (timed req.events)
  let campaign ← campaignOf req.agents (ranked.take 6)
  return skeletonOf rt req c prev ranked campaign

/-- A report is built of what each of the computations that can raise returns. -/
theorem buildSkeleton_ok_iff {rt : Runtime} {req : ReportRequest} {sk : Skeleton} :
    buildSkeleton rt req = .ok sk ↔ ∃ prev ranked campaign,
      prevCounts req (dayLabels req.range.fromTime.day req.range.toTime.day).length = .ok prev ∧
      rankEvents rt (timed req.events) = .ok ranked ∧ campaignOf req.agents (ranked.take 6) = .ok campaign ∧
      sk = skeletonOf rt req (countEvents rt req (dayLabels req.range.fromTime.day req.range.toTime.day)) prev ranked
        campaign := by
  unfold buildSkeleton
  constructor
  · intro h
    obtain ⟨prev, hprev, h⟩ := bind_eq_ok.1 h
    obtain ⟨ranked, hranked, h⟩ := bind_eq_ok.1 h
    obtain ⟨campaign, hcampaign, h⟩ := bind_eq_ok.1 h
    cases h
    exact ⟨prev, ranked, campaign, hprev, hranked, hcampaign, rfl⟩
  · rintro ⟨prev, ranked, campaign, hprev, hranked, hcampaign, rfl⟩
    exact bind_eq_ok.2 ⟨prev, hprev, bind_eq_ok.2 ⟨ranked, hranked, bind_eq_ok.2 ⟨campaign, hcampaign, rfl⟩⟩⟩

/-- Ranking only orders the events. -/
theorem rankEvents_perm {rt : Runtime} {events ranked : List (EventIn × DateTime)}
    (h : rankEvents rt events = .ok ranked) : ranked.Perm events := by
  obtain ⟨keyed, hkeyed, h⟩ := bind_eq_ok.1 h
  cases h
  rw [← map_of_mapM_eq_ok (g := Prod.snd) _ hkeyed]
  · exact (sortOn_perm Prod.fst keyed).map Prod.snd
  · intro e r hr
    obtain ⟨ts, -, hr⟩ := bind_eq_ok.1 hr
    cases hr
    rfl

end KnIg.Report
