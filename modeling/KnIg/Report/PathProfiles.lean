/-
The path profiles of the console, and the paths on which they agree with the report server's.
-/
import KnIg.Report.Classify

namespace KnIg.Report

open Lib.Text

structure PathProfile where
  matchPath : Str → Bool
  category : Str
  severity : Severity
  mitre : List Str

namespace PathProfiles

def shadow : PathProfile where
  matchPath p := p == txt "/etc/shadow" || p == txt "/etc/gshadow"
  category := txt "사용자 자격 증명 저장소"
  severity := .critical
  mitre := [txt "T1003.008", txt "T1098"]

def passwd : PathProfile where
  matchPath p := p == txt "/etc/passwd" || p == txt "/etc/group"
  category := txt "사용자 계정 데이터베이스"
  severity := .critical
  mitre := [txt "T1136.001", txt "T1098"]

def sudoers : PathProfile where
  matchPath p := p == txt "/etc/sudoers" || startsWith p "/etc/sudoers.d/" || p == txt "/usr/bin/sudo"
  category := txt "권한 상승 정책 및 도구"
  severity := .critical
  mitre := [txt "T1548.003", txt "T1554"]

def ssh : PathProfile where
  matchPath p := p == txt "/etc/ssh/sshd_config" || startsWith p "/etc/ssh/"
  category := txt "원격 접근 제어 정책"
  severity := .critical
  mitre := [txt "T1098.004", txt "T1556"]

def cron : PathProfile where
  matchPath p := p == txt "/etc/crontab" || startsWith p "/etc/cron." || startsWith p "/var/spool/cron/"
  category := txt "스케줄러 / 자동 실행 영속성 메커니즘"
  severity := .high
  mitre := [txt "T1053.003"]

def secrets : PathProfile where
  matchPath p := hasExt secretExts p || inSecretDir p
  category := txt "비밀 정보 저장 파일"
  severity := .high
  mitre := [txt "T1552.001", txt "T1485"]

def varLog : PathProfile where
  matchPath p := startsWith p "/var/log/"
  category := txt "감사 로그"
  severity := .high
  mitre := [txt "T1070.002", txt "T1070.004"]

def lib : PathProfile where
  matchPath p := startsWith p "/usr/lib/" || startsWith p "/lib/" || startsWith p "/lib64/"
  category := txt "시스템 핵심 라이브러리"
  severity := .critical
  mitre := [txt "T1574.006", txt "T1554"]

def bin : PathProfile where
  matchPath p := startsWith p "/usr/bin/" || startsWith p "/usr/sbin/" || startsWith p "/bin/" || startsWith p "/sbin/"
  category := txt "운영체제 표준 실행 파일"
  severity := .high
  mitre := [txt "T1554", txt "T1036.005"]

def optTools : PathProfile where
  matchPath p := startsWith p "/opt/" && contains p "/bin/"
  category := txt "사내 배포 애플리케이션 실행 파일"
  severity := .high
  mitre := [txt "T1554"]

def localTools : PathProfile where
  matchPath p := startsWith p "/usr/local/bin/" || startsWith p "/usr/local/sbin/"
  category := txt "관리자 설치 운영 도구"
  severity := .high
  mitre := [txt "T1554"]

def web : PathProfile where
  matchPath p := startsWith p "/etc/nginx/" || startsWith p "/etc/httpd/" || startsWith p "/etc/apache2/"
  category := txt "웹 서버 설정"
  severity := .high
  mitre := [txt "T1556", txt "T1071.001"]

def config : PathProfile where
  matchPath p := startsWith p "/etc/myapp/" || (startsWith p "/etc/" && hasExt configExts p)
  category := txt "애플리케이션 / 시스템 구성 파일"
  severity := .high
  mitre := [txt "T1565.001"]

def resolver : PathProfile where
  matchPath p := p == txt "/etc/resolv.conf" || p == txt "/etc/hosts" || p == txt "/etc/nsswitch.conf"
  category := txt "네트워크 이름 해석 설정"
  severity := .high
  mitre := [txt "T1565.001", txt "T1071.004"]

def webRoot : PathProfile where
  matchPath p := startsWith p "/var/www/" || startsWith p "/usr/share/nginx/html/"
  category := txt "웹 콘텐츠"
  severity := .medium
  mitre := [txt "T1491.001", txt "T1189"]

def temp : PathProfile where
  matchPath p := startsWith p "/tmp/" || startsWith p "/var/tmp/" || startsWith p "/dev/shm/"
  category := txt "임시 작업 영역"
  severity := .medium
  mitre := [txt "T1074.001", txt "T1059.004"]

def defaultProfile : PathProfile where
  matchPath _ := true
  category := txt "기타 보호 경로"
  severity := .medium
  mitre := [txt "T1565"]

def pathProfiles : List PathProfile :=
  [shadow, passwd, sudoers, ssh, cron, secrets, varLog, lib, bin, optTools, localTools, web, config, resolver,
    webRoot, temp]

def classifyPath (path : Str) : PathProfile := firstMatch (·.matchPath path) defaultProfile pathProfiles

end PathProfiles

open Classify (classify systemd searchExt dollar)
open PathProfiles (classifyPath)

/-- The same severity and the same set of techniques. -/
def SameVerdict (r : Profile) (r' : PathProfile) : Prop :=
  r.severity = r'.severity ∧ ∀ t, t ∈ r.mitre ↔ t ∈ r'.mitre

/-- A newline at the end of a path with a secret's extension that no earlier rule catches. -/
structure NewlineSecret (p q : Str) : Prop where
  newline : p = q ++ [10]
  ext : hasExt secretExts q = true
  noDir : inSecretDir p = false
  noRule : ∀ r ∈ [Classify.sudoers, Classify.ssh, Classify.cron], r.matchPath p = false

/-- A newline at the end of a path under `/etc/` with a configuration file's extension that no earlier
rule catches. -/
structure NewlineConfig (p q : Str) : Prop where
  newline : p = q ++ [10]
  etc : startsWith p "/etc/" = true
  ext : hasExt configExts q = true
  noDir : inSecretDir p = false
  noApp : startsWith p "/etc/myapp/" = false
  noRule : ∀ r ∈ [Classify.sudoers, Classify.ssh, Classify.cron, Classify.web], r.matchPath p = false

/-- The paths on which the two lists of rules differ: under a directory of systemd's units, which the
console has no rule for; two of the resolver's files, which the console's rule for configuration files
catches first; and a newline at the end, before which Python's `$` matches. -/
def Diverges (p : Str) : Prop :=
  systemd.matchPath p = true ∨ p = txt "/etc/resolv.conf" ∨ p = txt "/etc/nsswitch.conf" ∨
    (∃ q, NewlineSecret p q) ∨ ∃ q, NewlineConfig p q

theorem hasExt_iff {ws : List String} {p : Str} : hasExt ws p = true ↔ ∃ w ∈ ws, 46 :: txt w <:+ p := by
  simp [hasExt, List.isSuffixOf_iff_suffix]

theorem searchExt_iff {ws : List String} {p : Str} :
    searchExt ws p = true ↔ hasExt ws p = true ∨ ∃ q, p = q ++ [10] ∧ hasExt ws q = true := by
  unfold searchExt dollar
  split
  · rename_i h
    obtain ⟨q, rfl⟩ : ∃ q, p = q ++ [10] := by
      rw [List.getLast?_eq_some_iff] at h
      exact h
    simp [or_comm]
  · rename_i h
    have hno : ∀ q, p ≠ q ++ [10] := by
      rintro q rfl
      simp at h
    simp [hno]

/-- No extension ends in a newline. -/
theorem hasExt_newline (ws : List String) (hws : ∀ w ∈ ws, (46 :: txt w).getLast? ≠ some 10) (q : Str) :
    hasExt ws (q ++ [10]) = false := by
  rw [Bool.eq_false_iff, Ne, hasExt_iff]
  rintro ⟨w, hw, t, ht⟩
  apply hws w hw
  have := congrArg List.getLast? ht
  simpa [List.getLast?_append] using this

/-- Two beginnings of one string, neither of which begins the other. -/
theorem startsWith_disjoint {p : Str} {a b : String} (ha : startsWith p a = true)
    (hab : (txt a).isPrefixOf (txt b) = false) (hba : (txt b).isPrefixOf (txt a) = false) :
    startsWith p b = false := by
  rw [Bool.eq_false_iff, Ne, startsWith, List.isPrefixOf_iff_prefix]
  intro hb
  rw [startsWith, List.isPrefixOf_iff_prefix] at ha
  rcases List.prefix_or_prefix_of_prefix ha hb with h | h
  · rw [List.isPrefixOf_iff_prefix.2 h] at hab
    cases hab
  · rw [List.isPrefixOf_iff_prefix.2 h] at hba
    cases hba

/-- A path with a beginning is none of the texts without it. -/
theorem startsWith_ne {p : Str} {a : String} (ha : startsWith p a = true) {s : Str}
    (hs : (txt a).isPrefixOf s = false) : (p == s) = false := by
  rw [beq_eq_false_iff_ne]
  rintro rfl
  rw [startsWith, hs] at ha
  cases ha

/-- A path that ends in a newline is no text that ends otherwise. -/
theorem newline_ne {q s : Str} (hs : s.getLast? ≠ some 10) : (q ++ [10] == s) = false := by
  rw [beq_eq_false_iff_ne]
  rintro rfl
  simp at hs

/-! ## The rules one after another -/

theorem classify_eq (p : Str) : classify p =
    if Classify.shadow.matchPath p = true then Classify.shadow else
    if Classify.passwd.matchPath p = true then Classify.passwd else
    if Classify.sudoers.matchPath p = true then Classify.sudoers else
    if Classify.ssh.matchPath p = true then Classify.ssh else
    if Classify.cron.matchPath p = true then Classify.cron else
    if systemd.matchPath p = true then systemd else
    if Classify.secrets.matchPath p = true then Classify.secrets else
    if Classify.varLog.matchPath p = true then Classify.varLog else
    if Classify.lib.matchPath p = true then Classify.lib else
    if Classify.bin.matchPath p = true then Classify.bin else
    if Classify.localTools.matchPath p = true then Classify.localTools else
    if Classify.web.matchPath p = true then Classify.web else
    if Classify.resolver.matchPath p = true then Classify.resolver else
    if Classify.config.matchPath p = true then Classify.config else
    if Classify.webRoot.matchPath p = true then Classify.webRoot else
    if Classify.temp.matchPath p = true then Classify.temp else Classify.defaultProfile := by
  simp only [classify, Classify.profiles, firstMatch_cons, firstMatch_nil]

/-- The console's rules, those it shares with the server under the server's names. -/
theorem classifyPath_eq (p : Str) : classifyPath p =
    if Classify.shadow.matchPath p = true then PathProfiles.shadow else
    if Classify.passwd.matchPath p = true then PathProfiles.passwd else
    if Classify.sudoers.matchPath p = true then PathProfiles.sudoers else
    if Classify.ssh.matchPath p = true then PathProfiles.ssh else
    if Classify.cron.matchPath p = true then PathProfiles.cron else
    if PathProfiles.secrets.matchPath p = true then PathProfiles.secrets else
    if Classify.varLog.matchPath p = true then PathProfiles.varLog else
    if Classify.lib.matchPath p = true then PathProfiles.lib else
    if Classify.bin.matchPath p = true then PathProfiles.bin else
    if PathProfiles.optTools.matchPath p = true then PathProfiles.optTools else
    if PathProfiles.localTools.matchPath p = true then PathProfiles.localTools else
    if Classify.web.matchPath p = true then PathProfiles.web else
    if PathProfiles.config.matchPath p = true then PathProfiles.config else
    if Classify.resolver.matchPath p = true then PathProfiles.resolver else
    if Classify.webRoot.matchPath p = true then PathProfiles.webRoot else
    if Classify.temp.matchPath p = true then PathProfiles.temp else PathProfiles.defaultProfile := by
  simp only [classifyPath, PathProfiles.pathProfiles, firstMatch_cons, firstMatch_nil]
  rfl

theorem SameVerdict.of_eq {r : Profile} {r' : PathProfile} (hs : r.severity = r'.severity)
    (hm : r.mitre = r'.mitre) : SameVerdict r r' := ⟨hs, fun t => by rw [hm]⟩

/-- What the secrets rule of the server catches and the console's does not ends in a newline. -/
theorem secrets_of_not_diverges {p : Str} (hd : ¬ Diverges p)
    (hno : ∀ r ∈ [Classify.sudoers, Classify.ssh, Classify.cron], r.matchPath p = false) :
    Classify.secrets.matchPath p = PathProfiles.secrets.matchPath p := by
  rw [Bool.eq_iff_iff]
  simp only [Classify.secrets, PathProfiles.secrets, Bool.or_eq_true, searchExt_iff]
  constructor
  · rintro ((h | ⟨q, hq, h⟩) | h)
    · exact Or.inl h
    · by_contra hn
      rw [not_or, Bool.not_eq_true, Bool.not_eq_true] at hn
      exact hd (.inr <| .inr <| .inr <| .inl ⟨q, hq, h, hn.2, hno⟩)
    · exact Or.inr h
  · rintro (h | h)
    · exact Or.inl (Or.inl h)
    · exact Or.inr h

theorem config_of_not_diverges {p : Str} (hd : ¬ Diverges p)
    (hno : ∀ r ∈ [Classify.sudoers, Classify.ssh, Classify.cron, Classify.web], r.matchPath p = false)
    (hdir : inSecretDir p = false) : Classify.config.matchPath p = PathProfiles.config.matchPath p := by
  rw [Bool.eq_iff_iff]
  simp only [Classify.config, PathProfiles.config, Bool.or_eq_true, Bool.and_eq_true, searchExt_iff]
  constructor
  · rintro (h | ⟨hetc, h | ⟨q, hq, h⟩⟩)
    · exact Or.inl h
    · exact Or.inr ⟨hetc, h⟩
    · by_contra hn
      rw [not_or, Bool.not_eq_true] at hn
      exact hd (.inr <| .inr <| .inr <| .inr ⟨q, hq, hetc, h, hdir, hn.1, hno⟩)
  · rintro (h | ⟨hetc, h⟩)
    · exact Or.inl h
    · exact Or.inr ⟨hetc, Or.inl h⟩

theorem localTools_eq (p : Str) : Classify.localTools.matchPath p =
    (PathProfiles.optTools.matchPath p || PathProfiles.localTools.matchPath p) := by
  unfold Classify.localTools PathProfiles.optTools PathProfiles.localTools
  exact Bool.or_comm _ _

/-- One condition on both sides, with the same verdict under it and under its negation. -/
theorem SameVerdict.ite {c : Prop} [Decidable c] {r s : Profile} {r' s' : PathProfile}
    (h : c → SameVerdict r r') (hn : ¬ c → SameVerdict s s') :
    SameVerdict (if c then r else s) (if c then r' else s') := by
  split
  · rename_i hc
    exact h hc
  · rename_i hc
    exact hn hc

theorem sameVerdict_of_not_diverges {p : Str} (hd : ¬ Diverges p) : SameVerdict (classify p) (classifyPath p) := by
  rw [classify_eq, classifyPath_eq]
  refine .ite (fun _ => .of_eq rfl rfl) fun _ => ?_
  refine .ite (fun _ => .of_eq rfl rfl) fun _ => ?_
  refine .ite (fun _ => .of_eq rfl rfl) fun hsudoers => ?_
  refine .ite (fun _ => .of_eq rfl rfl) fun hssh => ?_
  refine .ite (fun _ => .of_eq rfl rfl) fun hcron => ?_
  rw [if_neg fun h => hd (Or.inl h), secrets_of_not_diverges hd (by simp [hsudoers, hssh, hcron])]
  refine .ite (fun _ => .of_eq rfl rfl) fun hsecrets => ?_
  refine .ite (fun _ => .of_eq rfl rfl) fun _ => ?_
  refine .ite (fun _ => .of_eq rfl rfl) fun _ => ?_
  refine .ite (fun _ => .of_eq rfl rfl) fun _ => ?_
  -- the console splits the tools of an administrator in two rules of one verdict
  rw [localTools_eq]
  by_cases hopt : PathProfiles.optTools.matchPath p = true
  · rw [if_pos (by simp [hopt]), if_pos hopt]
    exact .of_eq rfl rfl
  rw [Bool.not_eq_true] at hopt
  rw [hopt, Bool.false_or, if_neg Bool.false_ne_true]
  refine .ite (fun _ => .of_eq rfl rfl) fun _ => ?_
  refine .ite (fun _ => .of_eq rfl rfl) fun hweb => ?_
  have hdir : inSecretDir p = false := by
    simp only [PathProfiles.secrets, Bool.or_eq_true, not_or, Bool.not_eq_true] at hsecrets
    exact hsecrets.2
  rw [config_of_not_diverges hd (by simp [hsudoers, hssh, hcron, hweb]) hdir]
  -- of the resolver's files only `/etc/hosts` has no extension
  by_cases hres : Classify.resolver.matchPath p = true
  · have hhosts : p = txt "/etc/hosts" := by
      simp only [Classify.resolver, Bool.or_eq_true, beq_iff_eq] at hres
      rcases hres with (h | h) | h
      · exact absurd (.inr <| .inl h) hd
      · exact h
      · exact absurd (.inr <| .inr <| .inl h) hd
    rw [if_pos hres, if_neg (by rw [hhosts]; decide), if_pos hres]
    exact .of_eq rfl rfl
  rw [if_neg hres]
  refine .ite (fun _ => .of_eq rfl rfl) fun _ => ?_
  rw [if_neg hres]
  refine .ite (fun _ => .of_eq rfl rfl) fun _ => ?_
  exact .ite (fun _ => .of_eq rfl rfl) fun _ => .of_eq rfl rfl

/-! ## Where they differ -/

/-- A technique that one side names and the other does not. -/
theorem not_sameVerdict {r : Profile} {r' : PathProfile} {t : Str} (h : t ∈ r.mitre) (h' : t ∉ r'.mitre) :
    ¬ SameVerdict r r' := fun hv => h' ((hv.2 t).1 h)

/-- The rules before systemd's own catch none of the paths under its directories. -/
theorem classify_systemd {p : Str} (h : systemd.matchPath p = true) : classify p = systemd := by
  have hno : ∀ r ∈ [Classify.shadow, Classify.passwd, Classify.sudoers, Classify.ssh, Classify.cron],
      r.matchPath p = false := by
    -- a path under one of systemd's directories is no path the five rules name, and has none of their beginnings
    have hof : ∀ a ∈ ["/etc/systemd/", "/lib/systemd/system/", "/usr/lib/systemd/system/"],
        startsWith p a = true → ∀ r ∈ [Classify.shadow, Classify.passwd, Classify.sudoers, Classify.ssh,
          Classify.cron], r.matchPath p = false := by
      simp only [List.forall_mem_cons, List.not_mem_nil, false_implies, implies_true, and_true]
      refine ⟨fun ha => ?_, fun ha => ?_, fun ha => ?_⟩ <;>
        simp (disch := decide) only [Classify.shadow, Classify.passwd, Classify.sudoers, Classify.ssh, Classify.cron,
          startsWith_ne ha, startsWith_disjoint ha, Bool.or_self, and_self]
    simp only [systemd, Bool.or_eq_true] at h
    rcases h with (h | h) | h
    · exact hof _ (by simp) h
    · exact hof _ (by simp) h
    · exact hof _ (by simp) h
  simp only [List.forall_mem_cons] at hno
  obtain ⟨h1, h2, h3, h4, h5, -⟩ := hno
  simp only [classify_eq, h1, h2, h3, h4, h5, h, if_true, if_false, Bool.false_eq_true]

/-- The rules of the console that name a technique. -/
def naming (t : Str) : List PathProfile := PathProfiles.pathProfiles.filter (t ∈ ·.mitre)

/-- The console has no rule for systemd's units, and one for secrets. -/
theorem naming_T1543_002 : naming (txt "T1543.002") = [] := rfl

theorem naming_T1552_001 : naming (txt "T1552.001") = [PathProfiles.secrets] := rfl

theorem naming_T1565_001 : naming (txt "T1565.001") = [PathProfiles.config, PathProfiles.resolver] := rfl

/-- A technique that only rules name that do not match is none of the verdict's. -/
theorem not_mem_classifyPath {p t : Str} (hd : t ∉ PathProfiles.defaultProfile.mitre)
    (h : ∀ r ∈ naming t, r.matchPath p = false) : t ∉ (classifyPath p).mitre := by
  intro ht
  rcases firstMatch_cases (·.matchPath p) PathProfiles.defaultProfile PathProfiles.pathProfiles with hr | ⟨hm, hr⟩
  · rw [classifyPath, hr] at ht
    exact hd ht
  · have hno := h _ (List.mem_filter.2 ⟨hm, decide_eq_true ht⟩)
    rw [hr] at hno
    cases hno

theorem differ_systemd {p : Str} (h : systemd.matchPath p = true) : ¬ SameVerdict (classify p) (classifyPath p) := by
  refine not_sameVerdict (t := txt "T1543.002") ?_ (not_mem_classifyPath (by decide) ?_)
  · rw [classify_systemd h]
    decide
  · rw [naming_T1543_002]
    rintro r ⟨⟩

theorem newline_rules (q : Str) : Classify.shadow.matchPath (q ++ [10]) = false ∧
    Classify.passwd.matchPath (q ++ [10]) = false ∧ Classify.resolver.matchPath (q ++ [10]) = false := by
  simp (disch := decide) only [Classify.shadow, Classify.passwd, Classify.resolver, newline_ne, Bool.or_self, and_self]

theorem differ_newlineSecret {p q : Str} (h : NewlineSecret p q) : ¬ SameVerdict (classify p) (classifyPath p) := by
  by_cases hsys : systemd.matchPath p = true
  · exact differ_systemd hsys
  obtain ⟨rfl, hext, hdir, hno⟩ := h
  simp only [List.forall_mem_cons] at hno
  obtain ⟨hsudoers, hssh, hcron, -⟩ := hno
  obtain ⟨hshadow, hpasswd, -⟩ := newline_rules q
  have hsec : Classify.secrets.matchPath (q ++ [10]) = true := by
    simp only [Classify.secrets, Bool.or_eq_true, searchExt_iff]
    exact Or.inl (Or.inr ⟨q, rfl, hext⟩)
  have hts : PathProfiles.secrets.matchPath (q ++ [10]) = false := by
    simp only [PathProfiles.secrets, hasExt_newline secretExts (by decide) q, hdir, Bool.or_self]
  refine not_sameVerdict (t := txt "T1552.001") ?_ (not_mem_classifyPath (by decide) ?_)
  · simp only [classify_eq, hshadow, hpasswd, hsudoers, hssh, hcron, hsys, hsec, if_true, if_false, Bool.false_eq_true]
    decide
  · rw [naming_T1552_001, List.forall_mem_singleton]
    exact hts

theorem differ_newlineConfig {p q : Str} (h : NewlineConfig p q) : ¬ SameVerdict (classify p) (classifyPath p) := by
  by_cases hsys : systemd.matchPath p = true
  · exact differ_systemd hsys
  obtain ⟨rfl, hetc, hext, hdir, happ, hno⟩ := h
  -- with a secret's extension the rule for secrets differs already
  by_cases hsecret : hasExt secretExts q = true
  · exact differ_newlineSecret ⟨rfl, hsecret, hdir, fun r hr => hno r (List.mem_append_left [Classify.web] hr)⟩
  simp only [List.forall_mem_cons] at hno
  obtain ⟨hsudoers, hssh, hcron, hweb, -⟩ := hno
  obtain ⟨hshadow, hpasswd, hres⟩ := newline_rules q
  have hsec : Classify.secrets.matchPath (q ++ [10]) = false := by
    simp only [Classify.secrets, Bool.or_eq_false_iff]
    refine ⟨?_, hdir⟩
    rw [Bool.eq_false_iff, Ne, searchExt_iff, hasExt_newline _ (by decide)]
    rintro (h | ⟨q', hq', h⟩)
    · cases h
    · rw [List.append_cancel_right hq'] at hsecret
      exact hsecret h
  -- the rules in between are for paths that do not begin with `/etc/`
  have hother : Classify.varLog.matchPath (q ++ [10]) = false ∧ Classify.lib.matchPath (q ++ [10]) = false ∧
      Classify.bin.matchPath (q ++ [10]) = false ∧ Classify.localTools.matchPath (q ++ [10]) = false := by
    simp (disch := decide) only [Classify.varLog, Classify.lib, Classify.bin, Classify.localTools,
      startsWith_disjoint hetc, Bool.or_self, Bool.false_and, and_self]
  obtain ⟨hlog, hlib, hbin, htools⟩ := hother
  have hconf : Classify.config.matchPath (q ++ [10]) = true := by
    simp only [Classify.config, Bool.or_eq_true, Bool.and_eq_true, searchExt_iff]
    exact Or.inr ⟨hetc, Or.inr ⟨q, rfl, hext⟩⟩
  have hts : PathProfiles.config.matchPath (q ++ [10]) = false := by
    simp only [PathProfiles.config, hasExt_newline configExts (by decide) q, happ, Bool.and_false, Bool.or_self]
  refine not_sameVerdict (t := txt "T1565.001") ?_ (not_mem_classifyPath (by decide) ?_)
  · simp only [classify_eq, hshadow, hpasswd, hsudoers, hssh, hcron, hsys, hsec, hlog, hlib, hbin, htools, hweb, hres,
      hconf, if_true, if_false, Bool.false_eq_true]
    decide
  · rw [naming_T1565_001, List.forall_mem_cons, List.forall_mem_singleton]
    exact ⟨hts, hres⟩

/-- Server and console judge a path alike exactly if it is none of those where their rules differ. -/
theorem sameVerdict_iff (p : Str) : SameVerdict (classify p) (classifyPath p) ↔ ¬ Diverges p := by
  refine ⟨fun hv hd => ?_, sameVerdict_of_not_diverges⟩
  rcases hd with h | rfl | rfl | ⟨q, h⟩ | ⟨q, h⟩
  · exact differ_systemd h hv
  · exact not_sameVerdict (t := txt "T1071.004") (by decide) (by decide) hv
  · exact not_sameVerdict (t := txt "T1071.004") (by decide) (by decide) hv
  · exact differ_newlineSecret h hv
  · exact differ_newlineConfig h hv

/-- A unit of systemd's is of high severity to the server and of medium to the console. -/
theorem sameVerdict_systemdUnit_fails :
    ¬ SameVerdict (classify (txt "/etc/systemd/system/sshd.service"))
      (classifyPath (txt "/etc/systemd/system/sshd.service")) := by
  rintro ⟨h, -⟩
  revert h
  decide

end KnIg.Report
