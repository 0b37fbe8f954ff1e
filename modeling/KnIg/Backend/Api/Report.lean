/-
What a report is made from: the events of its period and those of the period of the same length before it. Both
queries take in the instant at which the one period ends and the other begins.
-/
import KnIg.Backend.Store.EventStore
import KnIg.Lib.Dict

namespace KnIg.Backend

open Lib

/-! ## Times -/

/-- `time.Unix(sec, 0)`; a `time.Time` is in nanoseconds since the zero time. -/
def timeUnix (sec : Int) : Int := (sec + 62135596800) * 1000000000

/-- `t.Sub(u)`: at a limit of its 64 bits where the two are further apart. -/
def timeSub (t u : Int) : Int64 :=
  if -2 ^ 63 ≤ t - u ∧ t - u < 2 ^ 63 then Int64.ofInt (t - u) else if t < u then Int64.minValue else Int64.maxValue

/-- `t.Add(d)`. -/
def timeAdd (t : Int) (d : Int64) : Int := t + d.toInt

/-! ## The queries -/

/-- A row of `file_events`, with its rows of `file_event_process_chain` in the payload. -/
structure EventRow where
  id : Int64
  payload : FileEventPayload
  receivedAt : Time
  dated : ColumnType.datetime.takes (.time payload.timestamp)
deriving DecidableEq

namespace EventRow

def occurredAt (r : EventRow) : Int := timeUnix r.payload.timestamp

/-- The row without its chain. -/
def bare (r : EventRow) : EventRow := { r with payload := { r.payload with chain := [] } }

end EventRow

/-- A row of `alerts`. -/
structure Alert where
  id : Int64
  agentID : Bytes
  severity : Bytes
  message : Bytes
  resolved : Bool
  createdAt : Int

/-- The tables that a report is made from. -/
structure ReportDb extends Db where
  fileEvents : UniqueTable EventRow.id
  alerts : UniqueTable Alert.id

/-- The clauses on a time; the zero time asks for none. -/
def within (fromTime toTime t : Int) : Bool := (fromTime = 0 ∨ fromTime ≤ t) ∧ (toTime = 0 ∨ t ≤ toTime)

/-- `LIMIT` and `OFFSET`, the second of which MySQL does not take on its own. -/
def page {α : Type} (limit offset : Int) (rows : List α) : Except StoreError (List α) :=
  if limit > 0 then .ok ((rows.drop offset.toNat).take limit.toNat)
  else if offset > 0 then .error .driver
  else .ok rows

structure EventFilter where
  agentID : Bytes := []
  eventType : Bytes := []
  fromTime : Int
  toTime : Int
  limit : Int
  offset : Int := 0

def EventFilter.selects (f : EventFilter) (r : EventRow) : Bool :=
  (f.agentID = [] ∨ r.payload.agentID = f.agentID) ∧ (f.eventType = [] ∨ r.payload.eventType = f.eventType) ∧
    within f.fromTime f.toTime r.occurredAt

def queryEvents (fails : Bool) (db : ReportDb) (f : EventFilter) : Except StoreError (List EventRow) :=
  if fails then .error .driver
  else page f.limit f.offset ((sortDown EventRow.occurredAt (db.fileEvents.rows.filter f.selects)).map EventRow.bare)

structure AlertFilter where
  agentID : Bytes := []
  severity : Bytes := []
  resolved : Option Bool := none
  fromTime : Int
  toTime : Int
  limit : Int
  offset : Int := 0

def AlertFilter.selects (f : AlertFilter) (a : Alert) : Bool :=
  (f.agentID = [] ∨ a.agentID = f.agentID) ∧ (f.severity = [] ∨ a.severity = f.severity) ∧
    (f.resolved = none ∨ f.resolved = some a.resolved) ∧ within f.fromTime f.toTime a.createdAt

def listAlerts (fails : Bool) (db : ReportDb) (f : AlertFilter) : Except StoreError (List Alert) :=
  if fails then .error .driver
  else page f.limit f.offset (sortDown Alert.createdAt (db.alerts.rows.filter f.selects))

def listAgents (fails : Bool) (db : ReportDb) : Except StoreError (List AgentRow) :=
  if fails then .error .driver
  else .ok (db.agents.rows.map fun a => { a with lastSeen := some (a.lastSeen.getD a.registeredAt) })

/-- The chains of the events that have one. -/
def loadProcessChains (fails : Bool) (db : ReportDb) (eventIDs : List Int64) :
    Except StoreError (List (Int64 × List ProcessInfo)) :=
  if eventIDs = [] then .ok []
  else if fails then .error .driver
  else
    let rows := db.fileEvents.rows.filter fun r => r.id ∈ eventIDs ∧ r.payload.chain ≠ []
    .ok (rows.map fun r => (r.id, r.payload.chain))

/-! ## The payload -/

def reportEventLimit : Int := 5000

/-- The events of a period. -/
def periodFilter (fromTime toTime : Int) : EventFilter := { fromTime, toTime, limit := reportEventLimit }

/-- Where the period of the same length before this one begins. -/
def prevFrom (fromTime toTime : Int) : Int :=
  let dur := timeSub toTime fromTime
  timeAdd fromTime (-dur)

/-- The host's clock: `time.Now()`, and seven days before it in the host's zone. -/
structure HostClock where
  now : Int
  weekAgo : Int

/-- A query parameter: absent or empty, not RFC3339, or a time. -/
inductive TimeParam where
  | absent
  | invalid
  | at (t : Int)

/-- What the handler answers with instead of a payload. -/
inductive ReportError where
  | badRequest (error : Bytes)
  | internalServerError (err : StoreError)

/-- The calls of the stores that fail. -/
structure ReportFails where
  events : Bool
  prevEvents : Bool
  alerts : Bool
  agents : Bool
  chains : Bool

structure ReportPayload where
  fromTime : Int
  toTime : Int
  agents : List AgentRow
  events : List EventRow
  prevEvents : List EventRow
  alerts : List Alert

/-- One end of the period. -/
def parseParam (default : Int) (error : Bytes) : TimeParam → Except ReportError Int
  | .absent => .ok default
  | .invalid => .error (.badRequest error)
  | .at t => .ok t

/-- Answer a failure of the database. -/
def orInternal {α : Type} : Except StoreError α → Except ReportError α
  | .ok a => .ok a
  | .error err => .error (.internalServerError err)

def attachChain (chains : List (Int64 × List ProcessInfo)) (e : EventRow) : EventRow :=
  match chains.lookup e.id with
  | some chain => { e with payload := { e.payload with chain } }
  | none => e

def collectReportPayload (fails : ReportFails) (db : ReportDb) (clock : HostClock) (fromParam toParam : TimeParam) :
    Except ReportError ReportPayload := do
  let fromTime ← parseParam clock.weekAgo (ascii "invalid from format, use RFC3339") fromParam
  let toTime ← parseParam clock.now (ascii "invalid to format, use RFC3339") toParam
  let events ← orInternal (queryEvents fails.events db (periodFilter fromTime toTime))
  let prevEvents ← orInternal (queryEvents fails.prevEvents db (periodFilter (prevFrom fromTime toTime) fromTime))
  let alerts ← orInternal (listAlerts fails.alerts db { fromTime, toTime, limit := reportEventLimit })
  let agents ← orInternal (listAgents fails.agents db)
  let chainIDs := (events.filter fun e => e.payload.chainDepth > 0).map (·.id)
  let chains ← orInternal (loadProcessChains fails.chains db chainIDs)
  return ⟨fromTime, toTime, agents, events.map (attachChain chains), prevEvents, alerts⟩

/-! ## The two periods -/

section Periods

variable (db : ReportDb) (p : ReportPayload)

/-- The events of both periods are no more than a query returns. -/
def BelowLimit : Prop :=
  (db.fileEvents.rows.filter (periodFilter p.fromTime p.toTime).selects).length ≤ 5000 ∧
    (db.fileEvents.rows.filter (periodFilter (prevFrom p.fromTime p.toTime) p.fromTime).selects).length ≤ 5000

/-- The event occurred in one of the two periods. -/
def inPeriods (r : EventRow) : Bool :=
  p.fromTime - (p.toTime - p.fromTime) ≤ r.occurredAt ∧ r.occurredAt ≤ p.toTime

/-- The events and those before them are the stored events of the two periods, each once. -/
def SplitsPeriods : Prop :=
  (p.events.map (·.id) ++ p.prevEvents.map (·.id)).Perm ((db.fileEvents.rows.filter (inPeriods p)).map (·.id))

/-- Unless nothing is stored, neither end of the period is the zero time, and no event occurred where the two periods
meet nor longer before it than the longest duration. -/
def SeamClear : Prop :=
  ∀ r ∈ db.fileEvents.rows, p.fromTime ≠ 0 ∧ p.toTime ≠ 0 ∧ r.occurredAt ≠ p.fromTime ∧
    ¬ (p.fromTime - (p.toTime - p.fromTime) ≤ r.occurredAt ∧ r.occurredAt < p.fromTime - (2 ^ 63 - 1))

instance : Decidable (BelowLimit db p) := inferInstanceAs (Decidable (_ ∧ _))

instance : Decidable (SeamClear db p) := inferInstanceAs (Decidable (∀ r ∈ db.fileEvents.rows, _))

end Periods

/-- What a `DATETIME` holds is after the zero time. -/
theorem EventRow.occurredAt_pos (r : EventRow) : 0 < r.occurredAt := by
  have hdated : minDatetime ≤ r.payload.timestamp := (of_decide_eq_true r.dated).1
  unfold EventRow.occurredAt timeUnix
  unfold minDatetime Time at hdated
  omega

/-- The period before begins as far back as the one of the report ends later, or the longest duration back. -/
theorem prevFrom_cases {fromTime toTime : Int} (hlt : fromTime < toTime) :
    (toTime - fromTime < 2 ^ 63 ∧ prevFrom fromTime toTime = fromTime - (toTime - fromTime)) ∨
      (2 ^ 63 ≤ toTime - fromTime ∧ prevFrom fromTime toTime = fromTime - (2 ^ 63 - 1)) := by
  unfold prevFrom timeAdd timeSub
  by_cases hfar : toTime - fromTime < 2 ^ 63
  · left
    refine ⟨hfar, ?_⟩
    simp only
    rw [if_pos ⟨by omega, hfar⟩, Int64.neg_ofInt, Int64.toInt_ofInt_of_le (by omega) (by omega)]
    exact (Int.sub_eq_add_neg).symm
  · right
    rw [if_neg fun h => hfar h.2, if_neg (by omega)]
    exact ⟨not_lt.1 hfar, rfl⟩

/-- How often the two queries together select an instant. -/
theorem within_add_within {fromTime toTime t : Int} (hlt : fromTime < toTime) (ht : 0 < t) :
    (within fromTime toTime t).toNat + (within (prevFrom fromTime toTime) fromTime t).toNat =
        (decide (fromTime - (toTime - fromTime) ≤ t ∧ t ≤ toTime)).toNat ↔
      fromTime ≠ 0 ∧ toTime ≠ 0 ∧ t ≠ fromTime ∧
        ¬ (fromTime - (toTime - fromTime) ≤ t ∧ t < fromTime - (2 ^ 63 - 1)) := by
  have hprev := prevFrom_cases hlt
  generalize prevFrom fromTime toTime = prev at hprev ⊢
  unfold within
  simp only [Bool.toNat, Bool.cond_decide]
  constructor
  · intro h
    split_ifs at h <;> omega
  · intro h
    split_ifs <;> omega

theorem queryEvents_ids {fails : Bool} {db : ReportDb} {fromTime toTime : Int} {events : List EventRow}
    (h : queryEvents fails db (periodFilter fromTime toTime) = .ok events)
    (hlimit : (db.fileEvents.rows.filter (periodFilter fromTime toTime).selects).length ≤ 5000) :
    (events.map (·.id)).Perm ((db.fileEvents.rows.filter fun r => within fromTime toTime r.occurredAt).map (·.id)) := by
  have hselects : (periodFilter fromTime toTime).selects = fun r => within fromTime toTime r.occurredAt := by
    funext r
    simp [EventFilter.selects, periodFilter]
  unfold queryEvents at h
  split at h
  · cases h
  · rw [hselects] at h hlimit
    have hall : events = (sortDown EventRow.occurredAt
        (db.fileEvents.rows.filter fun r => within fromTime toTime r.occurredAt)).map EventRow.bare := by
      have hlen := (sortDown_perm EventRow.occurredAt
        (db.fileEvents.rows.filter fun r => within fromTime toTime r.occurredAt)).length_eq
      cases h
      refine List.take_of_length_le ?_
      rw [List.length_drop, List.length_map, hlen]
      exact hlimit
    rw [hall, List.map_map]
    exact (sortDown_perm _ _).map _

theorem collectReportPayload_ok {fails : ReportFails} {db : ReportDb} {clock : HostClock}
    {fromParam toParam : TimeParam} {p : ReportPayload}
    (h : collectReportPayload fails db clock fromParam toParam = .ok p) :
    (∃ events, queryEvents fails.events db (periodFilter p.fromTime p.toTime) = .ok events ∧
        p.events.map (·.id) = events.map (·.id)) ∧
      queryEvents fails.prevEvents db (periodFilter (prevFrom p.fromTime p.toTime) p.fromTime) = .ok p.prevEvents := by
  have hok : ∀ {α : Type} {r : Except StoreError α} {a : α}, orInternal r = .ok a → r = .ok a := by
    intro α r a hr
    cases r <;> cases hr
    rfl
  unfold collectReportPayload at h
  obtain ⟨fromTime, -, h⟩ := bind_eq_ok.1 h
  obtain ⟨toTime, -, h⟩ := bind_eq_ok.1 h
  obtain ⟨events, hevents, h⟩ := bind_eq_ok.1 h
  obtain ⟨prevEvents, hprev, h⟩ := bind_eq_ok.1 h
  obtain ⟨alerts, -, h⟩ := bind_eq_ok.1 h
  obtain ⟨agents, -, h⟩ := bind_eq_ok.1 h
  obtain ⟨chains, -, h⟩ := bind_eq_ok.1 h
  cases h
  refine ⟨⟨events, hok hevents, ?_⟩, hok hprev⟩
  rw [List.map_map]
  refine List.map_congr_left fun e _ => ?_
  unfold attachChain
  simp only [Function.comp]
  split <;> rfl

/-- The two periods of a report split the stored events between them exactly when no event lies where they meet, nor
where a duration does not reach, and neither end is the zero time. -/
theorem splitsPeriods_iff {fails : ReportFails} {db : ReportDb} {clock : HostClock} {fromParam toParam : TimeParam}
    {p : ReportPayload} (h : collectReportPayload fails db clock fromParam toParam = .ok p)
    (hlt : p.fromTime < p.toTime) (hlimit : BelowLimit db p) : SplitsPeriods db p ↔ SeamClear db p := by
  obtain ⟨⟨events, hevents, hids⟩, hprev⟩ := collectReportPayload_ok h
  have hperm := (queryEvents_ids hevents hlimit.1).append (queryEvents_ids hprev hlimit.2)
  unfold SplitsPeriods SeamClear
  rw [hids, hperm.congr_left, UniqueTable.filter_append_perm_iff]
  exact forall₂_congr fun r _ => within_add_within hlt r.occurredAt_pos

/-! ## Two reports -/

section OneEvent

/-- A write seen at this second of the Unix time. -/
def seenAt (timestamp : Int) : FileEventPayload where
  agentID := ascii "1"
  eventType := ascii "MODIFY"
  filePath := ascii "/etc/hosts"
  fileName := ascii "hosts"
  filePermission := ascii "0644"
  detectedBy := ascii "lkm"
  pid := 7
  timestamp
  targetDev := 1
  targetIno := 2
  blocked := false
  actor := ⟨7, 1, 0, 0, 7, [], ascii "sh", ascii "/bin/sh", ascii "sh", 0⟩
  chainDepth := 0
  chainTruncated := false
  chain := []

/-- A database with one event, of the second 100. -/
def oneEvent : ReportDb where
  toDb := .empty
  fileEvents := ⟨[⟨1, seenAt 100, 100, by decide⟩], by decide⟩
  alerts := .empty

def noFails : ReportFails := ⟨false, false, false, false, false⟩

/-- What is collected for the seconds from one to another. -/
def collectedBetween (fromSec toSec : Int) : Except ReportError ReportPayload :=
  collectReportPayload noFails oneEvent ⟨timeUnix 1000, timeUnix 0⟩ (.at (timeUnix fromSec)) (.at (timeUnix toSec))

/-- The payload of a report on ten seconds, with these events in its period and before it. -/
def payloadOf (fromSec : Int) (events prevEvents : List EventRow) : ReportPayload :=
  ⟨timeUnix fromSec, timeUnix (fromSec + 10), [], events, prevEvents, []⟩

theorem collectedBetween_after : collectedBetween 95 105 = .ok (payloadOf 95 oneEvent.fileEvents.rows []) := by rfl

theorem splitsPeriods_after : SplitsPeriods oneEvent (payloadOf 95 oneEvent.fileEvents.rows []) :=
  (splitsPeriods_iff collectedBetween_after (by decide) (by decide)).2 (by decide)

theorem splitsPeriods_seam_fails :
    let p := payloadOf 100 oneEvent.fileEvents.rows oneEvent.fileEvents.rows
    collectedBetween 100 110 = .ok p ∧ p.fromTime < p.toTime ∧ BelowLimit oneEvent p ∧ ¬ SplitsPeriods oneEvent p := by
  refine ⟨rfl, by decide, by decide, fun h => ?_⟩
  exact absurd h.length_eq (by decide)

end OneEvent

end KnIg.Backend
