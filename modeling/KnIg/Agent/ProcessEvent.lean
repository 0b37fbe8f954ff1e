/-
How the agent handles one queued event: the integrity check and the baseline update of a modified
file, the registration of a created one and the removal of a deleted one. The check and the update
of one MODIFY event hash the file at two different moments, so a change of the stored hash is
reported exactly when the check did not see the registered contents, or nothing at all, just before
the update saw others.
-/
import KnIg.Agent.Event
import KnIg.Agent.Baseline
import KnIg.Lib.Run

namespace KnIg.Agent

open Lib

/-! ## One event -/

/-- What the handler writes to the log. -/
inductive LogLine where
  | received (ev : IgEvent)
  | tampered (path expected actual : CStr)
  | unregistered (path : CStr)
  | registered (path : CStr)
  | removed (path : CStr)

/-- The event's own line, for the backends that have not logged it already. -/
def receivedLine (ev : IgEvent) : List LogLine :=
  if ev.source ≠ .ebpf ∧ ev.source ≠ .lkm then [.received ev] else []

/-- The verdict's line of a MODIFY event. -/
def verdictLine (path : CStr) : Integrity × CStr × CStr → List LogLine
  | (.mismatch, expected, actual) => [.tampered path expected actual]
  | (.new, _, _) => [.unregistered path]
  | _ => []

/-- The `switch` of `process_event` at a moment: the check reads at `now`, the update right after. -/
def baselineStep (d : Disk) (now : Nat) (db : ScanResult) (ev : IgEvent) : ScanResult × List LogLine :=
  let path := ev.path.str
  match ev.type with
  | .modify =>
    let r := igBaselineCheckFile d now db path
    (igBaselineDbUpdate d (now + 1) db path, verdictLine path r)
  | .create => (igBaselineDbUpdate d now db path, [.registered path])
  | .delete =>
    -- a refused deletion leaves the file as registered
    if (igBaselineCheckFile d now db path).1 = .same then (db, [])
    else (igBaselineDbRemove db path, [.removed path])
  | _ => (db, [])

/-- The agent between two events: the moment, the baseline, the log, and the events handed to the
transport. -/
structure AgentState where
  now : Nat
  db : ScanResult
  log : List LogLine
  sent : List IgEvent

/-- `process_event`; its reads take less than four moments. -/
def processEvent (d : Disk) (s : AgentState) (ev : IgEvent) : AgentState :=
  let (db, lines) := baselineStep d s.now s.db ev
  { now := s.now + 4, db := db, log := s.log ++ receivedLine ev ++ lines, sent := s.sent ++ [ev] }

/-! ## Modifications are reported -/

/-- A stored hash of a registered path changes only with a report on that path. -/
def NoneSilent (db db' : ScanResult) (lines : List LogLine) : Prop :=
  ∀ path h h', db.storedHash path = some h → db'.storedHash path = some h' → h' ≠ h →
    ∃ expected actual, .tampered path expected actual ∈ lines

/-- The update of the event reads another hash than the stored one, and the check just before it
read the stored one or nothing. -/
def Absorbs (d : Disk) (now : Nat) (db : ScanResult) (path : CStr) : Prop :=
  ∃ h h', db.storedHash path = some h ∧ readForUpdate d (now + 1) path = some h' ∧ h' ≠ h ∧
    (d.sha256File now path = none ∨ d.sha256File now path = some h)

/-- The report of a check is there exactly when it read another hash than the stored one. -/
theorem tampered_mem_verdictLine {d : Disk} {now : Nat} {db : ScanResult} {path h : CStr}
    (hs : db.storedHash path = some h) :
    (∃ expected actual, LogLine.tampered path expected actual ∈ verdictLine path (igBaselineCheckFile d now db path)) ↔
      ¬ (d.sha256File now path = none ∨ d.sha256File now path = some h) := by
  obtain ⟨e, he, rfl⟩ := Option.map_eq_some_iff.1 hs
  unfold igBaselineCheckFile
  cases hsha : d.sha256File now path with
  | none => simp [verdictLine]
  | some actual =>
    simp only [he]
    by_cases ha : actual = e.hash
    · simp [ha, verdictLine]
    · simp [ha, verdictLine]

/-- The handling of a MODIFY event is silent about no change exactly when it absorbs none. -/
theorem modify_noneSilent_iff (d : Disk) (now : Nat) (db : ScanResult) (path : CStr) :
    NoneSilent db (igBaselineDbUpdate d (now + 1) db path) (verdictLine path (igBaselineCheckFile d now db path)) ↔
      ¬ Absorbs d now db path := by
  constructor
  · rintro hns ⟨h, h', hs, hr, hne, hcheck⟩
    have hafter := storedHash_update d (now + 1) path hs
    rw [if_pos rfl, hr, Option.getD_some] at hafter
    exact (tampered_mem_verdictLine hs).1 (hns path h h' hs hafter hne) hcheck
  · intro habs path' h h' hs hs' hne
    rw [storedHash_update d (now + 1) path hs] at hs'
    cases hs'
    by_cases hp : path' = path
    · subst hp
      rw [if_pos rfl] at hne
      cases hr : readForUpdate d (now + 1) path' with
      -- an update that reads nothing keeps the stored hash
      | none => rw [hr] at hne; exact absurd rfl hne
      | some h' =>
        rw [hr] at hne
        exact (tampered_mem_verdictLine hs).2 fun hcheck => habs ⟨h, h', hs, hr, hne, hcheck⟩
    · rw [if_neg hp] at hne
      exact absurd rfl hne

/-- The handling of an event, when it is a MODIFY event, is silent about no change. -/
def ModifyReported (d : Disk) (s : AgentState) (ev : IgEvent) : Prop :=
  ev.type = .modify → NoneSilent s.db (processEvent d s ev).db (baselineStep d s.now s.db ev).2

/-- The handling of an event, when it is a MODIFY event, absorbs no change. -/
def ModifyAbsorbsNone (d : Disk) (s : AgentState) (ev : IgEvent) : Prop :=
  ev.type = .modify → ¬ Absorbs d s.now s.db ev.path.str

/-- From any baseline and for any history of the files, all MODIFY events of a run are handled
without a silent change exactly when none of them finds the file as registered, or unreadable, at
its check and changed at its update. -/
theorem modifies_reported_iff (d : Disk) (s : AgentState) (evs : List IgEvent) :
    AllSteps (processEvent d) (ModifyReported d) s evs ↔
      AllSteps (processEvent d) (ModifyAbsorbsNone d) s evs := by
  refine allSteps_congr fun s ev => imp_congr_right fun hm => ?_
  have hstep : baselineStep d s.now s.db ev =
      (igBaselineDbUpdate d (s.now + 1) s.db ev.path.str,
        verdictLine ev.path.str (igBaselineCheckFile d s.now s.db ev.path.str)) := by
    unfold baselineStep
    rw [hm]
  unfold processEvent
  rw [hstep]
  exact modify_noneSilent_iff d s.now s.db ev.path.str

/-! ## A change between check and update -/

/-- SHA-256 of the one-byte files `a` and `b`. -/
def hashA : CStr := ⟨ascii "ca978112ca1bbdcafac231b39a23dc4da786eff8147c4e72b9807785afee48bb", by decide⟩
def hashB : CStr := ⟨ascii "3e23e8160039594a33894f6564e1b1348bbd7a0088d42c4acb73eeaed59c009d", by decide⟩

def etcHosts : CStr := ⟨ascii "/etc/hosts", by decide⟩

/-- The file is rewritten from `a` to `b` after the first moment. -/
def rewritten : Disk where
  sha256File now _ := if now = 0 then some hashA else some hashB
  stat _ _ := some ⟨1700000000, 1⟩
  reallocOk _ := true

def zeroes (n : Nat) : CharArr n := ⟨List.replicate n 0, List.length_replicate⟩

def noProc : ProcInfo := ⟨0, 0, 0, 0, 0, zeroes 32, zeroes 16, zeroes 256, zeroes 512, 0, 0⟩

/-- A fanotify MODIFY event of the file. -/
def hostsModified : IgEvent where
  type := .modify
  source := .fanotify
  path := ⟨etcHosts, by decide⟩
  filename := ⟨⟨ascii "hosts", by decide⟩, by decide⟩
  timestamp := 1700000000
  dev := 0
  ino := 0
  blocked := 0
  pid := 0
  uid := 0
  sid := 0
  comm := zeroes 16
  chain := ⟨0, 0, fun _ => noProc⟩

/-- The file is registered with the hash of `a`. -/
def hostsRegistered : AgentState := ⟨0, ⟨[⟨etcHosts, hashA, 1690000000, 1⟩], 256, 0⟩, [], []⟩

/-- The rewrite between check and update is absorbed without a report. -/
theorem modify_rewritten_silent :
    ¬ AllSteps (processEvent rewritten) (ModifyReported rewritten) hostsRegistered [hostsModified] := by
  rintro ⟨h, -⟩
  obtain ⟨expected, actual, hm⟩ := h rfl etcHosts hashA hashB (by decide) (by decide) (by decide)
  have hlines : (baselineStep rewritten hostsRegistered.now hostsRegistered.db hostsModified).2 = [] := by rfl
  rw [hlines] at hm
  cases hm

/-! ## Refused deletions -/

/-- A path with an entry before a refused event has one after it. -/
def RefusedKept (d : Disk) (s : AgentState) (ev : IgEvent) : Prop :=
  ev.blocked ≠ 0 → (s.db.lookup ev.path.str).isSome → ((processEvent d s ev).db.lookup ev.path.str).isSome

/-- A refused deletion of a path with an entry finds the file as registered, or the path has a second entry. -/
def RefusedAsRegistered (d : Disk) (s : AgentState) (ev : IgEvent) : Prop :=
  ev.blocked ≠ 0 → ev.type = .delete → ∀ h, s.db.storedHash ev.path.str = some h →
    d.sha256File s.now ev.path.str = some h ∨ 2 ≤ s.db.paths.count ev.path.str

/-- Of a path with an entry the check finds it as registered just when it reads the stored hash. -/
theorem check_same_iff {d : Disk} {now : Nat} {db : ScanResult} {path h : CStr} (hs : db.storedHash path = some h) :
    (igBaselineCheckFile d now db path).1 = .same ↔ d.sha256File now path = some h := by
  obtain ⟨e, he, rfl⟩ := Option.map_eq_some_iff.1 hs
  unfold igBaselineCheckFile
  cases hsha : d.sha256File now path with
  | none => simp
  | some actual =>
    simp only [he]
    by_cases ha : actual = e.hash
    · simp [ha]
    · simp [ha]

/-- Only a DELETE event drops entries. -/
theorem processEvent_keeps {d : Disk} {s : AgentState} {ev : IgEvent} (htype : ev.type ≠ .delete) {path : CStr}
    (h : (s.db.lookup path).isSome) : ((processEvent d s ev).db.lookup path).isSome := by
  unfold processEvent baselineStep
  cases ht : ev.type with
  | modify => exact lookup_isSome_update d _ _ h
  | create => exact lookup_isSome_update d _ _ h
  | delete => exact absurd ht htype
  | attrib | move | access | unknown => exact h

/-- A DELETE event keeps the path's entry when it finds the file as registered, and when it drops the first of
several. -/
theorem delete_keeps_iff {d : Disk} {s : AgentState} {ev : IgEvent} (htype : ev.type = .delete) {h : CStr}
    (hs : s.db.storedHash ev.path.str = some h) :
    ((processEvent d s ev).db.lookup ev.path.str).isSome ↔
      d.sha256File s.now ev.path.str = some h ∨ 2 ≤ s.db.paths.count ev.path.str := by
  have hlookup : (s.db.lookup ev.path.str).isSome := by
    obtain ⟨e, he, -⟩ := Option.map_eq_some_iff.1 hs
    rw [he]; rfl
  rw [← check_same_iff hs]
  unfold processEvent baselineStep
  simp only [htype]
  by_cases hsame : (igBaselineCheckFile d s.now s.db ev.path.str).1 = .same
  · simp [hsame, hlookup]
  · simp only [hsame, false_or]
    exact (lookup_isSome_remove s.db ev.path.str ev.path.str).trans (by rw [if_pos rfl])

/-- The entry of a refused event's path is kept exactly when, if the event is a deletion, the check reads the stored
hash from the file, or the path has entries to spare. -/
theorem refusedKept_iff (d : Disk) (s : AgentState) (ev : IgEvent) :
    RefusedKept d s ev ↔ RefusedAsRegistered d s ev := by
  constructor
  · intro hkept hblocked htype h hs
    obtain ⟨e, he, -⟩ := Option.map_eq_some_iff.1 hs
    exact (delete_keeps_iff htype hs).1 (hkept hblocked (by rw [he]; rfl))
  · intro hsees hblocked hlookup
    by_cases htype : ev.type = .delete
    · obtain ⟨e, he⟩ := Option.isSome_iff_exists.1 hlookup
      have hs : s.db.storedHash ev.path.str = some e.hash := by rw [ScanResult.storedHash, he]; rfl
      exact (delete_keeps_iff htype hs).2 (hsees hblocked htype e.hash hs)
    · exact processEvent_keeps htype hlookup

/-- A deletion of the file that the kernel module refused. -/
def hostsDeleteRefused : IgEvent := { hostsModified with type := .delete, source := .lkm, blocked := 1 }

/-- The file was rewritten before the refused deletion is handled, and the agent forgets it. -/
theorem refusedKept_rewritten_fails : ¬ RefusedKept rewritten { hostsRegistered with now := 1 } hostsDeleteRefused := by
  intro h
  exact absurd (h (by decide) (by decide)) (by decide)

end KnIg.Agent
