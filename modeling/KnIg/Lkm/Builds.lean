/-
The syscall-table builds of the kernel module against the LSM builds: for one operation on regular
files the two decide alike and record alike exactly when the table's answers leave no room between
them. A rename onto an audited file is recorded by the LSM builds alone.
-/
import KnIg.Lkm.Lsm
import KnIg.Lkm.Protection
import Mathlib.Tactic.FinCases

namespace KnIg.Lkm

open Lib Lib.Namei

/-! ## The operation of a call -/

def oAccmode : Int32 := 3

/-- `RENAME_EXCHANGE`. -/
def renameExchange : UInt32 := 2

/-- How an open changes its file. The access mode 3 opens for neither reading nor writing. -/
def openKind (flags : Int32) : Option WriteKind :=
  if flags &&& oAccmode = oWronly ∨ flags &&& oAccmode = oRdwr then some .openWrite
  else if flags &&& oTrunc ≠ 0 then some .openTrunc
  else none

def regularAt (k : Kernel) (found : Option FileId) : Option FileId := found.filter k.fs.isRegular

def modifyAt (k : Kernel) (kind : WriteKind) (found : Option FileId) : Option FileOp :=
  (regularAt k found).map (.modify kind)

def renameAt (k : Kernel) (src dst : Option FileId) (swap : Bool) : Option FileOp :=
  match regularAt k src, dst with
  | none, _ => none
  | some src, none => if swap then none else some (.rename src none)
  | some src, some dst =>
    if k.fs.isRegular dst then some (if swap then .exchange src dst else .rename src (some dst)) else none

/-- The operation on regular files a call asks for, by the inodes its paths and descriptors resolve to. -/
def opOf (k : Kernel) : Call → Option FileOp
  | .write fd _ _ => modifyAt k .write (fdToDevino k fd)
  | .truncate path _ => modifyAt k .truncate (pathToDevino k path)
  | .ftruncate fd _ => modifyAt k .truncate (fdToDevino k fd)
  | .sysOpen filename flags _ => (openKind flags).bind fun kind => modifyAt k kind (pathToDevino k filename)
  | .openat dfd filename flags _ => (openKind flags).bind fun kind => modifyAt k kind (pathatToDevino k dfd filename)
  | .creat pathname _ => modifyAt k .openWrite (pathToDevino k pathname)
  | .unlink pathname => (regularAt k (pathToDevino k pathname)).map .unlink
  | .unlinkat dfd pathname flag =>
    if flag &&& atRemovedir = 0 then (regularAt k (pathatToDevino k dfd pathname)).map .unlink else none
  | .rename oldname newname => renameAt k (pathToDevino k oldname) (pathToDevino k newname) false
  | .renameat olddfd oldname newdfd newname =>
    renameAt k (pathatToDevino k olddfd oldname) (pathatToDevino k newdfd newname) false
  | .renameat2 olddfd oldname newdfd newname flags =>
    renameAt k (pathatToDevino k olddfd oldname) (pathatToDevino k newdfd newname) (flags &&& renameExchange ≠ 0)
  | .chmod filename _ => modifyAt k .chmod (pathToDevino k filename)
  | .fchmodat dfd filename _ => modifyAt k .chmod (pathatToDevino k dfd filename)
  | .chown filename user group => modifyAt k (.chown user group) (pathToDevino k filename)
  | .fchownat dfd filename user group _ => modifyAt k (.chown user group) (pathatToDevino k dfd filename)
  | .link oldname _ => modifyAt k .link (pathToDevino k oldname)
  | .linkat olddfd oldname _ _ _ => modifyAt k .link (pathatToDevino k olddfd oldname)
  | .setxattr path _ _ _ _ => modifyAt k .setxattr (pathToDevino k path)
  | .lsetxattr path _ _ _ _ => modifyAt k .setxattr (pathToDevino k path)
  | .fsetxattr fd _ _ _ _ => modifyAt k .setxattr (fdToDevino k fd.toUInt32)

/-- How an operation comes to the syscall-table builds: as one of the hooked calls, or as a call they leave alone
(`pwrite64`, `fchmod`, `fchown` and others, all of which modify one file). -/
inductive Route where
  | hooked (en : Entry)
  | unhooked

/-- The route asks for the operation. -/
def Route.Asks (k : Kernel) (op : FileOp) : Route → Prop
  | .hooked en => opOf k en.call = some op
  | .unhooked => ∃ kind id, op = .modify kind id

/-! ## Verdicts -/

/-- What a build makes of an operation: whether it is refused, and the events enqueued for it. -/
structure Verdict where
  refused : Bool
  events : List LkmEvent
deriving DecidableEq

/-- The verdict of checks made in a state. -/
def verdictOf (k : Kernel) (checked : Int × Kernel) : Verdict :=
  ⟨checked.1 ≠ 0, checked.2.events.drop k.events.length⟩

/-- The verdict of the syscall-table builds. -/
def Route.verdict (orig : Orig) (k : Kernel) : Route → Verdict
  | .hooked en => ⟨!(en.run orig k).ran, (en.run orig k).kernel.events.drop k.events.length⟩
  | .unhooked => ⟨false, []⟩

/-- The verdict of the LSM builds. -/
def Lsm.verdict (k : Kernel) (calls : List SecurityCall) : Verdict := verdictOf k (Lsm.run k calls)

/-- The inodes an operation touches, each with the policy bit that names what it does to it. -/
def touches : FileOp → List (FileId × UInt32)
  | .modify _ id => [(id, igOpWrite)]
  | .unlink id => [(id, igOpDelete)]
  | .rename src dst => (src, igOpRename) :: dst.toList.map (·, igOpRename)
  | .exchange src dst => [(src, igOpRename), (dst, igOpRename)]

/-- Every policy match has one event, marked blocked exactly when the operation is refused. -/
def Verdict.RecordsMatches (t : PolicyTable) (op : FileOp) (v : Verdict) : Prop :=
  ∀ m ∈ touches op, inodePolicyLookup t m.1 m.2 ≠ none →
    (v.events.filter fun e => e.id = m.1 ∧ e.op = m.2) = [⟨m.1, m.2, if v.refused then 1 else 0⟩]

/-- The two verdicts agree on an operation, and both record its matches. -/
structure Agree (t : PolicyTable) (op : FileOp) (syscall lsm : Verdict) : Prop where
  decision : syscall.refused = lsm.refused
  events : ∀ e, e ∈ syscall.events ↔ e ∈ lsm.events
  syscallRecords : syscall.RecordsMatches t op
  lsmRecords : lsm.RecordsMatches t op

/-- The policy denies the operation on the file. -/
def Denies (t : PolicyTable) (id : FileId) (op : UInt32) : Prop := inodePolicyLookup t id op = some igBlockDeny

/-- The policy records the operation on the file and lets it pass. -/
def Audits (t : PolicyTable) (id : FileId) (op : UInt32) : Prop :=
  ∃ block, inodePolicyLookup t id op = some block ∧ block ≠ igBlockDeny

/-- The policy has nothing on the operation on the file. -/
def Ignores (t : PolicyTable) (id : FileId) (op : UInt32) : Prop := inodePolicyLookup t id op = none

/-- The table's answers to the operation leave no room between the builds. A modifying operation counts how often
the LSM hooks look its file up. -/
def AgreesWhen (t : PolicyTable) (writeAsks : Nat) (hooked : Bool) : FileOp → Prop
  | .modify _ id =>
    Ignores t id igOpWrite ∨
      hooked = true ∧ (Denies t id igOpWrite ∧ 0 < writeAsks ∨ Audits t id igOpWrite ∧ writeAsks = 1)
  | .unlink _ => True
  | .rename _ none => True
  | .rename src (some dst) =>
    if dst = src then Ignores t src igOpRename
    else Ignores t dst igOpRename ∨ Ignores t src igOpRename ∧ Denies t dst igOpRename
  | .exchange src dst =>
    if dst = src then Ignores t src igOpRename
    else
      Ignores t src igOpRename ∧ ¬ Audits t dst igOpRename ∨ Ignores t dst igOpRename ∧ ¬ Audits t src igOpRename

/-- Only a modifying operation comes by a call without a hook. -/
theorem Route.Asks.exists_entry {k : Kernel} {op : FileOp} {route : Route} (h : route.Asks k op)
    (hop : ∀ kind id, op ≠ .modify kind id) : ∃ en, route = .hooked en := by
  cases route with
  | hooked en => exact ⟨en, rfl⟩
  | unhooked =>
    obtain ⟨kind, id, rfl⟩ := h
    exact absurd rfl (hop kind id)

def Route.isHooked : Route → Bool
  | .hooked _ => true
  | .unhooked => false

/-! ## What the syscall-table builds check -/

/-- `check_rename` on the files its paths resolve to. -/
def renameCheck (k : Kernel) (src : FileId) (dst : Option FileId) : Int × Kernel :=
  let (rc, k) := igCheck k src igOpRename
  if rc ≠ 0 then (rc, k)
  else
    match dst with
    | none => (0, k)
    | some id =>
      if inodePolicyLookup k.table id igOpRename = some igBlockDeny then (negEperm, k.enqueue id igOpRename 1)
      else (0, k)

/-- The checks of the hooks on an operation. -/
def opCheck (k : Kernel) : FileOp → Int × Kernel
  | .modify _ id => igCheck k id igOpWrite
  | .unlink id => igCheckDelete k id
  | .rename src dst => renameCheck k src dst
  | .exchange src dst => renameCheck k src (some dst)

theorem regularAt_eq_some {k : Kernel} {found : Option FileId} {id : FileId} (h : regularAt k found = some id) :
    found = some id :=
  (Option.filter_eq_some_iff.1 h).1

theorem modifyAt_eq_some {k : Kernel} {kind : WriteKind} {found : Option FileId} {op : FileOp}
    (h : modifyAt k kind found = some op) : ∃ id, found = some id ∧ op = .modify kind id := by
  obtain ⟨id, hid, rfl⟩ := Option.map_eq_some_iff.1 h
  exact ⟨id, regularAt_eq_some hid, rfl⟩

/-- A modifying call checks the file found for writing. -/
theorem checkWrite_of_modifyAt {k : Kernel} {kind : WriteKind} {found : Option FileId} {op : FileOp}
    (h : modifyAt k kind found = some op) : checkWrite k found = opCheck k op := by
  obtain ⟨id, rfl, rfl⟩ := modifyAt_eq_some h
  rfl

theorem openKind_writes {flags : Int32} {kind : WriteKind} (h : openKind flags = some kind) :
    flags &&& (oWronly ||| oRdwr ||| oTrunc) ≠ 0 := by
  intro h0
  have hacc : flags &&& oAccmode = 0 := by
    rw [show oAccmode = (oWronly ||| oRdwr ||| oTrunc) &&& oAccmode by decide, ← Int32.and_assoc, h0]
    exact Int32.zero_and
  have htrunc : flags &&& oTrunc = 0 := by
    rw [show oTrunc = (oWronly ||| oRdwr ||| oTrunc) &&& oTrunc by decide, ← Int32.and_assoc, h0]
    exact Int32.zero_and
  unfold openKind at h
  rw [if_neg (by rw [hacc]; decide), if_neg (not_not_intro htrunc)] at h
  cases h

theorem checkOpenFlags_of_opOf {k : Kernel} {dfd flags : Int32} {filename : UInt64} {op : FileOp}
    (h : (openKind flags).bind (fun kind => modifyAt k kind (pathatToDevino k dfd filename)) = some op) :
    checkOpenFlags k dfd filename flags = opCheck k op := by
  obtain ⟨kind, hkind, h⟩ := Option.bind_eq_some_iff.1 h
  unfold checkOpenFlags
  rw [if_neg (openKind_writes hkind)]
  exact checkWrite_of_modifyAt h

/-- A check leaves paths where they resolve. -/
theorem pathatToDevino_igCheck (k : Kernel) (id : FileId) (op : UInt32) (dfd : Int32) (upath : UInt64) :
    pathatToDevino (igCheck k id op).2 dfd upath = pathatToDevino k dfd upath := by
  unfold igCheck
  split
  · rfl
  · split <;> rfl

theorem checkRename_of_renameAt {k : Kernel} {olddfd newdfd : Int32} {oldname newname : UInt64} {swap : Bool}
    {op : FileOp}
    (h : renameAt k (pathatToDevino k olddfd oldname) (pathatToDevino k newdfd newname) swap = some op) :
    checkRename k olddfd oldname newdfd newname = opCheck k op := by
  have hcheck : ∀ {src}, pathatToDevino k olddfd oldname = some src →
      checkRename k olddfd oldname newdfd newname = renameCheck k src (pathatToDevino k newdfd newname) := by
    intro src hsrc
    cases hdst : pathatToDevino k newdfd newname <;>
      simp only [checkRename, checkFound, hsrc, hdst, renameCheck, pathatToDevino_igCheck]
  unfold renameAt at h
  split at h
  · cases h
  · next src hsrc hdst =>
    rw [hcheck (regularAt_eq_some hsrc), hdst]
    cases swap with
    | true => cases h
    | false => cases h; rfl
  · next src dst hsrc hdst =>
    rw [hcheck (regularAt_eq_some hsrc), hdst]
    split at h
    · cases swap <;> cases h <;> rfl
    · cases h

/-- The hook of a call makes the checks of its operation. -/
theorem hook_of_opOf (orig : Orig) {k : Kernel} {c : Call} {op : FileOp} (h : opOf k c = some op) :
    Lkm310.hook orig k c = proceed orig c (opCheck k op) := by
  cases c with
  | sysOpen filename flags mode => exact congrArg (proceed orig _) (checkOpenFlags_of_opOf h)
  | openat dfd filename flags mode => exact congrArg (proceed orig _) (checkOpenFlags_of_opOf h)
  | creat pathname mode => exact congrArg (proceed orig _) (checkWrite_of_modifyAt h)
  | unlink pathname =>
    obtain ⟨id, hid, rfl⟩ := Option.map_eq_some_iff.1 h
    simp only [Lkm310.hook, Lkm310.igSysUnlink, regularAt_eq_some hid]
    rfl
  | unlinkat dfd pathname flag =>
    simp only [opOf] at h
    split at h
    · next hflag =>
      obtain ⟨id, hid, rfl⟩ := Option.map_eq_some_iff.1 h
      simp only [Lkm310.hook, Lkm310.igSysUnlinkat, if_pos hflag, regularAt_eq_some hid]
      rfl
    · cases h
  | rename oldname newname => exact congrArg (proceed orig _) (checkRename_of_renameAt h)
  | renameat olddfd oldname newdfd newname => exact congrArg (proceed orig _) (checkRename_of_renameAt h)
  | renameat2 olddfd oldname newdfd newname flags => exact congrArg (proceed orig _) (checkRename_of_renameAt h)
  | _ => exact congrArg (proceed orig _) (checkWrite_of_modifyAt h)

theorem verdict_proceed (orig : Orig) (k : Kernel) (c : Call) (checked : Int × Kernel) :
    (⟨!(proceed orig c checked).ran, (proceed orig c checked).kernel.events.drop k.events.length⟩ : Verdict) =
      verdictOf k checked := by
  unfold proceed verdictOf
  split
  · next h => simp [h]
  · next h => simp [not_not.1 h]

theorem verdict_hooked (orig : Orig) {k : Kernel} {en : Entry} {op : FileOp} (h : opOf k en.call = some op) :
    (Route.hooked en).verdict orig k = verdictOf k (opCheck k op) := by
  show (⟨!(en.run orig k).ran, (en.run orig k).kernel.events.drop k.events.length⟩ : Verdict) = _
  rw [Entry.run_eq, hook_of_opOf orig h]
  exact verdict_proceed _ _ _ _

/-! ## Checks made in turn -/

/-- The check passes without a trace. -/
def Verdict.passed : Verdict := ⟨false, []⟩

/-- The second check is made only if the first passes. -/
def Verdict.andThen (v w : Verdict) : Verdict := if v.refused then v else ⟨w.refused, v.events ++ w.events⟩

/-- The same check made a number of times, until it is refused. -/
def Verdict.times (v : Verdict) (n : Nat) : Verdict := v.andThen^[n] .passed

@[simp] theorem Verdict.passed_andThen (w : Verdict) : Verdict.passed.andThen w = w := rfl

@[simp] theorem Verdict.refused_andThen (events : List LkmEvent) (w : Verdict) :
    Verdict.andThen ⟨true, events⟩ w = ⟨true, events⟩ :=
  rfl

@[simp] theorem Verdict.audited_andThen (events : List LkmEvent) (w : Verdict) :
    Verdict.andThen ⟨false, events⟩ w = ⟨w.refused, events ++ w.events⟩ :=
  rfl

theorem Verdict.passed_times (n : Nat) : Verdict.passed.times n = .passed := by
  induction n with
  | zero => rfl
  | succ n ih => exact (Function.iterate_succ_apply' _ _ _).trans ih

theorem Verdict.refused_times (events : List LkmEvent) (n : Nat) :
    Verdict.times ⟨true, events⟩ n = if n = 0 then .passed else ⟨true, events⟩ := by
  cases n with
  | zero => rfl
  | succ n => exact Function.iterate_succ_apply' _ _ _

theorem Verdict.audited_times (e : LkmEvent) (n : Nat) :
    Verdict.times ⟨false, [e]⟩ n = ⟨false, List.replicate n e⟩ := by
  induction n with
  | zero => rfl
  | succ n ih =>
    have hstep : Verdict.times ⟨false, [e]⟩ (n + 1) = Verdict.andThen ⟨false, [e]⟩ (Verdict.times ⟨false, [e]⟩ n) :=
      Function.iterate_succ_apply' _ _ _
    rw [hstep, ih]
    rfl

/-- Checks made in a state come to the verdict, and change nothing but the events. -/
structure Yields (k : Kernel) (checked : Int × Kernel) (v : Verdict) : Prop where
  refused : checked.1 ≠ 0 ↔ v.refused = true
  kernel : checked.2 = { k with events := k.events ++ v.events }

theorem yields_passed (k : Kernel) : Yields k (0, k) .passed := ⟨by simp [Verdict.passed], by simp [Verdict.passed]⟩

theorem yields_refused (k : Kernel) (id : FileId) (op : UInt32) :
    Yields k (negEperm, k.enqueue id op 1) ⟨true, [⟨id, op, 1⟩]⟩ :=
  ⟨by simp [negEperm], rfl⟩

theorem yields_audited (k : Kernel) (id : FileId) (op : UInt32) :
    Yields k (0, k.enqueue id op 0) ⟨false, [⟨id, op, 0⟩]⟩ :=
  ⟨by simp, rfl⟩

section Yields

variable {k : Kernel} {checked : Int × Kernel} {v w : Verdict}

theorem Yields.verdictOf (h : Yields k checked v) : verdictOf k checked = v := by
  have hrefused : decide (checked.1 ≠ 0) = v.refused := by
    rw [Bool.eq_iff_iff, decide_eq_true_iff]
    exact h.refused
  unfold KnIg.Lkm.verdictOf
  rw [hrefused, h.kernel]
  simp

theorem Yields.andThen (h : Yields k checked v) {f : Kernel → Int × Kernel}
    (hnext : ∀ k' : Kernel, k'.fs = k.fs → k'.table = k.table → Yields k' (f k') w) :
    Yields k (if checked.1 ≠ 0 then checked else f checked.2) (v.andThen w) := by
  have hw : Yields checked.2 (f checked.2) w := hnext _ (by rw [h.kernel]) (by rw [h.kernel])
  unfold Verdict.andThen
  by_cases hv : v.refused = true
  · rw [if_pos (h.refused.2 hv), if_pos hv]
    exact h
  · rw [if_neg (fun hr => hv (h.refused.1 hr)), if_neg hv]
    refine ⟨hw.refused, ?_⟩
    rw [hw.kernel, h.kernel]
    simp

/-- Calls that all come to one verdict come to that verdict as many times. -/
theorem askAll_yields {calls : List SecurityCall}
    (h : ∀ c ∈ calls, ∀ k' : Kernel, k'.fs = k.fs → k'.table = k.table → Yields k' (Lsm.hook k' c) v) :
    Yields k (askAll Lsm.hook k calls) (v.times calls.length) := by
  induction calls generalizing k with
  | nil => exact yields_passed k
  | cons c calls ih =>
    have htimes : v.times (calls.length + 1) = v.andThen (v.times calls.length) := Function.iterate_succ_apply' _ _ _
    rw [List.length_cons, htimes]
    refine (h c List.mem_cons_self k rfl rfl).andThen fun k' hfs htable => ih fun d hd k'' hfs' htable' => ?_
    exact h d (List.mem_cons_of_mem c hd) k'' (hfs'.trans hfs) (htable'.trans htable)

end Yields

/-! ## One check -/

theorem lookup_cases (t : PolicyTable) (id : FileId) (op : UInt32) :
    Ignores t id op ∨ Denies t id op ∨ Audits t id op := by
  unfold Ignores Denies Audits
  cases inodePolicyLookup t id op with
  | none => exact .inl rfl
  | some block =>
    by_cases hb : block = igBlockDeny
    · exact .inr (.inl (congrArg some hb))
    · exact .inr (.inr ⟨block, rfl, hb⟩)

theorem Denies.not_ignores {t : PolicyTable} {id : FileId} {op : UInt32} (h : Denies t id op) : ¬ Ignores t id op :=
  fun hign => Option.some_ne_none _ (h.symm.trans hign)

theorem Audits.not_ignores {t : PolicyTable} {id : FileId} {op : UInt32} (h : Audits t id op) : ¬ Ignores t id op := by
  obtain ⟨block, hl, -⟩ := h
  exact fun hign => Option.some_ne_none _ (hl.symm.trans hign)

theorem Audits.not_denies {t : PolicyTable} {id : FileId} {op : UInt32} (h : Audits t id op) : ¬ Denies t id op := by
  obtain ⟨block, hl, hb⟩ := h
  exact fun hden => hb (Option.some.inj (hl.symm.trans hden))

/-- The verdict of one check, by the table's answer. -/
def checkVerdict (t : PolicyTable) (id : FileId) (op : UInt32) : Verdict :=
  match inodePolicyLookup t id op with
  | none => .passed
  | some block => if block = igBlockDeny then ⟨true, [⟨id, op, 1⟩]⟩ else ⟨false, [⟨id, op, 0⟩]⟩

section CheckVerdict

variable {t : PolicyTable} {id : FileId} {op : UInt32}

theorem checkVerdict_ignores (h : Ignores t id op) : checkVerdict t id op = .passed := by
  unfold Ignores at h
  simp only [checkVerdict, h]

theorem checkVerdict_denies (h : Denies t id op) : checkVerdict t id op = ⟨true, [⟨id, op, 1⟩]⟩ := by
  unfold Denies at h
  simp only [checkVerdict, h, if_pos]

theorem checkVerdict_audits (h : Audits t id op) : checkVerdict t id op = ⟨false, [⟨id, op, 0⟩]⟩ := by
  obtain ⟨block, hl, hb⟩ := h
  simp only [checkVerdict, hl, if_neg hb]

end CheckVerdict

theorem igCheck_yields (k : Kernel) (id : FileId) (op : UInt32) :
    Yields k (igCheck k id op) (checkVerdict k.table id op) := by
  unfold igCheck checkVerdict
  cases inodePolicyLookup k.table id op with
  | none => exact yields_passed k
  | some block =>
    by_cases hb : block = igBlockDeny
    · simp only [if_pos hb]
      exact yields_refused k id op
    · simp only [if_neg hb]
      exact yields_audited k id op

/-- One check records the matches of an operation that has no others. -/
theorem records_check {t : PolicyTable} {op : FileOp} {id : FileId} {bit : UInt32}
    (h : ∀ m ∈ touches op, m = (id, bit) ∨ Ignores t m.1 m.2) : (checkVerdict t id bit).RecordsMatches t op := by
  intro m hm hmatch
  rcases h m hm with rfl | hign
  · rcases lookup_cases t id bit with hign | hden | haud
    · exact absurd hign hmatch
    · rw [checkVerdict_denies hden]
      simp
    · rw [checkVerdict_audits haud]
      simp
  · exact absurd hign hmatch

theorem agree_check {t : PolicyTable} {op : FileOp} {id : FileId} {bit : UInt32}
    (h : ∀ m ∈ touches op, m = (id, bit) ∨ Ignores t m.1 m.2) :
    Agree t op (checkVerdict t id bit) (checkVerdict t id bit) :=
  ⟨rfl, fun _ => Iff.rfl, records_check h, records_check h⟩

/-- A match without an event is not recorded. -/
theorem not_records_of_missing {t : PolicyTable} {op : FileOp} {m : FileId × UInt32} {v : Verdict}
    (hm : m ∈ touches op) (hmatch : ¬ Ignores t m.1 m.2) (hmissing : ∀ e ∈ v.events, e.id ≠ m.1) :
    ¬ v.RecordsMatches t op := by
  intro h
  have hrecord := h m hm hmatch
  have hmem : (⟨m.1, m.2, if v.refused then 1 else 0⟩ : LkmEvent) ∈
      v.events.filter fun e => e.id = m.1 ∧ e.op = m.2 := by
    rw [hrecord]
    exact List.mem_cons_self
  exact hmissing _ (List.mem_filter.1 hmem).1 rfl

/-! ## Modifying operations -/

section Modify

variable {k : Kernel} {kind : WriteKind} {id : FileId} {calls : List SecurityCall}

theorem lsm_modify (h : KernelCalls k.fs (.modify kind id) calls) :
    Lsm.verdict k calls = (checkVerdict k.table id igOpWrite).times (Lsm.writeAsks k.fs calls) := by
  obtain ⟨asked, hlen, hrun, hhook⟩ := Lsm.run_of_modify h
  rw [Lsm.verdict, hrun, ← hlen]
  refine (askAll_yields fun c hc k' hfs htable => ?_).verdictOf
  rw [hhook c hc k' hfs, ← htable]
  exact igCheck_yields k' id igOpWrite

theorem agree_unhooked_iff (h : KernelCalls k.fs (.modify kind id) calls) :
    Agree k.table (.modify kind id) .passed (Lsm.verdict k calls) ↔ Ignores k.table id igOpWrite := by
  constructor
  · intro hagree
    by_contra hmatch
    exact not_records_of_missing (m := (id, igOpWrite)) List.mem_cons_self hmatch (by simp [Verdict.passed])
      hagree.syscallRecords
  · intro hign
    have hpassed := checkVerdict_ignores hign
    rw [lsm_modify h, hpassed, Verdict.passed_times, ← hpassed]
    exact agree_check (by simp [touches])

theorem agree_hooked_iff (h : KernelCalls k.fs (.modify kind id) calls) :
    Agree k.table (.modify kind id) (checkVerdict k.table id igOpWrite) (Lsm.verdict k calls) ↔
      Ignores k.table id igOpWrite ∨ Denies k.table id igOpWrite ∧ 0 < Lsm.writeAsks k.fs calls ∨
        Audits k.table id igOpWrite ∧ Lsm.writeAsks k.fs calls = 1 := by
  have hcheck : Agree k.table (.modify kind id) (checkVerdict k.table id igOpWrite)
      (checkVerdict k.table id igOpWrite) := agree_check (by simp [touches])
  rw [lsm_modify h]
  rcases lookup_cases k.table id igOpWrite with hign | hden | haud
  · rw [checkVerdict_ignores hign] at hcheck ⊢
    rw [Verdict.passed_times]
    exact iff_of_true hcheck (.inl hign)
  · rw [checkVerdict_denies hden] at hcheck ⊢
    rw [Verdict.refused_times]
    by_cases hn : Lsm.writeAsks k.fs calls = 0
    · rw [if_pos hn]
      refine iff_of_false (fun hagree => ?_) (by simp [hden.not_ignores, hn])
      exact absurd hagree.decision (by simp [Verdict.passed])
    · rw [if_neg hn]
      exact iff_of_true hcheck (.inr (.inl ⟨hden, Nat.pos_of_ne_zero hn⟩))
  · rw [checkVerdict_audits haud] at hcheck ⊢
    rw [Verdict.audited_times]
    constructor
    · intro hagree
      have hrecord := hagree.lsmRecords (id, igOpWrite) List.mem_cons_self haud.not_ignores
      have hlength := congrArg List.length hrecord
      exact .inr (.inr ⟨haud, by simpa using hlength⟩)
    · intro hwhen
      obtain ⟨-, hn⟩ : Audits k.table id igOpWrite ∧ Lsm.writeAsks k.fs calls = 1 := by
        simpa [haud.not_ignores, haud.not_denies] using hwhen
      rw [hn]
      exact hcheck

end Modify

/-! ## Deletions -/

theorem verdictOf_igCheckDelete (k : Kernel) (id : FileId) :
    verdictOf k (igCheckDelete k id) = checkVerdict k.table id igOpDelete := by
  unfold igCheckDelete checkVerdict
  cases inodePolicyLookup k.table id igOpDelete with
  | none => exact (yields_passed k).verdictOf
  | some block =>
    by_cases hb : block = igBlockDeny
    · simp only [if_pos hb]
      exact (yields_refused k id igOpDelete).verdictOf
    · simp only [if_neg hb]
      exact (yields_audited k id igOpDelete).verdictOf

theorem lsm_unlink {k : Kernel} {id : FileId} {calls : List SecurityCall}
    (h : KernelCalls k.fs (.unlink id) calls) :
    Lsm.verdict k calls = checkVerdict k.table id igOpDelete := by
  have hasks : calls.filter (·.onRegular k.fs) = [.pathUnlink (some id), .inodeUnlink (some id)] := h.asks
  have hhook : Lsm.hook k (.inodeUnlink (some id)) = igCheckDelete k id := if_pos (h.regular id List.mem_cons_self)
  rw [Lsm.verdict, Lsm.run_filter, hasks, Lsm.run, askAll_cons_passed rfl]
  show verdictOf k (askAll Lsm.hook k [.inodeUnlink (some id)]) = _
  rw [askAll_singleton, hhook, verdictOf_igCheckDelete]

/-! ## Renames -/

/-- The verdict on a destination under the syscall-table builds: an audit leaves no event. -/
def denyVerdict (t : PolicyTable) (id : FileId) (bit : UInt32) : Verdict :=
  if inodePolicyLookup t id bit = some igBlockDeny then ⟨true, [⟨id, bit, 1⟩]⟩ else .passed

theorem denyVerdict_denies {t : PolicyTable} {id : FileId} {bit : UInt32} (h : Denies t id bit) :
    denyVerdict t id bit = checkVerdict t id bit := by
  rw [checkVerdict_denies h]
  exact if_pos h

theorem denyVerdict_of_not_denies {t : PolicyTable} {id : FileId} {bit : UInt32} (h : ¬ Denies t id bit) :
    denyVerdict t id bit = .passed :=
  if_neg h

theorem Verdict.andThen_passed (v : Verdict) : v.andThen .passed = v := by
  obtain ⟨refused, events⟩ := v
  cases refused <;> simp [Verdict.passed]

theorem denyVerdict_of_not_audits {t : PolicyTable} {id : FileId} {bit : UInt32} (h : ¬ Audits t id bit) :
    denyVerdict t id bit = checkVerdict t id bit := by
  rcases lookup_cases t id bit with hign | hden | haud
  · rw [denyVerdict_of_not_denies fun hd => hd.not_ignores hign, checkVerdict_ignores hign]
  · exact denyVerdict_denies hden
  · exact absurd haud h

/-- A check that records no audit may be made again. -/
theorem checkVerdict_twice {t : PolicyTable} {id : FileId} {bit : UInt32} (h : ¬ Audits t id bit) :
    (checkVerdict t id bit).andThen (checkVerdict t id bit) = checkVerdict t id bit := by
  rcases lookup_cases t id bit with hign | hden | haud
  · rw [checkVerdict_ignores hign, Verdict.passed_andThen]
  · rw [checkVerdict_denies hden, Verdict.refused_andThen]
  · exact absurd haud h

/-- The verdict of the syscall-table builds on a rename. -/
def syscallRename (t : PolicyTable) (src : FileId) (dst : Option FileId) : Verdict :=
  (checkVerdict t src igOpRename).andThen (dst.elim .passed (denyVerdict t · igOpRename))

/-- The verdict of the hook of the LSM builds on a rename. -/
def lsmRename (t : PolicyTable) (src : FileId) (dst : Option FileId) : Verdict :=
  (checkVerdict t src igOpRename).andThen (dst.elim .passed (checkVerdict t · igOpRename))

theorem renameCheck_yields (k : Kernel) (src : FileId) (dst : Option FileId) :
    Yields k (renameCheck k src dst) (syscallRename k.table src dst) := by
  cases dst with
  | none => exact (igCheck_yields k src igOpRename).andThen fun k' _ _ => yields_passed k'
  | some id =>
    refine (igCheck_yields k src igOpRename).andThen (f := fun k' =>
      if inodePolicyLookup k'.table id igOpRename = some igBlockDeny then (negEperm, k'.enqueue id igOpRename 1)
      else (0, k')) fun k' _ htable => ?_
    rw [Option.elim_some, ← htable]
    unfold denyVerdict
    split
    · exact yields_refused k' id igOpRename
    · exact yields_passed k'

theorem igInodeRename_yields {k : Kernel} {src : FileId} {dst : Option FileId} (hsrc : k.fs.isRegular src = true)
    (hdst : ∀ id ∈ dst, k.fs.isRegular id = true) :
    Yields k (Lsm.igInodeRename k (some src) dst) (lsmRename k.table src dst) := by
  have hcheck : Lsm.igCheckDentry k (some src) igOpRename = igCheck k src igOpRename := Lsm.igCheckInode_regular hsrc _
  unfold Lsm.igInodeRename
  rw [hcheck]
  cases dst with
  | none =>
    have hsame : (if (igCheck k src igOpRename).1 ≠ 0 then igCheck k src igOpRename else igCheck k src igOpRename) =
        igCheck k src igOpRename := ite_self _
    show Yields k (if (igCheck k src igOpRename).1 ≠ 0 then igCheck k src igOpRename else igCheck k src igOpRename) _
    rw [hsame, lsmRename, Option.elim_none, Verdict.andThen_passed]
    exact igCheck_yields k src igOpRename
  | some id =>
    refine (igCheck_yields k src igOpRename).andThen (f := fun k' => Lsm.igCheckDentry k' (some id) igOpRename)
      fun k' hfs htable => ?_
    have hid : Lsm.igCheckDentry k' (some id) igOpRename = igCheck k' id igOpRename :=
      Lsm.igCheckInode_regular (by rw [hfs]; exact hdst id rfl) _
    rw [hid, Option.elim_some, ← htable]
    exact igCheck_yields k' id igOpRename

section Rename

variable {k : Kernel} {src : FileId} {calls : List SecurityCall}

theorem lsm_rename {dst : Option FileId} (h : KernelCalls k.fs (.rename src dst) calls) :
    Lsm.verdict k calls = if dst = some src then .passed else lsmRename k.table src dst := by
  have hasks : calls.filter (·.onRegular k.fs) =
      .pathRename (some src) dst :: if dst = some src then [] else [.inodeRename (some src) dst] := h.asks
  rw [Lsm.verdict, Lsm.run_filter, hasks, Lsm.run, askAll_cons_passed rfl]
  split
  · exact (yields_passed k).verdictOf
  · rw [askAll_singleton]
    refine (igInodeRename_yields (h.regular src List.mem_cons_self) fun id hid => ?_).verdictOf
    exact h.regular id (List.mem_cons_of_mem src (Option.mem_toList.2 hid))

theorem lsm_exchange {dst : FileId} (h : KernelCalls k.fs (.exchange src dst) calls) :
    Lsm.verdict k calls =
      if dst = src then .passed else (lsmRename k.table dst (some src)).andThen (lsmRename k.table src (some dst)) := by
  have hasks : calls.filter (·.onRegular k.fs) =
      .pathRename (some dst) (some src) :: .pathRename (some src) (some dst) ::
        if dst = src then [] else [.inodeRename (some dst) (some src), .inodeRename (some src) (some dst)] := h.asks
  have hregular : ∀ id, id = src ∨ id = dst → k.fs.isRegular id = true := fun id hid =>
    h.regular id (by simpa [FileOp.files] using hid)
  rw [Lsm.verdict, Lsm.run_filter, hasks, Lsm.run, askAll_cons_passed rfl, askAll_cons_passed rfl]
  split
  · exact (yields_passed k).verdictOf
  · have hfirst : Yields k (Lsm.igInodeRename k (some dst) (some src)) (lsmRename k.table dst (some src)) :=
      igInodeRename_yields (hregular dst (.inr rfl)) fun id hid => hregular id (.inl (Option.some.inj hid).symm)
    refine (hfirst.andThen (f := fun k' => askAll Lsm.hook k' [.inodeRename (some src) (some dst)])
      fun k' hfs htable => ?_).verdictOf
    rw [askAll_singleton, ← htable]
    show Yields k' (Lsm.igInodeRename k' (some src) (some dst)) _
    apply igInodeRename_yields
    · rw [hfs]
      exact hregular src (.inl rfl)
    · rw [hfs]
      exact fun id hid => hregular id (.inr (Option.some.inj hid).symm)

end Rename

section AgreeRename

variable {t : PolicyTable} {src dst : FileId} {op : FileOp}

/-- Where both files of a rename match, the syscall-table builds leave one of them without its event. -/
theorem not_records_both (hop : touches op = [(src, igOpRename), (dst, igOpRename)]) (hne : dst ≠ src)
    (hsrc : ¬ Ignores t src igOpRename) (hdst : ¬ Ignores t dst igOpRename) :
    ¬ (syscallRename t src (some dst)).RecordsMatches t op := by
  unfold syscallRename
  rw [Option.elim_some]
  rcases lookup_cases t src igOpRename with hign | hden | haud
  · exact absurd hign hsrc
  · apply not_records_of_missing (m := (dst, igOpRename)) (by simp [hop]) hdst
    rw [checkVerdict_denies hden]
    simpa using hne.symm
  · by_cases hd : Denies t dst igOpRename
    · intro h
      have hrecord := h (src, igOpRename) (by simp [hop]) hsrc
      rw [denyVerdict_denies hd, checkVerdict_denies hd, checkVerdict_audits haud] at hrecord
      simp [hne] at hrecord
    · apply not_records_of_missing (m := (dst, igOpRename)) (by simp [hop]) hdst
      rw [denyVerdict_of_not_denies hd, checkVerdict_audits haud]
      simpa [Verdict.passed] using hne.symm

/-- A file renamed onto itself is asked for by the syscall-table builds alone. -/
theorem agree_self_iff (hop : touches op = [(src, igOpRename), (src, igOpRename)]) :
    Agree t op (syscallRename t src (some src)) .passed ↔ Ignores t src igOpRename := by
  constructor
  · intro hagree
    by_contra hmatch
    exact not_records_of_missing (m := (src, igOpRename)) (by simp [hop]) hmatch (by simp [Verdict.passed])
      hagree.lsmRecords
  · intro hign
    have hpassed := checkVerdict_ignores hign
    rw [syscallRename, Option.elim_some, denyVerdict_of_not_audits fun ha => ha.not_ignores hign, hpassed,
      Verdict.passed_andThen, ← hpassed]
    exact agree_check (by simp [hop])

theorem agree_rename_iff (hne : dst ≠ src) :
    Agree t (.rename src (some dst)) (syscallRename t src (some dst)) (lsmRename t src (some dst)) ↔
      Ignores t dst igOpRename ∨ Ignores t src igOpRename ∧ Denies t dst igOpRename := by
  by_cases hdst : Ignores t dst igOpRename
  · refine iff_of_true ?_ (.inl hdst)
    simp only [syscallRename, lsmRename, Option.elim_some, denyVerdict_of_not_audits fun ha => ha.not_ignores hdst,
      checkVerdict_ignores hdst, Verdict.andThen_passed]
    exact agree_check (by simp [touches, hdst])
  by_cases hsrc : Ignores t src igOpRename
  · simp only [syscallRename, lsmRename, Option.elim_some, checkVerdict_ignores hsrc, Verdict.passed_andThen]
    by_cases hd : Denies t dst igOpRename
    · rw [denyVerdict_denies hd]
      exact iff_of_true (agree_check (by simp [touches, hsrc])) (.inr ⟨hsrc, hd⟩)
    · rw [denyVerdict_of_not_denies hd]
      refine iff_of_false (fun hagree => ?_) (by simp [hdst, hd])
      exact not_records_of_missing (m := (dst, igOpRename)) (by simp [touches]) hdst (by simp [Verdict.passed])
        hagree.syscallRecords
  · refine iff_of_false (fun hagree => ?_) (by simp [hdst, hsrc])
    exact not_records_both rfl hne hsrc hdst hagree.syscallRecords

theorem agree_exchange_iff (hne : dst ≠ src) :
    Agree t (.exchange src dst) (syscallRename t src (some dst))
        ((lsmRename t dst (some src)).andThen (lsmRename t src (some dst))) ↔
      Ignores t src igOpRename ∧ ¬ Audits t dst igOpRename ∨
        Ignores t dst igOpRename ∧ ¬ Audits t src igOpRename := by
  by_cases hboth : ¬ Ignores t src igOpRename ∧ ¬ Ignores t dst igOpRename
  · refine iff_of_false (fun hagree => ?_) (by simp [hboth])
    exact not_records_both rfl hne hboth.1 hboth.2 hagree.syscallRecords
  -- at most one of the files matches; the LSM builds ask for it twice
  by_cases hsrc : Ignores t src igOpRename
  · simp only [syscallRename, lsmRename, Option.elim_some, checkVerdict_ignores hsrc, Verdict.passed_andThen,
      Verdict.andThen_passed]
    by_cases ha : Audits t dst igOpRename
    · rw [denyVerdict_of_not_denies ha.not_denies]
      refine iff_of_false (fun hagree => ?_) (by simp [ha, ha.not_ignores])
      exact not_records_of_missing (m := (dst, igOpRename)) (by simp [touches]) ha.not_ignores
        (by simp [Verdict.passed]) hagree.syscallRecords
    · rw [denyVerdict_of_not_audits ha, checkVerdict_twice ha]
      exact iff_of_true (agree_check (by simp [touches, hsrc])) (.inl ⟨hsrc, ha⟩)
  · have hdst : Ignores t dst igOpRename := by
      by_contra hdst
      exact hboth ⟨hsrc, hdst⟩
    simp only [syscallRename, lsmRename, Option.elim_some, checkVerdict_ignores hdst, Verdict.passed_andThen,
      denyVerdict_of_not_audits fun ha => ha.not_ignores hdst, Verdict.andThen_passed]
    by_cases ha : Audits t src igOpRename
    · rw [checkVerdict_audits ha]
      refine iff_of_false (fun hagree => ?_) (by simp [ha, hsrc])
      have hrecord := hagree.lsmRecords (src, igOpRename) (by simp [touches]) hsrc
      simp at hrecord
    · rw [checkVerdict_twice ha]
      exact iff_of_true (agree_check (by simp [touches, hdst])) (.inr ⟨hdst, ha⟩)

end AgreeRename

/-! ## The builds on one operation -/

/-- For an operation on regular files the syscall-table builds and the LSM builds decide alike, record alike, and
record every policy match once with the outcome, exactly when the table's answers leave no room between them. -/
theorem builds_agree_iff (orig : Orig) (k : Kernel) (op : FileOp) (route : Route) (hroute : route.Asks k op)
    (calls : List SecurityCall) (hcalls : KernelCalls k.fs op calls) :
    Agree k.table op (route.verdict orig k) (Lsm.verdict k calls) ↔
      AgreesWhen k.table (Lsm.writeAsks k.fs calls) route.isHooked op := by
  have hhooked : ∀ en, route = .hooked en → route.verdict orig k = verdictOf k (opCheck k op) := by
    rintro en rfl
    exact verdict_hooked orig hroute
  cases op with
  | modify kind id =>
    cases route with
    | hooked en =>
      rw [hhooked en rfl, opCheck, (igCheck_yields k id igOpWrite).verdictOf, agree_hooked_iff hcalls]
      simp [AgreesWhen, Route.isHooked]
    | unhooked =>
      exact (agree_unhooked_iff hcalls).trans (by simp [AgreesWhen, Route.isHooked])
  | unlink id =>
    obtain ⟨en, rfl⟩ := hroute.exists_entry (by simp)
    rw [hhooked en rfl, opCheck, verdictOf_igCheckDelete, lsm_unlink hcalls]
    exact iff_of_true (agree_check (by simp [touches])) trivial
  | rename src dst =>
    obtain ⟨en, rfl⟩ := hroute.exists_entry (by simp)
    rw [hhooked en rfl, opCheck, (renameCheck_yields k src dst).verdictOf, lsm_rename hcalls]
    cases dst with
    | none =>
      simp only [reduceCtorEq, if_false, syscallRename, lsmRename, Option.elim_none, Verdict.andThen_passed]
      exact iff_of_true (agree_check (by simp [touches])) trivial
    | some dst =>
      simp only [Option.some_inj, AgreesWhen]
      split
      · next hself =>
        rw [hself]
        exact agree_self_iff rfl
      · next hne => exact agree_rename_iff hne
  | exchange src dst =>
    obtain ⟨en, rfl⟩ := hroute.exists_entry (by simp)
    rw [hhooked en rfl, opCheck, (renameCheck_yields k src (some dst)).verdictOf, lsm_exchange hcalls]
    simp only [AgreesWhen]
    split
    · next hself =>
      rw [hself]
      exact agree_self_iff rfl
    · next hne => exact agree_exchange_iff hne

/-- A chmod of the audited file, with the one attribute change the kernel asks for. -/
def chmodCalls : List SecurityCall :=
  [.inodePermission (some ⟨8, 2⟩) 1, .pathChmod (some ⟨8, 3⟩), .inodeSetattr (some ⟨8, 3⟩) (some attrMode)]

theorem chmodCalls_kernelCalls : KernelCalls oneFile (.modify .chmod ⟨8, 3⟩) chmodCalls where
  regular := by decide
  walk := by
    intro c hc hdir
    fin_cases hc
    · exact ⟨_, _, rfl⟩
    · exact absurd hdir (by decide)
    · exact absurd hdir (by decide)
  asks := by
    have hfilter : chmodCalls.filter (·.onRegular oneFile) =
        [.pathChmod (some ⟨8, 3⟩), .inodeSetattr (some ⟨8, 3⟩) (some attrMode)] := by decide
    rw [hfilter]
    refine ⟨?_, by simp, attrMode, by decide, by simp⟩
    intro c hc
    fin_cases hc <;> rfl

theorem builds_agree_chmod :
    Agree auditedFile.table (.modify .chmod ⟨8, 3⟩)
      ((Route.hooked (.lkm310 (.chmod 4096 0))).verdict granted auditedFile) (Lsm.verdict auditedFile chmodCalls) :=
  (builds_agree_iff granted auditedFile (.modify .chmod ⟨8, 3⟩) (.hooked (.lkm310 (.chmod 4096 0)))
    (by unfold Route.Asks; decide) chmodCalls chmodCalls_kernelCalls).2
      (.inr ⟨rfl, .inr ⟨⟨igBlockAudit, by decide, by decide⟩, by decide⟩⟩)

/-! ## A rename onto an audited file -/

/-- A root directory with the files `/f` and `/g`. -/
def twoFiles : Fs where
  node id :=
    if id = ⟨8, 2⟩ then
      some (.dir ⟨8, 2⟩ fun name =>
        if name = ascii "f" then some ⟨8, 3⟩ else if name = ascii "g" then some ⟨8, 4⟩ else none)
    else if id = ⟨8, 3⟩ ∨ id = ⟨8, 4⟩ then some (.file true)
    else none
  root := ⟨8, 2⟩
  maxLinks := 40
  cwd := ⟨8, 2⟩
  fd _ := none

theorem targetPath_noZero : 0 ∉ ascii "/f" := by decide

/-- `/g` is audited for every operation; the paths stand at the user addresses 4096 and 8192. -/
def auditedTarget : Kernel where
  fs := twoFiles
  user p :=
    if p = 4096 then some ⟨ascii "/f", targetPath_noZero⟩ else if p = 8192 then some ⟨ascii "/g", by decide⟩ else none
  table := [⟨⟨8, 4⟩, 7, igBlockAudit, ⟨ascii "/g", by decide⟩⟩]
  events := []

/-- The calls for a rename of `/f` onto `/g`. -/
def renameCalls : List SecurityCall :=
  [.pathRename (some ⟨8, 3⟩) (some ⟨8, 4⟩), .inodePermission (some ⟨8, 2⟩) 3,
    .inodeRename (some ⟨8, 3⟩) (some ⟨8, 4⟩)]

/-- The LSM builds record the audited file, the syscall-table builds do not. -/
theorem builds_agree_rename_fails :
    (Route.hooked (.lkm310 (.rename 4096 8192))).Asks auditedTarget (.rename ⟨8, 3⟩ (some ⟨8, 4⟩)) ∧
      KernelCalls auditedTarget.fs (.rename ⟨8, 3⟩ (some ⟨8, 4⟩)) renameCalls ∧
        ¬ Agree auditedTarget.table (.rename ⟨8, 3⟩ (some ⟨8, 4⟩))
          ((Route.hooked (.lkm310 (.rename 4096 8192))).verdict granted auditedTarget)
          (Lsm.verdict auditedTarget renameCalls) := by
  refine ⟨by unfold Route.Asks; decide, ⟨by decide, ?_, by unfold FileOp.Asks; decide⟩, ?_⟩
  · intro c hc hdir
    fin_cases hc
    · exact absurd hdir (by decide)
    · exact ⟨_, _, rfl⟩
    · exact absurd hdir (by decide)
  · intro h
    have hevent := (h.events ⟨⟨8, 4⟩, igOpRename, 0⟩).2 (by decide)
    exact absurd hevent (by decide)

end KnIg.Lkm
