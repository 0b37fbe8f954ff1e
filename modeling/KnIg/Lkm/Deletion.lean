/-
Deletion under the syscall-table hooks: the policy table after an unlink or unlinkat against what
the original call did. The hooks drop an audit entry before they run the original call, so the
table follows the deletion exactly when no such entry is hit or the call really deletes the file.
-/
import KnIg.Lkm.Hooks

namespace KnIg.Lkm

open Lib Lib.Namei

/-! ## What a hook leaves of the table -/

@[simp] theorem igCheck_table (k : Kernel) (id : FileId) (op : UInt32) : (igCheck k id op).2.table = k.table := by
  unfold igCheck
  split
  · rfl
  · split <;> rfl

@[simp] theorem checkFound_igCheck_table (k : Kernel) (found : Option FileId) (op : UInt32) :
    (checkFound k found fun k id => igCheck k id op).2.table = k.table := by
  cases found with
  | none => rfl
  | some id => exact igCheck_table k id op

@[simp] theorem checkWrite_table (k : Kernel) (found : Option FileId) : (checkWrite k found).2.table = k.table :=
  checkFound_igCheck_table k found igOpWrite

@[simp] theorem checkOpenFlags_table (k : Kernel) (dfd : Int32) (upath : UInt64) (flags : Int32) :
    (checkOpenFlags k dfd upath flags).2.table = k.table := by
  unfold checkOpenFlags
  split
  · rfl
  · exact checkWrite_table _ _

@[simp] theorem checkRename_table (k : Kernel) (olddfd : Int32) (oldname : UInt64) (newdfd : Int32)
    (newname : UInt64) : (checkRename k olddfd oldname newdfd newname).2.table = k.table := by
  have hsrc := checkFound_igCheck_table k (pathatToDevino k olddfd oldname) igOpRename
  unfold checkRename
  split
  rename_i rc k' hk'
  rw [hk'] at hsrc
  split
  · exact hsrc
  · split
    · exact hsrc
    · split
      · exact hsrc
      · exact hsrc

@[simp] theorem proceed_table (orig : Orig) (c : Call) (checked : Int × Kernel) :
    (proceed orig c checked).kernel.table = checked.2.table := by
  unfold proceed
  split <;> rfl

/-- The file a call would delete, as its hook resolves it. -/
def deleteTarget (k : Kernel) : Call → Option FileId
  | .unlink pathname => pathToDevino k pathname
  | .unlinkat dfd pathname flag => if flag &&& atRemovedir = 0 then pathatToDevino k dfd pathname else none
  | _ => none

def Call.deletes : Call → Bool
  | .unlink _ => true
  | .unlinkat _ _ _ => true
  | _ => false

/-- A hook of any other call leaves the table. -/
theorem hook_table_of_not_deletes (orig : Orig) (k : Kernel) {c : Call} (h : c.deletes = false) :
    (Lkm310.hook orig k c).kernel.table = k.table := by
  cases c with
  | unlink pathname => cases h
  | unlinkat dfd pathname flag => cases h
  | write => exact (proceed_table _ _ _).trans (checkWrite_table _ _)
  | truncate => exact (proceed_table _ _ _).trans (checkWrite_table _ _)
  | ftruncate => exact (proceed_table _ _ _).trans (checkWrite_table _ _)
  | sysOpen => exact (proceed_table _ _ _).trans (checkOpenFlags_table _ _ _ _)
  | openat => exact (proceed_table _ _ _).trans (checkOpenFlags_table _ _ _ _)
  | creat => exact (proceed_table _ _ _).trans (checkOpenFlags_table _ _ _ _)
  | rename => exact (proceed_table _ _ _).trans (checkRename_table _ _ _ _ _)
  | renameat => exact (proceed_table _ _ _).trans (checkRename_table _ _ _ _ _)
  | renameat2 => exact (proceed_table _ _ _).trans (checkRename_table _ _ _ _ _)
  | _ => exact (proceed_table _ _ _).trans (checkWrite_table _ _)

/-- The hooks of the deleting calls check the target for deletion first. -/
theorem hook_of_deletes (orig : Orig) (k : Kernel) {c : Call} (h : c.deletes = true) :
    Lkm310.hook orig k c = proceed orig c (checkFound k (deleteTarget k c) igCheckDelete) := by
  cases c with
  | unlink pathname => rfl
  | unlinkat dfd pathname flag => rfl
  | _ => cases h

theorem Entry.run_eq (orig : Orig) (k : Kernel) (en : Entry) :
    en.run orig k = Lkm310.hook orig k en.call := by
  cases en with
  | lkm310 c => rfl
  | lkm417Syscall nr r => exact Lkm417Syscall.hook_eq orig k nr r

/-! ## The table and the deletion -/

/-- The call hits an entry for deletion that only audits. -/
def AuditHit (k : Kernel) (c : Call) (id : FileId) : Prop :=
  deleteTarget k c = some id ∧ ∃ block, inodePolicyLookup k.table id igOpDelete = some block ∧ block ≠ igBlockDeny

/-- The table is untouched when the original call fails, and an entry is dropped only for a file the
tree no longer has. -/
structure DropsOnlyDeleted (orig : Orig) (k : Kernel) (c : Call) (o : Outcome) : Prop where
  onError : (orig c k.fs).1 < 0 → o.kernel.table = k.table
  onDrop : ∀ id, entriesOf o.kernel.table id < entriesOf k.table id → o.kernel.fs.node id = none

theorem dropsOnlyDeleted_of_table {orig : Orig} {k : Kernel} {c : Call} {o : Outcome}
    (h : o.kernel.table = k.table) : DropsOnlyDeleted orig k c o :=
  ⟨fun _ => h, fun id hid => absurd hid (by rw [h]; exact Nat.lt_irrefl _)⟩

/-- Without an audit hit the deleting hooks leave the table. -/
theorem checkDelete_table {k : Kernel} {c : Call} (h : ∀ id, ¬ AuditHit k c id) :
    (checkFound k (deleteTarget k c) igCheckDelete).2.table = k.table := by
  unfold checkFound
  cases ht : deleteTarget k c with
  | none => rfl
  | some id =>
    simp only [igCheckDelete]
    split
    · rfl
    · rename_i block hb
      split
      · rfl
      · rename_i hne
        exact absurd ⟨ht, block, hb, hne⟩ (h id)

/-- An audit hit is enqueued, dropped from the table, and the original call runs. -/
theorem checkDelete_of_auditHit {k : Kernel} {c : Call} {id : FileId} (h : AuditHit k c id) :
    checkFound k (deleteTarget k c) igCheckDelete =
      (0, { k.enqueue id igOpDelete 0 with table := inodePolicyRemove k.table id }) := by
  obtain ⟨ht, block, hb, hne⟩ := h
  simp only [checkFound, ht, igCheckDelete, hb, if_neg hne, Kernel.enqueue]

theorem auditHit_deletes {k : Kernel} {c : Call} {id : FileId} (h : AuditHit k c id) : c.deletes = true := by
  cases c <;> first | rfl | cases h.1

/-- Under the hooks of either build the table follows the deletion exactly when every audit entry
hit by the call belongs to a file that the original call then deletes. -/
theorem dropsOnlyDeleted_iff (orig : Orig) (k : Kernel) (en : Entry) :
    DropsOnlyDeleted orig k en.call (en.run orig k) ↔
      ∀ id, AuditHit k en.call id →
        0 ≤ (orig en.call k.fs).1 ∧ (orig en.call k.fs).2.node id = none := by
  rw [Entry.run_eq]
  generalize en.call = c
  by_cases hex : ∃ id, AuditHit k c id
  -- an audit hit drops its entry before the original call runs
  · obtain ⟨id, hit⟩ := hex
    have hrun := hook_of_deletes orig k (auditHit_deletes hit)
    rw [checkDelete_of_auditHit hit] at hrun
    have htable : (Lkm310.hook orig k c).kernel.table = inodePolicyRemove k.table id := by
      rw [hrun, proceed_table]
    have hfs : (Lkm310.hook orig k c).kernel.fs = (orig c k.fs).2 := by
      rw [hrun]; rfl
    have ⟨ht, block, hb, _⟩ := hit
    have hcount := entriesOf_remove (inodePolicyLookup_mem hb)
    constructor
    · rintro ⟨hErr, hDrop⟩ id' hit'
      have hid : id' = id := Option.some.inj (hit'.1.symm.trans ht)
      subst hid
      have hlt : entriesOf (Lkm310.hook orig k c).kernel.table id' < entriesOf k.table id' := by
        rw [htable, hcount id', if_pos rfl]; omega
      refine ⟨?_, hfs ▸ hDrop id' hlt⟩
      by_contra hneg
      rw [hErr (by omega)] at hlt
      exact Nat.lt_irrefl _ hlt
    · intro h
      obtain ⟨hok, hgone⟩ := h id hit
      refine ⟨fun hErr => by omega, fun id' hlt => ?_⟩
      rw [htable, hcount id'] at hlt
      split at hlt
      · rename_i hid
        rw [hid, hfs]; exact hgone
      · omega
  -- without one the table stays, whatever the call does
  · have hno : ∀ id, ¬ AuditHit k c id := fun id h => hex ⟨id, h⟩
    refine ⟨fun _ id h => absurd h (hno id), fun _ => dropsOnlyDeleted_of_table ?_⟩
    by_cases hd : c.deletes = true
    · rw [hook_of_deletes orig k hd, proceed_table, checkDelete_table hno]
    · exact hook_table_of_not_deletes orig k (by simpa using hd)

/-! ## A refused deletion -/

/-- A root directory with one file `/f`. -/
def oneFile : Fs where
  node id :=
    if id = ⟨8, 2⟩ then some (.dir ⟨8, 2⟩ fun name => if name = ascii "f" then some ⟨8, 3⟩ else none)
    else if id = ⟨8, 3⟩ then some (.file true)
    else none
  root := ⟨8, 2⟩
  maxLinks := 40
  cwd := ⟨8, 2⟩
  fd _ := none

/-- `/f` is audited for every operation; the path stands at user address 4096. -/
def auditedFile : Kernel where
  fs := oneFile
  user p := if p = 4096 then some ⟨ascii "/f", by decide⟩ else none
  table := [⟨⟨8, 3⟩, 7, igBlockAudit, ⟨ascii "/f", by decide⟩⟩]
  events := []

/-- The caller may not write the directory: `-EACCES`. -/
def refused : Orig := fun _ fs => (-13, fs)

/-- A refused unlink of an audited file drops its entry. -/
theorem dropsOnlyDeleted_refused_fails :
    ¬ DropsOnlyDeleted refused auditedFile (Entry.lkm310 (.unlink 4096)).call
      ((Entry.lkm310 (.unlink 4096)).run refused auditedFile) := by
  intro h
  exact absurd (h.onError (by decide)) (by decide)

end KnIg.Lkm
