/-
The kernel module's inode policy table: entries found by device and inode number, the locked
sections of add, remove and clear, and the lookup the hooks ask.
-/
import KnIg.File
import KnIg.Lib.Keyed
import Mathlib.Data.List.Count

namespace KnIg.Lkm

open Lib

def igOpWrite : UInt32 := 1
def igOpDelete : UInt32 := 2
def igOpRename : UInt32 := 4

def igBlockAudit : UInt32 := 0
def igBlockDeny : UInt32 := 1

/-- `IG_MAX_LKM_PATH`. -/
def igMaxLkmPath : Nat := 256

structure PolicyEntry where
  id : FileId
  mask : UInt32
  block : UInt32
  path : CStr
deriving DecidableEq

/-- `ig_policy_ht`, newest entry first: the bucket of a key only narrows the search to entries that
can match. -/
abbrev PolicyTable := List PolicyEntry

def findEntry (t : PolicyTable) (id : FileId) : Option PolicyEntry := Keyed.get PolicyEntry.id t id

/-- The entry an add leaves for its key; a missing path leaves the old one. -/
def PolicyEntry.set (e : PolicyEntry) (mask block : UInt32) (path : Option CStr) : PolicyEntry :=
  { e with mask := mask, block := block, path := (path.map (·.cut (igMaxLkmPath - 1))).getD e.path }

/-- The first locked section of `inode_policy_add`: update the entry of the key in place. -/
def addUpdateLocked (t : PolicyTable) (id : FileId) (mask block : UInt32) (path : Option CStr) :
    Option PolicyTable :=
  match findEntry t id with
  | none => none
  | some _ => some (Keyed.modify PolicyEntry.id t id (·.set mask block path))

/-- The second locked section of `inode_policy_add`: link a new entry. -/
def addInsertLocked (t : PolicyTable) (id : FileId) (mask block : UInt32) (path : Option CStr) : PolicyTable :=
  PolicyEntry.set ⟨id, 0, 0, ⟨[], zero_notMem_nil⟩⟩ mask block path :: t

def inodePolicyRemove (t : PolicyTable) (id : FileId) : PolicyTable := t.eraseP (·.id = id)

def inodePolicyClear (_ : PolicyTable) : PolicyTable := []

/-- `inode_policy_lookup`: the block mode of the key's entry when its mask has the operation. -/
def inodePolicyLookup (t : PolicyTable) (id : FileId) (op : UInt32) : Option UInt32 :=
  match findEntry t id with
  | none => none
  | some e => if e.mask &&& op ≠ 0 then some e.block else none

/-- `inode_policy_path`. -/
def inodePolicyPath (t : PolicyTable) (id : FileId) : CStr :=
  match findEntry t id with
  | none => ⟨[], zero_notMem_nil⟩
  | some e => e.path

/-- How many entries the key has. -/
def entriesOf (t : PolicyTable) (id : FileId) : Nat := t.countP (·.id = id)

theorem inodePolicyLookup_mem {t : PolicyTable} {id : FileId} {op block : UInt32}
    (h : inodePolicyLookup t id op = some block) : ∃ e ∈ t, e.id = id := by
  unfold inodePolicyLookup findEntry at h
  split at h
  · cases h
  · rename_i e he
    exact ⟨e, Keyed.mem_of_get he⟩

/-- Removing a key that has an entry drops exactly one, and none of another key. -/
theorem entriesOf_remove {t : PolicyTable} {id : FileId} (h : ∃ e ∈ t, e.id = id) (id' : FileId) :
    entriesOf t id' = entriesOf (inodePolicyRemove t id) id' + if id' = id then 1 else 0 := by
  obtain ⟨e, he, hid⟩ := h
  obtain ⟨a, l₁, l₂, -, ha, ht, her⟩ := List.exists_of_eraseP (p := (·.id = id)) he (by simpa using hid)
  have ha : a.id = id := by simpa using ha
  unfold entriesOf inodePolicyRemove
  rw [her, ht, List.countP_append, List.countP_append, List.countP_cons, ha, Nat.add_assoc]
  by_cases h : id' = id
  · simp [h]
  · simp [h, Ne.symm h]

end KnIg.Lkm
