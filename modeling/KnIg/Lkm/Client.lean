/-
The agent's side of the kernel module: adding a policy for one inode over the device, and for every
file of the baseline at once.
-/
import KnIg.Agent.Scan
import KnIg.Lkm.Policy

namespace KnIg.Lkm

open Lib KnIg.Agent

def negEnomem : Int := -12

/-- `inode_policy_add` with no other caller between its two locked sections. -/
def inodePolicyAdd (allocOk : Bool) (t : PolicyTable) (id : FileId) (mask block : UInt32) (path : Option CStr) :
    Int × PolicyTable :=
  match addUpdateLocked t id mask block path with
  | some t => (0, t)
  | none => if allocOk then (0, addInsertLocked t id mask block path) else (negEnomem, t)

/-- `lkm_add_inode` through `IG_IOC_ADD_INODE`. -/
def lkmAddInode (kzallocOk : FileId → Bool) (t : PolicyTable) (st : Stat) (mask block : UInt32) (path : CStr) :
    Int × PolicyTable :=
  inodePolicyAdd (kzallocOk st.id) t st.id mask block (some (path.cut (igMaxLkmPath - 1)))

/-- `lkm_clear_all` through `IG_IOC_CLEAR_ALL`. -/
def lkmClearAll (t : PolicyTable) : PolicyTable := inodePolicyClear t

/-- One entry of the loop in `lkm_add_from_baseline`. -/
def addFromEntry (fs : Files) (kzallocOk : FileId → Bool) (block : UInt32) (acc : Nat × PolicyTable) (e : ScanEntry) :
    Nat × PolicyTable :=
  match fs.stat e.path with
  | none => acc
  | some st =>
    let (rc, t) := lkmAddInode kzallocOk acc.2 st (igOpWrite ||| igOpDelete ||| igOpRename) block e.path
    (if rc = 0 then acc.1 + 1 else acc.1, t)

/-- `lkm_add_from_baseline`: the number of policies added and the table with them. -/
def lkmAddFromBaseline (fs : Files) (kzallocOk : FileId → Bool) (db : ScanResult) (block : UInt32) (t : PolicyTable) :
    Nat × PolicyTable :=
  db.entries.foldl (addFromEntry fs kzallocOk block) (0, t)

/-! ## Inodes carrying a policy -/

/-- The inode has an entry. -/
def HasPolicy (t : PolicyTable) (id : FileId) : Prop := ∃ e ∈ t, e.id = id

theorem hasPolicy_iff {t : PolicyTable} {id : FileId} : HasPolicy t id ↔ (findEntry t id).isSome := by
  unfold HasPolicy findEntry
  rw [Option.isSome_iff_ne_none, ne_eq, Keyed.get_eq_none]
  simp

theorem hasPolicy_modify (t : PolicyTable) (id : FileId) {f : PolicyEntry → PolicyEntry}
    (hf : ∀ e, (f e).id = e.id) (id' : FileId) :
    HasPolicy (Keyed.modify PolicyEntry.id t id f) id' ↔ HasPolicy t id' := by
  rw [hasPolicy_iff, hasPolicy_iff]
  unfold findEntry
  rw [Keyed.get_modify hf]
  by_cases h : id' = id <;> simp [h]

/-- An add gives its inode a policy unless the module has no memory for it, and leaves the other
inodes' policies. -/
theorem hasPolicy_add (allocOk : Bool) (t : PolicyTable) (id : FileId) (mask block : UInt32) (path : Option CStr)
    (id' : FileId) :
    HasPolicy (inodePolicyAdd allocOk t id mask block path).2 id' ↔
      HasPolicy t id' ∨ (id' = id ∧ allocOk = true) := by
  unfold inodePolicyAdd addUpdateLocked
  cases he : findEntry t id with
  | some e =>
    have hid : HasPolicy t id := hasPolicy_iff.2 (by rw [he]; rfl)
    have hmod := hasPolicy_modify t id (f := (·.set mask block path)) (fun _ => rfl) id'
    simp only [hmod]
    constructor
    · exact .inl
    · rintro (h | ⟨rfl, -⟩)
      · exact h
      · exact hid
  | none =>
    cases allocOk with
    | false => simp
    | true => simp [HasPolicy, addInsertLocked, PolicyEntry.set, or_comm, eq_comm]

/-- The inodes the entries' paths lead to. -/
def entryInodes (fs : Files) (entries : List ScanEntry) : List FileId :=
  entries.filterMap fun e => (fs.stat e.path).map Stat.id

theorem hasPolicy_foldl_addFromEntry {fs : Files} {kzallocOk : FileId → Bool} {block : UInt32} (id : FileId) :
    ∀ (entries : List ScanEntry) (acc : Nat × PolicyTable),
      HasPolicy (entries.foldl (addFromEntry fs kzallocOk block) acc).2 id ↔
        HasPolicy acc.2 id ∨ (id ∈ entryInodes fs entries ∧ kzallocOk id = true)
  | [], acc => by simp [entryInodes]
  | e :: entries, acc => by
    rw [List.foldl_cons, hasPolicy_foldl_addFromEntry id entries]
    unfold addFromEntry entryInodes lkmAddInode
    cases hst : fs.stat e.path with
    | none => simp [hst]
    | some st =>
      simp only [hasPolicy_add, List.filterMap_cons, hst, Option.map_some, List.mem_cons]
      constructor
      · rintro ((h | ⟨rfl, h⟩) | ⟨h, h'⟩)
        · exact .inl h
        · exact .inr ⟨.inl rfl, h⟩
        · exact .inr ⟨.inr h, h'⟩
      · rintro (h | ⟨rfl | h, h'⟩)
        · exact .inl (.inl h)
        · exact .inl (.inr ⟨rfl, h'⟩)
        · exact .inr ⟨h, h'⟩

/-- After the table is cleared, the policies of the baseline's files are the only ones. -/
theorem hasPolicy_addFromBaseline (fs : Files) (kzallocOk : FileId → Bool) (db : ScanResult) (block : UInt32)
    (t : PolicyTable) (id : FileId) :
    HasPolicy (lkmAddFromBaseline fs kzallocOk db block (lkmClearAll t)).2 id ↔
      id ∈ entryInodes fs db.entries ∧ kzallocOk id = true := by
  unfold lkmAddFromBaseline
  rw [hasPolicy_foldl_addFromEntry]
  simp [HasPolicy, lkmClearAll, inodePolicyClear]

end KnIg.Lkm
