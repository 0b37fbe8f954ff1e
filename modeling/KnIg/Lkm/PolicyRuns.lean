/-
Calls of the policy table that interleave. An add searches in one locked section and, when it finds no entry
and gets the memory for one, inserts in another; what other calls insert between the two it does not see. The
table is the finite map that the completed calls describe as long as no insertion meets an entry of its key.
-/
import KnIg.Lib.Run
import KnIg.Lkm.Policy
import Mathlib.Logic.Function.Basic

namespace KnIg.Lkm

open Lib

/-! ## The system -/

/-- The arguments of `inode_policy_add`. -/
structure AddReq where
  id : FileId
  mask : UInt32
  block : UInt32
  path : Option CStr

/-- The table, the adds that have searched and are still to insert, by their threads, and the map that the
completed calls describe. -/
structure PolicySys where
  table : PolicyTable
  pending : Nat → Option AddReq
  completed : FileId → Option PolicyEntry

/-- The locked sections; a lookup changes nothing. -/
inductive PolicyAct where
  | addSearch (thread : Nat) (req : AddReq)
  | addInsert (thread : Nat) (kzalloc : Bool)
  | remove (id : FileId)
  | clear

/-- An add to the map: the new mask, block mode and path; a missing path leaves the old one. -/
def addCompleted (m : FileId → Option PolicyEntry) (req : AddReq) : FileId → Option PolicyEntry :=
  Function.update m req.id
    (some (((m req.id).getD ⟨req.id, 0, 0, ⟨[], zero_notMem_nil⟩⟩).set req.mask req.block req.path))

namespace PolicySys

def init : PolicySys := ⟨[], fun _ => none, fun _ => none⟩

def search (s : PolicySys) (thread : Nat) (req : AddReq) : PolicySys :=
  match addUpdateLocked s.table req.id req.mask req.block req.path with
  | some table => { s with table := table, completed := addCompleted s.completed req }
  | none => { s with pending := Function.update s.pending thread (some req) }

def insert (s : PolicySys) (thread : Nat) (req : AddReq) : Bool → PolicySys
  | true =>
    { table := addInsertLocked s.table req.id req.mask req.block req.path
      pending := Function.update s.pending thread none
      completed := addCompleted s.completed req }
  | false => { s with pending := Function.update s.pending thread none }

def step (s : PolicySys) : PolicyAct → PolicySys
  | .addSearch thread req =>
    match s.pending thread with
    | none => s.search thread req
    | some _ => s
  | .addInsert thread kzalloc =>
    match s.pending thread with
    | none => s
    | some req => s.insert thread req kzalloc
  | .remove id =>
    { s with table := inodePolicyRemove s.table id, completed := Function.update s.completed id none }
  | .clear => { s with table := inodePolicyClear s.table, completed := fun _ => none }

end PolicySys

def runPolicy (acts : List PolicyAct) : PolicySys := acts.foldl PolicySys.step PolicySys.init

/-- No two entries of one key. -/
def OnePerKey (t : PolicyTable) : Prop := (t.map PolicyEntry.id).Nodup

/-- What a lookup in the map finds. -/
def lookupCompleted (m : FileId → Option PolicyEntry) (id : FileId) (op : UInt32) : Option UInt32 :=
  match m id with
  | none => none
  | some e => if e.mask &&& op ≠ 0 then some e.block else none

def pathCompleted (m : FileId → Option PolicyEntry) (id : FileId) : CStr :=
  match m id with
  | none => ⟨[], zero_notMem_nil⟩
  | some e => e.path

/-- The table has no two entries of one key, and lookups find what the completed calls describe. -/
structure BehavesAsMap (s : PolicySys) : Prop where
  unique : OnePerKey s.table
  lookup : ∀ id op, inodePolicyLookup s.table id op = lookupCompleted s.completed id op
  path : ∀ id, inodePolicyPath s.table id = pathCompleted s.completed id

/-! ## Which insertions keep one entry per key -/

/-- An insertion meets no entry of its key. -/
def PolicyOk (s : PolicySys) : PolicyAct → Prop
  | .addInsert thread true => ∀ req ∈ s.pending thread, findEntry s.table req.id = none
  | _ => True

instance (s : PolicySys) : ∀ a : PolicyAct, Decidable (PolicyOk s a)
  | .addInsert thread true => inferInstanceAs (Decidable (∀ req ∈ s.pending thread, findEntry s.table req.id = none))
  | .addInsert _ false => inferInstanceAs (Decidable True)
  | .addSearch _ _ => inferInstanceAs (Decidable True)
  | .remove _ => inferInstanceAs (Decidable True)
  | .clear => inferInstanceAs (Decidable True)

theorem addUpdateLocked_eq_some {t t' : PolicyTable} {id : FileId} {mask block : UInt32} {path : Option CStr} :
    addUpdateLocked t id mask block path = some t' ↔
      (findEntry t id).isSome ∧ t' = Keyed.modify PolicyEntry.id t id (·.set mask block path) := by
  unfold addUpdateLocked
  cases findEntry t id <;> simp [eq_comm]

theorem set_id (e : PolicyEntry) (mask block : UInt32) (path : Option CStr) : (e.set mask block path).id = e.id := rfl

theorem onePerKey_insert_iff {t : PolicyTable} (h : OnePerKey t) (req : AddReq) :
    OnePerKey (addInsertLocked t req.id req.mask req.block req.path) ↔ findEntry t req.id = none := by
  unfold OnePerKey addInsertLocked findEntry
  rw [List.map_cons, List.nodup_cons, Keyed.get_eq_none, List.mem_map]
  constructor
  · rintro ⟨hnot, -⟩ e he hid
    exact hnot ⟨e, he, hid⟩
  · intro hnone
    refine ⟨?_, h⟩
    rintro ⟨e, he, hid⟩
    exact hnone e he hid

/-- A step keeps one entry per key just when it meets its condition. -/
theorem onePerKey_step_iff {s : PolicySys} {a : PolicyAct} (h : OnePerKey s.table) :
    OnePerKey (s.step a).table ↔ PolicyOk s a := by
  cases a with
  | addSearch thread req =>
    refine iff_true_intro ?_
    simp only [PolicySys.step, PolicySys.search]
    split
    · split
      · next t ht =>
        obtain ⟨-, rfl⟩ := addUpdateLocked_eq_some.1 ht
        show (List.map PolicyEntry.id (Keyed.modify _ _ _ _)).Nodup
        rw [Keyed.map_modify (fun e => set_id e _ _ _)]
        exact h
      · exact h
    · exact h
  | addInsert thread kzalloc =>
    simp only [PolicySys.step]
    cases hp : s.pending thread with
    | none => cases kzalloc <;> simp [PolicyOk, hp, h]
    | some req =>
      cases kzalloc with
      | true =>
        refine (onePerKey_insert_iff h req).trans ?_
        simp [PolicyOk, hp]
      | false => exact iff_true_intro h
  | remove id => exact iff_true_intro (h.sublist (List.eraseP_sublist.map _))
  | clear => exact iff_true_intro List.nodup_nil

/-! ## The table refines the map -/

/-- The table has one entry per key, that of the map. -/
structure Refines (s : PolicySys) : Prop where
  unique : OnePerKey s.table
  find : ∀ id, findEntry s.table id = s.completed id

theorem refines_init : Refines PolicySys.init := ⟨List.nodup_nil, fun _ => rfl⟩

theorem Refines.behaves {s : PolicySys} (h : Refines s) : BehavesAsMap s := by
  refine ⟨h.unique, fun id op => ?_, fun id => ?_⟩
  · cases hc : s.completed id <;> simp only [inodePolicyLookup, lookupCompleted, h.find id, hc]
  · cases hc : s.completed id <;> simp only [inodePolicyPath, pathCompleted, h.find id, hc]

/-- An add that finds an entry changes it as the completed call changes the map. -/
theorem find_modify {s : PolicySys} (h : Refines s) (req : AddReq) (hsome : (findEntry s.table req.id).isSome)
    (id : FileId) : findEntry (Keyed.modify PolicyEntry.id s.table req.id (·.set req.mask req.block req.path)) id =
      addCompleted s.completed req id := by
  obtain ⟨e, he⟩ := Option.isSome_iff_exists.1 hsome
  have hmod := Keyed.get_modify (fun e => set_id e req.mask req.block req.path) req.id id s.table
  have hm : s.completed req.id = some e := (h.find req.id).symm.trans he
  unfold findEntry at he ⊢
  rw [hmod, addCompleted, Function.update_apply, hm]
  split
  · rw [he]
    rfl
  · exact h.find id

/-- An insertion without another entry of its key adds to the map. -/
theorem find_insert {s : PolicySys} (h : Refines s) (req : AddReq) (hnone : findEntry s.table req.id = none)
    (id : FileId) : findEntry (addInsertLocked s.table req.id req.mask req.block req.path) id =
      addCompleted s.completed req id := by
  have hm : s.completed req.id = none := (h.find req.id).symm.trans hnone
  unfold addInsertLocked findEntry
  rw [Keyed.get_cons, addCompleted, Function.update_apply, hm, set_id]
  by_cases hid : id = req.id
  · rw [if_pos hid, if_pos hid.symm]
    rfl
  · rw [if_neg hid, if_neg fun he => hid he.symm]
    exact h.find id

theorem refines_step {s : PolicySys} {a : PolicyAct} (h : Refines s) (hok : PolicyOk s a) : Refines (s.step a) := by
  refine ⟨(onePerKey_step_iff h.unique).2 hok, fun id => ?_⟩
  cases a with
  | addSearch thread req =>
    simp only [PolicySys.step, PolicySys.search]
    split
    · split
      · next t ht =>
        obtain ⟨hsome, rfl⟩ := addUpdateLocked_eq_some.1 ht
        exact find_modify h req hsome id
      · exact h.find id
    · exact h.find id
  | addInsert thread kzalloc =>
    simp only [PolicySys.step]
    split
    · exact h.find id
    · next req hreq =>
      cases kzalloc with
      | true => exact find_insert h req (hok req hreq) id
      | false => exact h.find id
  | remove id' =>
    show Keyed.get PolicyEntry.id (s.table.eraseP (PolicyEntry.id · = id')) id = Function.update s.completed id' none id
    rw [Keyed.get_eraseP h.unique, Function.update_apply]
    split
    · rfl
    · exact h.find id
  | clear => rfl

/-! ## Runs -/

/-- All along a run of interleaved calls the table is the map of the completed ones exactly if every insertion, at
the time it takes the lock again, meets no entry of its key. -/
theorem policy_behaves_iff (acts : List PolicyAct) :
    (∀ pre, pre <+: acts → BehavesAsMap (runPolicy pre)) ↔ AllSteps PolicySys.step PolicyOk PolicySys.init acts := by
  have hunique : (∀ pre, pre <+: acts → OnePerKey (runPolicy pre).table) ↔
      AllSteps PolicySys.step PolicyOk PolicySys.init acts :=
    forall_prefix_iff (I := fun _ => True) (P := fun s : PolicySys => OnePerKey s.table) (fun _ _ _ => trivial)
      (fun _ _ _ h => onePerKey_step_iff h) trivial List.nodup_nil
  constructor
  · intro h
    exact hunique.1 fun pre hpre => (h pre hpre).unique
  · intro hok pre hpre
    have hrefines : Refines (runPolicy pre) :=
      foldl_invariant (fun _ _ h ha => refines_step h ha) pre _ refines_init (hok.of_isPrefix hpre)
    exact hrefines.behaves

theorem passwd_noZero : 0 ∉ ascii "/etc/passwd" := by decide

def passwd : AddReq := ⟨⟨8388609, 131⟩, igOpWrite, igBlockDeny, some ⟨ascii "/etc/passwd", passwd_noZero⟩⟩

/-- One add and then another one of the same key. -/
def addedTwice : List PolicyAct := [.addSearch 0 passwd, .addInsert 0 true, .addSearch 1 passwd]

theorem policy_behaves_addedTwice : ∀ pre, pre <+: addedTwice → BehavesAsMap (runPolicy pre) :=
  (policy_behaves_iff addedTwice).2 (by decide)

/-- Both adds search before either inserts, and then the key is removed. -/
def addedTogether : List PolicyAct :=
  [.addSearch 0 passwd, .addSearch 1 passwd, .addInsert 0 true, .addInsert 1 true, .remove passwd.id]

/-- The removed policy still matches. -/
theorem policy_addedTogether_fails : ¬ BehavesAsMap (runPolicy addedTogether) := by
  intro h
  have hlookup := h.lookup passwd.id igOpWrite
  revert hlookup
  decide

end KnIg.Lkm
