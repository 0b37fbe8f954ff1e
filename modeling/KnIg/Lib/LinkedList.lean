/-
A doubly linked list in the links of its nodes: each node points to the one before it and the one behind it, and there
is a pointer to either end. Taking a node out and putting one in front change only the links next to it; what the
pointers stand for is a list of the nodes.
-/
import Mathlib.Data.List.Nodup
import Mathlib.Logic.Function.Basic

namespace Lib

structure Links (ι : Type) where
  prev : ι → Option ι
  next : ι → Option ι
  head : Option ι
  tail : Option ι

namespace Links

variable {ι : Type} [DecidableEq ι]

def empty : Links ι := ⟨fun _ => none, fun _ => none, none, none⟩

/-- The node before `n`, or the head, now points to the node behind it. -/
def skipForward (d : Links ι) (n : ι) : Links ι :=
  match d.prev n with
  | some p => { d with next := Function.update d.next p (d.next n) }
  | none => { d with head := d.next n }

/-- The node behind `n`, or the tail, now points to the node before it. -/
def skipBackward (d : Links ι) (n : ι) : Links ι :=
  match d.next n with
  | some q => { d with prev := Function.update d.prev q (d.prev n) }
  | none => { d with tail := d.prev n }

def unlink (d : Links ι) (n : ι) : Links ι :=
  let d := (d.skipForward n).skipBackward n
  { d with prev := Function.update d.prev n none, next := Function.update d.next n none }

def pushFront (d : Links ι) (n : ι) : Links ι :=
  let d := { d with prev := Function.update d.prev n none, next := Function.update d.next n d.head }
  let d :=
    match d.head with
    | some h => { d with prev := Function.update d.prev h (some n) }
    | none => d
  let d := { d with head := some n }
  match d.tail with
  | some _ => d
  | none => { d with tail := some n }

/-- The pointers stand for this list. -/
structure Is (d : Links ι) (l : List ι) : Prop where
  nodup : l.Nodup
  head : d.head = l.head?
  tail : d.tail = l.getLast?
  links : ∀ x a y, l = x ++ a :: y → d.prev a = x.getLast? ∧ d.next a = y.head?

variable {d : Links ι} {l : List ι} {n a : ι}

omit [DecidableEq ι] in
theorem is_empty : (empty : Links ι).Is [] where
  nodup := List.nodup_nil
  head := rfl
  tail := rfl
  links x a y h := by simp at h

/-! ## Taking a node out -/

section Unlink

variable (hself : d.prev n ≠ some n)
include hself

theorem skipForward_next_self : (d.skipForward n).next n = d.next n := by
  unfold skipForward
  split
  · rename_i p hp
    have hne : n ≠ p := fun h => hself (h.symm ▸ hp)
    exact Function.update_of_ne hne ..
  · rfl

theorem unlink_head : (d.unlink n).head = if d.prev n = none then d.next n else d.head := by
  unfold unlink skipBackward
  dsimp only
  rw [skipForward_next_self hself]
  unfold skipForward
  cases hp : d.prev n <;> cases hq : d.next n <;> simp

theorem unlink_tail : (d.unlink n).tail = if d.next n = none then d.prev n else d.tail := by
  unfold unlink skipBackward
  dsimp only
  rw [skipForward_next_self hself]
  unfold skipForward
  cases hp : d.prev n <;> cases hq : d.next n <;> simp [hp]

theorem unlink_next (ha : a ≠ n) : (d.unlink n).next a = if d.prev n = some a then d.next n else d.next a := by
  unfold unlink skipBackward
  dsimp only
  rw [Function.update_of_ne ha, skipForward_next_self hself]
  unfold skipForward
  cases hp : d.prev n <;> cases hq : d.next n <;> simp [Function.update_apply, eq_comm]

theorem unlink_prev (ha : a ≠ n) : (d.unlink n).prev a = if d.next n = some a then d.prev n else d.prev a := by
  unfold unlink skipBackward
  dsimp only
  rw [Function.update_of_ne ha, skipForward_next_self hself]
  unfold skipForward
  cases hp : d.prev n <;> cases hq : d.next n <;> simp [Function.update_apply, eq_comm, hp]

end Unlink

/-- Taking a node out leaves the others in their order. -/
theorem Is.unlink {x y : List ι} (h : d.Is (x ++ n :: y)) : (d.unlink n).Is (x ++ y) := by
  obtain ⟨hprev, hnext⟩ := h.links x n y rfl
  have hnodup := h.nodup
  rw [List.nodup_append, List.nodup_cons] at hnodup
  obtain ⟨hx, ⟨hny, hy⟩, hdisj⟩ := hnodup
  have hnx : n ∉ x := fun hn => hdisj n hn n List.mem_cons_self rfl
  have hself : d.prev n ≠ some n := fun hn => hnx (List.mem_of_getLast? (hprev ▸ hn))
  constructor
  · exact List.nodup_append.2 ⟨hx, hy, fun a ha b hb => hdisj a ha b (List.mem_cons_of_mem n hb)⟩
  · rw [unlink_head hself, hprev, hnext, h.head]
    cases x <;> simp
  · rw [unlink_tail hself, hprev, hnext, h.tail]
    cases y with
    | nil => simp
    | cons b y => simp [List.getLast?_append]
  · intro u a v huv
    have hbehind : ∀ m, u = x ++ m → y = m ++ a :: v →
        (d.unlink n).prev a = u.getLast? ∧ (d.unlink n).next a = v.head? := by
      rintro m rfl rfl
      obtain ⟨hpa, hna⟩ := h.links (x ++ n :: m) a v (by simp)
      have han : a ≠ n := fun han => hny (by simp [han])
      have hax : a ∉ x := fun hax => hdisj a hax a (by simp) rfl
      have hlast : x.getLast? ≠ some a := fun hlast => hax (List.mem_of_getLast? hlast)
      rw [unlink_prev hself han, unlink_next hself han, hprev, hnext, if_neg hlast, hpa]
      refine ⟨?_, hna⟩
      cases m with
      | nil => simp
      | cons b m =>
        have hba : b ≠ a := fun hba => by simp [hba] at hy
        simp [hba, List.getLast?_append, List.getLast?_cons_cons]
    rcases List.append_eq_append_iff.1 huv with ⟨m, hu, hm⟩ | ⟨m, hu, hm⟩
    · exact hbehind m hu hm
    cases m with
    | nil => exact hbehind [] (by simpa using hu.symm) (by simpa using hm.symm)
    | cons b m =>
      obtain ⟨rfl, rfl⟩ : a = b ∧ v = m ++ y := by simpa using hm
      subst hu
      obtain ⟨hpa, hna⟩ := h.links u a (m ++ n :: y) (by simp)
      have han : a ≠ n := fun han => hnx (by simp [han])
      have hay : a ∉ y := fun hay => hdisj a (by simp) a (List.mem_cons_of_mem n hay) rfl
      have hfirst : y.head? ≠ some a := fun hfirst => hay (List.mem_of_head? hfirst)
      rw [unlink_prev hself han, unlink_next hself han, hprev, hnext, if_neg hfirst, hna]
      refine ⟨hpa, ?_⟩
      cases m with
      | nil => simp
      | cons c m =>
        have hlast : (u ++ a :: c :: m).getLast? ≠ some a := by
          rw [List.getLast?_append, List.getLast?_cons_cons]
          intro hlast
          have ham : a ∈ c :: m := List.mem_of_getLast? (by simpa using hlast)
          exact (List.nodup_cons.1 (List.nodup_append.1 hx).2.1).1 ham
        rw [if_neg hlast]
        rfl

/-! ## Putting a node in front -/

theorem pushFront_head (d : Links ι) (n : ι) : (d.pushFront n).head = some n := by
  unfold pushFront
  cases d.head <;> cases d.tail <;> rfl

theorem pushFront_tail (d : Links ι) (n : ι) : (d.pushFront n).tail = some (d.tail.getD n) := by
  unfold pushFront
  cases d.head <;> cases d.tail <;> simp

theorem pushFront_next (d : Links ι) (n a : ι) :
    (d.pushFront n).next a = if a = n then d.head else d.next a := by
  unfold pushFront
  cases d.head <;> cases d.tail <;> exact Function.update_apply ..

theorem pushFront_prev (d : Links ι) (n a : ι) :
    (d.pushFront n).prev a = if d.head = some a then some n else if a = n then none else d.prev a := by
  unfold pushFront
  cases d.head <;> cases d.tail <;> simp [Function.update_apply, eq_comm]

/-- A node that is put in front comes before the others. -/
theorem Is.pushFront (h : d.Is l) (hn : n ∉ l) : (d.pushFront n).Is (n :: l) := by
  constructor
  · exact List.nodup_cons.2 ⟨hn, h.nodup⟩
  · exact pushFront_head d n
  · rw [pushFront_tail, h.tail]
    cases l with
    | nil => rfl
    | cons b l =>
      rw [List.getLast?_cons_cons, List.getLast?_eq_getLast_of_ne_nil (List.cons_ne_nil b l)]
      rfl
  · intro x a y hxy
    rw [pushFront_prev, pushFront_next, h.head]
    cases x with
    | nil =>
      obtain ⟨rfl, rfl⟩ : n = a ∧ l = y := by simpa using hxy
      have hfirst : l.head? ≠ some n := fun hfirst => hn (List.mem_of_head? hfirst)
      simp [hfirst]
    | cons b x =>
      obtain ⟨rfl, rfl⟩ : n = b ∧ l = x ++ a :: y := by simpa using hxy
      obtain ⟨hpa, hna⟩ := h.links x a y rfl
      have han : a ≠ n := fun han => hn (by simp [han])
      rw [if_neg han, if_neg han, hpa, hna]
      refine ⟨?_, rfl⟩
      cases x with
      | nil => simp
      | cons c x =>
        have hca : c ≠ a := fun hca => by
          have hnodup := h.nodup
          simp [hca] at hnodup
        simp [hca, List.getLast?_cons_cons]

end Links

end Lib
