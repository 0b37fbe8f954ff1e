/-
Ring buffers: slots used round and round, of which the `count` slots from the head on hold the queued
values, the oldest first. Taking from the front and adding at the back are those operations of a list.
-/
import Mathlib.Data.Nat.ModEq
import Mathlib.Logic.Function.Basic

namespace Lib

structure RingBuffer (α : Type) where
  slots : Nat → α
  head : Nat
  tail : Nat
  count : Nat

namespace RingBuffer

variable {α : Type} (n : Nat) (r : RingBuffer α)

/-- The tail is `count` slots after the head, at most once round. -/
structure WF : Prop where
  head_lt : r.head < n
  count_le : r.count ≤ n
  tail_eq : r.tail = (r.head + r.count) % n

/-- The queued values, oldest first. -/
def contents : List α := (List.range r.count).map fun i => r.slots ((r.head + i) % n)

def front : α := r.slots r.head

def dropFront : RingBuffer α := { r with head := (r.head + 1) % n, count := r.count - 1 }

def pushBack (a : α) : RingBuffer α :=
  { r with slots := Function.update r.slots r.tail a, tail := (r.tail + 1) % n, count := r.count + 1 }

@[simp] theorem contents_length : (r.contents n).length = r.count := by simp [contents]

variable {n : Nat} {r : RingBuffer α}

theorem contents_eq_nil (h : r.count = 0) : r.contents n = [] := by simp [contents, h]

/-! ## Taking from the front -/

theorem WF.dropFront (h : r.WF n) (hc : 0 < r.count) : (r.dropFront n).WF n where
  head_lt := Nat.mod_lt _ (Nat.lt_of_le_of_lt (Nat.zero_le r.head) h.head_lt)
  count_le := Nat.le_trans (Nat.sub_le r.count 1) h.count_le
  tail_eq := by
    show r.tail = ((r.head + 1) % n + (r.count - 1)) % n
    rw [h.tail_eq, Nat.mod_add_mod]
    congr 1
    omega

theorem contents_dropFront (h : r.WF n) (hc : 0 < r.count) :
    r.contents n = r.front :: (r.dropFront n).contents n := by
  obtain ⟨k, hk⟩ : ∃ k, r.count = k + 1 := ⟨r.count - 1, by omega⟩
  have hslot : ∀ i, ((r.head + 1) % n + i) % n = (r.head + (i + 1)) % n := by
    intro i
    rw [Nat.mod_add_mod]
    congr 1
    omega
  have hhead : r.head % n = r.head := Nat.mod_eq_of_lt h.head_lt
  simp [contents, RingBuffer.dropFront, front, hk, hslot, hhead, List.range_succ_eq_map, Function.comp_def]

/-! ## Adding at the back -/

theorem WF.pushBack (h : r.WF n) (hc : r.count < n) (a : α) : (r.pushBack n a).WF n where
  head_lt := h.head_lt
  count_le := hc
  tail_eq := by
    show (r.tail + 1) % n = (r.head + (r.count + 1)) % n
    rw [h.tail_eq, Nat.mod_add_mod, Nat.add_assoc]

/-- The slot at the tail is not in use unless the ring is full. -/
theorem WF.slot_ne_tail (h : r.WF n) (hc : r.count < n) {i : Nat} (hi : i < r.count) :
    (r.head + i) % n ≠ r.tail := by
  rw [h.tail_eq]
  intro heq
  have hmod : i % n = r.count % n := Nat.ModEq.add_left_cancel' r.head heq
  rw [Nat.mod_eq_of_lt (by omega), Nat.mod_eq_of_lt hc] at hmod
  omega

theorem contents_pushBack (h : r.WF n) (hc : r.count < n) (a : α) :
    (r.pushBack n a).contents n = r.contents n ++ [a] := by
  have hold : (List.range r.count).map (fun i => Function.update r.slots r.tail a ((r.head + i) % n)) =
      r.contents n := by
    refine List.map_congr_left fun i hi => ?_
    exact Function.update_of_ne (h.slot_ne_tail hc (List.mem_range.1 hi)) a r.slots
  have hnew : Function.update r.slots r.tail a ((r.head + r.count) % n) = a := by
    rw [← h.tail_eq, Function.update_self]
  show (List.range (r.count + 1)).map _ = _
  rw [List.range_succ, List.map_append]
  exact congrArg₂ _ hold (List.singleton_inj.2 hnew)

end RingBuffer

end Lib
