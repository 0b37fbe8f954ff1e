/-
A filter of a stream that remembers, in each of its slots, the last element of the slot that it let through: an
element that passes overwrites whatever its slot held. So the verdict on an element depends on one earlier element
alone, the last one of its slot that passed.
-/
import Mathlib.Data.List.Induction
import Mathlib.Logic.Function.Basic

namespace Lib

namespace SlotFilter

variable {α β ι : Type} [DecidableEq ι] (slot : α → ι) (entry : α → β) (drops : Option β → α → Bool)

/-- Whether the element is dropped, and the slots after it. -/
def check (t : ι → Option β) (a : α) : Bool × (ι → Option β) :=
  if drops (t (slot a)) a then (true, t) else (false, Function.update t (slot a) (some (entry a)))

/-- The slots after a stream. -/
def after (as : List α) : ι → Option β := as.foldl (fun t a => (check slot entry drops t a).2) fun _ => none

/-- The element is let through after the stream. -/
def Passes (as : List α) (a : α) : Prop := drops (after slot entry drops as (slot a)) a = false

instance (as : List α) (a : α) : Decidable (Passes slot entry drops as a) := inferInstanceAs (Decidable (_ = _))

/-- The element of the stream passed, and none of its slot after it did. -/
def LastPassed (as : List α) (s : ι) (d : α) : Prop :=
  ∃ before behind, as = before ++ d :: behind ∧ slot d = s ∧ Passes slot entry drops before d ∧
    ∀ mid e rest, behind = mid ++ e :: rest → slot e = s → ¬ Passes slot entry drops (before ++ d :: mid) e

variable {slot entry drops} {as : List α} {a d : α} {s : ι}

theorem after_snoc :
    after slot entry drops (as ++ [a]) s =
      if slot a = s ∧ Passes slot entry drops as a then some (entry a) else after slot entry drops as s := by
  have hsnoc : after slot entry drops (as ++ [a]) = (check slot entry drops (after slot entry drops as) a).2 := by
    unfold after
    rw [List.foldl_append, List.foldl_cons, List.foldl_nil]
  rw [hsnoc]
  unfold check
  by_cases h : Passes slot entry drops as a
  · simp only [show drops (after slot entry drops as (slot a)) a = false from h, Bool.false_eq_true, if_false, h,
      and_true, Function.update_apply, eq_comm (a := s)]
  · simp only [show drops (after slot entry drops as (slot a)) a = true by simpa [Passes] using h, if_true, h,
      and_false, if_false]

theorem lastPassed_snoc :
    LastPassed slot entry drops (as ++ [a]) s d ↔
      if slot a = s ∧ Passes slot entry drops as a then d = a else LastPassed slot entry drops as s d := by
  constructor
  · rintro ⟨before, behind, hsplit, hslot, hpass, hlast⟩
    rcases List.eq_nil_or_concat behind with rfl | ⟨behind, b, rfl⟩
    · obtain ⟨rfl, hda⟩ := List.append_inj' hsplit rfl
      obtain rfl : a = d := by simpa using hda
      rw [if_pos ⟨hslot, hpass⟩]
    · have hcons : as ++ [a] = (before ++ d :: behind) ++ [b] := by
        rw [hsplit, List.append_assoc, List.cons_append, List.concat_eq_append]
      obtain ⟨rfl, hab⟩ := List.append_inj' hcons rfl
      obtain rfl : a = b := by simpa using hab
      rw [if_neg fun h => hlast behind a [] (by simp) h.1 h.2]
      refine ⟨before, behind, rfl, hslot, hpass, fun mid e rest hmid => ?_⟩
      exact hlast mid e (rest ++ [a]) (by rw [hmid]; simp)
  · split
    · rintro rfl
      rename_i h
      exact ⟨as, [], rfl, h.1, h.2, fun mid e rest hnil => by simp at hnil⟩
    · rintro ⟨before, behind, rfl, hslot, hpass, hlast⟩
      rename_i hnot
      refine ⟨before, behind ++ [a], by simp, hslot, hpass, fun mid e rest hsplit he => ?_⟩
      rcases List.eq_nil_or_concat rest with rfl | ⟨rest, b, rfl⟩
      · obtain ⟨rfl, hea⟩ := List.append_inj' hsplit rfl
        obtain rfl : a = e := by simpa using hea
        exact fun h => hnot ⟨he, h⟩
      · have hcons : behind ++ [a] = (mid ++ e :: rest) ++ [b] := by
          rw [hsplit, List.append_assoc, List.cons_append, List.concat_eq_append]
        exact hlast mid e rest (List.append_inj' hcons rfl).1 he

/-- A slot holds the last element of it that passed, and nothing else. -/
theorem after_eq_some_iff {b : β} :
    after slot entry drops as s = some b ↔ ∃ d, LastPassed slot entry drops as s d ∧ entry d = b := by
  induction as using List.reverseRecOn with
  | nil =>
    constructor
    · intro h
      cases h
    · rintro ⟨d, ⟨before, behind, hsplit, -⟩, -⟩
      exact absurd hsplit (by simp)
  | append_singleton as a ih =>
    simp only [after_snoc, lastPassed_snoc]
    split
    · simp
    · exact ih

theorem LastPassed.mem (h : LastPassed slot entry drops as s d) :
    ∃ before behind, as = before ++ d :: behind ∧ Passes slot entry drops before d := by
  obtain ⟨before, behind, hsplit, -, hpass, -⟩ := h
  exact ⟨before, behind, hsplit, hpass⟩

/-- Where an empty slot drops nothing, an element is dropped on account of the last one of its slot that passed. -/
theorem not_passes_iff (hempty : ∀ a, drops none a = false) :
    ¬ Passes slot entry drops as a ↔
      ∃ d, LastPassed slot entry drops as (slot a) d ∧ drops (some (entry d)) a = true := by
  unfold Passes
  cases hslot : after slot entry drops as (slot a) with
  | none =>
    refine iff_of_false (fun h => h (hempty a)) ?_
    rintro ⟨d, hlast, -⟩
    rw [after_eq_some_iff.2 ⟨d, hlast, rfl⟩] at hslot
    cases hslot
  | some b =>
    rw [Bool.not_eq_false]
    constructor
    · intro h
      obtain ⟨d, hlast, rfl⟩ := after_eq_some_iff.1 hslot
      exact ⟨d, hlast, h⟩
    · rintro ⟨d, hlast, h⟩
      rw [after_eq_some_iff.2 ⟨d, hlast, rfl⟩] at hslot
      rwa [← Option.some.inj hslot]

end SlotFilter

end Lib
