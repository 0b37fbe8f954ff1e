/-
Words that delimit themselves: a stream of them splits into words in one way only, and a word cut
short is not made up by the words before it.
-/
import KnIg.Lib.Wire

namespace Lib

section Delimited

variable {ι α : Type} {enc : ι → List α}

/-- The first word of a stream is determined by the stream, and is not empty. -/
structure Delimited (enc : ι → List α) : Prop where
  head : ∀ a b x y, enc a ++ x = enc b ++ y → a = b
  nonempty : ∀ a, enc a ≠ []

namespace Delimited

variable (h : Delimited enc)
include h

theorem cons_eq {a b : ι} {x y : List α} (he : enc a ++ x = enc b ++ y) : a = b ∧ x = y := by
  obtain rfl := h.head a b x y he
  exact ⟨rfl, List.append_cancel_left he⟩

/-- Words that a stream of words starts with are its first words. -/
theorem flatMap_append_eq {as bs : List ι} {x : List α} (he : as.flatMap enc ++ x = bs.flatMap enc) :
    ∃ cs, bs = as ++ cs ∧ x = cs.flatMap enc := by
  induction as generalizing bs with
  | nil => exact ⟨bs, rfl, he⟩
  | cons a as ih =>
    cases bs with
    | nil =>
      have ha : enc a = [] := by
        simp only [List.flatMap_cons, List.flatMap_nil, List.append_eq_nil_iff] at he
        exact he.1.1
      exact absurd ha (h.nonempty a)
    | cons b bs =>
      rw [List.flatMap_cons, List.flatMap_cons, List.append_assoc] at he
      obtain ⟨rfl, htail⟩ := h.cons_eq he
      obtain ⟨cs, rfl, hx⟩ := ih htail
      exact ⟨cs, rfl, hx⟩

theorem flatMap_injective {as bs : List ι} (he : as.flatMap enc = bs.flatMap enc) : as = bs := by
  have he' : as.flatMap enc ++ [] = bs.flatMap enc := by rw [List.append_nil, he]
  obtain ⟨cs, rfl, hx⟩ := h.flatMap_append_eq he'
  cases cs with
  | nil => rw [List.append_nil]
  | cons c cs => exact absurd (List.append_eq_nil_iff.1 hx.symm).1 (h.nonempty c)

/-- Part of a word, short of all of it, is no stream of words. -/
theorem cut_ne {c : ι} {x : List α} {bs : List ι} (hc : x <+: enc c) (hne : x ≠ enc c) (h0 : x ≠ []) :
    x ≠ bs.flatMap enc := by
  rintro rfl
  cases bs with
  | nil => exact h0 rfl
  | cons b bs =>
    obtain ⟨y, hy⟩ := hc
    rw [List.flatMap_cons, List.append_assoc] at hy
    obtain ⟨rfl, hr⟩ := h.cons_eq (y := []) (by rw [hy, List.append_nil])
    have hbs : bs.flatMap enc = [] := (List.append_eq_nil_iff.1 hr).1
    exact hne (by rw [List.flatMap_cons, hbs, List.append_nil])

end Delimited

/-- What a reader reads back delimits itself. -/
theorem Reader.Reads.delimited {ε β : Type} {enc : ι → Bytes} {val : ι → β} {r : Reader ε β}
    (hr : ∀ a, Reads r (enc a) (val a)) (hval : Function.Injective val) (hne : ∀ a, enc a ≠ []) :
    Delimited enc := by
  refine ⟨fun a b x y he => ?_, hne⟩
  have ha : (Except.ok (val b, y) : Except ε (β × Bytes)) = .ok (val a, x) := by rw [← hr b y, ← he, hr a x]
  injection ha with ha
  exact hval (Prod.ext_iff.1 ha).1.symm

end Delimited

end Lib
