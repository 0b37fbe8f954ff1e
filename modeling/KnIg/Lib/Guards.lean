/-
Guards asked in turn: each answers and may change the state, and the first answer other than zero
ends the asking.
-/
import Mathlib.Data.List.Basic

namespace Lib

section Guards

variable {σ κ : Type} (guard : σ → κ → Int × σ)

/-- The first answer other than zero, or zero when none refuses, and the state left. -/
def askAll : σ → List κ → Int × σ
  | s, [] => (0, s)
  | s, c :: cs =>
    let r := guard s c
    if r.1 ≠ 0 then r else askAll r.2 cs

variable {guard} {I : σ → Prop}

theorem askAll_cons_refused {s : σ} {c : κ} {cs : List κ} (h : (guard s c).1 ≠ 0) :
    askAll guard s (c :: cs) = guard s c := by
  simp only [askAll]
  rw [if_pos h]

theorem askAll_cons_passed {s : σ} {c : κ} {cs : List κ} (h : (guard s c).1 = 0) :
    askAll guard s (c :: cs) = askAll guard (guard s c).2 cs := by
  simp only [askAll]
  rw [if_neg (not_not_intro h)]

theorem askAll_singleton (s : σ) (c : κ) : askAll guard s [c] = guard s c := by
  by_cases h : (guard s c).1 = 0
  · rw [askAll_cons_passed h]
    exact Prod.ext h.symm rfl
  · exact askAll_cons_refused h

/-- Questions that always pass without a trace can be left out. -/
theorem askAll_filter (sees : κ → Bool) (hkeep : ∀ s c, I s → I (guard s c).2) {cs : List κ}
    (hblind : ∀ c ∈ cs, sees c = false → ∀ s, I s → guard s c = (0, s)) {s : σ} (hs : I s) :
    askAll guard s cs = askAll guard s (cs.filter sees) := by
  induction cs generalizing s with
  | nil => rfl
  | cons c cs ih =>
    have ih := @ih fun d hd => hblind d (List.mem_cons_of_mem c hd)
    cases hc : sees c with
    | false =>
      have hpass := hblind c List.mem_cons_self hc s hs
      rw [askAll_cons_passed (by rw [hpass]), hpass, List.filter_cons_of_neg (by simp [hc])]
      exact ih hs
    | true =>
      rw [List.filter_cons_of_pos hc]
      by_cases hr : (guard s c).1 = 0
      · rw [askAll_cons_passed hr, askAll_cons_passed hr]
        exact ih (hkeep s c hs)
      · rw [askAll_cons_refused hr, askAll_cons_refused hr]

/-- Where each question is refused or not whatever was asked before, the asking is refused when one of them is. -/
theorem askAll_refused_iff {Refuses : κ → Prop} (hkeep : ∀ s c, I s → I (guard s c).2)
    (hrefuse : ∀ s c, I s → ((guard s c).1 ≠ 0 ↔ Refuses c)) {s : σ} (hs : I s) (cs : List κ) :
    (askAll guard s cs).1 ≠ 0 ↔ ∃ c ∈ cs, Refuses c := by
  induction cs generalizing s with
  | nil => simp [askAll]
  | cons c cs ih =>
    rw [List.exists_mem_cons_iff, ← hrefuse s c hs]
    by_cases hr : (guard s c).1 = 0
    · rw [askAll_cons_passed hr, ih (hkeep s c hs)]
      simp [hr]
    · rw [askAll_cons_refused hr]
      simp [hr]

end Guards

end Lib
