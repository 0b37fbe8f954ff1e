/-
A keyed function as an oracle: the inputs that were asked, and that no two of them had the same answer.
-/
import Mathlib.Data.List.Basic

namespace Lib

section Oracle

variable {κ δ τ : Type} {f : κ → δ → τ}

/-- Of the inputs that were asked, no two have the same answer. -/
def CollisionFree (f : κ → δ → τ) (asked : List (κ × δ)) : Prop :=
  ∀ q ∈ asked, ∀ q' ∈ asked, f q.1 q.2 = f q'.1 q'.2 → q = q'

instance [DecidableEq κ] [DecidableEq δ] [DecidableEq τ] (asked : List (κ × δ)) : Decidable (CollisionFree f asked) :=
  inferInstanceAs (Decidable (∀ q ∈ asked, ∀ q' ∈ asked, _ → _))

theorem CollisionFree.mono {asked asked' : List (κ × δ)} (h : CollisionFree f asked') (hsub : asked ⊆ asked') :
    CollisionFree f asked := fun q hq q' hq' => h q (hsub hq) q' (hsub hq')

/-- The two inputs that give a key derived from a derived key. -/
def ladder (f : κ → δ → τ) (key : τ → κ) (k : κ) (d label : δ) : List (κ × δ) := [(k, d), (key (f k d), label)]

/-- A key derived from a derived key determines what it was derived from. -/
theorem CollisionFree.ladder_inj {asked : List (κ × δ)} (h : CollisionFree f asked) {key : τ → κ}
    (hkey : Function.Injective key) {k k' : κ} {d d' label : δ} (hq : ladder f key k d label ⊆ asked)
    (hq' : ladder f key k' d' label ⊆ asked)
    (he : f (key (f k d)) label = f (key (f k' d')) label) : k = k' ∧ d = d' := by
  simp only [ladder, List.cons_subset, List.nil_subset, and_true] at hq hq'
  have hsecond := h _ hq.2 _ hq'.2 he
  have hfirst := h _ hq.1 _ hq'.1 (hkey (Prod.mk.inj hsecond).1)
  exact Prod.mk.inj hfirst

end Oracle

end Lib
