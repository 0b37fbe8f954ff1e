/-
Computations that return or raise: what a sequence of two returns, and what the results of a list of
them are.
-/
import Mathlib.Data.List.Basic

namespace Lib

variable {ε α β : Type}

/-- A sequence returns what its second part returns on what the first returned. -/
theorem bind_eq_ok {x : Except ε α} {f : α → Except ε β} {b : β} :
    x >>= f = .ok b ↔ ∃ a, x = .ok a ∧ f a = .ok b := by
  cases x with
  | error e => simp [bind, Except.bind]
  | ok a => simp [bind, Except.bind]

/-- If each result carries its argument, the list of results carries the list. -/
theorem map_of_mapM_eq_ok {f : α → Except ε β} {g : β → α} (h : ∀ a b, f a = .ok b → g b = a) :
    ∀ {as : List α} {bs : List β}, as.mapM f = .ok bs → bs.map g = as
  | [], bs, hbs => by cases hbs; rfl
  | a :: as, bs, hbs => by
    rw [List.mapM_cons] at hbs
    obtain ⟨b, hb, hbs⟩ := bind_eq_ok.1 hbs
    obtain ⟨bs', hbs', hbs⟩ := bind_eq_ok.1 hbs
    cases hbs
    rw [List.map_cons, h a b hb, map_of_mapM_eq_ok h hbs']

/-- If each result is a function of its argument, so is the list of results. -/
theorem eq_map_of_mapM_eq_ok {f : α → Except ε β} {g : α → β} (h : ∀ a b, f a = .ok b → b = g a) :
    ∀ {as : List α} {bs : List β}, as.mapM f = .ok bs → bs = as.map g
  | [], bs, hbs => by cases hbs; rfl
  | a :: as, bs, hbs => by
    rw [List.mapM_cons] at hbs
    obtain ⟨b, hb, hbs⟩ := bind_eq_ok.1 hbs
    obtain ⟨bs', hbs', hbs⟩ := bind_eq_ok.1 hbs
    cases hbs
    rw [List.map_cons, h a b hb, eq_map_of_mapM_eq_ok h hbs']

/-- A list of computations that all return returns. -/
theorem mapM_ok {f : α → Except ε β} : ∀ {as : List α}, (∀ a ∈ as, ∃ b, f a = .ok b) → ∃ bs, as.mapM f = .ok bs
  | [], _ => ⟨[], rfl⟩
  | a :: as, h => by
    obtain ⟨b, hb⟩ := h a List.mem_cons_self
    obtain ⟨bs, hbs⟩ := mapM_ok fun a' ha' => h a' (List.mem_cons_of_mem a ha')
    exact ⟨b :: bs, by rw [List.mapM_cons, hb, hbs]; rfl⟩

/-- A loop whose turns return depending on their item alone returns if all of its items allow it. -/
theorem foldlM_ok_iff {σ : Type} {f : σ → α → Except ε σ} {P : α → Prop}
    (h : ∀ s a, (∃ s', f s a = .ok s') ↔ P a) : ∀ (as : List α) (s : σ),
    (∃ s', as.foldlM f s = .ok s') ↔ ∀ a ∈ as, P a
  | [], s => by simp [pure, Except.pure]
  | a :: as, s => by
    rw [List.foldlM_cons, List.forall_mem_cons, ← h s a]
    constructor
    · rintro ⟨s'', hs''⟩
      obtain ⟨s', hs', hs''⟩ := bind_eq_ok.1 hs''
      exact ⟨⟨s', hs'⟩, (foldlM_ok_iff h as s').1 ⟨s'', hs''⟩⟩
    · rintro ⟨⟨s', hs'⟩, has⟩
      obtain ⟨s'', hs''⟩ := (foldlM_ok_iff h as s').2 has
      exact ⟨s'', bind_eq_ok.2 ⟨s', hs', hs''⟩⟩

/-- What every turn of a loop that returns keeps, the loop keeps. -/
theorem foldlM_ok_invariant {σ : Type} {f : σ → α → Except ε σ} {I : σ → Prop}
    (h : ∀ s a s', f s a = .ok s' → I s → I s') : ∀ (as : List α) {s s' : σ}, as.foldlM f s = .ok s' → I s → I s'
  | [], s, s', hs, hi => by
    cases hs
    exact hi
  | a :: as, s, s'', hs, hi => by
    rw [List.foldlM_cons] at hs
    obtain ⟨s', hs', hs⟩ := bind_eq_ok.1 hs
    exact foldlM_ok_invariant h as hs (h s a s' hs' hi)

end Lib
