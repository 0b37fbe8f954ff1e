/-
Runs of a deterministic system over a list of actions: a condition asked of every step, the
induction that carries an invariant through a run whose steps all meet it, what some run can reach, and
conditions on the elements of a list that look back at what came before them.
-/
import Mathlib.Data.List.Chain

namespace Lib

section Run

variable {σ α : Type} (step : σ → α → σ)

/-- Every step of the run from `s` meets the condition in the state it starts from. -/
def AllSteps (ok : σ → α → Prop) : σ → List α → Prop
  | _, [] => True
  | s, a :: as => ok s a ∧ AllSteps ok (step s a) as

instance AllSteps.decidable (ok : σ → α → Prop) [∀ s a, Decidable (ok s a)] :
    ∀ (s : σ) (as : List α), Decidable (AllSteps step ok s as)
  | _, [] => inferInstanceAs (Decidable True)
  | s, a :: as =>
    have := AllSteps.decidable ok (step s a) as
    inferInstanceAs (Decidable (ok s a ∧ AllSteps step ok (step s a) as))

variable {step}

theorem allSteps_congr {ok ok' : σ → α → Prop} (h : ∀ s a, ok s a ↔ ok' s a) :
    ∀ {s : σ} {as : List α}, AllSteps step ok s as ↔ AllSteps step ok' s as
  | _, [] => Iff.rfl
  | s, a :: _ => and_congr (h s a) (allSteps_congr h)

/-- An invariant that every admitted step keeps holds at the end of every admitted run. -/
theorem foldl_invariant {ok : σ → α → Prop} {Inv : σ → Prop}
    (hstep : ∀ s a, Inv s → ok s a → Inv (step s a)) :
    ∀ (as : List α) (s : σ), Inv s → AllSteps step ok s as → Inv (as.foldl step s)
  | [], _, hi, _ => hi
  | a :: as, s, hi, hs => foldl_invariant hstep as (step s a) (hstep s a hi hs.1) hs.2

/-- A condition on every step is one on every step of any start of the run. -/
theorem AllSteps.of_isPrefix {ok : σ → α → Prop} {as bs : List α} (h : as <+: bs) {s : σ}
    (hs : AllSteps step ok s bs) : AllSteps step ok s as := by
  induction as generalizing bs s with
  | nil => trivial
  | cons a as ih =>
    cases bs with
    | nil => exact absurd (List.prefix_nil.1 h) (List.cons_ne_nil a as)
    | cons b bs =>
      obtain ⟨rfl, htail⟩ := List.cons_prefix_cons.1 h
      exact ⟨hs.1, ih htail hs.2⟩

theorem AllSteps.append {ok : σ → α → Prop} {as bs : List α} {s : σ} (has : AllSteps step ok s as)
    (hbs : AllSteps step ok (as.foldl step s) bs) : AllSteps step ok s (as ++ bs) := by
  induction as generalizing s with
  | nil => exact hbs
  | cons a as ih => exact ⟨has.1, ih has.2 hbs⟩

/-- The condition asked of every step, as one of each state that a start of the run reaches. -/
theorem allSteps_iff_prefixes {ok : σ → α → Prop} {as : List α} {s : σ} :
    AllSteps step ok s as ↔ ∀ before a, before ++ [a] <+: as → ok (before.foldl step s) a := by
  induction as generalizing s with
  | nil =>
    refine iff_of_true trivial fun before a h => ?_
    exact absurd (List.prefix_nil.1 h) (by simp)
  | cons b as ih =>
    constructor
    · rintro ⟨hb, has⟩ before a h
      cases before with
      | nil =>
        obtain ⟨rfl, -⟩ := List.cons_prefix_cons.1 h
        exact hb
      | cons c before =>
        obtain ⟨rfl, hpre⟩ := List.cons_prefix_cons.1 h
        exact ih.1 has before a hpre
    · intro h
      refine ⟨h [] b ⟨as, rfl⟩, ih.2 fun before a hpre => ?_⟩
      exact h (b :: before) a (List.cons_prefix_cons.2 ⟨rfl, hpre⟩)

/-- What each step keeps exactly under its condition, a run keeps exactly if all its steps meet theirs. -/
theorem foldl_iff {ok : σ → α → Prop} {Inv P : σ → Prop} (hinv : ∀ s a, Inv s → Inv (step s a))
    (hstep : ∀ s a, Inv s → (P (step s a) ↔ P s ∧ ok s a)) :
    ∀ (as : List α) (s : σ), Inv s → (P (as.foldl step s) ↔ P s ∧ AllSteps step ok s as)
  | [], s, _ => by simp [AllSteps]
  | a :: as, s, hs => by
    rw [List.foldl_cons, foldl_iff hinv hstep as (step s a) (hinv s a hs), hstep s a hs, and_assoc]
    rfl

/-- A property that a step keeps just when it meets its condition holds all along a run exactly if all the steps
meet theirs, also where a later step would restore it. -/
theorem forall_prefix_iff {ok : σ → α → Prop} {I P : σ → Prop} (hinv : ∀ s a, I s → I (step s a))
    (hstep : ∀ s a, I s → P s → (P (step s a) ↔ ok s a)) {as : List α} {s : σ} (hs : I s) (hP : P s) :
    (∀ pre, pre <+: as → P (pre.foldl step s)) ↔ AllSteps step ok s as := by
  induction as generalizing s with
  | nil =>
    constructor
    · intro _
      trivial
    · rintro - pre hpre
      rw [List.prefix_nil.1 hpre]
      exact hP
  | cons a as ih =>
    constructor
    · intro h
      have ha : P (step s a) := h [a] ⟨as, rfl⟩
      refine ⟨(hstep s a hs hP).1 ha, (ih (hinv s a hs) ha).1 fun pre hpre => ?_⟩
      exact h (a :: pre) (List.cons_prefix_cons.2 ⟨rfl, hpre⟩)
    · rintro ⟨hok, hrest⟩ pre hpre
      have ha : P (step s a) := (hstep s a hs hP).2 hok
      rcases List.prefix_cons_iff.1 hpre with rfl | ⟨rest, rfl, hrest_pre⟩
      · exact hP
      · exact (ih (hinv s a hs) ha).2 hrest rest hrest_pre

/-- A number that grows by one with every action of a kind counts the actions of that kind. -/
theorem foldl_counts (view : σ → Nat) {p : α → Bool}
    (h : ∀ s a, view (step s a) = view s + if p a = true then 1 else 0) (as : List α) (s : σ) :
    view (as.foldl step s) = view s + as.countP p := by
  induction as generalizing s with
  | nil => rfl
  | cons a as ih =>
    rw [List.foldl_cons, ih, h, List.countP_cons, Nat.add_assoc]
    omega

end Run

/-! ## What a run can reach -/

section CanReach

variable {σ α : Type} {step : σ → α → σ} {P Q : σ → Prop} {s : σ}

/-- Some run from the state ends where the condition holds. -/
def CanReach (step : σ → α → σ) (P : σ → Prop) (s : σ) : Prop := ∃ as : List α, P (as.foldl step s)

theorem canReach_here (h : P s) : CanReach step P s := ⟨[], h⟩

theorem CanReach.next (a : α) (h : CanReach step P (step s a)) : CanReach step P s := by
  obtain ⟨as, has⟩ := h
  exact ⟨a :: as, has⟩

theorem CanReach.trans (h : CanReach step P s) (hP : ∀ t, P t → CanReach step Q t) : CanReach step Q s := by
  obtain ⟨as, has⟩ := h
  obtain ⟨bs, hbs⟩ := hP _ has
  exact ⟨as ++ bs, by rwa [List.foldl_append]⟩

end CanReach

/-! ## Runs that may not return -/

section RunOption

variable {σ α : Type} {step : σ → α → Option σ}

/-- A run whose steps return depending on their action alone returns when all its actions allow it. -/
theorem foldlM_isSome_iff {Returns : α → Prop} (h : ∀ s a, (step s a).isSome ↔ Returns a) :
    ∀ (as : List α) (s : σ), (as.foldlM step s).isSome ↔ ∀ a ∈ as, Returns a
  | [], s => by simp
  | a :: as, s => by
    rw [List.foldlM_cons, List.forall_mem_cons, ← h s a]
    cases hs : step s a with
    | none => simp
    | some s' => simpa using foldlM_isSome_iff h as s'

/-- What every step that returns keeps, a run that returns keeps. -/
theorem foldlM_invariant {I : σ → Prop} (h : ∀ s a s', step s a = some s' → I s → I s') :
    ∀ (as : List α) {s s' : σ}, as.foldlM step s = some s' → I s → I s'
  | [], s, s', hs, hi => by cases hs; exact hi
  | a :: as, s, s', hs, hi => by
    rw [List.foldlM_cons] at hs
    obtain ⟨t, ht, hs⟩ := Option.bind_eq_some_iff.1 hs
    exact foldlM_invariant h as hs (h s a t ht hi)

/-- What each step does to a view of the state, a run that returns does in turn. -/
theorem foldlM_view {β : Type} (view : σ → β) {onView : β → α → β}
    (h : ∀ s a s', step s a = some s' → view s' = onView (view s) a) :
    ∀ (as : List α) {s s' : σ}, as.foldlM step s = some s' → view s' = as.foldl onView (view s)
  | [], s, s', hs => by cases hs; rfl
  | a :: as, s, s', hs => by
    rw [List.foldlM_cons] at hs
    obtain ⟨t, ht, hs⟩ := Option.bind_eq_some_iff.1 hs
    rw [List.foldl_cons, ← h s a t ht]
    exact foldlM_view view h as hs

end RunOption

/-! ## Lists as histories -/

section History

variable {α : Type}

/-- Every element of the list meets the condition given the history before the list and the elements
of the list before it. -/
def EachAfter (ok : List α → α → Prop) (hist as : List α) : Prop :=
  ∀ before a after, as = before ++ a :: after → ok (hist ++ before) a

variable {ok : List α → α → Prop} {hist as bs : List α} {a : α}

@[simp] theorem eachAfter_nil : EachAfter ok hist [] := by
  intro before a after h
  simp at h

theorem eachAfter_cons : EachAfter ok hist (a :: as) ↔ ok hist a ∧ EachAfter ok (hist ++ [a]) as := by
  constructor
  · intro h
    refine ⟨by simpa using h [] a as rfl, fun before b after hs => ?_⟩
    have hb := h (a :: before) b after (by rw [hs, List.cons_append])
    rwa [List.append_cons] at hb
  · rintro ⟨ha, has⟩ before b after hs
    cases before with
    | nil =>
      cases hs
      simpa using ha
    | cons c before =>
      obtain ⟨rfl, rfl⟩ : a = c ∧ as = before ++ b :: after := by simpa using hs
      have hb := has before b after rfl
      rwa [← List.append_cons] at hb

theorem eachAfter_append :
    EachAfter ok hist (as ++ bs) ↔ EachAfter ok hist as ∧ EachAfter ok (hist ++ as) bs := by
  induction as generalizing hist with
  | nil => simp
  | cons a as ih =>
    rw [List.cons_append, eachAfter_cons, eachAfter_cons, ih, and_assoc, List.append_assoc, List.singleton_append]

/-- Where a list first stops being a chain. -/
theorem exists_first_break {R : α → α → Prop} (h : ¬ as.IsChain R) :
    ∃ before a b after, as = before ++ a :: b :: after ∧ (before ++ [a]).IsChain R ∧ ¬ R a b := by
  induction as with
  | nil => exact absurd List.isChain_nil h
  | cons a as ih =>
    cases as with
    | nil => exact absurd (List.isChain_singleton a) h
    | cons b as =>
      by_cases hab : R a b
      · have hrest : ¬ (b :: as).IsChain R := fun hr => h (List.isChain_cons_cons.2 ⟨hab, hr⟩)
        obtain ⟨before, x, y, after, heq, hpre, hxy⟩ := ih hrest
        refine ⟨a :: before, x, y, after, by rw [heq, List.cons_append], ?_, hxy⟩
        refine List.isChain_cons.2 ⟨fun z hz => ?_, hpre⟩
        have hzb : z = b := by
          cases before with
          | nil =>
            cases hz
            exact (List.cons_eq_cons.1 heq).1.symm
          | cons c before =>
            cases hz
            exact (List.cons_eq_cons.1 heq).1.symm
        exact hzb ▸ hab
      · exact ⟨[], a, b, as, rfl, List.isChain_singleton a, hab⟩

end History

end Lib
