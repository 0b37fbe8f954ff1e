/-
Recursive walks over a graph given by its children, without a visited set. A walk folds its visits
over its trace, and the trace of a walk that returns has exactly the reachable nodes; a walk that
follows children of growing rank below a bound returns, and one that reaches a node among its own
children never does.
-/
import Mathlib.Logic.Relation
import Mathlib.Data.List.Basic

namespace Lib.TreeWalk

section Walk

variable {π σ : Type} (children : π → List π)

/-- `c` is a child of `p`. -/
def Child (p c : π) : Prop := c ∈ children p

/-- `q` is reached from `p`. -/
abbrev Reached : π → π → Prop := Relation.ReflTransGen (Child children)

/-- The nodes a walk visits, in order; running out of fuel is a walk that does not return. -/
def trace : Nat → π → Option (List π)
  | 0, _ => none
  | fuel + 1, p => ((children p).mapM fun c => trace fuel c).map fun ts => p :: ts.flatten

/-- Visit a node and then walk each of its children. -/
def walk (visit : π → σ → σ) : Nat → π → σ → Option σ
  | 0, _, _ => none
  | fuel + 1, p, s => (children p).foldlM (fun s c => walk visit fuel c s) (visit p s)

variable {children}

/-- Walking in turn from each of a list of nodes folds the visits over their traces. -/
theorem foldlM_eq_fold {visit : π → σ → σ} {f : σ → π → Option σ} {t : π → Option (List π)}
    (h : ∀ c s, f s c = (t c).map (·.foldl (fun s p => visit p s) s)) : ∀ (cs : List π) (s : σ),
    cs.foldlM f s = (cs.mapM t).map fun ts => ts.flatten.foldl (fun s p => visit p s) s
  | [], s => rfl
  | c :: cs, s => by
    rw [List.foldlM_cons, List.mapM_cons, h]
    cases hc : t c with
    | none => rfl
    | some vs =>
      have ih := foldlM_eq_fold h cs (vs.foldl (fun s p => visit p s) s)
      simp only [Option.map_some, Option.bind_eq_bind, Option.bind_some, ih]
      cases cs.mapM t with
      | none => rfl
      | some ts => simp [List.foldl_append]

/-- A walk folds its visits over its trace. -/
theorem walk_eq_trace (visit : π → σ → σ) : ∀ (fuel : Nat) (p : π) (s : σ),
    walk children visit fuel p s = (trace children fuel p).map (·.foldl (fun s p => visit p s) s)
  | 0, _, _ => rfl
  | fuel + 1, p, s => by
    unfold walk trace
    rw [foldlM_eq_fold (fun c s => walk_eq_trace visit fuel c s), Option.map_map]
    rfl

theorem mem_flatten_of_mapM {t : π → Option (List π)} {P : π → π → Prop}
    (h : ∀ c vs, t c = some vs → ∀ q, q ∈ vs ↔ P c q) : ∀ (cs : List π) (ts : List (List π)),
    cs.mapM t = some ts → ∀ q, q ∈ ts.flatten ↔ ∃ c ∈ cs, P c q
  | [], ts, hts, q => by cases hts; simp
  | c :: cs, ts, hts, q => by
    rw [List.mapM_cons] at hts
    obtain ⟨vs, hvs, hts⟩ := Option.bind_eq_some_iff.1 hts
    obtain ⟨ts', hts', hts⟩ := Option.bind_eq_some_iff.1 hts
    cases hts
    rw [List.flatten_cons, List.mem_append, h c vs hvs, mem_flatten_of_mapM h cs ts' hts' q]
    simp only [List.mem_cons, exists_eq_or_imp]

/-- The trace of a walk that returns has exactly the nodes reached. -/
theorem mem_trace : ∀ (fuel : Nat) (p : π) (vs : List π), trace children fuel p = some vs →
    ∀ q, q ∈ vs ↔ Reached children p q
  | 0, _, _, h => by cases h
  | fuel + 1, p, vs, h => by
    intro q
    obtain ⟨ts, hts, rfl⟩ := Option.map_eq_some_iff.1 h
    rw [List.mem_cons, mem_flatten_of_mapM (fun c vs hc => mem_trace fuel c vs hc) _ _ hts]
    constructor
    · rintro (rfl | ⟨c, hc, hcq⟩)
      · exact .refl
      · exact .head hc hcq
    · intro hpq
      rcases Relation.ReflTransGen.cases_head hpq with rfl | ⟨c, hc, hcq⟩
      · exact .inl rfl
      · exact .inr ⟨c, hc, hcq⟩

theorem mapM_isSome {α β : Type} {t : α → Option β} : ∀ {cs : List α}, (∀ c ∈ cs, (t c).isSome) → (cs.mapM t).isSome
  | [], _ => rfl
  | c :: cs, h => by
    obtain ⟨b, hb⟩ := Option.isSome_iff_exists.1 (h c List.mem_cons_self)
    obtain ⟨bs, hbs⟩ := Option.isSome_iff_exists.1 (mapM_isSome fun c hc => h c (List.mem_cons_of_mem _ hc))
    rw [List.mapM_cons, hb, hbs]
    rfl

theorem mapM_eq_none {α β : Type} {t : α → Option β} {c : α} (hc : t c = none) :
    ∀ {cs : List α}, c ∈ cs → cs.mapM t = none
  | c' :: cs, h => by
    rw [List.mapM_cons]
    rcases List.mem_cons.1 h with rfl | h
    · rw [hc]; rfl
    · cases t c' with
      | none => rfl
      | some b => rw [mapM_eq_none hc h]; rfl

/-- A walk returns with enough fuel when ranks grow towards the children and stay below a bound. -/
theorem trace_isSome (rank : π → Nat) (bound : Nat) : ∀ (fuel : Nat) (p : π),
    (∀ q, Reached children p q → ∀ c ∈ children q, rank q < rank c ∧ rank c ≤ bound) →
    rank p ≤ bound → bound < fuel + rank p → (trace children fuel p).isSome
  | 0, p, _, hp, hf => absurd hf (by omega)
  | fuel + 1, p, h, hp, hf => by
    unfold trace
    rw [Option.isSome_map]
    refine mapM_isSome fun c hc => ?_
    obtain ⟨hlt, hle⟩ := h p .refl c hc
    exact trace_isSome rank bound fuel c (fun q hq => h q (Relation.ReflTransGen.head hc hq)) hle (by omega)

/-- A walk that reaches a node among its own children does not return. -/
theorem trace_runaway {p q : π} (hpq : Reached children p q) (hq : q ∈ children q) (fuel : Nat) :
    trace children fuel p = none := by
  induction hpq using Relation.ReflTransGen.head_induction_on generalizing fuel with
  | refl =>
    induction fuel with
    | zero => rfl
    | succ fuel ih => rw [trace, mapM_eq_none ih hq]; rfl
  | head hc _ ih =>
    cases fuel with
    | zero => rfl
    | succ fuel => rw [trace, mapM_eq_none (ih fuel) hc]; rfl

end Walk

end Lib.TreeWalk
