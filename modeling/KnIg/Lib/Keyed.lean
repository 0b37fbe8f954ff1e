/-
Lists of records found by a key: the first record of a key, its update in place, its removal, and
records appended behind the others.
-/
import Mathlib.Data.List.Perm.Basic

namespace Lib.Keyed

variable {α κ : Type} [DecidableEq κ] (key : α → κ)

/-- The first record of a key. -/
def get (l : List α) (k : κ) : Option α := l.find? (key · = k)

/-- The first record of a key changed in place. -/
def modify (l : List α) (k : κ) (f : α → α) : List α :=
  l.replaceF fun a => if key a = k then some (f a) else none

variable {key}

theorem get_cons (a : α) (l : List α) (k : κ) : get key (a :: l) k = if key a = k then some a else get key l k := by
  unfold get
  rw [List.find?_cons]
  by_cases h : key a = k <;> simp [h]

theorem mem_of_get {l : List α} {k : κ} {a : α} (h : get key l k = some a) : a ∈ l ∧ key a = k :=
  ⟨List.mem_of_find?_eq_some h, by simpa using List.find?_some h⟩

theorem get_eq_none {l : List α} {k : κ} : get key l k = none ↔ ∀ a ∈ l, key a ≠ k := by
  unfold get; rw [List.find?_eq_none]; simp

theorem get_append (l m : List α) (k : κ) : get key (l ++ m) k = (get key l k).or (get key m k) :=
  List.find?_append ..

theorem modify_cons (a : α) (l : List α) (k : κ) (f : α → α) :
    modify key (a :: l) k f = if key a = k then f a :: l else a :: modify key l k f := by
  unfold modify
  by_cases h : key a = k <;> simp [List.replaceF, h]

/-- A change in place that keeps the key is what a lookup of the key then finds, and the records of
other keys are found as before. -/
theorem get_modify {f : α → α} (hf : ∀ a, key (f a) = key a) (k k' : κ) : ∀ l : List α,
    get key (modify key l k f) k' = if k' = k then (get key l k).map f else get key l k'
  | [] => by simp [modify, get]
  | a :: l => by
    have ih := get_modify hf k k' l
    rw [modify_cons]
    by_cases hk : key a = k
    · rw [if_pos hk, get_cons, get_cons, get_cons, hf, hk, if_pos rfl]
      by_cases hk' : k' = k
      · simp [hk']
      · simp [hk', Ne.symm hk']
    · rw [if_neg hk, get_cons, get_cons, get_cons, if_neg hk]
      by_cases hk' : k' = k
      · subst hk'
        rw [if_pos rfl] at ih ⊢
        rw [if_neg hk, ih]
      · rw [if_neg hk'] at ih ⊢
        rw [ih]

theorem map_modify {f : α → α} (hf : ∀ a, key (f a) = key a) (l : List α) (k : κ) :
    (modify key l k f).map key = l.map key := by
  induction l with
  | nil => rfl
  | cons a l ih =>
    rw [modify_cons]
    split
    · rw [List.map_cons, List.map_cons, hf]
    · rw [List.map_cons, List.map_cons, ih]

/-- Without the first record of a key none of the key is left, when no two share theirs. -/
theorem get_eraseP {l : List α} (h : (l.map key).Nodup) (k k' : κ) :
    get key (l.eraseP (key · = k)) k' = if k' = k then none else get key l k' := by
  induction l with
  | nil => simp [get]
  | cons a l ih =>
    rw [List.map_cons, List.nodup_cons] at h
    rw [List.eraseP_cons, get_cons]
    by_cases ha : key a = k
    · rw [decide_eq_true ha, cond_true]
      by_cases hk : k' = k
      · rw [if_pos hk, get_eq_none]
        rintro b hb rfl
        exact h.1 (List.mem_map.2 ⟨b, hb, by rw [ha, hk]⟩)
      · rw [if_neg hk, if_neg (by rw [ha]; exact fun he => hk he.symm)]
    · rw [decide_eq_false ha, cond_false, get_cons, ih h.2]
      by_cases hk : k' = k
      · rw [if_pos hk, if_pos hk, if_neg (by rwa [hk])]
      · rw [if_neg hk, if_neg hk]

/-- The last record in the place of another, one record shorter: the other is gone, up to the order. -/
theorem dropLast_set_perm {l : List α} {i : Nat} {x : α} (hi : i < l.length) (hx : l.getLast? = some x) :
    (l.set i x).dropLast.Perm (l.eraseIdx i) := by
  obtain ⟨init, rfl⟩ := List.getLast?_eq_some_iff.1 hx
  rw [List.length_append, List.length_singleton] at hi
  rcases Nat.lt_succ_iff_lt_or_eq.1 hi with hlt | rfl
  · rw [List.set_append_left _ _ hlt, List.dropLast_concat, List.eraseIdx_append_of_lt_length hlt]
    exact (List.set_perm_cons_eraseIdx hlt x).trans (List.perm_append_singleton ..).symm
  · rw [List.eraseIdx_append_of_length_le (Nat.le_refl _)]
    simp

/-- A key is found when a record has it. -/
theorem get_isSome {l : List α} {k : κ} : (get key l k).isSome ↔ k ∈ l.map key := by
  rw [Option.isSome_iff_ne_none, ne_eq, get_eq_none, List.mem_map]
  simp

/-- Once its first record is gone, a key is found when it had another. -/
theorem get_isSome_of_perm_eraseP {l l' : List α} {k : κ} (h : l'.Perm (l.eraseP (key · = k))) (k' : κ) :
    (get key l' k').isSome ↔ if k' = k then 2 ≤ (l.map key).count k else (get key l k').isSome := by
  have hmap : (l.eraseP (key · = k)).map key = (l.map key).erase k := by
    rw [List.erase_eq_eraseP, List.eraseP_map]
    congr 2
    funext a
    simp [beq_eq_decide, eq_comm]
  rw [get_isSome, (h.map key).mem_iff, hmap]
  by_cases hk : k' = k
  · rw [if_pos hk, hk, ← List.count_pos_iff, List.count_erase_self]
    omega
  · rw [if_neg hk, get_isSome, List.mem_erase_of_ne hk]

end Lib.Keyed
