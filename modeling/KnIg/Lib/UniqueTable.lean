/-
Tables whose rows have distinct keys: inserting, updating and deleting rows as a database with a
unique key does, the row found under a key after each, and selections that make up another one.
-/
import KnIg.Lib.Keyed
import Mathlib.Data.List.Nodup

namespace Lib

/-- A table in which no two rows share their key. -/
structure UniqueTable {ρ κ : Type} (key : ρ → κ) where
  rows : List ρ
  nodup : (rows.map key).Nodup

namespace UniqueTable

variable {ρ κ : Type} [DecidableEq κ] {key : ρ → κ}

def empty : UniqueTable key := ⟨[], List.nodup_nil⟩

/-- The row of a key. -/
def find (t : UniqueTable key) (k : κ) : Option ρ := Keyed.get key t.rows k

/-- Add a row, unless its key is taken. -/
def insert (t : UniqueTable key) (r : ρ) : Option (UniqueTable key) :=
  if h : key r ∈ t.rows.map key then none
  else
    some
      { rows := t.rows ++ [r]
        nodup := by
          rw [List.map_append, List.map_singleton, List.nodup_append]
          refine ⟨t.nodup, List.nodup_singleton _, fun a ha b hb => ?_⟩
          rw [List.mem_singleton] at hb
          rintro rfl
          exact h (hb ▸ ha) }

/-- Change the rows that meet a condition; the change leaves their keys. -/
def update (t : UniqueTable key) (p : ρ → Bool) (f : ρ → ρ) (hf : ∀ r, key (f r) = key r) : UniqueTable key where
  rows := t.rows.map fun r => if p r then f r else r
  nodup := by
    have hkeys : (t.rows.map fun r => if p r then f r else r).map key = t.rows.map key := by
      rw [List.map_map]
      refine List.map_congr_left fun r _ => ?_
      by_cases hp : p r <;> simp [hp, hf]
    rw [hkeys]
    exact t.nodup

/-- Drop the rows that meet a condition. -/
def delete (t : UniqueTable key) (p : ρ → Bool) : UniqueTable key where
  rows := t.rows.filter (!p ·)
  nodup := t.nodup.sublist (List.filter_sublist.map key)

/-- How many rows meet a condition. -/
def count (t : UniqueTable key) (p : ρ → Bool) : Nat := t.rows.countP p

theorem find_eq_some {t : UniqueTable key} {k : κ} {r : ρ} : t.find k = some r ↔ r ∈ t.rows ∧ key r = k := by
  constructor
  · exact Keyed.mem_of_get
  · rintro ⟨hr, rfl⟩
    unfold find
    cases h : Keyed.get key t.rows (key r) with
    | none => exact absurd rfl (Keyed.get_eq_none.1 h r hr)
    | some r' =>
      obtain ⟨hr', hk⟩ := Keyed.mem_of_get h
      rw [List.inj_on_of_nodup_map t.nodup hr' hr hk]

theorem find_insert {t t' : UniqueTable key} {r : ρ} (h : t.insert r = some t') (k : κ) :
    t'.find k = if key r = k then some r else t.find k := by
  unfold insert at h
  split at h
  · cases h
  · rename_i hfree
    cases h
    unfold find
    rw [Keyed.get_append]
    by_cases hk : key r = k
    · have hnone : Keyed.get key t.rows k = none :=
        Keyed.get_eq_none.2 fun a ha hak => hfree (List.mem_map.2 ⟨a, ha, hak.trans hk.symm⟩)
      rw [if_pos hk, hnone, Keyed.get_cons, if_pos hk]
      rfl
    · rw [if_neg hk, Keyed.get_cons, if_neg hk]
      cases Keyed.get key t.rows k <;> rfl

/-- A row whose key is taken cannot be added. -/
theorem find_of_insert {t t' : UniqueTable key} {r : ρ} (h : t.insert r = some t') : t.find (key r) = none := by
  unfold insert at h
  split at h
  · cases h
  · rename_i hfree
    exact Keyed.get_eq_none.2 fun a ha hak => hfree (List.mem_map.2 ⟨a, ha, hak⟩)

theorem find_update (t : UniqueTable key) (p : ρ → Bool) (f : ρ → ρ) (hf : ∀ r, key (f r) = key r) (k : κ) :
    (t.update p f hf).find k = (t.find k).map fun r => if p r then f r else r := by
  have hkey : ∀ r, key (if p r then f r else r) = key r := fun r => by
    by_cases hp : p r <;> simp [hp, hf]
  cases h : t.find k with
  | some r =>
    obtain ⟨hr, hk⟩ := find_eq_some.1 h
    exact find_eq_some.2 ⟨List.mem_map.2 ⟨r, hr, rfl⟩, (hkey r).trans hk⟩
  | none =>
    refine Keyed.get_eq_none.2 fun a ha => ?_
    obtain ⟨r, hr, rfl⟩ := List.mem_map.1 ha
    rw [hkey]
    exact Keyed.get_eq_none.1 h r hr

theorem find_delete (t : UniqueTable key) (p : ρ → Bool) (k : κ) :
    (t.delete p).find k = (t.find k).filter (!p ·) := by
  cases h : t.find k with
  | some r =>
    obtain ⟨hr, hk⟩ := find_eq_some.1 h
    by_cases hp : p r
    · simp only [Option.filter_some, hp, Bool.not_true, Bool.false_eq_true, if_false]
      refine Keyed.get_eq_none.2 fun a ha hak => ?_
      obtain ⟨ha, hpa⟩ := List.mem_filter.1 ha
      rw [List.inj_on_of_nodup_map t.nodup ha hr (hak.trans hk.symm), hp] at hpa
      cases hpa
    · simp only [Option.filter_some, hp, Bool.not_false, if_true]
      exact find_eq_some.2 ⟨List.mem_filter.2 ⟨hr, by simp [hp]⟩, hk⟩
  | none =>
    refine Keyed.get_eq_none.2 fun a ha => ?_
    exact Keyed.get_eq_none.1 h a (List.mem_of_mem_filter ha)

/-- No row of a key meets a condition exactly when the row found under it does not. -/
theorem count_key_eq_zero {t : UniqueTable key} {q : ρ → Bool} {k : κ} :
    t.count (fun r => decide (key r = k) && q r) = 0 ↔ ∀ r, t.find k = some r → q r = false := by
  unfold count
  rw [List.countP_eq_zero]
  constructor
  · intro h r hr
    obtain ⟨hmem, hk⟩ := find_eq_some.1 hr
    simpa [hk] using h r hmem
  · intro h r hmem hq
    obtain ⟨hk, hq⟩ := Bool.and_eq_true_iff.1 hq
    rw [h r (find_eq_some.2 ⟨hmem, of_decide_eq_true hk⟩)] at hq
    cases hq

omit [DecidableEq κ] in
/-- The key of a row is selected when the row is. -/
theorem mem_map_filter {t : UniqueTable key} {r : ρ} (hr : r ∈ t.rows) (p : ρ → Bool) :
    key r ∈ (t.rows.filter p).map key ↔ p r = true := by
  constructor
  · intro h
    obtain ⟨a, ha, hak⟩ := List.mem_map.1 h
    obtain ⟨ha, hpa⟩ := List.mem_filter.1 ha
    rwa [List.inj_on_of_nodup_map t.nodup ha hr hak] at hpa
  · intro h
    exact List.mem_map.2 ⟨r, List.mem_filter.2 ⟨hr, h⟩, rfl⟩

omit [DecidableEq κ] in
theorem nodup_map_filter (t : UniqueTable key) (p : ρ → Bool) : ((t.rows.filter p).map key).Nodup :=
  t.nodup.sublist (List.filter_sublist.map key)

omit [DecidableEq κ] in
/-- Two selections have no key in common when no row is in both. -/
theorem disjoint_map_filter {t : UniqueTable key} {p q : ρ → Bool} :
    ((t.rows.filter p).map key).Disjoint ((t.rows.filter q).map key) ↔
      ∀ r ∈ t.rows, ¬ (p r = true ∧ q r = true) := by
  constructor
  · rintro h r hr ⟨hp, hq⟩
    exact h ((mem_map_filter hr p).2 hp) ((mem_map_filter hr q).2 hq)
  · intro h k hk hk'
    obtain ⟨r, hr, rfl⟩ := List.mem_map.1 hk
    obtain ⟨hr, hp⟩ := List.mem_filter.1 hr
    exact h r hr ⟨hp, (mem_map_filter hr q).1 hk'⟩

theorem toNat_add_toNat_eq (a b c : Bool) :
    a.toNat + b.toNat = c.toNat ↔ ¬ (a = true ∧ b = true) ∧ ((a = true ∨ b = true) ↔ c = true) := by
  cases a <;> cases b <;> cases c <;> decide

omit [DecidableEq κ] in
/-- Two selections make up a third when every row is selected as often. -/
theorem filter_append_perm_iff (t : UniqueTable key) (p q s : ρ → Bool) :
    ((t.rows.filter p).map key ++ (t.rows.filter q).map key).Perm ((t.rows.filter s).map key) ↔
      ∀ r ∈ t.rows, (p r).toNat + (q r).toNat = (s r).toNat := by
  simp only [toNat_add_toNat_eq, forall_and]
  constructor
  · intro h
    have hnodup := List.nodup_append'.1 (h.nodup_iff.2 (t.nodup_map_filter s))
    refine ⟨disjoint_map_filter.1 hnodup.2.2, fun r hr => ?_⟩
    have hmem := h.mem_iff (a := key r)
    rwa [List.mem_append, mem_map_filter hr, mem_map_filter hr, mem_map_filter hr] at hmem
  · rintro ⟨hdisj, hor⟩
    have hnodup := List.nodup_append'.2
      ⟨t.nodup_map_filter p, t.nodup_map_filter q, disjoint_map_filter.2 hdisj⟩
    refine (List.perm_ext_iff_of_nodup hnodup (t.nodup_map_filter s)).2 fun k => ?_
    simp only [List.mem_append, List.mem_map, List.mem_filter]
    constructor
    · rintro (⟨r, ⟨hr, hp⟩, rfl⟩ | ⟨r, ⟨hr, hq⟩, rfl⟩)
      · exact ⟨r, ⟨hr, (hor r hr).1 (.inl hp)⟩, rfl⟩
      · exact ⟨r, ⟨hr, (hor r hr).1 (.inr hq)⟩, rfl⟩
    · rintro ⟨r, ⟨hr, hs⟩, rfl⟩
      rcases (hor r hr).2 hs with hp | hq
      · exact .inl ⟨r, ⟨hr, hp⟩, rfl⟩
      · exact .inr ⟨r, ⟨hr, hq⟩, rfl⟩

end UniqueTable

end Lib
