/-
Dictionaries in the order their keys were first set, the counts of a list's elements in such a
dictionary, the counts of the elements of a list under the keys they have, and stable sorting by a key.
-/
import Mathlib.Data.List.Basic
import Mathlib.Data.List.Count
import Mathlib.Data.List.Nodup
import Mathlib.Data.List.Sort
import Mathlib.Order.Lex

namespace Lib

/-- A dictionary: rows in the order their keys were first set, no key twice. -/
structure Dict (κ ν : Type) where
  rows : List (κ × ν)
  nodup : (rows.map Prod.fst).Nodup

namespace Dict

section Rows

variable {κ ν : Type} [DecidableEq κ]

/-- The value of a key set from its value so far, or from `z` behind the other rows. -/
def updRows (z : ν) (f : ν → ν) (k : κ) : List (κ × ν) → List (κ × ν)
  | [] => [(k, f z)]
  | (k', v) :: rows => if k' = k then (k', f v) :: rows else (k', v) :: updRows z f k rows

theorem mem_keys_updRows (z : ν) (f : ν → ν) (k x : κ) (rows : List (κ × ν)) :
    x ∈ (updRows z f k rows).map Prod.fst ↔ x ∈ rows.map Prod.fst ∨ x = k := by
  induction rows with
  | nil => simp [updRows]
  | cons r rows ih =>
    obtain ⟨k', v⟩ := r
    simp only [updRows]
    split
    · rename_i hk
      subst hk
      simp
      tauto
    · simp [ih, or_assoc]

theorem nodup_updRows (z : ν) (f : ν → ν) (k : κ) {rows : List (κ × ν)} (h : (rows.map Prod.fst).Nodup) :
    ((updRows z f k rows).map Prod.fst).Nodup := by
  induction rows with
  | nil => simp [updRows]
  | cons r rows ih =>
    obtain ⟨k', v⟩ := r
    rw [List.map_cons, List.nodup_cons] at h
    simp only [updRows]
    split
    · exact List.nodup_cons.2 h
    · rename_i hk
      rw [List.map_cons, List.nodup_cons, mem_keys_updRows]
      exact ⟨fun hm => hm.elim h.1 hk, ih h.2⟩

end Rows

variable {κ ν : Type} [DecidableEq κ]

def empty : Dict κ ν := ⟨[], List.nodup_nil⟩

def upd (d : Dict κ ν) (z : ν) (f : ν → ν) (k : κ) : Dict κ ν := ⟨updRows z f k d.rows, nodup_updRows z f k d.nodup⟩

def keys (d : Dict κ ν) : List κ := d.rows.map Prod.fst

def getD (d : Dict κ ν) (k : κ) (z : ν) : ν := (d.rows.lookup k).getD z

theorem mem_keys_upd (d : Dict κ ν) (z : ν) (f : ν → ν) (k x : κ) :
    x ∈ (d.upd z f k).keys ↔ x ∈ d.keys ∨ x = k := mem_keys_updRows z f k x d.rows

/-- One more of a key. -/
def incr (d : Dict κ Nat) (k : κ) : Dict κ Nat := d.upd 0 (· + 1) k

/-- The elements of a list counted. -/
def tally (ks : List κ) : Dict κ Nat := ks.foldl incr empty

theorem mem_keys_foldl_incr (ks : List κ) (d : Dict κ Nat) (x : κ) :
    x ∈ (ks.foldl incr d).keys ↔ x ∈ d.keys ∨ x ∈ ks := by
  induction ks generalizing d with
  | nil => simp
  | cons k ks ih =>
    rw [List.foldl_cons, ih, incr, mem_keys_upd, List.mem_cons, or_assoc]

/-- The keys of the counts are the elements of the list. -/
theorem mem_keys_tally (ks : List κ) (x : κ) : x ∈ (tally ks).keys ↔ x ∈ ks := by
  rw [tally, mem_keys_foldl_incr]
  simp [empty, keys]

omit [DecidableEq κ] in
theorem mem_keys_iff (d : Dict κ ν) (k : κ) : k ∈ d.keys ↔ ∃ v, (k, v) ∈ d.rows := by
  simp [keys]

end Dict

/-! ## Buckets -/

section Buckets

variable {α κ : Type} [DecidableEq κ]

/-- One more in the bucket of the element's key, if it has one among the keys. -/
def bucketAdd (keys : List κ) (key : α → Option κ) (series : List Nat) (a : α) : List Nat :=
  match (key a).bind fun k => keys.idxOf? k with
  | some i => series.modify i (· + 1)
  | none => series

/-- How many elements have the key. -/
def bucketCount (key : α → Option κ) (as : List α) (k : κ) : Nat := as.countP fun a => key a = some k

theorem map_modify_idxOf {keys : List κ} (hkeys : keys.Nodup) {k : κ} {i : Nat} (hi : keys.idxOf? k = some i)
    (f : κ → Nat) : (keys.map f).modify i (· + 1) = keys.map fun x => f x + if k = x then 1 else 0 := by
  obtain ⟨hlt, hk, -⟩ := List.idxOf?_eq_some_iff.1 hi
  refine List.ext_getElem (by simp) fun j hj hj' => ?_
  rw [List.length_map] at hj'
  rw [List.getElem_modify, List.getElem_map, List.getElem_map]
  by_cases hij : i = j
  · subst hij
    rw [if_pos rfl, if_pos hk.symm]
  · have hkj : k ≠ keys[j] := fun hkj => hij (hkeys.getElem_inj_iff.1 (hk.trans hkj))
    rw [if_neg hij, if_neg hkj, Nat.add_zero]

theorem bucketAdd_map {keys : List κ} (hkeys : keys.Nodup) (key : α → Option κ) (f : κ → Nat) (a : α) :
    bucketAdd keys key (keys.map f) a = keys.map fun k => f k + if key a = some k then 1 else 0 := by
  unfold bucketAdd
  cases hka : key a with
  | none => simp
  | some k =>
    rw [Option.bind_some]
    cases hi : keys.idxOf? k with
    | some i => simpa using map_modify_idxOf hkeys hi f
    | none =>
      refine List.map_congr_left fun x hx => ?_
      rw [if_neg, Nat.add_zero]
      rintro h
      cases h
      exact List.idxOf?_eq_none_iff.1 hi hx

/-- Buckets filled one by one hold the counts. -/
theorem foldl_bucketAdd {keys : List κ} (hkeys : keys.Nodup) (key : α → Option κ) (as : List α) (f : κ → Nat) :
    as.foldl (bucketAdd keys key) (keys.map f) = keys.map fun k => f k + bucketCount key as k := by
  induction as generalizing f with
  | nil => rfl
  | cons a as ih =>
    rw [List.foldl_cons, bucketAdd_map hkeys, ih]
    refine List.map_congr_left fun k _ => ?_
    rw [bucketCount, bucketCount, List.countP_cons, Nat.add_assoc]
    simp [Nat.add_comm]

theorem foldl_bucketAdd_zero {keys : List κ} (hkeys : keys.Nodup) (key : α → Option κ) (as : List α) :
    as.foldl (bucketAdd keys key) (.replicate keys.length 0) = keys.map (bucketCount key as) := by
  have hzero : List.replicate keys.length 0 = keys.map fun _ => 0 := by simp
  rw [hzero, foldl_bucketAdd hkeys]
  simp

end Buckets

/-! ## Sorting -/

section Sorting

variable {α β : Type} [LinearOrder β] (f : α → β)

/-- Sorted by a key, equal keys in their order. -/
def sortOn (l : List α) : List α := l.insertionSort fun a b => f a ≤ f b

/-- Sorted downwards by a key, equal keys in their order. -/
def sortDown (l : List α) : List α := l.insertionSort fun a b => f b ≤ f a

theorem sortOn_perm (l : List α) : (sortOn f l).Perm l := List.perm_insertionSort _ l

theorem sortDown_perm (l : List α) : (sortDown f l).Perm l := List.perm_insertionSort _ l

theorem pairwise_sortOn (l : List α) : (sortOn f l).Pairwise fun a b => f a ≤ f b :=
  haveI : Std.Total fun a b => f a ≤ f b := ⟨fun a b => le_total (f a) (f b)⟩
  haveI : IsTrans α fun a b => f a ≤ f b := ⟨fun _ _ _ => le_trans⟩
  List.pairwise_insertionSort _ l

theorem pairwise_sortDown (l : List α) : (sortDown f l).Pairwise fun a b => f b ≤ f a :=
  haveI : Std.Total fun a b => f b ≤ f a := ⟨fun a b => le_total (f b) (f a)⟩
  haveI : IsTrans α fun a b => f b ≤ f a := ⟨fun _ _ _ h h' => le_trans h' h⟩
  List.pairwise_insertionSort _ l

end Sorting

end Lib
