/-
Slices of arrays on a heap. A slice that is cut short keeps its array; an append writes behind the last element
while the array has room, and moves to a new array otherwise. So a slice that is filtered into its own array is read
and written at once: the writes stay behind the reads, and the slice left holds the elements that were kept.
-/
import Mathlib.Data.List.Range
import Mathlib.Logic.Function.Basic

namespace Lib

/-- A slice from the start of its array. -/
structure Slice where
  array : Nat
  len : Nat
  cap : Nat
deriving DecidableEq

/-- The slice without an array. -/
def Slice.nil : Slice := ⟨0, 0, 0⟩

/-- `s[:0]`. -/
def Slice.reset (s : Slice) : Slice := { s with len := 0 }

/-- The arrays by their addresses, and the next address. -/
structure Heap (α : Type) where
  cells : Nat → Nat → α
  next : Nat

/-- How large a new array is for a slice that was full with so many elements. -/
structure Growth where
  newCap : Nat → Nat
  room : ∀ n, n < newCap n

namespace Heap

variable {α : Type}

def get (h : Heap α) (s : Slice) (i : Nat) : α := h.cells s.array i

def set (h : Heap α) (array i : Nat) (v : α) : Heap α :=
  { h with cells := Function.update h.cells array (Function.update (h.cells array) i v) }

/-- The elements of a slice. -/
def contents (h : Heap α) (s : Slice) : List α := (List.range s.len).map (h.get s)

/-- The slice lies in an array of the heap, if it has one. -/
structure Holds (h : Heap α) (s : Slice) : Prop where
  fits : s.len ≤ s.cap
  old : s.cap = 0 ∨ s.array < h.next

/-- What is written through one of two slices is not seen through the other. -/
def Apart (s t : Slice) : Prop := s.cap = 0 ∨ t.cap = 0 ∨ s.array ≠ t.array

variable {h h' : Heap α} {s t : Slice}

@[simp] theorem contents_length : (h.contents s).length = s.len := by simp [contents]

theorem holds_nil : h.Holds Slice.nil := ⟨Nat.le_refl 0, .inl rfl⟩

theorem Apart.symm (h : Apart s t) : Apart t s := by
  rcases h with h | h | h
  · exact .inr (.inl h)
  · exact .inl h
  · exact .inr (.inr (Ne.symm h))

/-- A slice has the same elements in every heap that agrees on them. -/
theorem contents_congr {u : Slice} (hlen : u.len = s.len) (hcells : ∀ i < s.len, h'.get u i = h.get s i) :
    h'.contents u = h.contents s := by
  unfold contents
  rw [hlen]
  exact List.map_congr_left fun i hi => hcells i (List.mem_range.1 hi)

theorem contents_succ {n cap array : Nat} :
    h.contents ⟨array, n + 1, cap⟩ = h.contents ⟨array, n, cap⟩ ++ [h.cells array n] := by
  unfold contents
  rw [List.range_succ, List.map_append, List.map_singleton]
  rfl

theorem cells_set (array i : Nat) (v : α) (a j : Nat) :
    (h.set array i v).cells a j = if a = array ∧ j = i then v else h.cells a j := by
  simp only [set, Function.update_apply]
  by_cases ha : a = array <;> by_cases hj : j = i <;> simp [ha, hj]

/-! ## Appending -/

variable [Inhabited α]

def empty : Heap α := ⟨fun _ _ => default, 0⟩

/-- A new array with the elements of a slice, and zero values behind them. -/
def copy (h : Heap α) (s : Slice) : Heap α where
  cells := Function.update h.cells h.next fun i => if i < s.len then h.get s i else default
  next := h.next + 1

def append (g : Growth) (h : Heap α) (s : Slice) (v : α) : Slice × Heap α :=
  if s.len < s.cap then ({ s with len := s.len + 1 }, h.set s.array s.len v)
  else (⟨h.next, s.len + 1, g.newCap s.len⟩, (h.copy s).set h.next s.len v)

variable {g : Growth} {keep : α → Bool}

theorem contents_append (s : Slice) (v : α) :
    (h.append g s v).2.contents (h.append g s v).1 = h.contents s ++ [v] := by
  unfold append
  split
  · show (h.set s.array s.len v).contents ⟨s.array, s.len + 1, s.cap⟩ = _
    rw [contents_succ, cells_set, if_pos ⟨rfl, rfl⟩]
    congr 1
    exact contents_congr rfl fun i hi => by
      rw [get, cells_set, if_neg fun hc => Nat.ne_of_lt hi hc.2]
      rfl
  · rw [contents_succ, cells_set, if_pos ⟨rfl, rfl⟩]
    congr 1
    exact contents_congr rfl fun i hi => by
      rw [get, cells_set, if_neg fun hc => Nat.ne_of_lt hi hc.2]
      simp [copy, hi]

theorem next_append_le (s : Slice) (v : α) : h.next ≤ (h.append g s v).2.next := by
  unfold append
  split
  · exact Nat.le_refl _
  · exact Nat.le_succ _

theorem Holds.append (hs : h.Holds s) (v : α) : (h.append g s v).2.Holds (h.append g s v).1 := by
  unfold Heap.append
  split
  · next hroom => exact ⟨hroom, hs.old⟩
  · exact ⟨g.room s.len, .inr (Nat.lt_succ_self h.next)⟩

/-- The arrays other than the slice's are left as they were. -/
theorem cells_append {v : α} {a : Nat} (ha : s.cap = 0 ∨ a ≠ s.array) (hold : a < h.next) (j : Nat) :
    (h.append g s v).2.cells a j = h.cells a j := by
  unfold append
  split
  · next hroom =>
    have hne : a ≠ s.array := ha.resolve_left (by omega)
    rw [cells_set, if_neg fun hc => hne hc.1]
  · have hne : a ≠ h.next := Nat.ne_of_lt hold
    rw [cells_set, if_neg fun hc => hne hc.1]
    simp [copy, Function.update_of_ne hne]

theorem Holds.contents_append_of_apart (ht : h.Holds t) (hst : Apart s t) (v : α) :
    (h.append g s v).2.contents t = h.contents t := by
  refine contents_congr rfl fun i hi => ?_
  have hcap : t.cap ≠ 0 := fun h0 => absurd ht.fits (by omega)
  have harray : s.cap = 0 ∨ t.array ≠ s.array := by
    rcases hst with h | h | h
    · exact .inl h
    · exact absurd h hcap
    · exact .inr (Ne.symm h)
  exact cells_append harray (ht.old.resolve_left hcap) i

theorem Holds.append_of_apart (ht : h.Holds t) (s : Slice) (v : α) : (h.append g s v).2.Holds t :=
  ⟨ht.fits, ht.old.imp_right fun hlt => Nat.lt_of_lt_of_le hlt (next_append_le s v)⟩

theorem Apart.append (ht : h.Holds t) (hst : Apart s t) (v : α) : Apart (h.append g s v).1 t := by
  unfold Heap.append
  split
  · exact hst
  · rcases ht.old with h0 | hold
    · exact .inr (.inl h0)
    · exact .inr (.inr (Nat.ne_of_gt hold))

/-! ## Filtering in place -/

/-- Append the elements that are kept among the `n` of `s` from `i` on. -/
def filterFrom (g : Growth) (keep : α → Bool) (s : Slice) : Nat → Nat → Slice → Heap α → Slice × Heap α
  | 0, _, kept, h => (kept, h)
  | n + 1, i, kept, h =>
    if keep (h.get s i) then
      let r := h.append g kept (h.get s i)
      filterFrom g keep s n (i + 1) r.1 r.2
    else filterFrom g keep s n (i + 1) kept h

/-- `kept := s[:0]`, and an append of every element of `s` that is kept. -/
def filterInPlace (g : Growth) (keep : α → Bool) (h : Heap α) (s : Slice) : Slice × Heap α :=
  filterFrom g keep s s.len 0 s.reset h

/-- What the loop has done by element `i`: the slice under way lies in the array of `s` and ends before that
element. -/
theorem filterFrom_spec (g : Growth) (keep : α → Bool) (hfits : s.len ≤ s.cap) :
    ∀ (n i m : Nat) (h : Heap α), i + n = s.len → m ≤ i →
      ∃ m' h', filterFrom g keep s n i ⟨s.array, m, s.cap⟩ h = (⟨s.array, m', s.cap⟩, h') ∧ m' ≤ s.len ∧
        h'.next = h.next ∧ (∀ a, a ≠ s.array → h'.cells a = h.cells a) ∧
        h'.contents ⟨s.array, m', s.cap⟩ =
          h.contents ⟨s.array, m, s.cap⟩ ++ ((List.range n).map fun k => h.get s (i + k)).filter keep
  | 0, i, m, h, hn, hm => ⟨m, h, rfl, by omega, rfl, fun _ _ => rfl, by simp⟩
  | n + 1, i, m, h, hn, hm => by
    have hrange : ((List.range (n + 1)).map fun k => h.get s (i + k)) =
        h.get s i :: (List.range n).map fun k => h.get s (i + 1 + k) := by
      rw [List.range_succ_eq_map, List.map_cons, List.map_map]
      simp only [Nat.add_zero, List.cons.injEq, true_and]
      exact List.map_congr_left fun k _ => by simp [Nat.add_comm, Nat.add_left_comm]
    rw [hrange, filterFrom]
    cases hkeep : keep (h.get s i) with
    | false =>
      rw [if_neg (by simp), List.filter_cons_of_neg (by simp [hkeep])]
      exact filterFrom_spec g keep hfits n (i + 1) m h (by omega) (by omega)
    | true =>
      rw [if_pos rfl, List.filter_cons_of_pos hkeep]
      have happend : h.append g ⟨s.array, m, s.cap⟩ (h.get s i) =
          (⟨s.array, m + 1, s.cap⟩, h.set s.array m (h.get s i)) :=
        if_pos (show m < s.cap by omega)
      obtain ⟨m', h', heq, hle, hnext, hframe, hcontents⟩ :=
        filterFrom_spec g keep hfits n (i + 1) (m + 1) (h.set s.array m (h.get s i)) (by omega)
          (by omega)
      refine ⟨m', h', by rw [happend]; exact heq, hle, hnext, fun a ha => ?_, ?_⟩
      · rw [hframe a ha]
        exact funext fun j => by rw [cells_set, if_neg fun hc => ha hc.1]
      · have hdone : (h.set s.array m (h.get s i)).contents ⟨s.array, m + 1, s.cap⟩ =
            h.contents ⟨s.array, m, s.cap⟩ ++ [h.get s i] := by
          have := contents_append (g := g) (h := h) ⟨s.array, m, s.cap⟩ (h.get s i)
          rwa [happend] at this
        have hleft : ((List.range n).map fun k => (h.set s.array m (h.get s i)).get s (i + 1 + k)) =
            (List.range n).map fun k => h.get s (i + 1 + k) :=
          List.map_congr_left fun k _ => by
            rw [get, cells_set, if_neg fun hc => absurd hc.2 (by omega)]
            rfl
        rw [hcontents, hdone, hleft, List.append_assoc, List.singleton_append]

/-- The slice that a filter in place leaves: in the same array, with the elements that were kept. -/
theorem filterInPlace_spec (g : Growth) (keep : α → Bool) (h : Heap α) (hfits : s.len ≤ s.cap) :
    ∃ n h', h.filterInPlace g keep s = (⟨s.array, n, s.cap⟩, h') ∧ n ≤ s.len ∧ h'.next = h.next ∧
      (∀ a, a ≠ s.array → h'.cells a = h.cells a) ∧
      h'.contents ⟨s.array, n, s.cap⟩ = (h.contents s).filter keep := by
  obtain ⟨n, h', heq, hle, hnext, hframe, hcontents⟩ :=
    filterFrom_spec g keep hfits s.len 0 0 h (Nat.zero_add _) (Nat.le_refl 0)
  refine ⟨n, h', heq, hle, hnext, hframe, ?_⟩
  rw [hcontents]
  simp [contents]

theorem Holds.filterInPlace (hs : h.Holds s) :
    (h.filterInPlace g keep s).2.Holds (h.filterInPlace g keep s).1 := by
  obtain ⟨n, h', heq, hle, hnext, -, -⟩ := filterInPlace_spec g keep h hs.fits
  rw [heq]
  exact ⟨hle.trans hs.fits, hnext ▸ hs.old⟩

theorem Holds.contents_filterInPlace (hs : h.Holds s) :
    (h.filterInPlace g keep s).2.contents (h.filterInPlace g keep s).1 = (h.contents s).filter keep := by
  obtain ⟨n, h', heq, -, -, -, hcontents⟩ := filterInPlace_spec g keep h hs.fits
  rw [heq]
  exact hcontents

/-- The other slices keep their elements, and are as far from the slice left as from `s`. -/
theorem Holds.filterInPlace_of_apart (hs : h.Holds s) (g : Growth) (keep : α → Bool) (ht : h.Holds t)
    (hst : Apart s t) :
    (h.filterInPlace g keep s).2.Holds t ∧ Apart (h.filterInPlace g keep s).1 t ∧
      (h.filterInPlace g keep s).2.contents t = h.contents t := by
  obtain ⟨n, h', heq, hle, hnext, hframe, -⟩ := filterInPlace_spec g keep h hs.fits
  rw [heq]
  refine ⟨⟨ht.fits, hnext ▸ ht.old⟩, hst, ?_⟩
  rcases hst with h0 | h0 | hne
  · -- a slice without an array writes nothing
    have hlen : s.len = 0 := Nat.le_zero.1 (h0 ▸ hs.fits)
    have hnothing : h' = h := by
      have hsame : h.filterInPlace g keep s = (s.reset, h) := by rw [Heap.filterInPlace, hlen, filterFrom]
      exact (Prod.mk.inj (heq.symm.trans hsame)).2
    rw [hnothing]
  · refine contents_congr rfl fun i hi => absurd ht.fits (by omega)
  · refine contents_congr rfl fun i _ => ?_
    rw [get, hframe t.array (Ne.symm hne)]
    rfl

end Heap

end Lib
