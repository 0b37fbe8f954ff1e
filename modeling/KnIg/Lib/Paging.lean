/-
Pages of a sorted table, each fetched by a query of its own. A query sorts by a key and puts rows with the same key in
whatever order it likes, so two queries may disagree on them; the rows before a position are still the same rows,
unless the position falls between two rows with the same key.
-/
import KnIg.Lib.Dict
import Mathlib.Data.List.Count
import Mathlib.Data.List.Flatten
import Mathlib.Data.List.Nodup

namespace Lib

section Paging

variable {α β : Type} [LinearOrder β] (key : α → β)

/-- An order in which a query may put the rows: downwards by the key. -/
structure Ordering (rows order : List α) : Prop where
  perm : order.Perm rows
  sorted : order.Pairwise fun a b => key b ≤ key a

/-- Page `k`, of `n` rows. -/
def pageAt (n k : Nat) (order : List α) : List α := (order.drop (k * n)).take n

/-- The rows with a key above `t`. -/
def above (t : β) (rows : List α) : Nat := rows.countP fun r => t < key r

/-- The rows with a key of at least `t`. -/
def atLeast (t : β) (rows : List α) : Nat := rows.countP fun r => t ≤ key r

/-- Rows with the same key end on both sides of the position `m`. -/
def TieAcross (rows : List α) (m : Nat) : Prop := ∃ t, above key t rows < m ∧ m < atLeast key t rows

/-- However the queries for the first `K` pages order the rows, the pages have every row once. -/
def PagesComplete (rows : List α) (n : Nat) : Prop :=
  ∀ orders : Nat → List α, (∀ k, Ordering key rows (orders k)) →
    ∀ K, rows.length ≤ K * n → ((List.range K).flatMap fun k => pageAt n k (orders k)).Perm rows

variable {key} {rows order other : List α}

/-! ## Beginnings of a sorted list -/

section Beginning

variable {p : α → Bool} (hs : order.Pairwise fun a b => key b ≤ key a) (hp : ∀ a b, key b ≤ key a → p b → p a)
include hs hp

/-- What satisfies a predicate that is kept by larger keys stands at the beginning. -/
theorem take_countP_eq_filter : order.take (order.countP p) = order.filter p := by
  induction order with
  | nil => rfl
  | cons a order ih =>
    rw [List.pairwise_cons] at hs
    by_cases ha : p a
    · rw [List.countP_cons_of_pos ha, List.take_succ_cons, List.filter_cons_of_pos ha, ih hs.2]
    · -- the rows behind have smaller keys
      have hnone : ∀ b ∈ order, ¬ p b := fun b hb hb' => ha (hp a b (hs.1 b hb) hb')
      rw [List.countP_cons_of_neg ha, List.filter_cons_of_neg ha, List.countP_eq_zero.2 hnone,
        List.filter_eq_nil_iff.2 hnone]
      rfl

theorem lt_countP_iff {i : Nat} (hi : i < order.length) : i < order.countP p ↔ p order[i] := by
  induction order generalizing i with
  | nil => simp at hi
  | cons a order ih =>
    rw [List.pairwise_cons] at hs
    by_cases ha : p a
    · rw [List.countP_cons_of_pos ha]
      cases i with
      | zero => simp [ha]
      | succ i => simpa using ih hs.2 (Nat.lt_of_succ_lt_succ hi)
    · have hnone : ∀ b ∈ order, ¬ p b := fun b hb hb' => ha (hp a b (hs.1 b hb) hb')
      rw [List.countP_cons_of_neg ha, List.countP_eq_zero.2 hnone]
      cases i with
      | zero => simp [ha]
      | succ i => simp [hnone]

end Beginning

namespace Ordering

theorem lt_above_iff (h : Ordering key rows order) (t : β) {i : Nat} (hi : i < order.length) :
    i < above key t rows ↔ t < key order[i] := by
  unfold above
  rw [← h.perm.countP_eq, lt_countP_iff h.sorted (fun a b hba hb => ?_) hi, decide_eq_true_eq]
  simp only [decide_eq_true_eq] at hb ⊢
  exact hb.trans_le hba

theorem lt_atLeast_iff (h : Ordering key rows order) (t : β) {i : Nat} (hi : i < order.length) :
    i < atLeast key t rows ↔ t ≤ key order[i] := by
  unfold atLeast
  rw [← h.perm.countP_eq, lt_countP_iff h.sorted (fun a b hba hb => ?_) hi, decide_eq_true_eq]
  simp only [decide_eq_true_eq] at hb ⊢
  exact hb.trans hba

/-- The rows with a key of at least `t` come first. -/
theorem take_atLeast (h : Ordering key rows order) (t : β) :
    (order.take (atLeast key t rows)).Perm (rows.filter fun r => t ≤ key r) := by
  have htake := take_countP_eq_filter h.sorted (p := fun r => t ≤ key r) fun a b hba hb => by
    simp only [decide_eq_true_eq] at hb ⊢
    exact hb.trans hba
  unfold atLeast
  rw [← h.perm.countP_eq, htake]
  exact h.perm.filter _

/-- Before a position without a tie across it stand the same rows, whatever the order. -/
theorem take_perm (h : Ordering key rows order) (h' : Ordering key rows other) {m : Nat} (hm : ¬ TieAcross key rows m) :
    (order.take m).Perm (other.take m) := by
  have hlen : order.length = other.length := h.perm.length_eq.trans h'.perm.length_eq.symm
  rcases Nat.eq_zero_or_pos m with rfl | hpos
  · simp
  rcases Nat.lt_or_ge m order.length with hlt | hge
  · -- the position is where the rows with the key of the row before it end
    have hi : m - 1 < order.length := by omega
    have habove : ¬ m - 1 < above key (key order[m - 1]) rows := by simp [h.lt_above_iff _ hi]
    have hat : m - 1 < atLeast key (key order[m - 1]) rows := by simp [h.lt_atLeast_iff _ hi]
    have hend : atLeast key (key order[m - 1]) rows = m := by
      by_contra hne
      exact hm ⟨key order[m - 1], by omega, by omega⟩
    have htake := (h.take_atLeast (key order[m - 1])).trans (h'.take_atLeast _).symm
    rwa [hend] at htake
  · rw [List.take_of_length_le hge, List.take_of_length_le (hlen ▸ hge)]
    exact h.perm.trans h'.perm.symm

end Ordering

/-! ## Pages -/

theorem take_append_pageAt (n k : Nat) (order : List α) :
    order.take (k * n) ++ pageAt n k order = order.take ((k + 1) * n) := by
  unfold pageAt
  rw [Nat.succ_mul, List.take_add]

/-- As long as no tie goes across the end of a page, the first pages are the first rows. -/
theorem flatMap_pageAt_perm {orders : Nat → List α} (h : ∀ k, Ordering key rows (orders k))
    (horder : Ordering key rows order) {n : Nat} (hn : ∀ k, ¬ TieAcross key rows (k * n)) (K : Nat) :
    ((List.range K).flatMap fun k => pageAt n k (orders k)).Perm (order.take (K * n)) := by
  induction K with
  | zero => simp
  | succ K ih =>
    rw [List.range_succ, List.flatMap_append, List.flatMap_singleton]
    have hbefore := ih.trans (horder.take_perm (h K) (hn K))
    have hpage := hbefore.append_right (pageAt n K (orders K))
    rw [take_append_pageAt] at hpage
    exact hpage.trans ((h K).take_perm horder (hn (K + 1)))

theorem mem_pageAt {n k i : Nat} {a : α} (hi : order[i]? = some a) (hk : k * n ≤ i) (hk' : i < k * n + n) :
    a ∈ pageAt n k order := by
  unfold pageAt
  refine List.mem_iff_getElem?.2 ⟨i - k * n, ?_⟩
  rw [List.getElem?_take_of_lt (by omega), List.getElem?_drop, Nat.add_sub_cancel' hk, hi]

/-- Two rows with the same key next to each other may stand the other way round. -/
theorem Ordering.swap {l r : List α} {a b : α} (h : Ordering key rows (l ++ a :: b :: r)) (hab : key a = key b) :
    Ordering key rows (l ++ b :: a :: r) where
  perm := ((List.Perm.swap a b r).append_left l).trans h.perm
  sorted := by
    obtain ⟨hl, hr, hlr⟩ := List.pairwise_append.1 h.sorted
    simp only [List.pairwise_cons, List.mem_cons, forall_eq_or_imp] at hr hlr
    refine List.pairwise_append.2 ⟨hl, ?_, ?_⟩
    · simp only [List.pairwise_cons, List.mem_cons, forall_eq_or_imp]
      exact ⟨⟨hab.le, hr.2.1⟩, hr.1.2, hr.2.2⟩
    · intro x hx
      simp only [List.mem_cons, forall_eq_or_imp]
      exact ⟨(hlr x hx).2.1, (hlr x hx).1, (hlr x hx).2.2⟩

/-- The rows next to a position with a tie across it have the same key. -/
theorem TieAcross.exists_ordering {m : Nat} (hm : TieAcross key rows m) :
    ∃ l a b r, l.length + 1 = m ∧ key a = key b ∧ Ordering key rows (l ++ a :: b :: r) := by
  obtain ⟨t, habove, hat⟩ := hm
  have horder : Ordering key rows (sortDown key rows) := ⟨sortDown_perm key rows, pairwise_sortDown key rows⟩
  generalize sortDown key rows = order at horder
  have hle : atLeast key t rows ≤ order.length := by
    rw [horder.perm.length_eq]
    exact List.countP_le_length
  obtain ⟨i, rfl⟩ : ∃ i, m = i + 1 := ⟨m - 1, by omega⟩
  have hi : i < order.length := by omega
  have hi' : i + 1 < order.length := by omega
  have hfirst : key order[i] ≤ t := not_lt.1 fun h => absurd ((horder.lt_above_iff t hi).2 h) (by omega)
  have hfirst' : t ≤ key order[i] := (horder.lt_atLeast_iff t hi).1 (by omega)
  have hsecond : key order[i + 1] ≤ t := not_lt.1 fun h => absurd ((horder.lt_above_iff t hi').2 h) (by omega)
  have hsecond' : t ≤ key order[i + 1] := (horder.lt_atLeast_iff t hi').1 hat
  refine ⟨order.take i, order[i], order[i + 1], order.drop (i + 2), ?_, ?_, ?_⟩
  · rw [List.length_take, Nat.min_eq_left hi.le]
  · exact (hfirst.antisymm hfirst').trans (hsecond.antisymm hsecond').symm
  · rwa [← List.drop_eq_getElem_cons hi', ← List.drop_eq_getElem_cons hi, List.take_append_drop]

/-- With a tie across the end of a page, a row of the tie may be on the page and on the next one. -/
theorem TieAcross.not_pagesComplete (hrows : rows.Nodup) {n : Nat} (hn : 0 < n) {k : Nat}
    (hm : TieAcross key rows (k * n)) : ¬ PagesComplete key rows n := by
  intro hcomplete
  obtain ⟨l, a, b, r, hl, hab, horder⟩ := hm.exists_ordering
  have hlen := horder.perm.length_eq
  simp only [List.length_append, List.length_cons] at hlen
  obtain ⟨j, rfl⟩ : ∃ j, k = j + 1 := Nat.exists_eq_add_one_of_ne_zero (by rintro rfl; omega)
  rw [Nat.succ_mul] at hl
  have hj : j ≤ j * n := Nat.le_mul_of_pos_right j hn
  -- the pages up to this one come with `a` before `b`, the others with `a` behind it
  let orders : Nat → List α := fun i => if i ≤ j then l ++ a :: b :: r else l ++ b :: a :: r
  have horders : ∀ i, Ordering key rows (orders i) := by
    intro i
    by_cases hi : i ≤ j
    · simpa only [orders, if_pos hi] using horder
    · simpa only [orders, if_neg hi] using horder.swap hab
  have hfirst : a ∈ pageAt n j (orders j) :=
    mem_pageAt (i := l.length) (by simp [orders]) (by omega) (by omega)
  have hswapped : orders (j + 1) = l ++ b :: a :: r := if_neg (by omega)
  have hsecond : a ∈ pageAt n (j + 1) (orders (j + 1)) := by
    rw [hswapped]
    exact mem_pageAt (i := l.length + 1) (by simp) (by rw [Nat.succ_mul]; omega) (by rw [Nat.succ_mul]; omega)
  have hperm := hcomplete orders horders rows.length (Nat.le_mul_of_pos_right _ hn)
  have hpages := (List.nodup_flatMap.1 (hperm.nodup_iff.2 hrows)).2
  have hdisjoint := List.pairwise_iff_getElem.1 hpages j (j + 1) (by rw [List.length_range]; omega)
    (by rw [List.length_range]; omega) (Nat.lt_succ_self j)
  simp only [List.getElem_range, Function.onFun] at hdisjoint
  exact hdisjoint hfirst hsecond

/-- Pages of separate queries are complete for every order of the rows with the same key if and only if no such rows
end on both sides of the end of a page. -/
theorem pagesComplete_iff (hrows : rows.Nodup) {n : Nat} (hn : 0 < n) :
    PagesComplete key rows n ↔ ∀ k, ¬ TieAcross key rows (k * n) := by
  constructor
  · intro hcomplete k hm
    exact hm.not_pagesComplete hrows hn hcomplete
  · intro hclear orders horders K hK
    have horder : Ordering key rows (sortDown key rows) := ⟨sortDown_perm key rows, pairwise_sortDown key rows⟩
    have hperm := flatMap_pageAt_perm horders horder hclear K
    rw [List.take_of_length_le (by rwa [horder.perm.length_eq])] at hperm
    exact hperm.trans horder.perm

end Paging

end Lib
