/-
The ATT&CK matrix and the glossary as they are built and as techniques are added to them: different
tactics in their order, each technique once and in the column of its tactic, counts left alone.
-/
import KnIg.Report.Assemble

namespace KnIg.Report

open Lib Lib.Text Classify

/-- Columns of different tactics, and each technique once in the column of its tactic. -/
structure WellPlaced (cols : List MatrixColumn) : Prop where
  known : ∀ col ∈ cols, (col.tactic, col.en) ∈ tacticOrder
  tactics : (cols.map MatrixColumn.tactic).Nodup
  placed : ∀ col ∈ cols, ∀ x ∈ col.tech, (tacticOf x.id).ko = col.tactic
  ids : ∀ col ∈ cols, (col.tech.map Tech.id).Nodup

/-- Columns in the order of the tactics, and techniques by falling count. -/
structure Arranged (cols : List MatrixColumn) : Prop where
  order : cols.Pairwise fun c c' => orderIdx c.tactic < orderIdx c'.tactic
  falling : ∀ col ∈ cols, col.tech.Pairwise fun x y => y.n ≤ x.n

/-- Every technique of one matrix stands in the other, with its name and count, under the same tactic. -/
def CountsKept (cols cols' : List MatrixColumn) : Prop :=
  ∀ col ∈ cols, ∀ x ∈ col.tech, ∃ col' ∈ cols', col'.tactic = col.tactic ∧ x ∈ col'.tech

theorem CountsKept.refl (cols : List MatrixColumn) : CountsKept cols cols := fun col hc _ hx => ⟨col, hc, rfl, hx⟩

theorem CountsKept.trans {a b c : List MatrixColumn} (h : CountsKept a b) (h' : CountsKept b c) : CountsKept a c := by
  intro col hcol x hx
  obtain ⟨col', hcol', he, hx'⟩ := h col hcol x hx
  obtain ⟨col'', hcol'', he', hx''⟩ := h' col' hcol' x hx'
  exact ⟨col'', hcol'', he'.trans he, hx''⟩

theorem mem_matrixIds {cols : List MatrixColumn} {t : Str} :
    t ∈ matrixIds cols ↔ ∃ col ∈ cols, ∃ x ∈ col.tech, x.id = t := by
  simp [matrixIds]

/-- No technique stands in the matrix twice. -/
theorem WellPlaced.nodup_matrixIds {cols : List MatrixColumn} (h : WellPlaced cols) : (matrixIds cols).Nodup := by
  rw [matrixIds, List.nodup_flatMap]
  refine ⟨h.ids, ?_⟩
  refine (List.pairwise_map.1 h.tactics).imp_of_mem ?_
  intro col col' hcol hcol' hne t ht ht'
  obtain ⟨x, hx, rfl⟩ := List.mem_map.1 ht
  obtain ⟨y, hy, he⟩ := List.mem_map.1 ht'
  have hplace := h.placed col' hcol' y hy
  rw [he, h.placed col hcol x hx] at hplace
  exact hne hplace

/-! ## Adding a technique -/

/-- A technique of the incidents as the matrix shows it. -/
def newTech (r : Str × Nat) : Tech := ⟨r.1, techName r.1, r.2⟩

/-- A column with the technique behind its own, if it is the technique's. -/
def putTech (r : Str × Nat) (col : MatrixColumn) : MatrixColumn :=
  if col.tactic = (tacticOf r.1).ko then { col with tech := col.tech ++ [newTech r] } else col

/-- A column of the technique alone. -/
def newColumn (r : Str × Nat) : MatrixColumn := ⟨(tacticOf r.1).ko, (tacticOf r.1).en, [newTech r]⟩

@[simp] theorem putTech_tactic (r : Str × Nat) (col : MatrixColumn) : (putTech r col).tactic = col.tactic := by
  unfold putTech
  split <;> rfl

@[simp] theorem putTech_en (r : Str × Nat) (col : MatrixColumn) : (putTech r col).en = col.en := by
  unfold putTech
  split <;> rfl

theorem mem_putTech {r : Str × Nat} {col : MatrixColumn} {x : Tech} :
    x ∈ (putTech r col).tech ↔ x ∈ col.tech ∨ col.tactic = (tacticOf r.1).ko ∧ x = newTech r := by
  unfold putTech
  split
  · rename_i he
    simp [he]
  · rename_i hne
    simp [hne]

/-- A technique is there, or is put into the column of its tactic, or gets a column. -/
theorem addTech_cases (cols : List MatrixColumn) (r : Str × Nat) :
    (r.1 ∈ matrixIds cols ∧ addTech cols r = cols) ∨
    (r.1 ∉ matrixIds cols ∧ (tacticOf r.1).ko ∈ cols.map MatrixColumn.tactic ∧
      addTech cols r = cols.map (putTech r)) ∨
    ((tacticOf r.1).ko ∉ cols.map MatrixColumn.tactic ∧ addTech cols r = cols ++ [newColumn r]) := by
  by_cases hin : r.1 ∈ matrixIds cols
  · exact Or.inl ⟨hin, if_pos hin⟩
  · by_cases hcol : (tacticOf r.1).ko ∈ cols.map MatrixColumn.tactic
    · exact Or.inr (Or.inl ⟨hin, hcol, (if_neg hin).trans (if_pos hcol)⟩)
    · exact Or.inr (Or.inr ⟨hcol, (if_neg hin).trans (if_neg hcol)⟩)

theorem mem_matrixIds_addTech (cols : List MatrixColumn) (r : Str × Nat) (t : Str) :
    t ∈ matrixIds (addTech cols r) ↔ t ∈ matrixIds cols ∨ t = r.1 := by
  rcases addTech_cases cols r with ⟨hin, h⟩ | ⟨-, hin, h⟩ | ⟨-, h⟩
  · rw [h]
    exact ⟨Or.inl, fun ht => ht.elim id fun he => he ▸ hin⟩
  · rw [h]
    simp only [mem_matrixIds, List.mem_map, exists_exists_and_eq_and, mem_putTech]
    constructor
    · rintro ⟨col, hcol, x, hx | ⟨-, rfl⟩, rfl⟩
      · exact Or.inl ⟨col, hcol, x, hx, rfl⟩
      · exact Or.inr rfl
    · rintro (⟨col, hcol, x, hx, rfl⟩ | rfl)
      · exact ⟨col, hcol, x, Or.inl hx, rfl⟩
      · obtain ⟨col, hcol, he⟩ := List.mem_map.1 hin
        exact ⟨col, hcol, newTech r, Or.inr ⟨he, rfl⟩, rfl⟩
  · rw [h, matrixIds, List.flatMap_append, List.mem_append]
    exact or_congr_right List.mem_singleton

/-- A technique that the matrix lacks stands once after it is put into the column of its tactic. -/
theorem WellPlaced.putTech {cols : List MatrixColumn} (h : WellPlaced cols) {r : Str × Nat}
    (hnew : r.1 ∉ matrixIds cols) : WellPlaced (cols.map (putTech r)) := by
  constructor
  · simp only [List.forall_mem_map, putTech_tactic, putTech_en]
    exact h.known
  · rw [List.map_map, show MatrixColumn.tactic ∘ KnIg.Report.putTech r = MatrixColumn.tactic from
      funext (putTech_tactic r)]
    exact h.tactics
  · simp only [List.forall_mem_map, putTech_tactic, mem_putTech]
    rintro col hcol x (hx | ⟨he, rfl⟩)
    · exact h.placed col hcol x hx
    · exact he.symm
  · rw [List.forall_mem_map]
    intro col hcol
    unfold KnIg.Report.putTech
    split
    · rw [List.map_append, List.map_singleton]
      -- a technique that the column had would be in the matrix
      refine List.Nodup.append (h.ids col hcol) (List.nodup_singleton _) ?_
      intro t ht ht'
      rw [List.mem_singleton.1 ht'] at ht
      obtain ⟨x, hx, he⟩ := List.mem_map.1 ht
      exact hnew (mem_matrixIds.2 ⟨col, hcol, x, hx, he⟩)
    · exact h.ids col hcol

theorem WellPlaced.newColumn {cols : List MatrixColumn} (h : WellPlaced cols) {r : Str × Nat}
    (hcol : (tacticOf r.1).ko ∉ cols.map MatrixColumn.tactic) : WellPlaced (cols ++ [newColumn r]) := by
  constructor
  · rw [List.forall_mem_append, List.forall_mem_singleton]
    exact ⟨h.known, tacticOf_mem_order r.1⟩
  · rw [List.map_append, List.map_singleton]
    refine List.Nodup.append h.tactics (List.nodup_singleton _) ?_
    intro ko hko hko'
    rw [List.mem_singleton.1 hko'] at hko
    exact hcol hko
  · rw [List.forall_mem_append, List.forall_mem_singleton]
    exact ⟨h.placed, List.forall_mem_singleton.2 rfl⟩
  · rw [List.forall_mem_append, List.forall_mem_singleton]
    exact ⟨h.ids, List.nodup_singleton _⟩

theorem WellPlaced.addTech {cols : List MatrixColumn} (h : WellPlaced cols) (r : Str × Nat) :
    WellPlaced (addTech cols r) := by
  rcases addTech_cases cols r with ⟨-, he⟩ | ⟨hnew, -, he⟩ | ⟨hcol, he⟩
  · rw [he]
    exact h
  · rw [he]
    exact h.putTech hnew
  · rw [he]
    exact h.newColumn hcol

theorem countsKept_addTech (cols : List MatrixColumn) (r : Str × Nat) : CountsKept cols (addTech cols r) := by
  intro col hcol x hx
  rcases addTech_cases cols r with ⟨-, h⟩ | ⟨-, -, h⟩ | ⟨-, h⟩
  · rw [h]
    exact ⟨col, hcol, rfl, hx⟩
  · rw [h]
    exact ⟨putTech r col, List.mem_map_of_mem hcol, putTech_tactic r col, mem_putTech.2 (Or.inl hx)⟩
  · rw [h]
    exact ⟨col, List.mem_append_left _ hcol, rfl, hx⟩

/-- What adding techniques one after another keeps and adds. -/
theorem foldl_addTech (rs : List (Str × Nat)) {cols : List MatrixColumn} (h : WellPlaced cols) :
    WellPlaced (rs.foldl addTech cols) ∧ CountsKept cols (rs.foldl addTech cols) ∧
      ∀ t, t ∈ matrixIds (rs.foldl addTech cols) ↔ t ∈ matrixIds cols ∨ t ∈ rs.map Prod.fst := by
  induction rs generalizing cols with
  | nil => exact ⟨h, CountsKept.refl cols, by simp⟩
  | cons r rs ih =>
    obtain ⟨hw, hk, hm⟩ := ih (h.addTech r)
    refine ⟨hw, (countsKept_addTech cols r).trans hk, fun t => ?_⟩
    rw [List.foldl_cons, hm, mem_matrixIds_addTech, List.map_cons, List.mem_cons, or_assoc]

/-! ## Sorting -/

theorem mem_sortMatrix {cols : List MatrixColumn} {col' : MatrixColumn} :
    col' ∈ sortMatrix cols ↔ ∃ col ∈ cols, { col with tech := sortDown Tech.n col.tech } = col' := by
  rw [sortMatrix, List.mem_map]
  simp only [(sortOn_perm _ cols).mem_iff]

theorem mem_matrixIds_sortMatrix (cols : List MatrixColumn) (t : Str) :
    t ∈ matrixIds (sortMatrix cols) ↔ t ∈ matrixIds cols := by
  simp only [mem_matrixIds, mem_sortMatrix, exists_exists_and_eq_and, (sortDown_perm Tech.n _).mem_iff]

theorem countsKept_sortMatrix (cols : List MatrixColumn) : CountsKept cols (sortMatrix cols) :=
  fun col hcol _ hx => ⟨_, mem_sortMatrix.2 ⟨col, hcol, rfl⟩, rfl, (sortDown_perm Tech.n col.tech).mem_iff.2 hx⟩

theorem WellPlaced.sortMatrix {cols : List MatrixColumn} (h : WellPlaced cols) : WellPlaced (sortMatrix cols) := by
  refine ⟨?_, ?_, ?_, ?_⟩
  · intro col' hcol'
    obtain ⟨col, hcol, rfl⟩ := mem_sortMatrix.1 hcol'
    exact h.known col hcol
  · rw [KnIg.Report.sortMatrix, List.map_map]
    exact ((sortOn_perm _ cols).map MatrixColumn.tactic).nodup_iff.2 h.tactics
  · intro col' hcol' x hx
    obtain ⟨col, hcol, rfl⟩ := mem_sortMatrix.1 hcol'
    exact h.placed col hcol x ((sortDown_perm Tech.n col.tech).mem_iff.1 hx)
  · intro col' hcol'
    obtain ⟨col, hcol, rfl⟩ := mem_sortMatrix.1 hcol'
    exact ((sortDown_perm Tech.n col.tech).map Tech.id).nodup_iff.2 (h.ids col hcol)

/-- Different tactics have different places. -/
theorem orderIdx_inj {a b : Str × Str} (ha : a ∈ tacticOrder) (hb : b ∈ tacticOrder)
    (h : orderIdx a.1 = orderIdx b.1) : a.1 = b.1 := by
  have hall : ∀ a ∈ tacticOrder, ∀ b ∈ tacticOrder, orderIdx a.1 = orderIdx b.1 → a.1 = b.1 := by decide
  exact hall a ha b hb h

theorem WellPlaced.arranged_sortMatrix {cols : List MatrixColumn} (h : WellPlaced cols) :
    Arranged (KnIg.Report.sortMatrix cols) := by
  constructor
  · have hle := pairwise_sortOn (fun col : MatrixColumn => orderIdx col.tactic) cols
    have hne := List.pairwise_map.1 (((sortOn_perm (fun col : MatrixColumn => orderIdx col.tactic) cols).map
      MatrixColumn.tactic).nodup_iff.2 h.tactics)
    -- the columns differ, so the sorted ones have strictly rising places
    refine List.pairwise_map.2 ((hle.and hne).imp_of_mem ?_)
    rintro c c' hc hc' ⟨hle, hne⟩
    refine lt_of_le_of_ne hle fun he => hne ?_
    exact orderIdx_inj (h.known c ((sortOn_perm _ cols).mem_iff.1 hc)) (h.known c' ((sortOn_perm _ cols).mem_iff.1 hc')) he
  · intro col' hcol'
    obtain ⟨col, hcol, rfl⟩ := mem_sortMatrix.1 hcol'
    exact pairwise_sortDown Tech.n col.tech

/-! ## The matrix as built -/

theorem mem_attackMatrix {d : Dict Str Nat} {col : MatrixColumn} (h : col ∈ attackMatrix d) :
    (col.tactic, col.en) ∈ tacticOrder ∧ col.tech = sortDown Tech.n
      ((d.rows.filter fun r => (tacticOf r.1).ko = col.tactic).map fun r => ⟨r.1, techName r.1, r.2⟩) := by
  obtain ⟨⟨ko, en⟩, hmem, hcol⟩ := List.mem_filterMap.1 h
  dsimp only at hcol
  split at hcol
  · cases hcol
  · cases hcol
    exact ⟨hmem, rfl⟩

theorem wellPlaced_attackMatrix (d : Dict Str Nat) : WellPlaced (attackMatrix d) ∧ Arranged (attackMatrix d) := by
  have horder : (attackMatrix d).Pairwise fun c c' => orderIdx c.tactic < orderIdx c'.tactic := by
    have hall : tacticOrder.Pairwise fun a b => orderIdx a.1 < orderIdx b.1 := by decide
    refine List.pairwise_filterMap.2 (hall.imp ?_)
    intro a b hab c hc c' hc'
    dsimp only at hc hc'
    split at hc <;> split at hc' <;> cases hc <;> cases hc'
    exact hab
  refine ⟨⟨fun col hcol => (mem_attackMatrix hcol).1, ?_, ?_, ?_⟩, horder, ?_⟩
  · refine List.pairwise_map.2 (horder.imp ?_)
    intro c c' hlt he
    rw [he] at hlt
    exact lt_irrefl _ hlt
  · intro col hcol x hx
    rw [(mem_attackMatrix hcol).2, (sortDown_perm _ _).mem_iff] at hx
    obtain ⟨r, hr, rfl⟩ := List.mem_map.1 hx
    simpa using (List.mem_filter.1 hr).2
  · intro col hcol
    rw [(mem_attackMatrix hcol).2]
    refine ((sortDown_perm Tech.n _).map Tech.id).nodup_iff.2 ?_
    rw [List.map_map]
    exact d.nodup.sublist (List.filter_sublist.map Prod.fst)
  · intro col hcol
    rw [(mem_attackMatrix hcol).2]
    exact pairwise_sortDown Tech.n _

/-- The matrix has every technique counted. -/
theorem mem_matrixIds_attackMatrix {d : Dict Str Nat} {t : Str} (h : t ∈ d.keys) : t ∈ matrixIds (attackMatrix d) := by
  obtain ⟨n, hn⟩ := (d.mem_keys_iff t).1 h
  have hx : (⟨t, techName t, n⟩ : Tech) ∈ (d.rows.filter fun r => (tacticOf r.1).ko = (tacticOf t).ko).map
      fun r => (⟨r.1, techName r.1, r.2⟩ : Tech) :=
    List.mem_map.2 ⟨(t, n), List.mem_filter.2 ⟨hn, by simp⟩, rfl⟩
  have hcol : ⟨(tacticOf t).ko, (tacticOf t).en, sortDown Tech.n ((d.rows.filter fun r =>
      (tacticOf r.1).ko = (tacticOf t).ko).map fun r => ⟨r.1, techName r.1, r.2⟩)⟩ ∈ attackMatrix d := by
    refine List.mem_filterMap.2 ⟨_, tacticOf_mem_order t, ?_⟩
    dsimp only
    rw [if_neg (List.ne_nil_of_mem hx)]
  exact mem_matrixIds.2 ⟨_, hcol, _, (sortDown_perm Tech.n _).mem_iff.2 hx, rfl⟩

end KnIg.Report
