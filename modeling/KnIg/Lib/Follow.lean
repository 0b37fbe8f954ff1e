/-
Chains of records, each found under the key that the one before it names. What holds between the records of
every link holds along every chain.
-/
import Mathlib.Data.List.Chain

namespace Lib

variable {κ α : Type}

/-- The chain from a key on, of at most `n` records, and whether it broke off: at a key without a record, or
with its last record naming a further one. -/
def follow (find : κ → Option α) (link : κ → α → Option κ) : Nat → κ → List α × Bool
  | 0, _ => ([], false)
  | n + 1, k =>
    match find k with
    | none => ([], true)
    | some a =>
      match link k a with
      | none => ([a], false)
      | some k' =>
        if n = 0 then ([a], true)
        else
          let r := follow find link n k'
          (a :: r.1, r.2)

/-- The relation holds between a record and the one found under the key that it names. -/
def LinksMeet (find : κ → Option α) (link : κ → α → Option κ) (R : α → α → Prop) : Prop :=
  ∀ k a k' b, find k = some a → link k a = some k' → find k' = some b → R a b

variable {find : κ → Option α} {link : κ → α → Option κ} {R : α → α → Prop}

/-- A chain starts with the record of its key. -/
theorem head?_follow (n : Nat) (k : κ) : (follow find link (n + 1) k).1.head? = find k := by
  unfold follow
  split
  · next h => rw [h]; rfl
  next a ha =>
  rw [ha]
  split
  · rfl
  split
  · rfl
  · rfl

theorem find_of_mem_head? {n : Nat} {k : κ} {a : α} (ha : a ∈ (follow find link n k).1.head?) : find k = some a := by
  cases n with
  | zero => cases ha
  | succ n => rwa [head?_follow] at ha

theorem isChain_follow (h : LinksMeet find link R) (n : Nat) (k : κ) : (follow find link n k).1.IsChain R := by
  induction n generalizing k with
  | zero => exact List.isChain_nil
  | succ n ih =>
    unfold follow
    split
    · exact List.isChain_nil
    next a ha =>
    split
    · exact List.isChain_singleton a
    next k' hk' =>
    split
    · exact List.isChain_singleton a
    · rw [List.isChain_cons]
      exact ⟨fun b hb => h k a k' b ha hk' (find_of_mem_head? hb), ih k'⟩

section Step

variable {n : Nat} {k k' : κ} {a : α}

theorem follow_missing (hk : find k = none) : follow find link (n + 1) k = ([], true) := by
  rw [follow, hk]

theorem follow_end (ha : find k = some a) (hl : link k a = none) : follow find link (n + 1) k = ([a], false) := by
  rw [follow, ha]
  dsimp only
  rw [hl]

theorem follow_limit (ha : find k = some a) (hl : link k a = some k') : follow find link 1 k = ([a], true) := by
  rw [follow, ha]
  dsimp only
  rw [hl]
  rfl

theorem follow_link (ha : find k = some a) (hl : link k a = some k') : follow find link (n + 2) k =
    (a :: (follow find link (n + 1) k').1, (follow find link (n + 1) k').2) := by
  rw [follow, ha]
  dsimp only
  rw [hl]
  rfl

end Step

theorem length_follow_le (n : Nat) (k : κ) : (follow find link n k).1.length ≤ n := by
  induction n generalizing k with
  | zero => exact Nat.le_refl 0
  | succ n ih =>
    unfold follow
    split
    · exact Nat.zero_le _
    split
    · exact Nat.succ_le_succ (Nat.zero_le n)
    split
    · exact Nat.succ_le_succ (Nat.zero_le n)
    · exact Nat.succ_le_succ (ih _)

/-- A chain that has a record broke off unless its last record names no further one. -/
theorem follow_complete_iff {P : α → Prop} (hP : ∀ k a, find k = some a → (link k a = none ↔ P a)) (n : Nat) (k : κ)
    {last : α} (hlast : (follow find link n k).1.getLast? = some last) :
    (follow find link n k).2 = false ↔ P last := by
  induction n generalizing k last with
  | zero => cases hlast
  | succ n ih =>
    cases ha : find k with
    | none =>
      rw [follow_missing ha] at hlast
      cases hlast
    | some a =>
      have hPa := hP k a ha
      cases hl : link k a with
      | none =>
        rw [follow_end ha hl] at hlast ⊢
        cases hlast
        simpa using hPa.1 hl
      | some k' =>
        have hnot : ¬ P a := fun h => by
          rw [hPa.2 h] at hl
          cases hl
        cases n with
        | zero =>
          rw [follow_limit ha hl] at hlast ⊢
          cases hlast
          simpa using hnot
        | succ n =>
          rw [follow_link ha hl] at hlast ⊢
          dsimp only at hlast ⊢
          cases hfind : find k' with
          | none =>
            rw [follow_missing hfind] at hlast ⊢
            cases hlast
            simpa using hnot
          | some b =>
            obtain ⟨rest, hrest⟩ : ∃ rest, (follow find link (n + 1) k').1 = b :: rest := by
              have hhead := @head?_follow κ α find link n k'
              rw [hfind] at hhead
              exact List.head?_eq_some_iff.1 hhead
            rw [hrest, List.getLast?_cons_cons, ← hrest] at hlast
            exact ih k' hlast

/-- Two records are enough to show a link. -/
theorem linksMeet_iff : LinksMeet find link R ↔ ∀ n k, (follow find link n k).1.IsChain R := by
  constructor
  · exact fun h n k => isChain_follow h n k
  · intro h k a k' b ha hk' hb
    obtain ⟨tail, htail⟩ : ∃ tail, (follow find link 2 k).1 = a :: b :: tail := by
      cases hl : link k' b with
      | none => exact ⟨[], by simp [follow, ha, hk', hb, hl]⟩
      | some k'' => exact ⟨[], by simp [follow, ha, hk', hb, hl]⟩
    have hchain := h 2 k
    rw [htail] at hchain
    exact hchain.rel

end Lib
