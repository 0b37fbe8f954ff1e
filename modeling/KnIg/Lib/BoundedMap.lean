/-
Maps with a bound on their number of keys: an update of a new key fails once the bound is reached.
Updates over keys that all lie in a set within the bound never fail.
-/
import Mathlib.Data.Finset.Card

namespace Lib

/-- A map of at most `cap` keys. -/
structure BoundedMap (κ α : Type) [DecidableEq κ] (cap : Nat) where
  get : κ → Option α
  keys : Finset κ
  mem_keys : ∀ k, k ∈ keys ↔ (get k).isSome
  card_le : keys.card ≤ cap

namespace BoundedMap

variable {κ α : Type} [DecidableEq κ] {cap : Nat}

def empty : BoundedMap κ α cap := ⟨fun _ => none, ∅, by simp, by simp⟩

/-- Store a value, unless the key is new and the map is full. -/
def update (m : BoundedMap κ α cap) (k : κ) (v : α) : Option (BoundedMap κ α cap) :=
  if h : k ∈ m.keys ∨ m.keys.card < cap then
    some
      { get := Function.update m.get k (some v)
        keys := insert k m.keys
        mem_keys := fun k' => by
          rw [Finset.mem_insert, m.mem_keys, Function.update_apply]
          by_cases hk : k' = k <;> simp [hk]
        card_le := by
          rcases h with h | h
          · rw [Finset.insert_eq_of_mem h]; exact m.card_le
          · exact (Finset.card_insert_le k m.keys).trans h }
  else none

def delete (m : BoundedMap κ α cap) (k : κ) : BoundedMap κ α cap where
  get := Function.update m.get k none
  keys := m.keys.erase k
  mem_keys k' := by
    rw [Finset.mem_erase, m.mem_keys, Function.update_apply]
    by_cases hk : k' = k <;> simp [hk]
  card_le := (Finset.card_erase_le).trans m.card_le

theorem keys_update {m m' : BoundedMap κ α cap} {k : κ} {v : α} (h : m.update k v = some m') :
    m'.keys = insert k m.keys := by
  unfold update at h
  split at h
  · cases h; rfl
  · cases h

theorem get_update {m m' : BoundedMap κ α cap} {k : κ} {v : α} (h : m.update k v = some m') :
    m'.get = Function.update m.get k (some v) := by
  unfold update at h
  split at h
  · cases h; rfl
  · cases h

/-- An update fails exactly for a new key of a full map. -/
theorem update_eq_none {m : BoundedMap κ α cap} {k : κ} {v : α} :
    m.update k v = none ↔ ¬ (k ∈ m.keys ∨ m.keys.card < cap) := by
  unfold update
  split
  · simp_all
  · simp_all

end BoundedMap

/-! ## Keys offered in order -/

section Offer

variable {κ : Type} [DecidableEq κ] (cap : Nat)

/-- The keys a map of `cap` keys has after one more is offered. -/
def offer (s : Finset κ) (k : κ) : Finset κ := if k ∈ s ∨ s.card < cap then insert k s else s

/-- The keys it has after keys are offered in order. -/
def offerAll (s : Finset κ) (ks : List κ) : Finset κ := ks.foldl (offer cap) s

variable {cap}

theorem subset_offer (s : Finset κ) (k : κ) : s ⊆ offer cap s k := by
  unfold offer
  split
  · exact Finset.subset_insert k s
  · exact Finset.Subset.refl s

theorem offer_subset (s : Finset κ) (k : κ) : offer cap s k ⊆ insert k s := by
  unfold offer
  split
  · exact Finset.Subset.refl _
  · exact Finset.subset_insert k s

theorem card_offer_le {s : Finset κ} (hs : s.card ≤ cap) (k : κ) : (offer cap s k).card ≤ cap := by
  unfold offer
  split
  · rename_i h
    rcases h with h | h
    · rw [Finset.insert_eq_of_mem h]; exact hs
    · exact (Finset.card_insert_le k s).trans h
  · exact hs

/-- A key that is not accepted found the map full. -/
theorem card_of_notMem_offer {s : Finset κ} (hs : s.card ≤ cap) {k : κ} (hk : k ∉ offer cap s k) :
    s.card = cap := by
  unfold offer at hk
  split at hk
  · exact absurd (Finset.mem_insert_self k s) hk
  · rename_i h
    have := not_or.1 h
    omega

theorem subset_offerAll : ∀ (ks : List κ) (s : Finset κ), s ⊆ offerAll cap s ks
  | [], s => Finset.Subset.refl s
  | k :: ks, s => (subset_offer s k).trans (subset_offerAll ks _)

theorem offerAll_subset : ∀ (ks : List κ) (s : Finset κ), offerAll cap s ks ⊆ s ∪ ks.toFinset
  | [], s => by simp [offerAll]
  | k :: ks, s => by
    have h1 := offerAll_subset ks (offer cap s k)
    have h2 : offer cap s k ⊆ insert k s := offer_subset s k
    intro x hx
    rcases Finset.mem_union.1 (h1 hx) with hx | hx
    · rcases Finset.mem_insert.1 (h2 hx) with rfl | hx
      · simp
      · exact Finset.mem_union_left _ hx
    · simp only [List.mem_toFinset] at hx
      simp [hx]

theorem card_offerAll_le : ∀ (ks : List κ) {s : Finset κ}, s.card ≤ cap → (offerAll cap s ks).card ≤ cap
  | [], _, hs => hs
  | k :: ks, _, hs => card_offerAll_le ks (card_offer_le hs k)

/-- Every key offered is in, or the map is full. -/
theorem offerAll_full_or_mem : ∀ (ks : List κ) {s : Finset κ}, s.card ≤ cap →
    (offerAll cap s ks).card = cap ∨ ∀ k ∈ ks, k ∈ offerAll cap s ks
  | [], _, _ => .inr (by simp)
  | k :: ks, s, hs => by
    have hle := card_offerAll_le ks (card_offer_le hs k)
    have hsub : offer cap s k ⊆ offerAll cap (offer cap s k) ks := subset_offerAll ks _
    rcases offerAll_full_or_mem ks (card_offer_le hs k) with hfull | hmem
    · exact .inl hfull
    · by_cases hk : k ∈ offer cap s k
      · right
        intro x hx
        rcases List.mem_cons.1 hx with rfl | hx
        · exact hsub hk
        · exact hmem x hx
      · left
        have h1 := card_of_notMem_offer hs hk
        have h2 := Finset.card_le_card ((subset_offer s k).trans hsub)
        exact Nat.le_antisymm hle (h1 ▸ h2)

/-- Keys that fit are all accepted. -/
theorem offerAll_of_fits {ks : List κ} {s : Finset κ} (hfit : (s ∪ ks.toFinset).card ≤ cap) :
    offerAll cap s ks = s ∪ ks.toFinset := by
  have hs : s.card ≤ cap := (Finset.card_le_card Finset.subset_union_left).trans hfit
  refine Finset.Subset.antisymm (offerAll_subset ks s) ?_
  rcases offerAll_full_or_mem ks hs with hfull | hmem
  · exact (Finset.eq_of_subset_of_card_le (offerAll_subset ks s) (by omega)).symm.subset
  · intro x hx
    rcases Finset.mem_union.1 hx with hx | hx
    · exact subset_offerAll ks s hx
    · exact hmem x (by simpa using hx)

/-- A map of keys that were all offered has just the accepted ones when it has the accepted ones. -/
theorem eq_offerAll_iff {ks : List κ} {t : Finset κ} (ht : t ⊆ ks.toFinset) (hcard : t.card ≤ cap) :
    t = offerAll cap ∅ ks ↔ offerAll cap ∅ ks ⊆ t := by
  constructor
  · rintro rfl
    exact Finset.Subset.refl _
  · intro hsub
    have hempty : (∅ : Finset κ).card ≤ cap := by simp
    rcases offerAll_full_or_mem ks hempty with hfull | hmem
    · exact (Finset.eq_of_subset_of_card_le hsub (by omega)).symm
    · exact Finset.Subset.antisymm (fun k hk => hmem k (by simpa using ht hk)) hsub

/-- A key is accepted when it is in from the start, or when the keys in from the start and the ones
offered before it leave room. -/
theorem mem_offerAll {k : κ} : ∀ (ks : List κ) {s : Finset κ}, s.card ≤ cap →
    (k ∈ offerAll cap s ks ↔ k ∈ s ∨ k ∈ ks ∧ (s ∪ (ks.takeWhile (· ≠ k)).toFinset).card < cap)
  | [], s, _ => by simp [offerAll]
  | k' :: ks, s, hs => by
    have ih := mem_offerAll (k := k) ks (card_offer_le hs k')
    rw [show offerAll cap s (k' :: ks) = offerAll cap (offer cap s k') ks from rfl, ih]
    by_cases hin : k' ∈ s ∨ s.card < cap
    · rw [show offer cap s k' = insert k' s from if_pos hin]
      by_cases hk : k' = k
      · subst hk
        rcases hin with hin | hin
        · simp [hin]
        · simp [hin]
      · have hset : insert k' s ∪ (ks.takeWhile (· ≠ k)).toFinset =
            s ∪ ((k' :: ks).takeWhile (· ≠ k)).toFinset := by
          rw [List.takeWhile_cons_of_pos (by simpa using hk), List.toFinset_cons, Finset.insert_union,
            Finset.union_insert]
        rw [hset]
        simp [Ne.symm hk]
    -- The map is full before `k'`, and the keys offered later do not make it smaller.
    · rw [show offer cap s k' = s from if_neg hin]
      have hfull : ∀ t : Finset κ, ¬ (s ∪ t).card < cap := fun t ht => by
        have := Finset.card_le_card (show s ⊆ s ∪ t from Finset.subset_union_left)
        exact hin (.inr (by omega))
      simp [hfull]

end Offer

/-- Offering a key to a map accepts it among its keys. -/
theorem BoundedMap.keys_offer {κ α : Type} [DecidableEq κ] {cap : Nat} (m : BoundedMap κ α cap) (k : κ) (v : α) :
    ((m.update k v).getD m).keys = offer cap m.keys k := by
  unfold offer
  cases h : m.update k v with
  | none => exact (if_neg (update_eq_none.1 h)).symm
  | some m' =>
    have hin : k ∈ m.keys ∨ m.keys.card < cap := by
      by_contra hn
      rw [update_eq_none.2 hn] at h
      cases h
    rw [if_pos hin]
    exact keys_update h

end Lib
