/-
Open addressing with linear probing and tombstones, over any key type and hash: a lookup walks
from the hash position to the first empty slot, a removal leaves a tombstone, and an insertion
of a new key goes to the first tombstone it passed, but only once it has met an empty slot. The
table carries the probe-chain invariant (every key is reached before any empty slot of its walk
and sits in one slot only), so lookups are determined by the slots alone; the three outcomes of
an insertion are told apart by whether the key is live and whether an empty slot is left.
-/
import Mathlib.Algebra.GroupWithZero.Nat
import Mathlib.Data.Finset.Card
import Mathlib.Data.Fintype.Card
import Mathlib.Data.Fintype.Basic

namespace Lib.Probe

/-- One slot of the table. -/
inductive Slot (κ α : Type) where
  | empty
  | used (key : κ) (val : α)
  | deleted
deriving DecidableEq

def Slot.isUsed {κ α : Type} : Slot κ α → Bool
  | .used _ _ => true
  | _ => false

section Walk

variable {κ α : Type} {n : Nat} [NeZero n] (hash : κ → Nat)

/-- The `i`-th slot of a key's walk. -/
def pos (n : Nat) [NeZero n] (k : κ) (i : Nat) : Fin n := Fin.ofNat n (hash k + i)

/-- Walk on from step `i` to the slot that holds the key; an empty slot ends the walk. -/
def seek [DecidableEq κ] (t : Fin n → Slot κ α) (k : κ) : Nat → Nat → Option (Fin n)
  | 0, _ => none
  | fuel + 1, i =>
    match t (pos hash n k i) with
    | .empty => none
    | .deleted => seek t k fuel (i + 1)
    | .used k' _ => if k' = k then some (pos hash n k i) else seek t k fuel (i + 1)

/-- Walk on from step `i` to store the key, remembering the first tombstone passed. -/
def store [DecidableEq κ] (t : Fin n → Slot κ α) (k : κ) (v : α) : Nat → Nat → Option (Fin n) → Fin n → Slot κ α
  | 0, _, _ => t
  | fuel + 1, i, tomb =>
    match t (pos hash n k i) with
    | .empty => Function.update t (tomb.getD (pos hash n k i)) (.used k v)
    | .deleted => store t k v fuel (i + 1) (tomb <|> some (pos hash n k i))
    | .used k' _ =>
      if k' = k then Function.update t (pos hash n k i) (.used k v) else store t k v fuel (i + 1) tomb

/-- The first `i` steps of the walk meet no empty slot. -/
def Open (t : Fin n → Slot κ α) (k : κ) (i : Nat) : Prop := ∀ j < i, t (pos hash n k j) ≠ .empty

/-- The first `i` steps of the walk meet neither an empty slot nor the key. -/
def Passed (t : Fin n → Slot κ α) (k : κ) (i : Nat) : Prop :=
  ∀ j < i, t (pos hash n k j) ≠ .empty ∧ ∀ w, t (pos hash n k j) ≠ .used k w

/-- The probe-chain invariant. -/
structure Probed (t : Fin n → Slot κ α) : Prop where
  reach : ∀ p k v, t p = .used k v → ∃ i < n, pos hash n k i = p ∧ Open hash t k i
  uniq : ∀ p q k v w, t p = .used k v → t q = .used k w → p = q

/-- Every slot is on every key's walk. -/
theorem pos_surj (k : κ) (p : Fin n) : ∃ i < n, pos hash n k i = p := by
  have hn : 0 < n := Nat.pos_of_ne_zero (NeZero.ne n)
  have hlt := Nat.mod_lt (hash k) hn
  refine ⟨(p.val + (n - hash k % n)) % n, Nat.mod_lt _ hn, Fin.ext ?_⟩
  simp only [pos, Fin.ofNat, Nat.add_mod_mod]
  rw [Nat.add_mod, Nat.add_mod p.val, Nat.add_mod_mod, ← Nat.add_assoc, Nat.add_comm (hash k % n),
    Nat.mod_eq_of_lt p.isLt]
  by_cases h0 : hash k % n = 0
  · simp [h0, Nat.mod_eq_of_lt p.isLt]
  · rw [Nat.mod_eq_of_lt (show n - hash k % n < n by omega), Nat.add_assoc,
      Nat.add_sub_cancel' (Nat.le_of_lt hlt), Nat.add_mod_right, Nat.mod_eq_of_lt p.isLt]

variable {hash}

theorem Passed.succ {t : Fin n → Slot κ α} {k : κ} {i : Nat} (h : Passed hash t k i)
    (he : t (pos hash n k i) ≠ .empty) (hu : ∀ w, t (pos hash n k i) ≠ .used k w) :
    Passed hash t k (i + 1) := by
  intro j hj
  rcases Nat.lt_succ_iff_lt_or_eq.1 hj with hlt | rfl
  · exact h j hlt
  · exact ⟨he, hu⟩

theorem Passed.toOpen {t : Fin n → Slot κ α} {k : κ} {i : Nat} (h : Passed hash t k i) :
    Open hash t k i := fun j hj => (h j hj).1

/-- A walk that ends at an empty slot without meeting the key shows that the key is not stored. -/
theorem Probed.not_used_of_passed {t : Fin n → Slot κ α} (ht : Probed hash t) {k : κ} {i : Nat}
    (h : Passed hash t k i) (he : t (pos hash n k i) = .empty) : ∀ p w, t p ≠ .used k w := by
  intro p w hp
  obtain ⟨m, -, rfl, hopen⟩ := ht.reach p k w hp
  rcases Nat.lt_trichotomy m i with hlt | rfl | hgt
  · exact (h m hlt).2 w hp
  · rw [he] at hp; cases hp
  · exact hopen i hgt he

/-! ## Writing one slot -/

/-- Writing a key into a slot its walk reaches, when it is stored nowhere else. -/
theorem Probed.update_used {t : Fin n → Slot κ α} (ht : Probed hash t) {k : κ} {i : Nat} (v : α)
    (hi : i < n) (hopen : Open hash t k i)
    (honly : ∀ q w, t q = .used k w → q = pos hash n k i) :
    Probed hash (Function.update t (pos hash n k i) (.used k v)) := by
  have hkeep : ∀ {k' : κ} {m : Nat}, Open hash t k' m →
      Open hash (Function.update t (pos hash n k i) (.used k v)) k' m := by
    intro k' m hm j hj
    rw [Function.update_apply]
    split
    · intro h; cases h
    · exact hm j hj
  refine ⟨fun p k' w hp => ?_, fun p q k' w w' hp hq => ?_⟩
  · rw [Function.update_apply] at hp
    split at hp
    · rename_i he
      cases hp
      exact ⟨i, hi, he.symm, hkeep hopen⟩
    · obtain ⟨m, hm, hpos, ho⟩ := ht.reach p k' w hp
      exact ⟨m, hm, hpos, hkeep ho⟩
  · rw [Function.update_apply] at hp hq
    split at hp <;> split at hq
    · rename_i h1 h2; rw [h1, h2]
    · rename_i h1 h2; cases hp; exact absurd (honly q w' hq) h2
    · rename_i h1 h2; cases hq; exact absurd (honly p w hp) h1
    · exact ht.uniq p q k' w w' hp hq

/-- A tombstone in place of a stored key keeps every other walk open. -/
theorem Probed.update_deleted {t : Fin n → Slot κ α} (ht : Probed hash t) (p : Fin n) :
    Probed hash (Function.update t p .deleted) := by
  refine ⟨fun q k w hq => ?_, fun q r k w w' hq hr => ?_⟩
  · rw [Function.update_apply] at hq
    split at hq
    · cases hq
    · obtain ⟨m, hm, hpos, ho⟩ := ht.reach q k w hq
      refine ⟨m, hm, hpos, fun j hj => ?_⟩
      rw [Function.update_apply]
      split
      · intro h; cases h
      · exact ho j hj
  · rw [Function.update_apply] at hq hr
    split at hq
    · cases hq
    · split at hr
      · cases hr
      · exact ht.uniq q r k w w' hq hr

/-! ## Lookups -/

section Search

variable [DecidableEq κ]

theorem seek_sound {t : Fin n → Slot κ α} {k : κ} :
    ∀ (fuel i : Nat) {p : Fin n}, seek hash t k fuel i = some p → ∃ v, t p = .used k v
  | 0, _, _, h => by cases h
  | fuel + 1, i, p, h => by
    unfold seek at h
    split at h
    · cases h
    · exact seek_sound fuel (i + 1) h
    · rename_i k' w hw
      split at h
      · rename_i hk
        cases h; subst hk
        exact ⟨w, hw⟩
      · exact seek_sound fuel (i + 1) h

theorem seek_complete {t : Fin n → Slot κ α} {k : κ} {v : α} {j : Nat}
    (hopen : Open hash t k j) (hj : t (pos hash n k j) = .used k v) :
    ∀ (fuel i : Nat), i ≤ j → j < i + fuel → ∃ p, seek hash t k fuel i = some p
  | 0, _, hi, hlt => absurd hlt (by omega)
  | fuel + 1, i, hi, hlt => by
    unfold seek
    rcases Nat.lt_or_eq_of_le hi with hij | rfl
    · split
      · rename_i he; exact absurd he (hopen i hij)
      · exact seek_complete hopen hj fuel (i + 1) hij (by omega)
      · split
        · exact ⟨_, rfl⟩
        · exact seek_complete hopen hj fuel (i + 1) hij (by omega)
    · rw [hj]; simp

theorem seek_eq_some {t : Fin n → Slot κ α} (ht : Probed hash t) {k : κ} {p : Fin n} :
    seek hash t k n 0 = some p ↔ ∃ v, t p = .used k v := by
  constructor
  · exact seek_sound n 0
  · rintro ⟨v, hv⟩
    obtain ⟨i, hi, rfl, hopen⟩ := ht.reach p k v hv
    obtain ⟨q, hq⟩ := seek_complete hopen hv n 0 (Nat.zero_le i) (by omega)
    obtain ⟨w, hw⟩ := seek_sound n 0 hq
    rw [hq, ht.uniq _ _ _ _ _ hw hv]

end Search

/-! ## Insertion -/

/-- What an insertion can do to the slots. -/
inductive Stored (hash : κ → Nat) (t : Fin n → Slot κ α) (k : κ) (v : α) : (Fin n → Slot κ α) → Prop
  | overwrite (i : Nat) (w : α) (hi : i < n) (hopen : Open hash t k i)
      (hw : t (pos hash n k i) = .used k w) :
      Stored hash t k v (Function.update t (pos hash n k i) (.used k v))
  | fresh (i m : Nat) (him : i ≤ m) (hm : m < n) (hp : Passed hash t k m)
      (he : t (pos hash n k m) = .empty)
      (hfree : t (pos hash n k i) = .empty ∨ t (pos hash n k i) = .deleted) :
      Stored hash t k v (Function.update t (pos hash n k i) (.used k v))
  | dropped (hp : Passed hash t k n) : Stored hash t k v t

theorem store_stored [DecidableEq κ] {t : Fin n → Slot κ α} {k : κ} {v : α} :
    ∀ (fuel i : Nat) (tomb : Option (Fin n)), i + fuel = n → Passed hash t k i →
      (∀ q, tomb = some q → ∃ l < i, pos hash n k l = q ∧ t q = .deleted) →
      Stored hash t k v (store hash t k v fuel i tomb)
  | 0, i, tomb, hn, hp, ht => by
    unfold store
    have hi : i = n := by omega
    exact .dropped (hi ▸ hp)
  | fuel + 1, i, tomb, hn, hp, ht => by
    unfold store
    split
    -- an empty slot ends the walk: the key goes to the first tombstone passed, or here
    · rename_i he
      cases tomb with
      | none => exact .fresh i i (Nat.le_refl i) (by omega) hp he (.inl he)
      | some q =>
        obtain ⟨l, hl, rfl, hd⟩ := ht q rfl
        exact .fresh l i (Nat.le_of_lt hl) (by omega) hp he (.inr hd)
    -- a tombstone is remembered if it is the first one
    · rename_i hd
      refine store_stored fuel (i + 1) _ (by omega)
        (hp.succ (by rw [hd]; nofun) (by rw [hd]; nofun)) fun q hq => ?_
      cases tomb with
      | none => cases hq; exact ⟨i, Nat.lt_succ_self i, rfl, hd⟩
      | some q' =>
        cases hq
        obtain ⟨l, hl, h⟩ := ht q rfl
        exact ⟨l, Nat.lt_succ_of_lt hl, h⟩
    · rename_i k' w hw
      split
      · rename_i hk
        subst hk
        exact .overwrite i w (by omega) hp.toOpen hw
      · rename_i hk
        refine store_stored fuel (i + 1) tomb (by omega)
          (hp.succ (by rw [hw]; nofun) fun w' h => ?_) fun q hq => ?_
        · rw [hw] at h; cases h; exact hk rfl
        · obtain ⟨l, hl, h⟩ := ht q hq
          exact ⟨l, Nat.lt_succ_of_lt hl, h⟩

theorem Stored.probed {t t' : Fin n → Slot κ α} {k : κ} {v : α} (ht : Probed hash t)
    (h : Stored hash t k v t') : Probed hash t' := by
  cases h with
  | overwrite i w hi hopen hw =>
    exact ht.update_used v hi hopen fun q w' hq => ht.uniq _ _ _ _ _ hq hw
  | fresh i m him hm hp he hfree =>
    exact ht.update_used v (by omega) (fun j hj => (hp j (by omega)).1)
      fun q w hq => absurd hq (ht.not_used_of_passed hp he q w)
  | dropped hp => exact ht

end Walk

/-! ## Tables -/

/-- A table whose slots meet the probe-chain invariant. -/
structure Table {κ : Type} [DecidableEq κ] (hash : κ → Nat) (α : Type) (n : Nat) [NeZero n] where
  slots : Fin n → Slot κ α
  wf : Probed hash slots

namespace Table

variable {κ α : Type} [DecidableEq κ] {n : Nat} [NeZero n] {hash : κ → Nat}

def empty : Table hash α n := ⟨fun _ => .empty, ⟨nofun, nofun⟩⟩

def find (t : Table hash α n) (k : κ) : Option (Fin n) := seek hash t.slots k n 0

def get (t : Table hash α n) (k : κ) : Option α :=
  match t.find k with
  | none => none
  | some p =>
    match t.slots p with
    | .used _ v => some v
    | _ => none

def put (t : Table hash α n) (k : κ) (v : α) : Table hash α n :=
  ⟨store hash t.slots k v n 0 none, (store_stored n 0 none (by omega) nofun nofun).probed t.wf⟩

def remove (t : Table hash α n) (k : κ) : Table hash α n :=
  match t.find k with
  | none => t
  | some p => ⟨Function.update t.slots p .deleted, t.wf.update_deleted p⟩

/-- The occupied slots. -/
def live (t : Table hash α n) : Finset (Fin n) := Finset.univ.filter fun p => (t.slots p).isUsed

/-- Some slot has never been used. -/
def HasEmpty (t : Table hash α n) : Prop := ∃ p, t.slots p = .empty

theorem get_eq_some {t : Table hash α n} {k : κ} {v : α} :
    t.get k = some v ↔ ∃ p, t.slots p = .used k v := by
  unfold get find
  constructor
  · intro h
    split at h
    · cases h
    · rename_i p hp
      obtain ⟨w, hw⟩ := seek_sound n 0 hp
      rw [hw] at h
      cases h; exact ⟨p, hw⟩
  · rintro ⟨p, hp⟩
    rw [(seek_eq_some t.wf).2 ⟨v, hp⟩]
    simp [hp]

theorem get_eq_none {t : Table hash α n} {k : κ} :
    t.get k = none ↔ ∀ p v, t.slots p ≠ .used k v := by
  rw [Option.eq_none_iff_forall_ne_some]
  exact ⟨fun h p v hp => h v (get_eq_some.2 ⟨p, hp⟩), fun h v hv => by
    obtain ⟨p, hp⟩ := get_eq_some.1 hv; exact h p v hp⟩

@[simp] theorem get_empty (k : κ) : (empty : Table hash α n).get k = none :=
  get_eq_none.2 fun _ _ => nofun

/-- Reading after a slot that held no other key was written. -/
theorem get_update {t t' : Table hash α n} {k : κ} {v : α} {p : Fin n}
    (hs : t'.slots = Function.update t.slots p (.used k v))
    (hp : ∀ k' w, t.slots p = .used k' w → k' = k) (k' : κ) :
    t'.get k' = if k' = k then some v else t.get k' := by
  have hk : t'.get k = some v := get_eq_some.2 ⟨p, by rw [hs, Function.update_self]⟩
  split
  · rename_i h; rw [h, hk]
  · rename_i h
    refine Option.ext fun w => ?_
    rw [get_eq_some, get_eq_some, hs]
    constructor
    · rintro ⟨q, hq⟩
      rw [Function.update_apply] at hq
      split at hq
      · cases hq; exact absurd rfl h
      · exact ⟨q, hq⟩
    · rintro ⟨q, hq⟩
      refine ⟨q, ?_⟩
      rw [Function.update_of_ne ?_]
      · exact hq
      · rintro rfl; exact h (hp k' w hq)

/-- The three outcomes of an insertion: the key was live and is overwritten in place; it was not,
an empty slot was left, and it takes a free slot; or it was not and the table is unchanged. -/
theorem put_cases (t : Table hash α n) (k : κ) (v : α) :
    (∃ p w, t.slots p = .used k w ∧ (t.put k v).slots = Function.update t.slots p (.used k v)) ∨
    (t.get k = none ∧ t.HasEmpty ∧ ∃ p, (t.slots p = .empty ∨ t.slots p = .deleted) ∧
      (t.put k v).slots = Function.update t.slots p (.used k v)) ∨
    (t.get k = none ∧ ¬ t.HasEmpty ∧ t.put k v = t) := by
  have hs : Stored hash t.slots k v (t.put k v).slots := store_stored n 0 none (by omega) nofun nofun
  generalize hr : (t.put k v).slots = r at hs
  cases hs with
  | overwrite i w hi hopen hw => exact .inl ⟨_, w, hw, rfl⟩
  | fresh i m him hm hp he hfree =>
    exact .inr (.inl ⟨get_eq_none.2 (t.wf.not_used_of_passed hp he), ⟨_, he⟩, _, hfree, rfl⟩)
  | dropped hp =>
    refine .inr (.inr ⟨get_eq_none.2 fun p w => ?_, ?_, ?_⟩)
    · obtain ⟨i, hi, rfl⟩ := pos_surj hash k p
      exact (hp i hi).2 w
    · rintro ⟨p, he⟩
      obtain ⟨i, hi, rfl⟩ := pos_surj hash k p
      exact (hp i hi).1 he
    · cases h : t.put k v; cases t; simp_all

/-- An insertion is seen by the next lookup when the key is live or an empty slot is left. -/
theorem get_put {t : Table hash α n} {k : κ} (h : (t.get k).isSome ∨ t.HasEmpty) (v : α) (k' : κ) :
    (t.put k v).get k' = if k' = k then some v else t.get k' := by
  rcases t.put_cases k v with ⟨p, w, hp, hs⟩ | ⟨-, -, p, hp, hs⟩ | ⟨hn, he, -⟩
  · exact get_update hs (fun k'' w' h' => by rw [hp] at h'; cases h'; rfl) k'
  · exact get_update hs (fun k'' w' h' => by rcases hp with hp | hp <;> rw [hp] at h' <;> cases h') k'
  · rw [hn] at h
    exact absurd (h.resolve_left (by simp)) he

/-- An insertion never changes what other keys map to. -/
theorem get_put_ne (t : Table hash α n) {k k' : κ} (v : α) (hk : k' ≠ k) : (t.put k v).get k' = t.get k' := by
  by_cases h : (t.get k).isSome ∨ t.HasEmpty
  · rw [get_put h, if_neg hk]
  · rcases t.put_cases k v with ⟨p, w, hp, -⟩ | ⟨-, he, -⟩ | ⟨-, -, hs⟩
    · exact absurd (.inl (by rw [get_eq_some.2 ⟨p, hp⟩]; rfl)) h
    · exact absurd (.inr he) h
    · rw [hs]

/-- Without a live key and without an empty slot an insertion does nothing. -/
theorem put_dropped {t : Table hash α n} {k : κ} (hn : t.get k = none) (he : ¬ t.HasEmpty) (v : α) :
    t.put k v = t := by
  rcases t.put_cases k v with ⟨p, w, hp, -⟩ | ⟨-, he', -⟩ | ⟨-, -, hs⟩
  · exact absurd hp (get_eq_none.1 hn p w)
  · exact absurd he' he
  · exact hs

theorem get_remove (t : Table hash α n) (k k' : κ) :
    (t.remove k).get k' = if k' = k then none else t.get k' := by
  unfold remove
  split
  · rename_i hf
    have hn : t.get k = none := by unfold get; rw [hf]
    split
    · rename_i h; rw [h, hn]
    · rfl
  · rename_i p hf
    obtain ⟨w, hw⟩ := (seek_eq_some t.wf).1 hf
    refine Option.ext fun u => ?_
    rw [get_eq_some]
    simp only [Function.update_apply]
    constructor
    -- the removed slot was the only one of its key, so another key keeps its own
    · rintro ⟨q, hq⟩
      split at hq
      · cases hq
      · rename_i hne
        have hk : k' ≠ k := by rintro rfl; exact hne (t.wf.uniq _ _ _ _ _ hq hw)
        rw [if_neg hk]
        exact get_eq_some.2 ⟨q, hq⟩
    · intro h
      split at h
      · cases h
      · rename_i hk
        obtain ⟨q, hq⟩ := get_eq_some.1 h
        refine ⟨q, ?_⟩
        rw [if_neg ?_]
        · exact hq
        · rintro rfl; rw [hw] at hq; cases hq; exact hk rfl

/-- A removal turns no slot back into an empty one. -/
theorem hasEmpty_of_remove {t : Table hash α n} {k : κ} (h : (t.remove k).HasEmpty) : t.HasEmpty := by
  obtain ⟨p, hp⟩ := h
  unfold remove at hp
  split at hp
  · exact ⟨p, hp⟩
  · simp only [Function.update_apply] at hp
    split at hp
    · cases hp
    · exact ⟨p, hp⟩

/-! ## Filling up -/

/-- No slot was freed since the table was empty. -/
def NoTomb (t : Table hash α n) : Prop := ∀ p, t.slots p ≠ .deleted

theorem mem_live {t : Table hash α n} {p : Fin n} : p ∈ t.live ↔ ∃ k v, t.slots p = .used k v := by
  simp only [live, Finset.mem_filter, Finset.mem_univ, true_and]
  cases h : t.slots p <;> simp [Slot.isUsed]

theorem NoTomb.hasEmpty {t : Table hash α n} (ht : t.NoTomb) (hc : t.live.card < n) : t.HasEmpty := by
  by_contra he
  have hall : t.live = Finset.univ := by
    refine Finset.eq_univ_iff_forall.2 fun p => mem_live.2 ?_
    cases h : t.slots p with
    | empty => exact absurd ⟨p, h⟩ he
    | used k v => exact ⟨k, v, rfl⟩
    | deleted => exact absurd h (ht p)
  rw [hall, Finset.card_univ, Fintype.card_fin] at hc
  exact Nat.lt_irrefl n hc

theorem not_hasEmpty_of_full {t : Table hash α n} (hc : t.live.card = n) : ¬ t.HasEmpty := by
  rintro ⟨p, hp⟩
  have hlt : t.live.card < Fintype.card (Fin n) := Finset.card_lt_univ_of_notMem (x := p) fun hm => by
    obtain ⟨k, v, h⟩ := mem_live.1 hm
    rw [hp] at h; cases h
  rw [Fintype.card_fin, hc] at hlt
  exact Nat.lt_irrefl n hlt

/-- A new key without tombstones takes one more slot. -/
theorem live_put_fresh {t : Table hash α n} {k : κ} (ht : t.NoTomb) (hk : t.get k = none)
    (hc : t.live.card < n) (v : α) : (t.put k v).NoTomb ∧ (t.put k v).live.card = t.live.card + 1 := by
  rcases t.put_cases k v with ⟨p, w, hp, -⟩ | ⟨-, -, p, hfree, hs⟩ | ⟨-, he, -⟩
  · exact absurd hp (get_eq_none.1 hk p w)
  · have hp : t.slots p = .empty := hfree.resolve_right (ht p)
    have hnot : p ∉ t.live := fun hm => by
      obtain ⟨k', w, h⟩ := mem_live.1 hm
      rw [hp] at h; cases h
    refine ⟨fun q => ?_, ?_⟩
    · rw [hs, Function.update_apply]
      split
      · nofun
      · exact ht q
    · have hl : (t.put k v).live = insert p t.live := by
        ext q
        rw [Finset.mem_insert, mem_live, mem_live, hs, Function.update_apply]
        by_cases hq : q = p
        · simp [hq]
        · simp [hq]
      rw [hl, Finset.card_insert_of_notMem hnot]
  · exact absurd (ht.hasEmpty hc) he

/-- Insert a list of keys, each with the value `f` gives it. -/
def putAll (f : κ → α) (t : Table hash α n) (ks : List κ) : Table hash α n :=
  ks.foldl (fun t k => t.put k (f k)) t

theorem get_putAll_of_notMem (f : κ → α) : ∀ (ks : List κ) (t : Table hash α n) {k : κ},
    k ∉ ks → (t.putAll f ks).get k = t.get k
  | [], _, _, _ => rfl
  | k' :: ks, t, k, hk => by
    rw [List.mem_cons, not_or] at hk
    exact (get_putAll_of_notMem f ks (t.put k' (f k')) hk.2).trans (get_put_ne t _ hk.1)

/-- Distinct new keys fill the table one slot each. -/
theorem live_putAll (f : κ → α) : ∀ (ks : List κ) (t : Table hash α n), t.NoTomb → ks.Nodup →
    (∀ k ∈ ks, t.get k = none) → t.live.card + ks.length ≤ n →
    (t.putAll f ks).NoTomb ∧ (t.putAll f ks).live.card = t.live.card + ks.length
  | [], t, ht, _, _, _ => ⟨ht, rfl⟩
  | k :: ks, t, ht, hnd, hnew, hle => by
    rw [List.nodup_cons] at hnd
    rw [List.length_cons] at hle
    obtain ⟨ht', hc'⟩ := live_put_fresh ht (hnew k List.mem_cons_self) (by omega) (f k)
    have hnew' : ∀ k' ∈ ks, (t.put k (f k)).get k' = none := fun k' hk' => by
      rw [get_put_ne _ _ (by rintro rfl; exact hnd.1 hk')]
      exact hnew k' (List.mem_cons_of_mem _ hk')
    obtain ⟨ht'', hc''⟩ := live_putAll f ks _ ht' hnd.2 hnew' (by omega)
    refine ⟨ht'', ?_⟩
    rw [List.length_cons]
    exact hc''.trans (by omega)

/-- Every key of the list is found when it fits. -/
theorem get_putAll_of_mem (f : κ → α) : ∀ (ks : List κ) (t : Table hash α n), t.NoTomb → ks.Nodup →
    (∀ k ∈ ks, t.get k = none) → t.live.card + ks.length ≤ n → ∀ {k : κ}, k ∈ ks →
    ((t.putAll f ks).get k).isSome
  | [], _, _, _, _, _, _, hk => absurd hk List.not_mem_nil
  | k' :: ks, t, ht, hnd, hnew, hle, k, hk => by
    rw [List.nodup_cons] at hnd
    rw [List.length_cons] at hle
    obtain ⟨ht', hc'⟩ := live_put_fresh ht (hnew k' List.mem_cons_self) (by omega) (f k')
    rcases List.mem_cons.1 hk with rfl | hk
    · have hget : (t.put k (f k)).get k = some (f k) := by
        rw [get_put (.inr (ht.hasEmpty (by omega))), if_pos rfl]
      have := (get_putAll_of_notMem f ks (t.put k (f k)) hnd.1).trans hget
      exact Option.isSome_iff_exists.2 ⟨_, this⟩
    · refine get_putAll_of_mem f ks (t.put k' (f k')) ht' hnd.2 (fun k'' hk'' => ?_) (by omega) hk
      rw [get_put_ne _ _ (by rintro rfl; exact hnd.1 hk'')]
      exact hnew k'' (List.mem_cons_of_mem _ hk'')

theorem live_remove {t : Table hash α n} {k : κ} (hk : (t.get k).isSome) :
    (t.remove k).live.card + 1 = t.live.card := by
  obtain ⟨v, hv⟩ := Option.isSome_iff_exists.1 hk
  obtain ⟨p, hp⟩ := get_eq_some.1 hv
  have hf : t.find k = some p := (seek_eq_some t.wf).2 ⟨v, hp⟩
  have hl : (t.remove k).live = t.live.erase p := by
    ext q
    rw [Finset.mem_erase, mem_live, mem_live]
    unfold remove
    rw [hf]
    simp only [Function.update_apply]
    by_cases hq : q = p
    · simp [hq]
    · simp [hq]
  rw [hl]
  exact Finset.card_erase_add_one (mem_live.2 ⟨k, v, hp⟩)

end Table

end Lib.Probe
