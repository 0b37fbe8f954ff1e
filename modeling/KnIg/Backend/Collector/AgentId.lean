/-
Which hosts the agent ids tell apart. An id is the number that the host's address and the runes of its
name are the digits of in base 31, modulo 2^64 and with 1 in place of 0. An address is a digit far above
the base, so names that differ in the last rune and addresses 31 apart have one number.
-/
import KnIg.Backend.Collector.Identity
import KnIg.Lib.Keystream
import Mathlib.Data.List.Induction
import Mathlib.Data.Nat.Digits.Defs

namespace KnIg.Backend

open Lib

/-! ## Hosts and their numbers -/

structure Host where
  hostname : Bytes
  address : Octets 4
deriving DecidableEq

namespace Host

def agentID (h : Host) : UInt64 := generateAgentID h.hostname h.address.bytes

/-- The address as the lowest digit in base 31, below the runes of the name. -/
def number (h : Host) : Nat :=
  Nat.ofDigits 31 (beNat h.address.bytes :: (runes h.hostname).reverse.map UInt32.toNat)

/-- An ASCII name, short enough that name and address together fit in 64 bits. -/
def Short (h : Host) : Prop := (∀ b ∈ h.hostname, b < 0x80) ∧ h.number < 2 ^ 64

instance (h : Host) : Decidable h.Short :=
  have : Decidable (∀ b ∈ h.hostname, b < 0x80) := List.decidableBAll _ _
  inferInstanceAs (Decidable (_ ∧ _))

/-- The numbers differ modulo 2^64, and are not 0 and 1 there, which have one id. -/
structure Apart (h h' : Host) : Prop where
  ne : h.number % 2 ^ 64 ≠ h'.number % 2 ^ 64
  zero_one : ¬ (h.number % 2 ^ 64 = 0 ∧ h'.number % 2 ^ 64 = 1)
  one_zero : ¬ (h.number % 2 ^ 64 = 1 ∧ h'.number % 2 ^ 64 = 0)

end Host

/-! ## An id is a number -/

theorem foldl_hash (cs : List UInt32) :
    (cs.foldl (fun h c => h * 31 + c.toUInt64) (0 : UInt64)).toNat =
      Nat.ofDigits 31 (cs.reverse.map UInt32.toNat) % 2 ^ 64 := by
  induction cs using List.reverseRecOn with
  | nil => rfl
  | append_singleton cs c ih =>
    rw [List.foldl_append, List.foldl_cons, List.foldl_nil, List.reverse_append, List.reverse_singleton,
      List.singleton_append, List.map_cons, Nat.ofDigits_cons, UInt64.toNat_add, UInt64.toNat_mul, ih,
      UInt32.toNat_toUInt64]
    show (_ % 2 ^ 64 * 31 % 2 ^ 64 + _) % 2 ^ 64 = _
    omega

theorem Host.agentID_toNat (h : Host) :
    h.agentID.toNat = if h.number % 2 ^ 64 = 0 then 1 else h.number % 2 ^ 64 := by
  have hto4 : to4 h.address.bytes = some h.address.bytes := if_pos h.address.length_eq
  have haddr : beNat h.address.bytes < 2 ^ 64 := by
    have hlt := beNat_lt h.address.bytes
    rw [h.address.length_eq] at hlt
    omega
  -- the sum of the last step, before 0 is avoided
  have hsum : ((runes h.hostname).foldl (fun h c => h * 31 + c.toUInt64) 0 * 31 +
      UInt64.ofNat (beNat h.address.bytes)).toNat = h.number % 2 ^ 64 := by
    rw [UInt64.toNat_add, UInt64.toNat_mul, foldl_hash, UInt64.toNat_ofNat_of_lt' haddr, Host.number,
      Nat.ofDigits_cons]
    show (_ % 2 ^ 64 * 31 % 2 ^ 64 + _) % 2 ^ 64 = _
    omega
  simp only [Host.agentID, generateAgentID, hto4, ← UInt64.toNat_inj, hsum, UInt64.toNat_zero]
  split
  · rfl
  · exact hsum

/-! ## Which hosts are told apart -/

/-- Two hosts have different ids exactly if their numbers are apart. -/
theorem Host.agentID_ne_iff (h h' : Host) : h.agentID ≠ h'.agentID ↔ h.Apart h' := by
  have hid := h.agentID_toNat
  have hid' := h'.agentID_toNat
  rw [ne_eq, ← UInt64.toNat_inj]
  constructor
  · intro hne
    refine ⟨fun hn => hne ?_, fun hn => hne ?_, fun hn => hne ?_⟩
    · rw [hid, hid', hn]
    · rw [hid, hid', if_pos hn.1, hn.2, if_neg one_ne_zero]
    · rw [hid, hid', if_pos hn.2, hn.1, if_neg one_ne_zero]
  · rintro ⟨hne, h01, h10⟩
    rw [hid, hid']
    split <;> split <;> omega

theorem Host.address_inj {a b : Octets 4} (h : beNat a.bytes = beNat b.bytes) : a = b := by
  apply Octets.ext_bytes
  rw [← beBytes_beNat a.bytes, ← beBytes_beNat b.bytes, a.length_eq, b.length_eq, h]

/-- Two clones with different addresses differ in their numbers modulo 2^64. -/
theorem Host.clones_ne {hostname : Bytes} {a b : Octets 4} (hab : a ≠ b) :
    (Host.mk hostname a).number % 2 ^ 64 ≠ (Host.mk hostname b).number % 2 ^ 64 := by
  have ha := beNat_lt a.bytes
  have hb := beNat_lt b.bytes
  rw [a.length_eq] at ha
  rw [b.length_eq] at hb
  have hne : beNat a.bytes ≠ beNat b.bytes := fun h => hab (Host.address_inj h)
  rw [Host.number, Host.number, Nat.ofDigits_cons, Nat.ofDigits_cons]
  dsimp only
  omega

/-- An id is never 0, and two hosts are told apart exactly if they are the same or their numbers are apart;
of two clones only one whose number is a multiple of 2^64 shares an id, with the next address. -/
theorem agentIDs_separate_iff (h h' : Host) :
    (∀ hostname ip, generateAgentID hostname ip ≠ 0) ∧
    ((h ≠ h' → h.agentID ≠ h'.agentID) ↔ (h ≠ h' → h.Apart h')) ∧
    ∀ (hostname : Bytes) (a b : Octets 4),
      (a ≠ b → (Host.mk hostname a).agentID ≠ (Host.mk hostname b).agentID) ↔
        (a ≠ b → ¬ ((Host.mk hostname a).number % 2 ^ 64 = 0 ∧ (Host.mk hostname b).number % 2 ^ 64 = 1) ∧
          ¬ ((Host.mk hostname a).number % 2 ^ 64 = 1 ∧ (Host.mk hostname b).number % 2 ^ 64 = 0)) := by
  refine ⟨generateAgentID_ne_zero, ?_, fun hostname a b => ?_⟩
  · rw [Host.agentID_ne_iff]
  · rw [Host.agentID_ne_iff]
    refine imp_congr_right fun hab => ?_
    constructor
    · intro h
      exact ⟨h.zero_one, h.one_zero⟩
    · rintro ⟨h01, h10⟩
      exact ⟨Host.clones_ne hab, h01, h10⟩

def web1 : Host := ⟨ascii "web-1", ⟨[10, 0, 0, 41], rfl⟩⟩

def web2 : Host := ⟨ascii "web-2", ⟨[10, 0, 0, 10], rfl⟩⟩

/-- The last rune counts 31 addresses, so these two hosts have one id. -/
theorem agentIDs_shared_fails :
    ¬ ∀ h h' : Host, h.Short → h'.Short → h ≠ h' → h.agentID ≠ h'.agentID :=
  fun h => h web1 web2 (by decide) (by decide) (by decide) (by decide)

end KnIg.Backend
