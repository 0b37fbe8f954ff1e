/-
Byte strings: text constants, C strings as byte lists without a NUL, decimal text, and
fixed-width big-endian numbers with their round trip.
-/
import Mathlib.Data.List.Basic
import Mathlib.Tactic.Ring

namespace Lib

abbrev Bytes := List UInt8

/-- The bytes of an ASCII text. -/
def ascii (s : String) : Bytes := s.toList.map fun c => UInt8.ofNat c.toNat

theorem zero_notMem_nil : (0 : UInt8) ∉ ([] : Bytes) := List.not_mem_nil

/-- A text of known characters, without its way through the string's encoding. -/
theorem ascii_ofList (cs : List Char) : ascii (String.ofList cs) = cs.map fun c => UInt8.ofNat c.toNat :=
  congrArg (List.map _) String.toList_ofList

/-- The decimal text of a number, as `%llu` and `strconv.FormatUint(_, 10)` print it. -/
def decimal (n : Nat) : Bytes := (Nat.toDigits 10 n).map fun c => UInt8.ofNat c.toNat

theorem decimal_ne_nil (n : Nat) : decimal n ≠ [] := by
  unfold decimal
  rw [ne_eq, List.map_eq_nil_iff]
  exact Nat.toDigits_ne_nil

theorem zero_notMem_decimal (n : Nat) : 0 ∉ decimal n := by
  intro h
  obtain ⟨c, hc, h0⟩ := List.mem_map.1 h
  have hd := Nat.isDigit_of_mem_toDigits (by decide) (by decide) hc
  simp only [Char.isDigit, Bool.and_eq_true, decide_eq_true_eq] at hd
  obtain ⟨hl, hu⟩ := hd
  have h1 : 48 ≤ c.toNat := hl
  have h2 : c.toNat ≤ 57 := hu
  have h3 : c.toNat % 256 = 0 := by simpa using congrArg UInt8.toNat h0
  omega

/-! ## C strings -/

/-- The contents of a `char *` up to its terminator. -/
structure CStr where
  bytes : Bytes
  noNul : 0 ∉ bytes
deriving DecidableEq

namespace CStr

theorem ext_bytes {s t : CStr} (h : s.bytes = t.bytes) : s = t := by
  cases s; cases t; cases h; rfl

/-- `strlen`. -/
def length (s : CStr) : Nat := s.bytes.length

/-- The first `n` bytes, as `strncpy(dst, s, n); dst[n] = 0` keeps them. -/
def cut (n : Nat) (s : CStr) : CStr := ⟨s.bytes.take n, fun h => s.noNul (List.mem_of_mem_take h)⟩

@[simp] theorem cut_bytes (n : Nat) (s : CStr) : (s.cut n).bytes = s.bytes.take n := rfl

@[simp] theorem cut_cut (m n : Nat) (s : CStr) : (s.cut m).cut n = s.cut (min n m) :=
  ext_bytes (by simp [List.take_take])

/-- A string that is shorter than the buffer is copied whole. -/
theorem cut_of_lt {n : Nat} {s : CStr} (h : s.length < n) : s.cut (n - 1) = s := by
  apply ext_bytes
  rw [cut_bytes]
  exact List.take_of_length_le (Nat.le_sub_one_of_lt h)

/-- Concatenation, as `snprintf` builds it from its parts. -/
def append (s t : CStr) : CStr :=
  ⟨s.bytes ++ t.bytes, fun h => (List.mem_append.1 h).elim s.noNul t.noNul⟩

instance : Append CStr := ⟨append⟩

@[simp] theorem append_bytes (s t : CStr) : (s ++ t).bytes = s.bytes ++ t.bytes := rfl

/-- The decimal text of a number as a C string. -/
def ofNat (n : Nat) : CStr := ⟨decimal n, zero_notMem_decimal n⟩

end CStr

/-! ## Big-endian numbers -/

/-- The `w` low bytes of `n`, most significant first. -/
def beBytes : Nat → Nat → Bytes
  | 0, _ => []
  | w + 1, n => UInt8.ofNat (n / 256 ^ w) :: beBytes w n

/-- The number a big-endian byte string denotes. -/
def beNat (bs : Bytes) : Nat := bs.foldl (fun acc b => acc * 256 + b.toNat) 0

@[simp] theorem beBytes_length (w n : Nat) : (beBytes w n).length = w := by
  induction w with
  | zero => rfl
  | succ w ih => simp [beBytes, ih]

theorem foldl_beBytes (w n acc : Nat) :
    (beBytes w n).foldl (fun acc b => acc * 256 + b.toNat) acc = acc * 256 ^ w + n % 256 ^ w := by
  induction w generalizing acc with
  | zero => simp [beBytes, Nat.mod_one]
  | succ w ih =>
    have hb : (UInt8.ofNat (n / 256 ^ w)).toNat = n / 256 ^ w % 256 := by simp
    have hm : n % 256 ^ (w + 1) = n / 256 ^ w % 256 * 256 ^ w + n % 256 ^ w := by
      rw [Nat.pow_succ, Nat.mod_mul]; ring
    simp only [beBytes, List.foldl_cons]
    rw [ih, hb, hm, pow_succ]; ring

/-- Reading back `w` big-endian bytes gives the number modulo `256 ^ w`. -/
theorem beNat_beBytes (w n : Nat) : beNat (beBytes w n) = n % 256 ^ w := by
  simp [beNat, foldl_beBytes]

theorem foldl_beNat (bs : Bytes) (acc : Nat) :
    bs.foldl (fun acc b => acc * 256 + b.toNat) acc = acc * 256 ^ bs.length + beNat bs := by
  induction bs generalizing acc with
  | nil => simp [beNat]
  | cons b bs ih =>
    rw [beNat, List.foldl_cons, List.foldl_cons, ih, ih (0 * 256 + b.toNat), List.length_cons, pow_succ]
    ring

theorem beNat_cons (b : UInt8) (bs : Bytes) : beNat (b :: bs) = b.toNat * 256 ^ bs.length + beNat bs := by
  rw [beNat, List.foldl_cons, foldl_beNat]
  ring

theorem beNat_lt (bs : Bytes) : beNat bs < 256 ^ bs.length := by
  induction bs with
  | nil => decide
  | cons b bs ih =>
    have hb : b.toNat + 1 ≤ 256 := b.toNat_lt
    calc beNat (b :: bs) = b.toNat * 256 ^ bs.length + beNat bs := beNat_cons b bs
      _ < b.toNat * 256 ^ bs.length + 256 ^ bs.length := Nat.add_lt_add_left ih _
      _ = (b.toNat + 1) * 256 ^ bs.length := by ring
      _ ≤ 256 * 256 ^ bs.length := Nat.mul_le_mul_right _ hb
      _ = 256 ^ (b :: bs).length := by rw [List.length_cons, pow_succ, Nat.mul_comm]

/-- Only the number modulo `256 ^ w` counts. -/
theorem beBytes_add_mul (w a n : Nat) : beBytes w (a * 256 ^ w + n) = beBytes w n := by
  induction w generalizing a with
  | zero => rfl
  | succ w ih =>
    have hdiv : (a * 256 ^ (w + 1) + n) / 256 ^ w = 256 * a + n / 256 ^ w := by
      rw [pow_succ, show a * (256 ^ w * 256) = 256 ^ w * (256 * a) by ring,
        Nat.mul_add_div (Nat.pow_pos (by decide))]
    have hhead : UInt8.ofNat (256 * a + n / 256 ^ w) = UInt8.ofNat (n / 256 ^ w) := by
      apply UInt8.toNat.inj
      simp
    have htail : a * 256 ^ (w + 1) + n = a * 256 * 256 ^ w + n := by rw [pow_succ]; ring
    rw [beBytes, beBytes, hdiv, hhead, htail, ih]

/-- A byte string is the big-endian form of the number it denotes. -/
theorem beBytes_beNat (bs : Bytes) : beBytes bs.length (beNat bs) = bs := by
  induction bs with
  | nil => rfl
  | cons b bs ih =>
    have hb : UInt8.ofNat (beNat (b :: bs) / 256 ^ bs.length) = b := by
      rw [beNat_cons, Nat.mul_comm, Nat.mul_add_div (Nat.pow_pos (by decide)), Nat.div_eq_of_lt (beNat_lt bs),
        Nat.add_zero, UInt8.ofNat_toNat]
    rw [List.length_cons, beBytes, hb, beNat_cons, beBytes_add_mul, ih]

/-- The high digits stand before the low ones. -/
theorem beBytes_add (v w n : Nat) : beBytes (v + w) n = beBytes v (n / 256 ^ w) ++ beBytes w n := by
  induction v with
  | zero => rw [Nat.zero_add]; rfl
  | succ v ih =>
    rw [Nat.add_right_comm, beBytes, ih, beBytes, List.cons_append, Nat.div_div_eq_div_mul, ← pow_add,
      Nat.add_comm w v]

/-! ## Words in two halves -/

theorem u64_halves (v : UInt64) :
    (v >>> 32).toUInt32.toUInt64 <<< 32 ||| (v &&& 0xFFFFFFFF).toUInt32.toUInt64 = v := by
  have hv := v.toNat_lt
  have hhi : (v >>> 32).toUInt32.toUInt64.toNat = v.toNat / 2 ^ 32 := by
    simp [Nat.shiftRight_eq_div_pow]
    omega
  have hlo : (v &&& 0xFFFFFFFF).toUInt32.toUInt64.toNat = v.toNat % 2 ^ 32 := by
    rw [UInt32.toNat_toUInt64, UInt64.toNat_toUInt32, UInt64.toNat_and]
    show (v.toNat &&& (2 ^ 32 - 1)) % 2 ^ 32 = _
    rw [Nat.and_two_pow_sub_one_eq_mod, Nat.mod_mod]
  apply UInt64.toNat.inj
  rw [UInt64.toNat_or, hlo, UInt64.toNat_shiftLeft, hhi]
  show (v.toNat / 2 ^ 32) <<< 32 % 2 ^ 64 ||| v.toNat % 2 ^ 32 = v.toNat
  rw [Nat.mod_eq_of_lt (by rw [Nat.shiftLeft_eq]; omega), ← Nat.shiftLeft_add_eq_or_of_lt (by omega),
    Nat.shiftLeft_eq]
  omega

theorem u64_join_toNat (hi lo : UInt32) :
    (hi.toUInt64 <<< 32 ||| lo.toUInt64).toNat = hi.toNat * 2 ^ 32 + lo.toNat := by
  have hhi := hi.toNat_lt
  have hlo := lo.toNat_lt
  rw [UInt64.toNat_or, UInt64.toNat_shiftLeft, UInt32.toNat_toUInt64, UInt32.toNat_toUInt64]
  show hi.toNat <<< 32 % 2 ^ 64 ||| lo.toNat = _
  rw [Nat.shiftLeft_eq, Nat.mod_eq_of_lt (by omega), mul_comm, Nat.two_pow_add_eq_or_of_lt hlo]

theorem u64_join_high (hi lo : UInt32) : ((hi.toUInt64 <<< 32 ||| lo.toUInt64) >>> 32).toUInt32 = hi := by
  have hlo := lo.toNat_lt
  have hhi := hi.toNat_lt
  apply UInt32.toNat.inj
  rw [UInt64.toNat_toUInt32, UInt64.toNat_shiftRight, u64_join_toNat]
  show (hi.toNat * 2 ^ 32 + lo.toNat) >>> 32 % 2 ^ 32 = _
  rw [Nat.shiftRight_eq_div_pow]
  omega

theorem u64_join_low (hi lo : UInt32) :
    ((hi.toUInt64 <<< 32 ||| lo.toUInt64) &&& 0xFFFFFFFF).toUInt32 = lo := by
  have hlo := lo.toNat_lt
  apply UInt32.toNat.inj
  rw [UInt64.toNat_toUInt32, UInt64.toNat_and, u64_join_toNat]
  show ((hi.toNat * 2 ^ 32 + lo.toNat) &&& (2 ^ 32 - 1)) % 2 ^ 32 = _
  rw [Nat.and_two_pow_sub_one_eq_mod]
  omega
end Lib
