/-
Byte strings of a fixed length, buffers filled field by field, and the stream cipher that xors a text
with the blocks of a counter.
-/
import KnIg.Lib.Bytes

namespace Lib

/-- A byte string of exactly `n` bytes. -/
structure Octets (n : Nat) where
  bytes : Bytes
  length_eq : bytes.length = n
deriving DecidableEq

attribute [simp] Octets.length_eq

theorem Octets.ext_bytes {n : Nat} {a b : Octets n} (h : a.bytes = b.bytes) : a = b := by
  cases a; cases b; cases h; rfl

/-! ## Buffers -/

/-- A buffer of `n` zero bytes, as `calloc` returns it. -/
def zeroed (n : Nat) : Bytes := List.replicate n 0

/-- `src` copied over the bytes of a buffer from an offset on. -/
def memcpy (buf : Bytes) (off : Nat) (src : Bytes) : Bytes :=
  buf.take off ++ src ++ buf.drop (off + src.length)

@[simp] theorem zeroed_length (n : Nat) : (zeroed n).length = n := List.length_replicate

theorem zeroed_add (m n : Nat) : zeroed (m + n) = zeroed m ++ zeroed n := List.replicate_add m n 0

/-- A field written where those before it end, with zero bytes left for the next ones. -/
theorem memcpy_next {before src : Bytes} {off m n : Nat} (hoff : off = before.length) (hm : m = src.length + n) :
    memcpy (before ++ zeroed m) off src = before ++ src ++ zeroed n := by
  subst hoff hm
  rw [memcpy, zeroed_add, List.take_left, ← List.append_assoc before (zeroed src.length),
    List.drop_left' (by simp)]

/-- The last field of a buffer. -/
theorem memcpy_last {before src : Bytes} {off m : Nat} (hoff : off = before.length) (hm : m = src.length) :
    memcpy (before ++ zeroed m) off src = before ++ src := by
  rw [memcpy_next hoff (n := 0) hm]
  exact List.append_nil _

/-- The first field of a buffer. -/
theorem memcpy_zeroed {src : Bytes} {m n : Nat} (hm : m = src.length + n) :
    memcpy (zeroed m) 0 src = src ++ zeroed n := by
  have hoff : 0 = ([] : Bytes).length := rfl
  have h := memcpy_next hoff hm
  rwa [List.nil_append, List.nil_append] at h

/-- A field written at the front of a buffer that is full. -/
theorem memcpy_first {old after src : Bytes} (hlen : src.length = old.length) :
    memcpy (old ++ after) 0 src = src ++ after := by
  rw [memcpy, List.take_zero, List.nil_append, Nat.zero_add, List.drop_left' hlen.symm]

/-- A byte left as it was between two fields. -/
theorem zeroed_skip {before : Bytes} {m n : Nat} (hm : m = 1 + n) :
    before ++ zeroed m = before ++ [0] ++ zeroed n := by
  rw [hm, zeroed_add, List.append_assoc]
  rfl

/-! ## Counter blocks -/

section Xor

variable {κ : Type} {n : Nat}

/-- Each block of a counter xored onto the next `n + 1` bytes of the text, the last one onto those left. -/
def xorBlocks (next : κ → κ) (block : κ → Octets (n + 1)) (c : κ) : Bytes → Bytes
  | [] => []
  | b :: bs =>
    (b :: bs).zipWith (· ^^^ ·) (block c).bytes ++ xorBlocks next block (next c) ((b :: bs).drop (n + 1))
termination_by bs => bs.length

variable {next : κ → κ} {block : κ → Octets (n + 1)}

@[simp] theorem xorBlocks_nil (c : κ) : xorBlocks next block c [] = [] := by rw [xorBlocks]

theorem xorBlocks_eq (c : κ) (bs : Bytes) :
    xorBlocks next block c bs =
      bs.zipWith (· ^^^ ·) (block c).bytes ++ xorBlocks next block (next c) (bs.drop (n + 1)) := by
  cases bs with
  | nil => simp
  | cons b bs => rw [xorBlocks]

@[simp] theorem xorBlocks_length (c : κ) (bs : Bytes) : (xorBlocks next block c bs).length = bs.length := by
  fun_induction xorBlocks next block c bs with
  | case1 c => rfl
  | case2 c b bs ih =>
    rw [List.length_append, ih, List.length_zipWith, Octets.length_eq, List.length_drop]
    omega

/-- Counters that step alike and name the same blocks give the same text. -/
theorem xorBlocks_sim {μ : Type} {next' : μ → μ} {block' : μ → Octets (n + 1)} (view : κ → μ)
    (hnext : ∀ c, view (next c) = next' (view c)) (hblock : ∀ c, block c = block' (view c)) (c : κ) (bs : Bytes) :
    xorBlocks next block c bs = xorBlocks next' block' (view c) bs := by
  fun_induction xorBlocks next block c bs with
  | case1 c => simp
  | case2 c b bs ih => rw [xorBlocks_eq (view c), ih, hblock, hnext]

theorem zipWith_xor_cancel (bs ks : Bytes) :
    (bs.zipWith (· ^^^ ·) ks).zipWith (· ^^^ ·) ks = bs.take ks.length := by
  induction bs generalizing ks with
  | nil => simp
  | cons b bs ih =>
    cases ks with
    | nil => simp
    | cons k ks =>
      rw [List.zipWith_cons_cons, List.zipWith_cons_cons, ih, UInt8.xor_assoc, UInt8.xor_self, UInt8.xor_zero,
        List.length_cons, List.take_succ_cons]

/-- The same blocks twice give the text back. -/
theorem xorBlocks_xorBlocks (c : κ) (bs : Bytes) :
    xorBlocks next block c (xorBlocks next block c bs) = bs := by
  fun_induction xorBlocks next block c bs with
  | case1 c => simp
  | case2 c b bs ih =>
    set x := (b :: bs).zipWith (· ^^^ ·) (block c).bytes with hx
    set y := xorBlocks next block (next c) ((b :: bs).drop (n + 1)) with hy
    have hxl : x.length = min (bs.length + 1) (n + 1) := by simp [hx]
    have hyl : y.length = bs.length - n := by simp [hy]
    -- only a block that is used up is followed by another
    have hz : (x ++ y).zipWith (· ^^^ ·) (block c).bytes = x.zipWith (· ^^^ ·) (block c).bytes := by
      by_cases hlt : bs.length ≤ n
      · have : y = [] := List.eq_nil_of_length_eq_zero (by omega)
        rw [this, List.append_nil]
      · have hk : (block c).bytes = (block c).bytes ++ [] := by simp
        rw [hk, List.zipWith_append (by rw [hxl, Octets.length_eq]; omega), ← hk, List.zipWith_nil_right,
          List.append_nil]
    have hd : (x ++ y).drop (n + 1) = y := by
      by_cases hlt : bs.length ≤ n
      · have : y = [] := List.eq_nil_of_length_eq_zero (by omega)
        rw [this, List.append_nil, List.drop_eq_nil_of_le (by omega)]
      · exact List.drop_left' (by omega)
    rw [xorBlocks_eq, hz, hd, ih, hx, zipWith_xor_cancel, Octets.length_eq, List.take_append_drop]

end Xor

end Lib
