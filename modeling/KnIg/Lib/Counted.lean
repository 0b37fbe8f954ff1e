/-
Fields behind their length in two bytes: a buffer that starts with such a field starts with no other,
and what an access inside or outside a buffer returns.
-/
import KnIg.Lib.Bytes

namespace Lib

/-- A field behind its length. -/
def counted (s : Bytes) : Bytes := beBytes 2 s.length ++ s

/-- The first field of a byte string and what follows it. -/
def splitCounted (bs : Bytes) : Option (Bytes × Bytes) :=
  if bs.length < 2 then none
  else
    let n := beNat (bs.take 2)
    let rest := bs.drop 2
    if rest.length < n then none else some (rest.take n, rest.drop n)

@[simp] theorem counted_length (s : Bytes) : (counted s).length = 2 + s.length := by simp [counted]

theorem splitCounted_counted {s : Bytes} (hs : s.length < 2 ^ 16) (rest : Bytes) :
    splitCounted (counted s ++ rest) = some (s, rest) := by
  have hl : ¬ (counted s ++ rest).length < 2 := by simp; omega
  have ht : (counted s ++ rest).take 2 = beBytes 2 s.length := by
    rw [counted, List.append_assoc, List.take_left' (beBytes_length 2 s.length)]
  have hd : (counted s ++ rest).drop 2 = s ++ rest := by
    rw [counted, List.append_assoc, List.drop_left' (beBytes_length 2 s.length)]
  have hn : beNat (beBytes 2 s.length) = s.length := by
    rw [beNat_beBytes, Nat.mod_eq_of_lt (b := 256 ^ 2) hs]
  simp only [splitCounted, if_neg hl, ht, hd, hn, List.take_left, List.drop_left]
  rw [if_neg (by simp)]

/-- A field that is read is there, whole. -/
theorem splitCounted_exact {bs s rest : Bytes} (h : splitCounted bs = some (s, rest)) :
    bs = counted s ++ rest ∧ s.length < 2 ^ 16 := by
  simp only [splitCounted] at h
  split at h
  · cases h
  · split at h
    · cases h
    · rename_i h2 hn
      obtain ⟨rfl, rfl⟩ := Prod.mk.inj (Option.some.inj h)
      have hlt : beNat (bs.take 2) < 256 ^ 2 := by
        have := beNat_lt (bs.take 2)
        rwa [List.length_take, Nat.min_eq_left (by omega)] at this
      have hlen : ((bs.drop 2).take (beNat (bs.take 2))).length = beNat (bs.take 2) := by
        rw [List.length_take]
        omega
      have hhead : beBytes 2 (beNat (bs.take 2)) = bs.take 2 := by
        have := beBytes_beNat (bs.take 2)
        rwa [List.length_take, Nat.min_eq_left (by omega)] at this
      rw [counted, hlen, hhead, List.append_assoc, List.take_append_drop, List.take_append_drop]
      exact ⟨rfl, hlt⟩

/-- Two strings that start with fields and are the same start with the same field. -/
theorem counted_append_inj {s t x y : Bytes} (hs : s.length < 2 ^ 16) (ht : t.length < 2 ^ 16)
    (h : counted s ++ x = counted t ++ y) : s = t ∧ x = y := by
  have hx := splitCounted_counted hs x
  rw [h, splitCounted_counted ht] at hx
  obtain ⟨rfl, rfl⟩ := Prod.mk.inj (Option.some.inj hx)
  exact ⟨rfl, rfl⟩

/-! ## Accesses -/

/-- `n` bytes of a buffer from a position on; `none` where one of them is outside the buffer. -/
def load (buf : Bytes) (pos n : Nat) : Option Bytes :=
  if pos + n ≤ buf.length then some ((buf.drop pos).take n) else none

theorem load_inside {buf : Bytes} {pos n : Nat} (h : pos + n ≤ buf.length) :
    load buf pos n = some ((buf.drop pos).take n) := if_pos h

end Lib
