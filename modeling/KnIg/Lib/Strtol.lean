/-
Numbers read from text as `strtol` and `strtoul` read them: blanks, a sign and digits, at a limit of the type where the
number is out of its range. What is printed in decimal is read back, whatever comes behind it.
-/
import KnIg.Lib.DottedQuad

namespace Lib

/-- `isspace` in the C locale. -/
def isSpace (c : UInt8) : Bool := c = 32 ∨ (9 ≤ c ∧ c ≤ 13)

/-- The number of the digits at the beginning. -/
def leadingNat (s : Bytes) : Nat := (s.takeWhile isDigit).foldl (fun v c => 10 * v + (c.toNat - 0x30)) 0

/-- Whether there is a minus sign, and the number behind the sign. -/
def signedPrefix (s : Bytes) : Bool × Nat :=
  let s := s.dropWhile isSpace
  if s.head? = some 0x2D then (true, leadingNat s.tail)
  else if s.head? = some 0x2B then (false, leadingNat s.tail)
  else (false, leadingNat s)

/-- `strtol(s, NULL, 10)` for a `long` of 64 bits. -/
def strtol (s : Bytes) : Int64 :=
  let p := signedPrefix s
  if p.1 then (if p.2 ≤ 2 ^ 63 then Int64.ofInt (-p.2) else Int64.minValue)
  else if p.2 < 2 ^ 63 then Int64.ofInt p.2 else Int64.maxValue

/-- `strtoul(s, NULL, 10)` for an `unsigned long` of 64 bits. A minus sign negates the number in its type. -/
def strtoul (s : Bytes) : UInt64 :=
  let p := signedPrefix s
  if 2 ^ 64 ≤ p.2 then 0xFFFFFFFFFFFFFFFF else if p.1 then -UInt64.ofNat p.2 else UInt64.ofNat p.2

/-- Where `strtoul` stops: behind the digits, or at the beginning if there are none. -/
def strtoulEnd (s : Bytes) : Bytes :=
  let t := s.dropWhile isSpace
  let t := if t.head? = some 0x2D ∨ t.head? = some 0x2B then t.tail else t
  if t.head?.any isDigit then t.dropWhile isDigit else s

/-- The decimal text of a number, as `%lld` prints it. -/
def signedDecimal (z : Int) : Bytes := if z < 0 then 0x2D :: decimal z.natAbs else decimal z.natAbs

/-! ## Reading what was printed -/

/-- No digit follows. -/
def NoDigit (rest : Bytes) : Prop := ∀ c, rest.head? = some c → ¬ isDigit c

theorem digit_of_mem_decimal {n : Nat} {c : UInt8} (hc : c ∈ decimal n) : isDigit c := by
  obtain ⟨d, hd, rfl⟩ := List.mem_map.1 hc
  have hdigit := Nat.isDigit_of_mem_toDigits (by decide) (by decide) hd
  simp only [Char.isDigit, Bool.and_eq_true, decide_eq_true_eq] at hdigit
  obtain ⟨hl, hu⟩ := hdigit
  have h1 : 48 ≤ d.toNat := hl
  have h2 : d.toNat ≤ 57 := hu
  unfold isDigit
  rw [decide_eq_true_eq, UInt8.le_iff_toNat_le, UInt8.le_iff_toNat_le, UInt8.toNat_ofNat']
  have h3 : d.toNat % 2 ^ 8 = d.toNat := by omega
  rw [h3]
  exact ⟨h1, h2⟩

/-- A digit is neither a blank nor a sign. -/
theorem isDigit_ne {c : UInt8} (h : isDigit c) : isSpace c = false ∧ c ≠ 0x2D ∧ c ≠ 0x2B := by
  unfold isDigit at h
  rw [decide_eq_true_eq] at h
  refine ⟨?_, ?_, ?_⟩
  · unfold isSpace
    rw [decide_eq_false_iff_not]
    grind
  · grind
  · grind

/-- The value of the printed digits. -/
theorem foldl_decimal (n : Nat) : (decimal n).foldl (fun v c => 10 * v + (c.toNat - 0x30)) 0 = n := by
  have hdigits := Nat.ofDigitChars_ten_toDigits (n := n)
  rw [Nat.ofDigitChars_eq_foldl] at hdigits
  unfold decimal
  rw [List.foldl_map]
  refine Eq.trans (List.foldl_ext _ _ 0 fun v d hd => ?_) hdigits
  have hdigit := Nat.isDigit_of_mem_toDigits (by decide) (by decide) hd
  simp only [Char.isDigit, Bool.and_eq_true, decide_eq_true_eq] at hdigit
  have h2 : d.toNat ≤ 57 := hdigit.2
  rw [UInt8.toNat_ofNat', Nat.mod_eq_of_lt (by omega)]
  rfl

theorem leadingNat_decimal (n : Nat) {rest : Bytes} (h : NoDigit rest) : leadingNat (decimal n ++ rest) = n := by
  have hrest : rest.takeWhile isDigit = [] := by
    cases rest with
    | nil => rfl
    | cons c rest => exact List.takeWhile_cons_of_neg (h c rfl)
  unfold leadingNat
  rw [List.takeWhile_append_of_pos fun c hc => digit_of_mem_decimal hc, hrest, List.append_nil]
  exact foldl_decimal n

theorem signedPrefix_signedDecimal (z : Int) {rest : Bytes} (h : NoDigit rest) :
    signedPrefix (signedDecimal z ++ rest) = (decide (z < 0), z.natAbs) := by
  unfold signedDecimal
  by_cases hz : z < 0
  · rw [if_pos hz]
    have hspace : ((0x2D :: decimal z.natAbs) ++ rest).dropWhile isSpace = 0x2D :: (decimal z.natAbs ++ rest) := rfl
    unfold signedPrefix
    rw [hspace]
    simp only [List.head?_cons, if_true, List.tail_cons, leadingNat_decimal _ h, hz, decide_true]
  · rw [if_neg hz]
    have hread := leadingNat_decimal z.natAbs h
    obtain ⟨c, t, ht⟩ := List.exists_cons_of_ne_nil (decimal_ne_nil z.natAbs)
    have hc : isDigit c := digit_of_mem_decimal (n := z.natAbs) (ht ▸ List.mem_cons_self)
    obtain ⟨hspace, hminus, hplus⟩ := isDigit_ne hc
    rw [ht] at hread ⊢
    unfold signedPrefix
    rw [List.cons_append, List.dropWhile_cons_of_neg (by simp [hspace])]
    simp only [List.head?_cons, Option.some.injEq, hminus, hplus, if_false, hz, decide_false]
    rw [← hread, List.cons_append]

theorem signedPrefix_nothing_behind (z : Int) : signedPrefix (signedDecimal z) = (decide (z < 0), z.natAbs) := by
  have hread := @signedPrefix_signedDecimal z [] nofun
  rwa [List.append_nil] at hread

/-- What comes behind the digits is not read. -/
theorem strtol_append (z : Int) {rest : Bytes} (h : NoDigit rest) :
    strtol (signedDecimal z ++ rest) = strtol (signedDecimal z) := by
  unfold strtol
  rw [signedPrefix_signedDecimal z h, signedPrefix_nothing_behind]

theorem strtoul_append (z : Int) {rest : Bytes} (h : NoDigit rest) :
    strtoul (signedDecimal z ++ rest) = strtoul (signedDecimal z) := by
  unfold strtoul
  rw [signedPrefix_signedDecimal z h, signedPrefix_nothing_behind]

theorem strtol_signedDecimal {z : Int} (hlo : -2 ^ 63 ≤ z) (hhi : z < 2 ^ 63) :
    strtol (signedDecimal z) = Int64.ofInt z := by
  unfold strtol
  simp only [signedPrefix_nothing_behind, decide_eq_true_eq]
  by_cases hz : z < 0
  · rw [if_pos hz, if_pos (by omega)]
    congr 1
    omega
  · rw [if_neg hz, if_pos (by omega)]
    congr 1
    omega

theorem ofInt_natCast (n : Nat) : UInt64.ofInt n = UInt64.ofNat n := by
  apply UInt64.toNat.inj
  rw [UInt64.ofInt, UInt64.toNat_ofNat', UInt64.toNat_ofNat']
  omega

theorem strtoul_signedDecimal {z : Int} (hlo : -2 ^ 64 < z) (hhi : z < 2 ^ 64) :
    strtoul (signedDecimal z) = UInt64.ofInt z := by
  unfold strtoul
  simp only [signedPrefix_nothing_behind, decide_eq_true_eq]
  rw [if_neg (by omega)]
  by_cases hz : z < 0
  · obtain ⟨n, rfl⟩ : ∃ n : Nat, z = -(n : Int) := ⟨z.natAbs, by omega⟩
    rw [if_pos hz, UInt64.ofInt_neg, ofInt_natCast, Int.natAbs_neg, Int.natAbs_natCast]
  · obtain ⟨n, rfl⟩ : ∃ n : Nat, z = (n : Int) := ⟨z.natAbs, by omega⟩
    rw [if_neg hz, ofInt_natCast, Int.natAbs_natCast]

end Lib
