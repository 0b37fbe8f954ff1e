/-
The dotted-quad text of an IPv4 address: how it is printed, which texts are read as one, and that the
printed text is read back.
-/
import KnIg.Lib.Keystream

namespace Lib

/-! ## Printing -/

def dot : UInt8 := 0x2E

/-- The decimal bytes with dots between them. -/
def dotted (address : Octets 4) : Bytes := ((address.bytes.map fun b => decimal b.toNat).intersperse [dot]).flatten

/-! ## Reading -/

def isDigit (c : UInt8) : Bool := 0x30 ≤ c ∧ c ≤ 0x39

/-- The bytes read so far, and the value and number of digits of the one being read. -/
structure Quad where
  octets : List Nat
  val : Nat
  digits : Nat

/-- One more digit of a byte. There is no leading zero, and no value over 255. -/
def octetStep (p : Nat × Nat) (c : UInt8) : Option (Nat × Nat) :=
  if p.2 > 0 ∧ p.1 = 0 then none
  else
    let val := p.1 * 10 + (c.toNat - 0x30)
    if val > 255 then none else some (val, p.2 + 1)

def Quad.step (q : Quad) (c : UInt8) : Option Quad :=
  if isDigit c then (octetStep (q.val, q.digits) c).map fun p => ⟨q.octets, p.1, p.2⟩
  else if c = dot then
    if q.digits = 0 ∨ q.octets.length = 3 then none else some ⟨q.octets ++ [q.val], 0, 0⟩
  else none

/-- Four decimal bytes with single dots between them. -/
def parseQuad (s : Bytes) : Option (Octets 4) := do
  let q ← s.foldlM Quad.step ⟨[], 0, 0⟩
  if h : q.octets.length = 3 ∧ q.digits > 0 then
    some ⟨(q.octets ++ [q.val]).map UInt8.ofNat, by simp [h.1]⟩
  else none

/-! ## Reading what was printed -/

theorem octet_decimal : ∀ n < 256, (decimal n).all isDigit ∧ 0 < (decimal n).length ∧
    (decimal n).foldlM octetStep (0, 0) = some (n, (decimal n).length) := by
  decide +kernel

/-- Digits only extend the byte being read. -/
theorem foldlM_digits {s : Bytes} (hs : s.all isDigit) (octets : List Nat) (p : Nat × Nat) :
    s.foldlM Quad.step ⟨octets, p.1, p.2⟩ = (s.foldlM octetStep p).map fun p => ⟨octets, p.1, p.2⟩ := by
  induction s generalizing p with
  | nil => rfl
  | cons c s ih =>
    obtain ⟨hc, hs⟩ : isDigit c = true ∧ s.all isDigit = true := by simpa using hs
    rw [List.foldlM_cons, List.foldlM_cons, Quad.step, if_pos hc]
    cases octetStep (p.1, p.2) c with
    | none => rfl
    | some p' => exact ih hs p'

theorem foldlM_decimal (octets : List Nat) (b : UInt8) :
    (decimal b.toNat).foldlM Quad.step ⟨octets, 0, 0⟩ = some ⟨octets, b.toNat, (decimal b.toNat).length⟩ := by
  obtain ⟨hdigits, -, hval⟩ := octet_decimal b.toNat b.toNat_lt
  rw [foldlM_digits hdigits octets (0, 0), hval]
  rfl

/-- A byte and the dot behind it. -/
theorem foldlM_decimal_dot {octets : List Nat} (hlen : octets.length ≠ 3) (b : UInt8) (s : Bytes) :
    (decimal b.toNat ++ ([dot] ++ s)).foldlM Quad.step ⟨octets, 0, 0⟩ =
      s.foldlM Quad.step ⟨octets ++ [b.toNat], 0, 0⟩ := by
  obtain ⟨-, hpos, -⟩ := octet_decimal b.toNat b.toNat_lt
  have hdot : Quad.step ⟨octets, b.toNat, (decimal b.toNat).length⟩ dot = some ⟨octets ++ [b.toNat], 0, 0⟩ := by
    have hgo : ¬ ((decimal b.toNat).length = 0 ∨ octets.length = 3) := by omega
    have hd : ¬ isDigit dot = true := by decide
    simp only [Quad.step, if_neg hd, if_pos, if_neg hgo]
  rw [List.foldlM_append, foldlM_decimal]
  show ([dot] ++ s).foldlM Quad.step _ = _
  rw [List.singleton_append, List.foldlM_cons, hdot]
  rfl

/-- The printed text part by part. -/
theorem dotted_eq (address : Octets 4) : ∃ a b c d, address.bytes = [a, b, c, d] ∧
    dotted address =
      decimal a.toNat ++
        ([dot] ++ (decimal b.toNat ++ ([dot] ++ (decimal c.toNat ++ ([dot] ++ decimal d.toNat))))) := by
  obtain ⟨bytes, hlen⟩ := address
  match bytes, hlen with
  | [a, b, c, d], _ => exact ⟨a, b, c, d, rfl, by simp [dotted, List.intersperse]⟩

/-- The printed text of an address is read as that address. -/
theorem parseQuad_dotted (address : Octets 4) : parseQuad (dotted address) = some address := by
  obtain ⟨a, b, c, d, hbytes, htext⟩ := dotted_eq address
  have hfold : (dotted address).foldlM Quad.step ⟨[], 0, 0⟩ =
      some ⟨[a.toNat, b.toNat, c.toNat], d.toNat, (decimal d.toNat).length⟩ := by
    rw [htext, foldlM_decimal_dot (by simp), foldlM_decimal_dot (by simp), foldlM_decimal_dot (by simp),
      foldlM_decimal]
    rfl
  obtain ⟨-, hpos, -⟩ := octet_decimal d.toNat d.toNat_lt
  have hquad : (⟨[a, b, c, d], rfl⟩ : Octets 4) = address := Octets.ext_bytes hbytes.symm
  simp [parseQuad, hfold, hpos, hquad]

theorem zero_notMem_dotted (address : Octets 4) : 0 ∉ dotted address := by
  obtain ⟨a, b, c, d, -, htext⟩ := dotted_eq address
  rw [htext]
  simp [zero_notMem_decimal, dot]

/-- The first byte of the printed text that is no digit is a dot. -/
theorem find_dotted {p : UInt8 → Bool} (hdot : p dot) (hdigit : ∀ c, isDigit c → ¬ p c) (address : Octets 4) :
    (dotted address).find? p = some dot := by
  obtain ⟨a, b, c, d, -, htext⟩ := dotted_eq address
  have hnone : (decimal a.toNat).find? p = none := by
    refine List.find?_eq_none.2 fun c hc => hdigit c ?_
    exact List.all_eq_true.1 (octet_decimal a.toNat a.toNat_lt).1 c hc
  rw [htext, List.find?_append, hnone, List.singleton_append, List.find?_cons_of_pos hdot]
  rfl

end Lib
