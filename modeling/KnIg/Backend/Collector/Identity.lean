/-
The agent id the server derives from a host name and an address, the runes a Go string ranges over,
and the texts that stand for the wire's codes.
-/
import KnIg.Lib.Bytes

namespace KnIg.Backend

open Lib

/-! ## Runes -/

/-- `utf8.RuneError`. -/
def runeError : UInt32 := 0xFFFD

def isCont (b : UInt8) : Bool := 0x80 ≤ b ∧ b ≤ 0xBF

def contBits (b : UInt8) : UInt32 := (b &&& 0x3F).toUInt32

/-- `utf8.DecodeRuneInString`: the first rune and its width; an ill-formed byte is one error rune. -/
def decodeRune : Bytes → UInt32 × Nat
  | [] => (runeError, 0)
  | b0 :: t =>
    if b0 < 0x80 then (b0.toUInt32, 1)
    else if 0xC2 ≤ b0 ∧ b0 ≤ 0xDF then
      match t with
      | b1 :: _ => if isCont b1 then ((b0 &&& 0x1F).toUInt32 <<< 6 ||| contBits b1, 2) else (runeError, 1)
      | [] => (runeError, 1)
    else if 0xE0 ≤ b0 ∧ b0 ≤ 0xEF then
      match t with
      | b1 :: b2 :: _ =>
        let lo : UInt8 := if b0 = 0xE0 then 0xA0 else 0x80
        let hi : UInt8 := if b0 = 0xED then 0x9F else 0xBF
        if lo ≤ b1 ∧ b1 ≤ hi ∧ isCont b2 then
          ((b0 &&& 0x0F).toUInt32 <<< 12 ||| contBits b1 <<< 6 ||| contBits b2, 3)
        else (runeError, 1)
      | _ => (runeError, 1)
    else if 0xF0 ≤ b0 ∧ b0 ≤ 0xF4 then
      match t with
      | b1 :: b2 :: b3 :: _ =>
        let lo : UInt8 := if b0 = 0xF0 then 0x90 else 0x80
        let hi : UInt8 := if b0 = 0xF4 then 0x8F else 0xBF
        if lo ≤ b1 ∧ b1 ≤ hi ∧ isCont b2 ∧ isCont b3 then
          ((b0 &&& 0x07).toUInt32 <<< 18 ||| contBits b1 <<< 12 ||| contBits b2 <<< 6 ||| contBits b3, 4)
        else (runeError, 1)
      | _ => (runeError, 1)
    else (runeError, 1)

/-- The runes of the first `n` positions of a string. -/
def runesFrom : Nat → Bytes → List UInt32
  | 0, _ => []
  | n + 1, s =>
    match s with
    | [] => []
    | b :: t => (decodeRune (b :: t)).1 :: runesFrom n ((b :: t).drop (decodeRune (b :: t)).2)

/-- The runes that `range` over a string yields. -/
def runes (s : Bytes) : List UInt32 := runesFrom s.length s

example : runes [0x61, 0xC3, 0xA9, 0xED, 0x95, 0x9C, 0xFF] = [0x61, 0xE9, 0xD55C, 0xFFFD] := by decide

/-! ## Agent ids -/

/-- `net.IP.To4`. -/
def to4 (ip : Bytes) : Option Bytes :=
  if ip.length = 4 then some ip
  else if ip.length = 16 ∧ ip.take 12 = List.replicate 10 0 ++ [0xFF, 0xFF] then some (ip.drop 12)
  else none

def generateAgentID (hostname ip : Bytes) : UInt64 :=
  let h := (runes hostname).foldl (fun h c => h * 31 + c.toUInt64) 0
  let h :=
    match to4 ip with
    | some ip4 => h * 31 + UInt64.ofNat (beNat ip4)
    | none => h
  if h = 0 then 1 else h

/-- `strconv.FormatUint(_, 10)`. -/
def formatUint (n : UInt64) : Bytes := decimal n.toNat

theorem generateAgentID_ne_zero (hostname ip : Bytes) : generateAgentID hostname ip ≠ 0 := by
  unfold generateAgentID
  simp only
  split <;> split
  · decide
  · assumption
  · decide
  · assumption

theorem formatUint_ne_nil (n : UInt64) : formatUint n ≠ [] := decimal_ne_nil n.toNat

/-! ## Texts -/

def evtCreate : UInt8 := 1
def evtModify : UInt8 := 2
def evtDelete : UInt8 := 3
def evtAttrib : UInt8 := 4
def evtMove : UInt8 := 5

def monLkm : UInt8 := 2
def monEbpf : UInt8 := 3
def monFanotify : UInt8 := 4

def hexDigit (n : Nat) : UInt8 := UInt8.ofNat (Nat.digitChar n).toNat

/-- `%02x` of a byte. -/
def hexByte (b : UInt8) : Bytes := [hexDigit (b.toNat / 16), hexDigit (b.toNat % 16)]

def monitorTypeName (t : UInt8) : Bytes :=
  if t = monLkm then ascii "lkm"
  else if t = monEbpf then ascii "ebpf"
  else if t = monFanotify then ascii "fanotify"
  else ascii "unknown(0x" ++ hexByte t ++ ascii ")"

def eventTypeName (t : UInt8) : Bytes :=
  if t = evtCreate then ascii "CREATE"
  else if t = evtModify then ascii "MODIFY"
  else if t = evtDelete then ascii "DELETE"
  else if t = evtAttrib then ascii "ATTRIB"
  else if t = evtMove then ascii "MOVE"
  else ascii "UNKNOWN(0x" ++ hexByte t ++ ascii ")"

/-- `%04o`. -/
def permString (perm : UInt16) : Bytes :=
  let digits := (Nat.toDigits 8 perm.toNat).map fun c => UInt8.ofNat c.toNat
  List.replicate (4 - digits.length) 0x30 ++ digits

/-- `net.IP.String` of an IPv4 address. -/
def ipString (ip : Bytes) : Bytes := (ip.map fun b => decimal b.toNat).intersperse (ascii ".") |>.flatten

example : permString 0o644 = ascii "0644" ∧ ipString [10, 0, 0, 1] = ascii "10.0.0.1" := by decide

/-! ## Certificate identities -/

/-- `strings.TrimPrefix`. -/
def trimPrefix (s pre : Bytes) : Bytes := if pre <+: s then s.drop pre.length else s

def agentIdentityPrefix : Bytes := ascii "spiffe://kn-ig/agent/"

def isAgentIdentity (identity : Bytes) : Bool :=
  let suffix := trimPrefix identity agentIdentityPrefix
  suffix ≠ identity ∧ suffix ≠ []

theorem trimPrefix_append (pre t : Bytes) : trimPrefix (pre ++ t) pre = t := by
  rw [trimPrefix, if_pos (List.prefix_append pre t), List.drop_left]

/-- The suffix of an agent identity is what stands behind the scheme's own text. -/
theorem isAgentIdentity_iff {identity agentID : Bytes} (hid : agentID ≠ []) :
    (isAgentIdentity identity ∧ trimPrefix identity agentIdentityPrefix = agentID) ↔
      identity = agentIdentityPrefix ++ agentID := by
  constructor
  · rintro ⟨his, rfl⟩
    obtain ⟨hne, -⟩ := of_decide_eq_true his
    by_cases hp : agentIdentityPrefix <+: identity
    · obtain ⟨t, rfl⟩ := hp
      rw [trimPrefix_append]
    · exact absurd (if_neg hp) hne
  · rintro rfl
    have hne : agentID ≠ agentIdentityPrefix ++ agentID := fun h => by
      have hl := congrArg List.length h
      simp [agentIdentityPrefix, ascii] at hl
      omega
    simp [isAgentIdentity, trimPrefix_append, hne, hid]

end KnIg.Backend
