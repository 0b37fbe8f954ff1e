/-
The server's enrollment messages: how a hello and a request are read from a payload, and how a challenge
and a response become one. A reader is `none` where it slices outside its data, which Go answers with a
panic.
-/
import KnIg.Lib.Counted
import KnIg.Backend.Enrollment.Service
import KnIg.Backend.Enrollment.XorCrypto

namespace KnIg.Backend

open Lib

def msgXORHello : UInt8 := 0x21
def msgXORChallenge : UInt8 := 0x22
def msgXOREnrollRequest : UInt8 := 0x23
def msgXOREnrollResponse : UInt8 := 0x24
def msgXOREnrollAck : UInt8 := 0x25
def msgXOREnrollError : UInt8 := 0x26

structure Hello where
  enrollmentID : Bytes
  clientNonce : Bytes
deriving DecidableEq

structure Challenge where
  serverNonce : Bytes
  proof : Bytes

/-- The expiry is the `Unix()` of the source's `time.Time`. -/
structure Response where
  agentID : Bytes
  agentCertPEM : Bytes
  agentKeyPEM : Bytes
  caCertPEM : Bytes
  expiresAt : Int64

/-! ## Reading -/

/-- A read from `data` at a position: `none` is a panic, an error ends the message. -/
abbrev EnrollReader (α : Type) := Nat → Option (Except String (α × Nat))

/-- The one length-prefixed read that `readString` and `readBytes` make, with their error texts. -/
def readPrefixed (noLength : String) (short : Nat → String) (data : Bytes) : EnrollReader Bytes := fun pos =>
  if data.length - pos < 2 then some (.error noLength)
  else do
    let length := beNat (← load data pos 2)
    let pos := pos + 2
    if data.length - pos < length then some (.error (short length))
    else
      let s ← load data pos length
      some (.ok (s, pos + length))

def readString : Bytes → EnrollReader Bytes :=
  readPrefixed "버퍼 부족: string length" fun length => "버퍼 부족: string(" ++ toString length ++ ")"

def readBytes : Bytes → EnrollReader Bytes :=
  readPrefixed "버퍼 부족: bytes length" fun length => "버퍼 부족: bytes(" ++ toString length ++ ")"

def readByte (data : Bytes) : EnrollReader UInt8 := fun pos =>
  if data.length - pos < 1 then some (.error "버퍼 부족: u8")
  else do
    let v ← data[pos]?
    some (.ok (v, pos + 1))

/-- The rest of a message after a read: a failed read ends it. -/
def EnrollReader.andThen {α β : Type} (r : Option (Except String (α × Nat)))
    (k : α → Nat → Option (Except String β)) : Option (Except String β) :=
  match r with
  | none => none
  | some (.error err) => some (.error err)
  | some (.ok (a, pos)) => k a pos

def decodeHello (payload : Bytes) : Option (Except String Hello) :=
  EnrollReader.andThen (readString payload 0) fun enrollmentID pos =>
  EnrollReader.andThen (readBytes payload pos) fun clientNonce pos =>
  let remaining := payload.length - pos
  if remaining ≠ 0 then some (.error ("enrollment hello trailing bytes: " ++ toString remaining))
  else if enrollmentID = [] ∨ clientNonce.length ≠ nonceSize then some (.error "invalid enrollment hello")
  else some (.ok ⟨enrollmentID, clientNonce⟩)

def decodeRequest (payload : Bytes) : Option (Except String Request) :=
  EnrollReader.andThen (readString payload 0) fun hostname pos =>
  EnrollReader.andThen (readString payload pos) fun ip pos =>
  EnrollReader.andThen (readString payload pos) fun osName pos =>
  EnrollReader.andThen (readByte payload pos) fun monitorType pos =>
  let remaining := payload.length - pos
  if remaining ≠ 0 then some (.error ("enrollment request trailing bytes: " ++ toString remaining))
  else some (.ok { hostname, ip, os := osName, monitorType })

/-! ## Writing -/

/-- `writeString` and `writeBytes`, with what their error text calls the field. -/
def writePrefixed (what : String) (buf s : Bytes) : Except String Bytes :=
  if s.length > 65535 then .error (what ++ " length 초과: " ++ toString s.length)
  else .ok (buf ++ beBytes 2 s.length ++ s)

def writeString : Bytes → Bytes → Except String Bytes := writePrefixed "string"

def writeBytes : Bytes → Bytes → Except String Bytes := writePrefixed "bytes"

def encodeChallenge (ch : Challenge) : Except String Bytes := do
  let buf ← writeBytes [] ch.serverNonce
  writeBytes buf ch.proof

def encodeResponse (resp : Response) : Except String Bytes := do
  let buf ← writeString [] resp.agentID
  let buf ← writeString buf resp.agentCertPEM
  let buf ← writeString buf resp.agentKeyPEM
  let buf ← writeString buf resp.caCertPEM
  return buf ++ beBytes 8 resp.expiresAt.toUInt64.toNat

/-! ## What is read -/

/-- A read from within the data either returns the field the data goes on with, or an error where it goes
on with none. It does not panic. -/
theorem readPrefixed_spec (noLength : String) (short : Nat → String) {data : Bytes} {pos : Nat}
    (hpos : pos ≤ data.length) :
    (∃ s pos', readPrefixed noLength short data pos = some (.ok (s, pos')) ∧ pos' ≤ data.length ∧
        splitCounted (data.drop pos) = some (s, data.drop pos')) ∨
      ∃ err, readPrefixed noLength short data pos = some (.error err) ∧ splitCounted (data.drop pos) = none := by
  by_cases h2 : data.length - pos < 2
  · refine .inr ⟨noLength, if_pos h2, ?_⟩
    rw [splitCounted, if_pos (by rwa [List.length_drop])]
  · have hload : load data pos 2 = some ((data.drop pos).take 2) := load_inside (by omega)
    have hl2 : ¬ (data.drop pos).length < 2 := by rwa [List.length_drop]
    set n := beNat ((data.drop pos).take 2) with hn
    by_cases hlen : data.length - (pos + 2) < n
    · refine .inr ⟨short n, by simp [readPrefixed, h2, hload, ← hn, hlen], ?_⟩
      simp only [splitCounted, if_neg hl2]
      rw [if_pos]
      rw [List.drop_drop, List.length_drop]
      exact hlen
    · have hloads : load data (pos + 2) n = some ((data.drop (pos + 2)).take n) := load_inside (by omega)
      refine .inl ⟨(data.drop (pos + 2)).take n, pos + 2 + n, ?_, by omega, ?_⟩
      · simp [readPrefixed, h2, hload, ← hn, hlen, hloads]
      · simp only [splitCounted, if_neg hl2]
        rw [if_neg, List.drop_drop, List.drop_drop]
        rw [List.drop_drop, List.length_drop]
        exact hlen

theorem readByte_spec {data : Bytes} {pos : Nat} (hpos : pos ≤ data.length) :
    (∃ v, readByte data pos = some (.ok (v, pos + 1)) ∧ data.drop pos = v :: data.drop (pos + 1)) ∨
      ∃ err, readByte data pos = some (.error err) ∧ data.drop pos = [] := by
  by_cases h1 : data.length - pos < 1
  · exact .inr ⟨_, if_pos h1, List.drop_eq_nil_of_le (by omega)⟩
  · have hlt : pos < data.length := by omega
    refine .inl ⟨data[pos], ?_, List.drop_eq_getElem_cons hlt⟩
    simp [readByte, h1, hlt]

/-- A decoder does not panic, and accepts with exactly the values of `P`. -/
def Accepts {α : Type} (res : Option (Except String α)) (P : α → Prop) : Prop :=
  ∃ r, res = some r ∧ ∀ a, r = .ok a ↔ P a

theorem accepts_congr {α : Type} {res : Option (Except String α)} {P Q : α → Prop} (h : ∀ a, P a ↔ Q a)
    (hres : Accepts res P) : Accepts res Q := by
  obtain ⟨r, hr, hP⟩ := hres
  exact ⟨r, hr, fun a => (hP a).trans (h a)⟩

/-- What a message accepts that goes on after a length-prefixed field. -/
theorem accepts_prefixed {α : Type} {noLength : String} {short : Nat → String} {data : Bytes} {pos : Nat}
    {k : Bytes → Nat → Option (Except String α)} {P : Bytes → Bytes → α → Prop} (hpos : pos ≤ data.length)
    (hk : ∀ s pos', pos' ≤ data.length → Accepts (k s pos') (P s (data.drop pos'))) :
    Accepts (EnrollReader.andThen (readPrefixed noLength short data pos) k) fun a =>
      ∃ s t, data.drop pos = counted s ++ t ∧ s.length < 2 ^ 16 ∧ P s t a := by
  rcases readPrefixed_spec noLength short hpos with
    ⟨s, pos', hr, hpos', hsplit⟩ | ⟨err, hr, hsplit⟩
  · rw [hr]
    refine accepts_congr (fun a => ?_) (hk s pos' hpos')
    constructor
    · intro hP
      obtain ⟨hd, hs⟩ := splitCounted_exact hsplit
      exact ⟨s, _, hd, hs, hP⟩
    · rintro ⟨s', t, hd, hs, hP⟩
      rw [hd, splitCounted_counted hs] at hsplit
      obtain ⟨rfl, rfl⟩ := Prod.mk.inj (Option.some.inj hsplit)
      exact hP
  · rw [hr]
    refine ⟨.error err, rfl, fun a => ⟨by rintro ⟨⟩, ?_⟩⟩
    rintro ⟨s, t, hd, hs, -⟩
    rw [hd, splitCounted_counted hs] at hsplit
    cases hsplit

theorem accepts_byte {α : Type} {data : Bytes} {pos : Nat} {k : UInt8 → Nat → Option (Except String α)}
    {P : UInt8 → Bytes → α → Prop} (hpos : pos ≤ data.length)
    (hk : ∀ v pos', pos' ≤ data.length → Accepts (k v pos') (P v (data.drop pos'))) :
    Accepts (EnrollReader.andThen (readByte data pos) k) fun a => ∃ v t, data.drop pos = v :: t ∧ P v t a := by
  rcases readByte_spec hpos with ⟨v, hr, hd⟩ | ⟨err, hr, hd⟩
  · have hlt : pos + 1 ≤ data.length := by
      by_contra hge
      rw [List.drop_eq_nil_of_le (by omega)] at hd
      cases hd
    rw [hr]
    refine accepts_congr (fun a => ?_) (hk v (pos + 1) hlt)
    rw [hd]
    constructor
    · exact fun hP => ⟨v, _, rfl, hP⟩
    · rintro ⟨v', t, ⟨⟩, hP⟩
      exact hP
  · rw [hr]
    refine ⟨.error err, rfl, fun a => ⟨by rintro ⟨⟩, ?_⟩⟩
    rintro ⟨v, t, ht, -⟩
    rw [hd] at ht
    cases ht

/-- A hello is read from its own encoding and from nothing else, and the read does not panic. -/
theorem decodeHello_spec (payload : Bytes) :
    Accepts (decodeHello payload) fun hello =>
      payload = counted hello.enrollmentID ++ counted hello.clientNonce ∧ hello.enrollmentID ≠ [] ∧
        hello.enrollmentID.length < 2 ^ 16 ∧ hello.clientNonce.length = nonceSize := by
  have hend : ∀ id nonce pos, pos ≤ payload.length →
      Accepts (α := Hello)
        (if payload.length - pos ≠ 0 then
          some (.error ("enrollment hello trailing bytes: " ++ toString (payload.length - pos)))
        else if id = [] ∨ nonce.length ≠ nonceSize then some (.error "invalid enrollment hello")
        else some (.ok ⟨id, nonce⟩))
        fun hello => payload.drop pos = [] ∧ id ≠ [] ∧ nonce.length = nonceSize ∧ hello = ⟨id, nonce⟩ := by
    intro id nonce pos hpos
    by_cases htrail : payload.length - pos ≠ 0
    · refine ⟨_, if_pos htrail, fun hello => ⟨by rintro ⟨⟩, ?_⟩⟩
      rintro ⟨hd, -⟩
      have := congrArg List.length hd
      rw [List.length_drop, List.length_nil] at this
      omega
    · rw [if_neg htrail]
      by_cases hbad : id = [] ∨ nonce.length ≠ nonceSize
      · refine ⟨_, if_pos hbad, fun hello => ⟨by rintro ⟨⟩, ?_⟩⟩
        rintro ⟨-, hid, hl, -⟩
        rcases hbad with h | h
        · exact absurd h hid
        · exact absurd hl h
      · refine ⟨_, if_neg hbad, fun hello => ?_⟩
        rw [not_or, not_not] at hbad
        constructor
        · rintro ⟨⟩
          exact ⟨List.drop_eq_nil_of_le (by omega), hbad.1, hbad.2, rfl⟩
        · rintro ⟨-, -, -, rfl⟩
          rfl
  -- the fields in the order they are read, each with what follows it
  let afterNonce (id nonce t : Bytes) (hello : Hello) : Prop :=
    t = [] ∧ id ≠ [] ∧ nonce.length = nonceSize ∧ hello = ⟨id, nonce⟩
  let afterID (id t : Bytes) (hello : Hello) : Prop :=
    ∃ nonce t', t = counted nonce ++ t' ∧ nonce.length < 2 ^ 16 ∧ afterNonce id nonce t' hello
  have hfields : Accepts (decodeHello payload) fun hello =>
      ∃ id t, payload.drop 0 = counted id ++ t ∧ id.length < 2 ^ 16 ∧ afterID id t hello :=
    accepts_prefixed (P := afterID) (Nat.zero_le payload.length) fun id pos hpos =>
    accepts_prefixed (P := afterNonce id) hpos fun nonce pos' hpos' => hend id nonce pos' hpos'
  refine accepts_congr (fun hello => ?_) hfields
  rw [List.drop_zero]
  constructor
  · rintro ⟨id, t, rfl, hl, nonce, t', rfl, -, rfl, hid, hn, rfl⟩
    exact ⟨by rw [List.append_nil], hid, hl, hn⟩
  · rintro ⟨rfl, hid, hl, hn⟩
    refine ⟨_, _, rfl, hl, _, [], (List.append_nil _).symm, ?_, rfl, hid, hn, rfl⟩
    rw [hn]
    decide

/-- A request is read from its own encoding and from nothing else, and the read does not panic. -/
theorem decodeRequest_spec (payload : Bytes) :
    Accepts (decodeRequest payload) fun req =>
      payload = counted req.hostname ++ counted req.ip ++ counted req.os ++ [req.monitorType] ∧
        req.hostname.length < 2 ^ 16 ∧ req.ip.length < 2 ^ 16 ∧ req.os.length < 2 ^ 16 := by
  have hend : ∀ hostname ip os monitorType pos, pos ≤ payload.length →
      Accepts (α := Request)
        (if payload.length - pos ≠ 0 then
          some (.error ("enrollment request trailing bytes: " ++ toString (payload.length - pos)))
        else some (.ok ⟨hostname, ip, monitorType, os⟩))
        fun req => payload.drop pos = [] ∧ req = ⟨hostname, ip, monitorType, os⟩ := by
    intro hostname ip os monitorType pos hpos
    by_cases htrail : payload.length - pos ≠ 0
    · refine ⟨_, if_pos htrail, fun req => ⟨by rintro ⟨⟩, ?_⟩⟩
      rintro ⟨hd, -⟩
      have := congrArg List.length hd
      rw [List.length_drop, List.length_nil] at this
      omega
    · refine ⟨_, if_neg htrail, fun req => ?_⟩
      constructor
      · rintro ⟨⟩
        exact ⟨List.drop_eq_nil_of_le (by omega), rfl⟩
      · rintro ⟨-, rfl⟩
        rfl
  let afterType (hostname ip os : Bytes) (monitorType : UInt8) (t : Bytes) (req : Request) : Prop :=
    t = [] ∧ req = ⟨hostname, ip, monitorType, os⟩
  let afterOS (hostname ip os t : Bytes) (req : Request) : Prop :=
    ∃ monitorType t', t = monitorType :: t' ∧ afterType hostname ip os monitorType t' req
  let afterIP (hostname ip t : Bytes) (req : Request) : Prop :=
    ∃ os t', t = counted os ++ t' ∧ os.length < 2 ^ 16 ∧ afterOS hostname ip os t' req
  let afterHostname (hostname t : Bytes) (req : Request) : Prop :=
    ∃ ip t', t = counted ip ++ t' ∧ ip.length < 2 ^ 16 ∧ afterIP hostname ip t' req
  have hfields : Accepts (decodeRequest payload) fun req =>
      ∃ hostname t, payload.drop 0 = counted hostname ++ t ∧ hostname.length < 2 ^ 16 ∧ afterHostname hostname t req :=
    accepts_prefixed (P := afterHostname) (Nat.zero_le payload.length) fun hostname pos hpos =>
    accepts_prefixed (P := afterIP hostname) hpos fun ip pos hpos =>
      accepts_prefixed (P := afterOS hostname ip) hpos fun os pos hpos =>
        accepts_byte (P := afterType hostname ip os) hpos fun monitorType pos hpos =>
          hend hostname ip os monitorType pos hpos
  refine accepts_congr (fun req => ?_) hfields
  rw [List.drop_zero]
  constructor
  · rintro ⟨hostname, t₁, rfl, h₁, ip, t₂, rfl, h₂, os, t₃, rfl, h₃, monitorType, t₄, rfl, rfl, rfl⟩
    exact ⟨by simp only [List.append_assoc], h₁, h₂, h₃⟩
  · rintro ⟨rfl, h₁, h₂, h₃⟩
    exact ⟨_, _, by simp only [List.append_assoc], h₁, _, _, rfl, h₂, _, _, rfl, h₃, _, _, rfl, rfl, rfl⟩

/-! ## What is written -/

theorem writePrefixed_fits {what : String} {buf s : Bytes} (hs : s.length < 2 ^ 16) :
    writePrefixed what buf s = .ok (buf ++ counted s) := by
  have hle : ¬ s.length > 65535 := by omega
  simp only [writePrefixed, if_neg hle, counted, List.append_assoc]

theorem encodeChallenge_eq {ch : Challenge} (hn : ch.serverNonce.length < 2 ^ 16) (hp : ch.proof.length < 2 ^ 16) :
    encodeChallenge ch = .ok (counted ch.serverNonce ++ counted ch.proof) := by
  simp only [encodeChallenge, writeBytes, writePrefixed_fits hn, bind, Except.bind, writePrefixed_fits hp,
    List.nil_append]

theorem encodeResponse_eq {resp : Response}
    (h : ∀ s ∈ [resp.agentID, resp.agentCertPEM, resp.agentKeyPEM, resp.caCertPEM], s.length < 2 ^ 16) :
    encodeResponse resp =
      .ok (counted resp.agentID ++ (counted resp.agentCertPEM ++ (counted resp.agentKeyPEM ++
        (counted resp.caCertPEM ++ beBytes 8 resp.expiresAt.toUInt64.toNat)))) := by
  simp only [List.mem_cons, List.not_mem_nil, or_false, forall_eq_or_imp, forall_eq] at h
  obtain ⟨h₁, h₂, h₃, h₄⟩ := h
  simp only [encodeResponse, writeString, writePrefixed_fits h₁, bind, Except.bind, writePrefixed_fits h₂,
    writePrefixed_fits h₃, writePrefixed_fits h₄, pure, Except.pure, List.nil_append, List.append_assoc]

end KnIg.Backend
