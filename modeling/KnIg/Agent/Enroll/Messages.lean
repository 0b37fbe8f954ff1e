/-
The agent's enrollment messages: how a hello and a request become a payload, and how a challenge and a
response are read from one. A decoder is `none` where it accesses a byte outside its buffer; the position
and the bytes left are two counters, and the code goes on reading after a field that failed.
-/
import KnIg.Lib.Counted
import KnIg.Lib.Keystream
import Mathlib.Data.List.TakeWhile

namespace KnIg.Agent

open Lib

def igMsgXorHello : UInt8 := 0x21
def igMsgXorChallenge : UInt8 := 0x22
def igMsgXorEnrollRequest : UInt8 := 0x23
def igMsgXorEnrollResponse : UInt8 := 0x24
def igMsgXorEnrollAck : UInt8 := 0x25
def igMsgXorEnrollError : UInt8 := 0x26

/-- `ig_frame_t`; the payload has `payload_len` bytes. -/
structure IgFrame where
  type : UInt8
  seq : UInt32
  payload : Bytes

/-- `ig_enroll_response_t`. -/
structure IgEnrollResponse where
  agentId : CStr
  agentCertPem : CStr
  agentKeyPem : CStr
  caCertPem : CStr
  expiresAt : UInt64
deriving DecidableEq

/-- The part of `ig_enroll_config_t` that a request is made of. -/
structure IgEnrollConfig where
  hostname : CStr
  ip : CStr
  os : CStr
  monitorType : UInt8

/-! ## Encoding -/

/-- A buffer under encoding: what stands before the position, and the room left. -/
structure Writing where
  written : Bytes
  remaining : Nat

/-- `write_string` and `write_bytes`; `none` is `-1`. -/
def writeCounted (w : Writing) (s : Bytes) : Option Writing :=
  let len := s.length
  if len > 65535 ∨ w.remaining < len + 2 then none
  else some ⟨w.written ++ beBytes 2 len ++ s, w.remaining - 2 - len⟩

def encodeHello (calloc : Bool) (enrollmentId : CStr) (clientNonce : Octets 32) : Option Bytes := do
  let payloadLen := 2 + enrollmentId.length + 2 + 32
  if !calloc then none
  else
    let w ← writeCounted ⟨[], payloadLen⟩ enrollmentId.bytes
    let w ← writeCounted w clientNonce.bytes
    if w.remaining ≠ 0 then none else some w.written

def encodeRequestPlain (calloc : Bool) (cfg : IgEnrollConfig) : Option Bytes := do
  let payloadLen := 2 + cfg.hostname.length + 2 + cfg.ip.length + 2 + cfg.os.length + 1
  if !calloc then none
  else
    let w ← writeCounted ⟨[], payloadLen⟩ cfg.hostname.bytes
    let w ← writeCounted w cfg.ip.bytes
    let w ← writeCounted w cfg.os.bytes
    if w.remaining < 1 then none
    else
      let w : Writing := ⟨w.written ++ [cfg.monitorType], w.remaining - 1⟩
      if w.remaining ≠ 0 then none else some w.written

/-! ## Decoding -/

/-- `p`, as an offset into the payload, and `remaining`. -/
structure Cursor where
  p : Nat
  remaining : Nat

def Cursor.advance (c : Cursor) (n : Nat) : Cursor := ⟨c.p + n, c.remaining - n⟩

/-- `read_string` and `read_bytes`: a field in a buffer of its own, or `NULL` with the cursor where the
read stopped. -/
def readCounted (buf : Bytes) (calloc : Bool) (c : Cursor) : Option (Option Bytes × Cursor) :=
  if c.remaining < 2 then some (none, c)
  else do
    let len := beNat (← load buf c.p 2)
    let c := c.advance 2
    if c.remaining < len then some (none, c)
    else if !calloc then some (none, c)
    else
      let s ← load buf c.p len
      some (some s, c.advance len)

/-- The C string a buffer holds. -/
def cString (s : Bytes) : CStr := ⟨s.takeWhile (· ≠ 0), fun h => by simpa using List.mem_takeWhile_imp h⟩

/-- The checks of `decode_challenge`, made once both fields were read. -/
def challengeOf (nonce proof : Option Bytes) (remaining : Nat) : Except Int (Octets 32 × Octets 32) :=
  match nonce, proof with
  | some nonce, some proof =>
    if h : nonce.length = 32 ∧ proof.length = 32 ∧ remaining = 0 then
      .ok (⟨nonce, h.1⟩, ⟨proof, h.2.1⟩)
    else .error (-1)
  | _, _ => .error (-1)

/-- `error` carries the negative return value. -/
def decodeChallenge (callocNonce callocProof : Bool) (frame : IgFrame) :
    Option (Except Int (Octets 32 × Octets 32)) :=
  if frame.type = igMsgXorEnrollError then some (.error (-2))
  else if frame.type ≠ igMsgXorChallenge then some (.error (-1))
  else do
    let (nonce, c) ← readCounted frame.payload callocNonce ⟨0, frame.payload.length⟩
    let (proof, c) ← readCounted frame.payload callocProof c
    some (challengeOf nonce proof c.remaining)

/-- `be64_to_host`. -/
def be64ToHost (p : Bytes) : UInt64 :=
  let hi := UInt32.ofNat (beNat (p.take 4))
  let lo := UInt32.ofNat (beNat (p.drop 4))
  hi.toUInt64 <<< 32 ||| lo.toUInt64

/-- The rest of `decode_response_plain`, once all four fields were read. -/
def responseOf (payload : Bytes) (agentId agentCertPem agentKeyPem caCertPem : Option Bytes) (c : Cursor) :
    Option (Except Int IgEnrollResponse) :=
  match agentId, agentCertPem, agentKeyPem, caCertPem with
  | some agentId, some agentCertPem, some agentKeyPem, some caCertPem =>
    if c.remaining < 8 then some (.error (-1))
    else do
      let expiresAt := be64ToHost (← load payload c.p 8)
      if c.remaining - 8 = 0 then
        some (.ok ⟨cString agentId, cString agentCertPem, cString agentKeyPem, cString caCertPem, expiresAt⟩)
      else some (.error (-1))
  | _, _, _, _ => some (.error (-1))

def decodeResponsePlain (calloc : Fin 4 → Bool) (payload : Bytes) : Option (Except Int IgEnrollResponse) := do
  let (agentId, c) ← readCounted payload (calloc 0) ⟨0, payload.length⟩
  let (agentCertPem, c) ← readCounted payload (calloc 1) c
  let (agentKeyPem, c) ← readCounted payload (calloc 2) c
  let (caCertPem, c) ← readCounted payload (calloc 3) c
  responseOf payload agentId agentCertPem agentKeyPem caCertPem c

/-! ## What is written -/

theorem writeCounted_fits {w : Writing} {s : Bytes} (hs : s.length < 2 ^ 16) (hr : 2 + s.length ≤ w.remaining) :
    writeCounted w s = some ⟨w.written ++ counted s, w.remaining - (2 + s.length)⟩ := by
  have hroom : ¬ (s.length > 65535 ∨ w.remaining < s.length + 2) := by omega
  simp only [writeCounted, if_neg hroom, counted, List.append_assoc, Nat.sub_sub]

/-- A hello fits the buffer it is given exactly. -/
theorem encodeHello_eq {enrollmentId : CStr} (hid : enrollmentId.length < 2 ^ 16) (clientNonce : Octets 32) :
    encodeHello true enrollmentId clientNonce = some (counted enrollmentId.bytes ++ counted clientNonce.bytes) := by
  have h1 : writeCounted ⟨[], 2 + enrollmentId.length + 2 + 32⟩ enrollmentId.bytes =
      some ⟨counted enrollmentId.bytes, 2 + 32⟩ := by
    rw [writeCounted_fits hid (by simp only [CStr.length]; omega)]
    simp only [List.nil_append, CStr.length, Option.some.injEq, Writing.mk.injEq, true_and]
    omega
  have h2 : writeCounted ⟨counted enrollmentId.bytes, 2 + 32⟩ clientNonce.bytes =
      some ⟨counted enrollmentId.bytes ++ counted clientNonce.bytes, 0⟩ := by
    rw [writeCounted_fits (by simp) (by simp)]
    simp
  simp [encodeHello, h1, h2]

theorem encodeRequestPlain_eq {cfg : IgEnrollConfig} (hhost : cfg.hostname.length < 2 ^ 16)
    (hip : cfg.ip.length < 2 ^ 16) (hos : cfg.os.length < 2 ^ 16) :
    encodeRequestPlain true cfg =
      some (counted cfg.hostname.bytes ++ counted cfg.ip.bytes ++ counted cfg.os.bytes ++ [cfg.monitorType]) := by
  have h1 : writeCounted ⟨[], 2 + cfg.hostname.length + 2 + cfg.ip.length + 2 + cfg.os.length + 1⟩
      cfg.hostname.bytes = some ⟨counted cfg.hostname.bytes, 2 + cfg.ip.length + 2 + cfg.os.length + 1⟩ := by
    rw [writeCounted_fits hhost (by simp only [CStr.length]; omega)]
    simp only [List.nil_append, CStr.length, Option.some.injEq, Writing.mk.injEq, true_and]
    omega
  have h2 : writeCounted ⟨counted cfg.hostname.bytes, 2 + cfg.ip.length + 2 + cfg.os.length + 1⟩ cfg.ip.bytes =
      some ⟨counted cfg.hostname.bytes ++ counted cfg.ip.bytes, 2 + cfg.os.length + 1⟩ := by
    rw [writeCounted_fits hip (by simp only [CStr.length]; omega)]
    simp only [CStr.length, Option.some.injEq, Writing.mk.injEq, true_and]
    omega
  have h3 : writeCounted ⟨counted cfg.hostname.bytes ++ counted cfg.ip.bytes, 2 + cfg.os.length + 1⟩ cfg.os.bytes =
      some ⟨counted cfg.hostname.bytes ++ counted cfg.ip.bytes ++ counted cfg.os.bytes, 1⟩ := by
    rw [writeCounted_fits hos (by simp only [CStr.length]; omega)]
    simp only [CStr.length, Option.some.injEq, Writing.mk.injEq, true_and]
    omega
  simp [encodeRequestPlain, h1, h2, h3]

/-! ## What is read -/

/-- The bytes left are those from the position to the end of the buffer. -/
def Cursor.Within (c : Cursor) (buf : Bytes) : Prop := c.p + c.remaining = buf.length

theorem Cursor.within_start (buf : Bytes) : (⟨0, buf.length⟩ : Cursor).Within buf := Nat.zero_add _

/-- What a read from within the buffer does: it stays within it, and returns a field when the buffer goes
on with that field, and only then. -/
structure ReadsFrom (buf : Bytes) (calloc : Bool) (c : Cursor) (r : Option Bytes) (c' : Cursor) : Prop where
  within : c'.Within buf
  sound : ∀ s, r = some s → calloc ∧ buf.drop c.p = counted s ++ buf.drop c'.p ∧ s.length < 2 ^ 16
  complete : ∀ s t, calloc → s.length < 2 ^ 16 → buf.drop c.p = counted s ++ t → r = some s ∧ buf.drop c'.p = t

/-- A read that returns no field: the buffer goes on with none, or no memory is left for it. -/
theorem ReadsFrom.null {buf : Bytes} {calloc : Bool} {c c' : Cursor} (hw : c'.Within buf)
    (h : splitCounted (buf.drop c.p) = none ∨ calloc = false) : ReadsFrom buf calloc c none c' where
  within := hw
  sound := by simp
  complete := by
    intro s t hcalloc hs ht
    rcases h with h | h
    · rw [ht, splitCounted_counted hs] at h
      cases h
    · rw [h] at hcalloc
      cases hcalloc

theorem ReadsFrom.field {buf s : Bytes} {c c' : Cursor} (hw : c'.Within buf)
    (h : splitCounted (buf.drop c.p) = some (s, buf.drop c'.p)) : ReadsFrom buf true c (some s) c' where
  within := hw
  sound := by
    rintro s ⟨⟩
    exact ⟨rfl, splitCounted_exact h⟩
  complete := by
    intro s t _ hs ht
    rw [ht, splitCounted_counted hs] at h
    obtain ⟨rfl, rfl⟩ := Prod.mk.inj (Option.some.inj h)
    exact ⟨rfl, rfl⟩

theorem readCounted_spec {buf : Bytes} {c : Cursor} (hc : c.Within buf) (calloc : Bool) :
    ∃ r c', readCounted buf calloc c = some (r, c') ∧ ReadsFrom buf calloc c r c' := by
  have hrest : (buf.drop c.p).length = c.remaining := by
    rw [List.length_drop]
    unfold Cursor.Within at hc
    omega
  by_cases h2 : c.remaining < 2
  · refine ⟨none, c, if_pos h2, .null hc (.inl ?_)⟩
    rw [splitCounted, if_pos (by omega)]
  · have hload : load buf c.p 2 = some ((buf.drop c.p).take 2) := load_inside (by unfold Cursor.Within at hc; omega)
    have hw2 : (c.advance 2).Within buf := by
      simp only [Cursor.Within, Cursor.advance] at hc ⊢
      omega
    have hdrop : (buf.drop c.p).drop 2 = buf.drop (c.p + 2) := List.drop_drop
    set n := beNat ((buf.drop c.p).take 2) with hn
    by_cases hlen : (c.advance 2).remaining < n
    · refine ⟨none, c.advance 2, ?_, .null hw2 (.inl ?_)⟩
      · simp [readCounted, h2, hload, ← hn, hlen]
      · simp only [splitCounted]
        rw [if_neg (by omega), if_pos]
        rw [List.length_drop, hrest]
        exact hlen
    · cases calloc with
      | false => exact ⟨none, c.advance 2, by simp [readCounted, h2, hload], .null hw2 (.inr rfl)⟩
      | true =>
        have hloads : load buf (c.advance 2).p n = some ((buf.drop (c.p + 2)).take n) := by
          apply load_inside
          simp only [Cursor.Within, Cursor.advance] at hc hlen ⊢
          omega
        refine ⟨some ((buf.drop (c.p + 2)).take n), (c.advance 2).advance n, ?_, .field ?_ ?_⟩
        · simp [readCounted, h2, hload, ← hn, hlen, hloads]
        · simp only [Cursor.Within, Cursor.advance] at hc hlen ⊢
          omega
        · simp only [splitCounted, Cursor.advance]
          rw [if_neg (by omega), if_neg, hdrop, List.drop_drop]
          rw [List.length_drop, hrest]
          exact hlen

theorem Cursor.Within.rest {c : Cursor} {buf : Bytes} (hc : c.Within buf) :
    (buf.drop c.p).length = c.remaining := by
  unfold Cursor.Within at hc
  rw [List.length_drop]
  omega

theorem challengeOf_eq_ok {nonce proof : Option Bytes} {remaining : Nat} {n p : Octets 32} :
    challengeOf nonce proof remaining = .ok (n, p) ↔ nonce = some n.bytes ∧ proof = some p.bytes ∧ remaining = 0 := by
  constructor
  · intro h
    unfold challengeOf at h
    split at h
    · split at h
      · rename_i hl
        cases h
        exact ⟨rfl, rfl, hl.2.2⟩
      · cases h
    · cases h
  · rintro ⟨rfl, rfl, rfl⟩
    simp [challengeOf]

/-- A challenge is read from its own encoding and from nothing else, and from no byte outside it. -/
theorem decodeChallenge_spec (callocNonce callocProof : Bool) (seq : UInt32) (payload : Bytes) :
    ∃ res, decodeChallenge callocNonce callocProof ⟨igMsgXorChallenge, seq, payload⟩ = some res ∧
      ∀ nonce proof, res = .ok (nonce, proof) ↔
        payload = counted nonce.bytes ++ counted proof.bytes ∧ callocNonce ∧ callocProof := by
  obtain ⟨r₁, c₁, h₁, hr₁⟩ := readCounted_spec (Cursor.within_start payload) callocNonce
  obtain ⟨r₂, c₂, h₂, hr₂⟩ := readCounted_spec hr₁.within callocProof
  have hres : decodeChallenge callocNonce callocProof ⟨igMsgXorChallenge, seq, payload⟩ =
      some (challengeOf r₁ r₂ c₂.remaining) := by
    have hne : ¬ igMsgXorChallenge = igMsgXorEnrollError := by decide
    simp [decodeChallenge, hne, h₁, h₂]
  refine ⟨_, hres, fun nonce proof => ?_⟩
  rw [challengeOf_eq_ok]
  constructor
  · rintro ⟨hnonce, hproof, hend⟩
    obtain ⟨ha, hpa, -⟩ := hr₁.sound _ hnonce
    obtain ⟨hb, hpb, -⟩ := hr₂.sound _ hproof
    have hnil : payload.drop c₂.p = [] := List.eq_nil_of_length_eq_zero (hr₂.within.rest.trans hend)
    rw [List.drop_zero, hpb, hnil, List.append_nil] at hpa
    exact ⟨hpa, ha, hb⟩
  · rintro ⟨hp, ha, hb⟩
    obtain ⟨hnonce, ht⟩ := hr₁.complete nonce.bytes _ ha (by simp) (by rwa [List.drop_zero])
    obtain ⟨hproof, ht⟩ := hr₂.complete proof.bytes [] hb (by simp) (by rwa [List.append_nil])
    refine ⟨hnonce, hproof, ?_⟩
    rw [← hr₂.within.rest, ht, List.length_nil]

theorem responseOf_spec (payload : Bytes) (a b d e : Option Bytes) {c : Cursor} (hc : c.Within payload) :
    ∃ res, responseOf payload a b d e c = some res ∧
      ∀ resp, res = .ok resp ↔ ∃ agentId cert key ca, a = some agentId ∧ b = some cert ∧ d = some key ∧ e = some ca ∧
        (payload.drop c.p).length = 8 ∧
        resp = ⟨cString agentId, cString cert, cString key, cString ca, be64ToHost (payload.drop c.p)⟩ := by
  unfold responseOf
  split
  · rename_i agentId cert key ca
    by_cases hlt : c.remaining < 8
    · refine ⟨.error (-1), if_pos hlt, fun resp => ⟨by rintro ⟨⟩, ?_⟩⟩
      rintro ⟨-, -, -, -, -, -, -, -, hlen, -⟩
      rw [hc.rest] at hlen
      omega
    · have hload : load payload c.p 8 = some ((payload.drop c.p).take 8) :=
        load_inside (by unfold Cursor.Within at hc; omega)
      by_cases hend : c.remaining - 8 = 0
      · have htake : (payload.drop c.p).take 8 = payload.drop c.p := by
          apply List.take_of_length_le
          rw [hc.rest]
          omega
        refine ⟨.ok ⟨cString agentId, cString cert, cString key, cString ca, be64ToHost (payload.drop c.p)⟩,
          by simp only [if_neg hlt, hload, htake, hend, if_true, Option.bind_eq_bind, Option.bind_some], ?_⟩
        intro resp
        constructor
        · rintro ⟨⟩
          exact ⟨_, _, _, _, rfl, rfl, rfl, rfl, by rw [hc.rest]; omega, rfl⟩
        · rintro ⟨_, _, _, _, ⟨⟩, ⟨⟩, ⟨⟩, ⟨⟩, -, rfl⟩
          rfl
      · refine ⟨.error (-1), by simp only [if_neg hlt, hload, if_neg hend, Option.bind_eq_bind, Option.bind_some], ?_⟩
        intro resp
        refine ⟨by rintro ⟨⟩, ?_⟩
        rintro ⟨-, -, -, -, -, -, -, -, hlen, -⟩
        rw [hc.rest] at hlen
        omega
  · rename_i hnone
    refine ⟨.error (-1), rfl, fun resp => ⟨by rintro ⟨⟩, ?_⟩⟩
    rintro ⟨agentId, cert, key, ca, rfl, rfl, rfl, rfl, -⟩
    exact absurd rfl (hnone agentId cert key ca rfl rfl rfl)

/-- A response is read from four fields and eight bytes and from nothing else, and from no byte outside
them. -/
theorem decodeResponsePlain_spec (calloc : Fin 4 → Bool) (payload : Bytes) :
    ∃ res, decodeResponsePlain calloc payload = some res ∧
      ∀ resp, res = .ok resp ↔ (∀ i, calloc i) ∧ ∃ agentId cert key ca expires : Bytes,
        payload = counted agentId ++ (counted cert ++ (counted key ++ (counted ca ++ expires))) ∧
          (∀ s ∈ [agentId, cert, key, ca], s.length < 2 ^ 16) ∧ expires.length = 8 ∧
          resp = ⟨cString agentId, cString cert, cString key, cString ca, be64ToHost expires⟩ := by
  obtain ⟨r₁, c₁, h₁, hr₁⟩ := readCounted_spec (Cursor.within_start payload) (calloc 0)
  obtain ⟨r₂, c₂, h₂, hr₂⟩ := readCounted_spec hr₁.within (calloc 1)
  obtain ⟨r₃, c₃, h₃, hr₃⟩ := readCounted_spec hr₂.within (calloc 2)
  obtain ⟨r₄, c₄, h₄, hr₄⟩ := readCounted_spec hr₃.within (calloc 3)
  obtain ⟨res, hres, hiff⟩ := responseOf_spec payload r₁ r₂ r₃ r₄ hr₄.within
  refine ⟨res, by simp [decodeResponsePlain, h₁, h₂, h₃, h₄, hres], fun resp => ?_⟩
  rw [hiff]
  constructor
  · rintro ⟨agentId, cert, key, ca, e₁, e₂, e₃, e₄, hlen, rfl⟩
    obtain ⟨ha, hpa, hla⟩ := hr₁.sound _ e₁
    obtain ⟨hb, hpb, hlb⟩ := hr₂.sound _ e₂
    obtain ⟨hd, hpd, hld⟩ := hr₃.sound _ e₃
    obtain ⟨he, hpe, hle⟩ := hr₄.sound _ e₄
    refine ⟨fun i => ?_, agentId, cert, key, ca, _, ?_, ?_, hlen, rfl⟩
    · match i with
      | 0 => exact ha
      | 1 => exact hb
      | 2 => exact hd
      | 3 => exact he
    · rwa [List.drop_zero, hpb, hpd, hpe] at hpa
    · simp only [List.mem_cons, List.not_mem_nil, or_false, forall_eq_or_imp, forall_eq]
      exact ⟨hla, hlb, hld, hle⟩
  · rintro ⟨hcalloc, agentId, cert, key, ca, expires, hp, hl, hlen, rfl⟩
    simp only [List.mem_cons, List.not_mem_nil, or_false, forall_eq_or_imp, forall_eq] at hl
    obtain ⟨hla, hlb, hld, hle⟩ := hl
    obtain ⟨e₁, t₁⟩ := hr₁.complete _ _ (hcalloc 0) hla (by rwa [List.drop_zero])
    obtain ⟨e₂, t₂⟩ := hr₂.complete _ _ (hcalloc 1) hlb t₁
    obtain ⟨e₃, t₃⟩ := hr₃.complete _ _ (hcalloc 2) hld t₂
    obtain ⟨e₄, t₄⟩ := hr₄.complete _ _ (hcalloc 3) hle t₃
    exact ⟨agentId, cert, key, ca, e₁, e₂, e₃, e₄, by rw [t₄, hlen], by rw [t₄]⟩

end KnIg.Agent
