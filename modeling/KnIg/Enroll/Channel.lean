/-
The two sides of the protected enrollment channel meet: the agent and the server derive the same keys
and the same proof, mask and authenticate alike, and each opens what the other sealed and nothing else.
-/
import KnIg.Agent.Enroll.Crypto
import KnIg.Backend.Enrollment.XorCrypto

namespace KnIg.Enroll

open Lib Agent Backend

/-- The same three keys in the server's hands. -/
def keysOf (s : IgXorSession) : SessionKeys := ⟨s.session, s.enc, s.mac⟩

section Hmac

variable {hmac : Bytes → Bytes → Octets 32}

/-! ## What is hashed -/

/-- The agent's buffer holds what the server writes to its hash one after the other. -/
theorem labelledData_eq (label : Bytes) (enrollmentId : CStr) (clientNonce serverNonce : Octets 32) :
    labelledData label enrollmentId clientNonce serverNonce =
      label ++ [0] ++ enrollmentId.bytes ++ [0] ++ clientNonce.bytes ++ serverNonce.bytes := by
  have hlabel : memcpy (zeroed (label.length + 1 + enrollmentId.length + 1 + 32 + 32)) 0 label =
      label ++ [0] ++ zeroed (enrollmentId.length + 1 + 32 + 32) := by
    rw [memcpy_zeroed (n := 1 + (enrollmentId.length + 1 + 32 + 32)) (by omega), zeroed_skip rfl]
  have hid : memcpy (label ++ [0] ++ zeroed (enrollmentId.length + 1 + 32 + 32)) (0 + (label.length + 1))
      enrollmentId.bytes = label ++ [0] ++ enrollmentId.bytes ++ [0] ++ zeroed (32 + 32) := by
    rw [memcpy_next (n := 1 + (32 + 32)) (by simp) (by simp only [CStr.length]), zeroed_skip rfl]
  have hclient : memcpy (label ++ [0] ++ enrollmentId.bytes ++ [0] ++ zeroed (32 + 32))
      (0 + (label.length + 1) + (enrollmentId.length + 1)) clientNonce.bytes =
      label ++ [0] ++ enrollmentId.bytes ++ [0] ++ clientNonce.bytes ++ zeroed 32 :=
    memcpy_next (by simp [CStr.length]; omega) (by simp)
  have hserver : memcpy (label ++ [0] ++ enrollmentId.bytes ++ [0] ++ clientNonce.bytes ++ zeroed 32)
      (0 + (label.length + 1) + (enrollmentId.length + 1) + 32) serverNonce.bytes =
      label ++ [0] ++ enrollmentId.bytes ++ [0] ++ clientNonce.bytes ++ serverNonce.bytes :=
    memcpy_last (by simp [CStr.length]; omega) (by simp)
  simp only [labelledData, hlabel, hid, hclient, hserver]

theorem frameMac_eq (calloc : Bool) (s : IgXorSession) (msgType : UInt8) (seq : UInt32) (ciphertext : Bytes) :
    frameMac hmac calloc s msgType seq ciphertext =
      if calloc then some (frameMAC hmac (keysOf s).mac msgType seq ciphertext) else none := by
  have htype : memcpy (zeroed (1 + 4 + ciphertext.length)) 0 [msgType] = [msgType] ++ zeroed (4 + ciphertext.length) :=
    memcpy_zeroed (by simp; omega)
  have hseq : memcpy ([msgType] ++ zeroed (4 + ciphertext.length)) 1 (beBytes 4 seq.toNat) =
      [msgType] ++ beBytes 4 seq.toNat ++ zeroed ciphertext.length := memcpy_next rfl (by simp)
  have hlast : (if ciphertext.length > 0 then
      memcpy ([msgType] ++ beBytes 4 seq.toNat ++ zeroed ciphertext.length) 5 ciphertext
      else [msgType] ++ beBytes 4 seq.toNat ++ zeroed ciphertext.length) =
      [msgType] ++ beBytes 4 seq.toNat ++ ciphertext := by
    split
    · exact memcpy_last (by simp) rfl
    · have : ciphertext = [] := List.eq_nil_of_length_eq_zero (by omega)
      simp [this, zeroed]
  cases calloc with
  | false => rfl
  | true =>
    simp only [frameMac, htype, hseq, hlast]
    rfl

/-- The counter block of the agent is that of the server for the counter's low 32 bits. -/
theorem xorCrypt_eq (s : IgXorSession) (seq : UInt32) (src : Bytes) :
    xorCrypt hmac s seq src = xorKeystream hmac src (keysOf s).enc seq := by
  have hinput : ∀ c : UInt64,
      memcpy (memcpy (zeroed 8) 0 (beBytes 4 seq.toNat)) 4 (beBytes 4 c.toUInt32.toNat) =
        beBytes 4 seq.toNat ++ beBytes 4 c.toUInt32.toNat := fun c => by
    rw [memcpy_zeroed (n := 4) (by simp), memcpy_last (by simp) (by simp)]
  have hnext : ∀ c : UInt64, (c + 1).toUInt32 = c.toUInt32 + 1 := fun c => UInt64.toUInt32_add c 1
  simp only [xorCrypt, xorKeystream, hinput]
  refine xorBlocks_sim UInt64.toUInt32 ?_ ?_ 0 src
  · exact hnext
  · exact fun _ => rfl

/-! ## Sealed payloads -/

theorem protectPayload_eq (callocBuf callocData : Bool) (s : IgXorSession) (msgType : UInt8) (seq : UInt32)
    (plain : Bytes) :
    protectPayload hmac callocBuf callocData s msgType seq plain =
      if plain.length + igXorMacSize ≤ igEnrollMaxFrameSize ∧ callocBuf ∧ callocData then
        some (sealProtected hmac msgType seq plain (keysOf s), UInt32.ofNat (igXorMacSize + plain.length))
      else none := by
  have hbuf : ∀ (mac : Octets 32) (ct : Bytes), ct.length = plain.length →
      memcpy (memcpy (zeroed (igXorMacSize + plain.length)) igXorMacSize ct) 0 mac.bytes = mac.bytes ++ ct :=
    fun mac ct hc => by
      rw [zeroed_add, memcpy_last (by simp) hc.symm, memcpy_first (by simp [igXorMacSize])]
  unfold protectPayload
  by_cases hl : plain.length + igXorMacSize > igEnrollMaxFrameSize
  · rw [if_pos hl, if_neg (by omega)]
  · rw [if_neg hl]
    cases callocBuf with
    | false => simp
    | true =>
      cases callocData with
      | false => simp [frameMac]
      | true =>
        simp only [frameMac_eq, xorCrypt_eq, if_true, Bool.not_true, Bool.false_eq_true, if_false]
        rw [hbuf _ _ (xorKeystream_length ..), if_pos ⟨by omega, trivial, trivial⟩]
        rfl

theorem openProtectedPayload_eq (callocData callocPlain : Bool) (s : IgXorSession) (msgType : UInt8) (seq : UInt32)
    (payload : Bytes) :
    openProtectedPayload hmac callocData callocPlain s msgType seq payload =
      match openProtected hmac msgType seq payload (keysOf s) with
      | .ok plain =>
        if callocData ∧ callocPlain then some (plain, UInt32.ofNat plain.length) else none
      | .error _ => none := by
  unfold openProtectedPayload openProtected
  rw [show igXorMacSize = protectedMACSz from rfl]
  by_cases hl : payload.length < protectedMACSz
  · rw [if_pos hl, if_pos hl]
  · rw [if_neg hl, if_neg hl]
    cases callocData with
    | false => simp [frameMac]; split <;> rfl
    | true =>
      simp only [frameMac_eq, xorCrypt_eq, if_true]
      by_cases hm : payload.take protectedMACSz ≠
          (frameMAC hmac (keysOf s).mac msgType seq (payload.drop protectedMACSz)).bytes
      · rw [if_pos hm, if_pos hm]
      · rw [if_neg hm, if_neg hm]
        cases callocPlain <;> simp

/-- A payload opens to a text exactly when it is the server's sealing of that text. -/
theorem openProtectedPayload_eq_some {callocData callocPlain : Bool} {s : IgXorSession} {msgType : UInt8}
    {seq len : UInt32} {payload plain : Bytes} :
    openProtectedPayload hmac callocData callocPlain s msgType seq payload = some (plain, len) ↔
      payload = sealProtected hmac msgType seq plain (keysOf s) ∧ len = UInt32.ofNat plain.length ∧
        callocData ∧ callocPlain := by
  rw [openProtectedPayload_eq, ← openProtected_eq_ok]
  cases openProtected hmac msgType seq payload (keysOf s) with
  | error err => simp
  | ok text =>
    simp only [Option.ite_none_right_eq_some, Option.some.injEq, Prod.mk.injEq, Except.ok.injEq]
    constructor
    · rintro ⟨⟨hd, hp⟩, rfl, rfl⟩
      exact ⟨rfl, rfl, hd, hp⟩
    · rintro ⟨rfl, rfl, hd, hp⟩
      exact ⟨⟨hd, hp⟩, rfl, rfl⟩

/-! ## The channel -/

/-- The agent's session keys when its buffer is allocated. -/
def sessionOf (hmac : Bytes → Bytes → Octets 32) (xorKey enrollmentId : CStr) (clientNonce serverNonce : Octets 32) :
    IgXorSession :=
  let session := hmac xorKey.bytes
    (labelledData (ascii "knig enrollment v2 session") enrollmentId clientNonce serverNonce)
  ⟨session, hmac session.bytes (ascii "knig enrollment enc"), hmac session.bytes (ascii "knig enrollment mac")⟩

theorem deriveSession_eq (calloc : Bool) (xorKey enrollmentId : CStr) (clientNonce serverNonce : Octets 32) :
    deriveSession hmac calloc xorKey enrollmentId clientNonce serverNonce =
      if calloc then some (sessionOf hmac xorKey enrollmentId clientNonce serverNonce) else none := by
  cases calloc <;> rfl

theorem deriveSessionKeys_eq {xorKey enrollmentId : CStr} (hkey : xorKey.bytes ≠ []) (hid : enrollmentId.bytes ≠ [])
    (clientNonce serverNonce : Octets 32) :
    deriveSessionKeys hmac xorKey.bytes enrollmentId.bytes clientNonce.bytes serverNonce.bytes =
      .ok (keysOf (sessionOf hmac xorKey enrollmentId clientNonce serverNonce)) := by
  unfold deriveSessionKeys
  rw [if_neg (by simp [hkey, hid, nonceSize]), ← labelledData_eq]
  rfl

theorem serverProof_eq (calloc : Bool) (s : IgXorSession) (enrollmentId : CStr) (clientNonce serverNonce : Octets 32) :
    Agent.serverProof hmac calloc s enrollmentId clientNonce serverNonce =
      if calloc then
        some (Backend.serverProof hmac (keysOf s) enrollmentId.bytes clientNonce.bytes serverNonce.bytes)
      else none := by
  cases calloc with
  | false => rfl
  | true =>
    rw [Backend.serverProof, ← labelledData_eq]
    rfl

/-- From the same key, id and nonces both sides have the same channel, whatever is sent on it. -/
theorem channels_agree (xorKey enrollmentId : CStr) (hkey : xorKey.bytes ≠ []) (hid : enrollmentId.bytes ≠ [])
    (clientNonce serverNonce : Octets 32) :
    ∃ s : IgXorSession,
      deriveSessionKeys hmac xorKey.bytes enrollmentId.bytes clientNonce.bytes serverNonce.bytes =
        .ok (keysOf s) ∧
      (∀ calloc, deriveSession hmac calloc xorKey enrollmentId clientNonce serverNonce =
        if calloc then some s else none) ∧
      (∀ calloc, Agent.serverProof hmac calloc s enrollmentId clientNonce serverNonce =
        if calloc then
          some (Backend.serverProof hmac (keysOf s) enrollmentId.bytes clientNonce.bytes serverNonce.bytes)
        else none) ∧
      (∀ msgType seq, ∀ ciphertext : Bytes, ∀ calloc,
        frameMac hmac calloc s msgType seq ciphertext =
          if calloc then some (frameMAC hmac (keysOf s).mac msgType seq ciphertext) else none) ∧
      (∀ seq, ∀ text : Bytes, xorCrypt hmac s seq text = xorKeystream hmac text (keysOf s).enc seq) ∧
      (∀ msgType seq, ∀ plain : Bytes, ∀ callocBuf callocData,
        protectPayload hmac callocBuf callocData s msgType seq plain =
          if plain.length + igXorMacSize ≤ igEnrollMaxFrameSize ∧ callocBuf ∧ callocData then
            some (sealProtected hmac msgType seq plain (keysOf s), UInt32.ofNat (igXorMacSize + plain.length))
          else none) ∧
      (∀ msgType seq callocBuf callocData, ∀ plain payload : Bytes, ∀ len,
        protectPayload hmac callocBuf callocData s msgType seq plain = some (payload, len) →
          openProtected hmac msgType seq payload (keysOf s) = .ok plain) ∧
      (∀ msgType seq, ∀ plain : Bytes,
        openProtectedPayload hmac true true s msgType seq (sealProtected hmac msgType seq plain (keysOf s)) =
          some (plain, UInt32.ofNat plain.length)) ∧
      (∀ msgType seq, ∀ payload plain : Bytes,
        openProtected hmac msgType seq payload (keysOf s) = .ok plain ↔
          payload = sealProtected hmac msgType seq plain (keysOf s)) ∧
      ∀ msgType seq callocData callocPlain, ∀ payload plain : Bytes, ∀ len,
        openProtectedPayload hmac callocData callocPlain s msgType seq payload = some (plain, len) ↔
          payload = sealProtected hmac msgType seq plain (keysOf s) ∧ len = UInt32.ofNat plain.length ∧
            callocData ∧ callocPlain := by
  refine ⟨sessionOf hmac xorKey enrollmentId clientNonce serverNonce,
    deriveSessionKeys_eq hkey hid clientNonce serverNonce, fun calloc => deriveSession_eq calloc _ _ _ _,
    fun calloc => serverProof_eq calloc _ _ _ _, fun msgType seq ciphertext calloc => frameMac_eq calloc _ _ _ _,
    xorCrypt_eq _, fun msgType seq plain callocBuf callocData => protectPayload_eq callocBuf callocData _ _ _ _,
    ?_, ?_, fun _ _ _ _ => openProtected_eq_ok, fun _ _ _ _ _ _ _ => openProtectedPayload_eq_some⟩
  · intro msgType seq callocBuf callocData plain payload len h
    rw [protectPayload_eq] at h
    obtain ⟨-, h⟩ := Option.ite_none_right_eq_some.1 h
    cases h
    exact openProtected_eq_ok.2 rfl
  · intro msgType seq plain
    exact openProtectedPayload_eq_some.2 ⟨rfl, rfl, rfl, rfl⟩

end Hmac

/-- A keyed function that keeps the first 32 bytes of key and data, to run the channel with. -/
def foldHmac (key data : Bytes) : Octets 32 :=
  ⟨(key ++ data ++ zeroed 32).take 32, by simp; omega⟩

def nonce (b : UInt8) : Octets 32 := ⟨List.replicate 32 b, rfl⟩

theorem channels_agree_enrolling :
    ∃ s : IgXorSession,
      deriveSessionKeys foldHmac (ascii "shared") (ascii "enr-1") (nonce 1).bytes (nonce 2).bytes = .ok (keysOf s) ∧
        deriveSession foldHmac true ⟨ascii "shared", by decide⟩ ⟨ascii "enr-1", by decide⟩ (nonce 1) (nonce 2) =
          some s ∧
        openProtectedPayload foldHmac true true s 0x24 4
          (sealProtected foldHmac 0x24 4 (ascii "response") (keysOf s)) = some (ascii "response", 8) := by
  obtain ⟨s, hgo, hc, -, -, -, -, -, hopen, -⟩ :=
    @channels_agree foldHmac ⟨ascii "shared", by decide⟩ ⟨ascii "enr-1", by decide⟩ (by decide) (by decide) (nonce 1)
      (nonce 2)
  exact ⟨s, hgo, hc true, hopen 0x24 4 (ascii "response")⟩

end KnIg.Enroll
