/-
The server's side of the protected enrollment channel: the session keys from the shared key and the two
nonces, and the payloads sealed and opened with them.
-/
import KnIg.Lib.Keystream

namespace KnIg.Backend

open Lib

def nonceSize : Nat := 32

/-- `sha256.Size`. -/
def protectedMACSz : Nat := 32

structure SessionKeys where
  session : Octets 32
  enc : Octets 32
  mac : Octets 32
deriving DecidableEq

section Hmac

variable (hmac : Bytes → Bytes → Octets 32)

def deriveSessionKeys (xorKey enrollmentID clientNonce serverNonce : Bytes) : Except String SessionKeys :=
  if xorKey.length = 0 ∨ enrollmentID = [] ∨ clientNonce.length ≠ nonceSize ∨ serverNonce.length ≠ nonceSize then
    .error "invalid enrollment key material"
  else
    let session := hmac xorKey
      (ascii "knig enrollment v2 session" ++ [0] ++ enrollmentID ++ [0] ++ clientNonce ++ serverNonce)
    .ok
      { session
        enc := hmac session.bytes (ascii "knig enrollment enc")
        mac := hmac session.bytes (ascii "knig enrollment mac") }

def serverProof (keys : SessionKeys) (enrollmentID clientNonce serverNonce : Bytes) : Octets 32 :=
  hmac keys.mac.bytes
    (ascii "knig enrollment server proof" ++ [0] ++ enrollmentID ++ [0] ++ clientNonce ++ serverNonce)

def frameMAC (macKey : Octets 32) (msgTyp : UInt8) (seqNum : UInt32) (ciphertext : Bytes) : Octets 32 :=
  hmac macKey.bytes ([msgTyp] ++ beBytes 4 seqNum.toNat ++ ciphertext)

def xorKeystream (src : Bytes) (encKey : Octets 32) (seqNum : UInt32) : Bytes :=
  let block (counter : UInt32) : Octets 32 :=
    hmac encKey.bytes (beBytes 4 seqNum.toNat ++ beBytes 4 counter.toNat)
  xorBlocks (· + 1) block 0 src

def sealProtected (msgTyp : UInt8) (seqNum : UInt32) (plaintext : Bytes) (keys : SessionKeys) : Bytes :=
  let ciphertext := xorKeystream hmac plaintext keys.enc seqNum
  (frameMAC hmac keys.mac msgTyp seqNum ciphertext).bytes ++ ciphertext

def openProtected (msgTyp : UInt8) (seqNum : UInt32) (payload : Bytes) (keys : SessionKeys) :
    Except String Bytes :=
  if payload.length < protectedMACSz then .error "protected payload too short"
  else
    let got := payload.take protectedMACSz
    let ciphertext := payload.drop protectedMACSz
    let want := frameMAC hmac keys.mac msgTyp seqNum ciphertext
    if got ≠ want.bytes then .error "protected frame mac mismatch"
    else .ok (xorKeystream hmac ciphertext keys.enc seqNum)

variable {hmac}

/-! ## Opening what was sealed -/

@[simp] theorem xorKeystream_length (src : Bytes) (encKey : Octets 32) (seqNum : UInt32) :
    (xorKeystream hmac src encKey seqNum).length = src.length := xorBlocks_length 0 src

/-- The keystream twice gives the text back. -/
theorem xorKeystream_xorKeystream (src : Bytes) (encKey : Octets 32) (seqNum : UInt32) :
    xorKeystream hmac (xorKeystream hmac src encKey seqNum) encKey seqNum = src := xorBlocks_xorBlocks 0 src

/-- A payload with a whole MAC in front opens when the MAC is that of what follows. -/
theorem openProtected_append (msgTyp : UInt8) (seqNum : UInt32) (mac : Octets 32) (ciphertext : Bytes)
    (keys : SessionKeys) :
    openProtected hmac msgTyp seqNum (mac.bytes ++ ciphertext) keys =
      if mac.bytes ≠ (frameMAC hmac keys.mac msgTyp seqNum ciphertext).bytes then
        .error "protected frame mac mismatch"
      else .ok (xorKeystream hmac ciphertext keys.enc seqNum) := by
  have hl : ¬ (mac.bytes ++ ciphertext).length < protectedMACSz := by simp [protectedMACSz]
  have ht : (mac.bytes ++ ciphertext).take protectedMACSz = mac.bytes := List.take_left' mac.length_eq
  have hd : (mac.bytes ++ ciphertext).drop protectedMACSz = ciphertext := List.drop_left' mac.length_eq
  simp only [openProtected, if_neg hl, ht, hd]

/-- A payload opens to a text exactly when it is the sealing of that text. -/
theorem openProtected_eq_ok {msgTyp : UInt8} {seqNum : UInt32} {payload plain : Bytes} {keys : SessionKeys} :
    openProtected hmac msgTyp seqNum payload keys = .ok plain ↔
      payload = sealProtected hmac msgTyp seqNum plain keys := by
  constructor
  · intro h
    simp only [openProtected] at h
    split at h
    · cases h
    · split at h
      · cases h
      · rename_i hmac
        cases h
        rw [sealProtected, xorKeystream_xorKeystream, ← not_not.1 hmac, List.take_append_drop]
  · rintro rfl
    rw [sealProtected, openProtected_append, if_neg (not_not.2 rfl), xorKeystream_xorKeystream]

end Hmac

end KnIg.Backend
