/-
The agent's side of the protected enrollment channel: the session keys from the shared key and the two
nonces, and the payloads sealed and opened with them. HMAC-SHA256 is a keyed function into 32 bytes;
`none` is a function's `-1`, which here only a failed `calloc` or a length check gives.
-/
import KnIg.Lib.Keystream

namespace KnIg.Agent

open Lib

/-- `IG_ENROLL_MAX_FRAME_SIZE`. -/
def igEnrollMaxFrameSize : Nat := 65535

/-- `IG_XOR_MAC_SIZE`. -/
def igXorMacSize : Nat := 32

/-- `ig_xor_session_t`. -/
structure IgXorSession where
  session : Octets 32
  enc : Octets 32
  mac : Octets 32
deriving DecidableEq

/-- The buffer that `derive_session` and `server_proof` fill: the label, the id and the nonces at their
offsets, the zero bytes between them left by `calloc`. -/
def labelledData (label : Bytes) (enrollmentId : CStr) (clientNonce serverNonce : Octets 32) : Bytes :=
  let idLen := enrollmentId.length
  let labelLen := label.length
  let data := zeroed (labelLen + 1 + idLen + 1 + 32 + 32)
  let p := 0
  let data := memcpy data p label
  let p := p + (labelLen + 1)
  let data := memcpy data p enrollmentId.bytes
  let p := p + (idLen + 1)
  let data := memcpy data p clientNonce.bytes
  let p := p + 32
  memcpy data p serverNonce.bytes

section Hmac

variable (hmac : Bytes → Bytes → Octets 32)

def deriveSession (calloc : Bool) (xorKey enrollmentId : CStr) (clientNonce serverNonce : Octets 32) :
    Option IgXorSession :=
  if !calloc then none
  else
    let data := labelledData (ascii "knig enrollment v2 session") enrollmentId clientNonce serverNonce
    let session := hmac xorKey.bytes data
    some
      { session
        enc := hmac session.bytes (ascii "knig enrollment enc")
        mac := hmac session.bytes (ascii "knig enrollment mac") }

def serverProof (calloc : Bool) (session : IgXorSession) (enrollmentId : CStr)
    (clientNonce serverNonce : Octets 32) : Option (Octets 32) :=
  if !calloc then none
  else
    let data := labelledData (ascii "knig enrollment server proof") enrollmentId clientNonce serverNonce
    some (hmac session.mac.bytes data)

def frameMac (calloc : Bool) (session : IgXorSession) (msgType : UInt8) (seq : UInt32) (ciphertext : Bytes) :
    Option (Octets 32) :=
  if !calloc then none
  else
    let data := zeroed (1 + 4 + ciphertext.length)
    let data := memcpy data 0 [msgType]
    let data := memcpy data 1 (beBytes 4 seq.toNat)
    let data := if ciphertext.length > 0 then memcpy data 5 ciphertext else data
    some (hmac session.mac.bytes data)

/-- The counter is a `size_t` cast to 32 bits for the block it names. -/
def xorCrypt (session : IgXorSession) (seq : UInt32) (src : Bytes) : Bytes :=
  let block (counter : UInt64) : Octets 32 :=
    let input := memcpy (zeroed 8) 0 (beBytes 4 seq.toNat)
    let input := memcpy input 4 (beBytes 4 counter.toUInt32.toNat)
    hmac session.enc.bytes input
  xorBlocks (· + 1) block 0 src

/-- A payload is the MAC over the ciphertext behind it; `out_len` comes with it. -/
def protectPayload (callocBuf callocData : Bool) (session : IgXorSession) (msgType : UInt8) (seq : UInt32)
    (plain : Bytes) : Option (Bytes × UInt32) :=
  if plain.length + igXorMacSize > igEnrollMaxFrameSize then none
  else if !callocBuf then none
  else
    let buf := zeroed (igXorMacSize + plain.length)
    let ciphertext := xorCrypt hmac session seq plain
    let buf := memcpy buf igXorMacSize ciphertext
    match frameMac hmac callocData session msgType seq ciphertext with
    | none => none
    | some mac => some (memcpy buf 0 mac.bytes, UInt32.ofNat (igXorMacSize + plain.length))

def openProtectedPayload (callocData callocPlain : Bool) (session : IgXorSession) (msgType : UInt8) (seq : UInt32)
    (payload : Bytes) : Option (Bytes × UInt32) :=
  if payload.length < igXorMacSize then none
  else
    let gotMac := payload.take igXorMacSize
    let ciphertext := payload.drop igXorMacSize
    match frameMac hmac callocData session msgType seq ciphertext with
    | none => none
    | some wantMac =>
      if gotMac ≠ wantMac.bytes then none
      else if !callocPlain then none
      else some (xorCrypt hmac session seq ciphertext, UInt32.ofNat ciphertext.length)

end Hmac

end KnIg.Agent
