/-
`handleConn`, cut where it reads a frame: from the hello to the challenge, from the protected request to the
response, and the acknowledgement. The key vault and the answers of the store and of `Enroll` come from outside;
a decoder that is `none` has panicked.
-/
import KnIg.Backend.Enrollment.Messages

namespace KnIg.Backend

open Lib

/-- `frameHeaderSize` of this package. -/
def enrollFrameHeaderSize : Nat := 9

/-- `maxFrameSize` of this package. -/
def enrollMaxFrameSize : Nat := 65535

/-- A frame that `readFrame` returns or `writeFrame` writes, without its length. -/
structure EnrollFrame where
  msgTyp : UInt8
  seqNum : UInt32
  payload : Bytes

/-- What the session keys are derived from. -/
structure KeyMaterial where
  xorKey : Bytes
  enrollmentID : Bytes
  clientNonce : Bytes
  serverNonce : Bytes
deriving DecidableEq

/-- How the calls below `handleConn` end: the store's answer to the enrollment id, `rand.Read`, the writes to the
connection and the service's answer to the request. -/
structure ConnIo where
  row : Except StoreError Enrollment
  draws : Bool
  writes : Bool
  issued : Except StoreError Response

inductive ConnAt where
  /-- in `readFrame` for the hello -/
  | accepted
  /-- in `readFrame` for the request -/
  | challenged (material : KeyMaterial) (expectedAgentID : Bytes) (keys : SessionKeys)
  /-- in `readFrame` for the acknowledgement -/
  | responded (material : KeyMaterial) (keys : SessionKeys) (agentID : Bytes)
  | closed

/-- What a connection does that others can see; `material` are the local variables of those names. -/
inductive ConnDeed where
  | error (frame : EnrollFrame)
  | challenge (material : KeyMaterial) (frame : EnrollFrame)
  | enroll (material : KeyMaterial) (enrollmentID expectedAgentID : Bytes) (req : Request)
  | response (material : KeyMaterial) (resp : Response) (frame : EnrollFrame)
  | markUsed (material : KeyMaterial) (enrollmentID agentID : Bytes)

/-- `writeFrame`: the frame that goes out, be it cut short, and whether the call returns nil. -/
def writeFrame (writes : Bool) (msgTyp : UInt8) (seqNum : UInt32) (payload : Bytes) : Option EnrollFrame × Bool :=
  if payload.length + enrollFrameHeaderSize > enrollMaxFrameSize then (none, false)
  else (some ⟨msgTyp, seqNum, payload⟩, writes)

def encodeError (message : String) : Except String Bytes := writeString [] (ascii message)

/-- `writeError`, after which the connection closes. -/
def writeError (seqNum : UInt32) (message : String) : ConnAt × List ConnDeed :=
  match encodeError message with
  | .error _ => (.closed, [])
  | .ok payload => (.closed, ((writeFrame true msgXOREnrollError seqNum payload).1.map .error).toList)

section Hmac

variable (hmac : Bytes → Bytes → Octets 32)

def hashXORKey (enrollmentID xorKey pepper : Bytes) : Bytes :=
  (hmac pepper (enrollmentID ++ ascii ":" ++ xorKey)).bytes.flatMap hexByte

/-- From the frame of the hello to that of the challenge. -/
def serveHello (decrypt : Bytes → Bytes → Option Bytes) (pepper : Bytes) (serverNonce : Octets 32) (io : ConnIo)
    (frame : Option EnrollFrame) : ConnAt × List ConnDeed :=
  match frame with
  | none => (.closed, [])
  | some hdr =>
    if hdr.msgTyp ≠ msgXORHello then writeError hdr.seqNum "unexpected enrollment message type"
    else
      match decodeHello hdr.payload with
      | none => (.closed, [])
      | some (.error _) => writeError hdr.seqNum "invalid enrollment hello"
      | some (.ok hello) =>
        match io.row with
        | .error _ => writeError hdr.seqNum "enrollment failed"
        | .ok row =>
          match decrypt row.keyCiphertext row.keyNonce with
          | none => writeError hdr.seqNum "enrollment failed"
          | some xorKey =>
            if row.secretHash ≠ hashXORKey hmac hello.enrollmentID xorKey pepper then
              writeError hdr.seqNum "enrollment failed"
            else if !io.draws then writeError hdr.seqNum "nonce generation failed"
            else
              match deriveSessionKeys hmac xorKey hello.enrollmentID hello.clientNonce serverNonce.bytes with
              | .error _ => writeError hdr.seqNum "session key derivation failed"
              | .ok keys =>
                let proof := serverProof hmac keys hello.enrollmentID hello.clientNonce serverNonce.bytes
                match encodeChallenge ⟨serverNonce.bytes, proof.bytes⟩ with
                | .error _ => writeError hdr.seqNum "challenge encode failed"
                | .ok chPayload =>
                  let material := ⟨xorKey, hello.enrollmentID, hello.clientNonce, serverNonce.bytes⟩
                  match writeFrame io.writes msgXORChallenge (hdr.seqNum + 1) chPayload with
                  | (none, _) => (.closed, [])
                  | (some frame, sent) =>
                    (if sent then .challenged material row.agentID keys else .closed, [.challenge material frame])

/-- The request that a frame holds, or what is done where it holds none. -/
def openRequest (keys : SessionKeys) (frame : Option EnrollFrame) :
    Except (ConnAt × List ConnDeed) (UInt32 × Request) :=
  match frame with
  | none => .error (.closed, [])
  | some reqHdr =>
    if reqHdr.msgTyp ≠ msgXOREnrollRequest then
      .error (writeError reqHdr.seqNum "unexpected protected request type")
    else
      match openProtected hmac reqHdr.msgTyp reqHdr.seqNum reqHdr.payload keys with
      | .error _ => .error (writeError reqHdr.seqNum "invalid protected request")
      | .ok reqPlain =>
        match decodeRequest reqPlain with
        | none => .error (.closed, [])
        | some (.error _) => .error (writeError reqHdr.seqNum "invalid enrollment request")
        | some (.ok req) => .ok (reqHdr.seqNum, req)

/-- What follows an `Enroll` that returned. -/
def sendResponse (material : KeyMaterial) (keys : SessionKeys) (seqNum : UInt32) (io : ConnIo) :
    ConnAt × List ConnDeed :=
  match io.issued with
  | .error _ => writeError seqNum "enrollment failed"
  | .ok resp =>
    match encodeResponse resp with
    | .error _ => writeError seqNum "response encode failed"
    | .ok respPlain =>
      let protectedResp := sealProtected hmac msgXOREnrollResponse (seqNum + 1) respPlain keys
      match writeFrame io.writes msgXOREnrollResponse (seqNum + 1) protectedResp with
      | (none, _) => (.closed, [])
      | (some frame, sent) =>
        (if sent then .responded material keys resp.agentID else .closed, [.response material resp frame])

/-- From the frame of the request to that of the response. -/
def serveRequest (material : KeyMaterial) (expectedAgentID : Bytes) (keys : SessionKeys) (io : ConnIo)
    (frame : Option EnrollFrame) : ConnAt × List ConnDeed :=
  match openRequest hmac keys frame with
  | .error r => r
  | .ok (seqNum, req) =>
    let (p, deeds) := sendResponse hmac material keys seqNum io
    (p, .enroll material material.enrollmentID expectedAgentID req :: deeds)

/-- The frame of the acknowledgement; any other one ends the connection as well. -/
def serveAck (material : KeyMaterial) (keys : SessionKeys) (agentID : Bytes) (frame : Option EnrollFrame) :
    ConnAt × List ConnDeed :=
  match frame with
  | none => (.closed, [])
  | some ackHdr =>
    if ackHdr.msgTyp ≠ msgXOREnrollAck then (.closed, [])
    else
      match openProtected hmac ackHdr.msgTyp ackHdr.seqNum ackHdr.payload keys with
      | .error _ => (.closed, [])
      | .ok _ => (.closed, [.markUsed material material.enrollmentID agentID])

/-- What a connection does next, given the frame that it reads. -/
def handleConn (decrypt : Bytes → Bytes → Option Bytes) (pepper : Bytes) (serverNonce : Octets 32) (p : ConnAt)
    (io : ConnIo) (frame : Option EnrollFrame) : ConnAt × List ConnDeed :=
  match p with
  | .accepted => serveHello hmac decrypt pepper serverNonce io frame
  | .challenged material expectedAgentID keys => serveRequest hmac material expectedAgentID keys io frame
  | .responded material keys agentID => serveAck hmac material keys agentID frame
  | .closed => (.closed, [])

end Hmac

end KnIg.Backend
