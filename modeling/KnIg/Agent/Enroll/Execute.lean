/-
`ig_enroll_execute`, cut where it waits for a frame: the hello, the answer to a challenge, and what is done
with a response. `none` is `goto done` before `ret` was set to 0.
-/
import KnIg.Agent.Enroll.Crypto
import KnIg.Agent.Enroll.Messages

namespace KnIg.Agent

open Lib

/-- `IG_ENROLL_FRAME_HEADER_SIZE`. -/
def igEnrollFrameHeaderSize : Nat := 9

/-- One call of `ig_enroll_execute`: what it is configured with, and the nonce that `RAND_bytes` gives it. -/
structure EnrollCall where
  enrollmentId : CStr
  xorKey : CStr
  cfg : IgEnrollConfig
  clientNonce : Octets 32

/-- The files that a response is written to, in the order of the writes. -/
inductive CertFile where
  | ca
  | crt
  | key
deriving DecidableEq

def CertFile.contents (resp : IgEnrollResponse) : CertFile → CStr
  | ca => resp.caCertPem
  | crt => resp.agentCertPem
  | key => resp.agentKeyPem

/-- How the calls below `ig_enroll_execute` end, the `calloc`s by their number. -/
structure EnrollIo where
  draws : Bool
  connects : Bool
  calloc : Nat → Bool
  sends : Bool
  writes : CertFile → Bool

inductive EnrollAt where
  | start
  /-- in `read_frame` for the challenge -/
  | helloSent
  /-- in `read_frame` for the response -/
  | requestSent (serverNonce : Octets 32) (session : IgXorSession)
  | returned (ret : Int)

/-- What a call does that others can see; `serverNonce` is the local variable of that name. -/
inductive EnrollDeed where
  | hello (frame : IgFrame)
  | request (serverNonce : Octets 32) (frame : IgFrame)
  | writeFile (serverNonce : Octets 32) (file : CertFile) (contents : CStr)
  | ack (serverNonce : Octets 32) (frame : IgFrame)

/-- `send_frame`: the frame that goes out, be it cut short, and whether the call returns 0. -/
def sendFrame (sends : Bool) (msgType : UInt8) (seq : UInt32) (payload : Bytes) : Option IgFrame × Bool :=
  if payload.length + igEnrollFrameHeaderSize > igEnrollMaxFrameSize then (none, false)
  else (some ⟨msgType, seq, payload⟩, sends)

/-- Up to the frame of the hello. -/
def enrollHello (call : EnrollCall) (io : EnrollIo) : EnrollAt × List EnrollDeed :=
  if !io.draws then (.returned (-1), [])
  else
    match encodeHello (io.calloc 0) call.enrollmentId call.clientNonce with
    | none => (.returned (-1), [])
    | some hello =>
      if !io.connects then (.returned (-1), [])
      else
        match sendFrame io.sends igMsgXorHello 1 hello with
        | (none, _) => (.returned (-1), [])
        | (some frame, sent) => (if sent then .helloSent else .returned (-1), [.hello frame])

/-- The calls of `write_text_file`, up to the first one that fails. -/
def writeTextFiles (writes : CertFile → Bool) : List CertFile → List CertFile × Bool
  | [] => ([], true)
  | file :: files =>
    if writes file then
      let (tried, ok) := writeTextFiles writes files
      (file :: tried, ok)
    else ([file], false)

section Hmac

variable (hmac : Bytes → Bytes → Octets 32)

/-- The nonce of a challenge, the session that it opens, and the protected request. -/
def acceptChallenge (call : EnrollCall) (io : EnrollIo) (frame : Option IgFrame) :
    Option (Octets 32 × IgXorSession × Bytes) :=
  match frame with
  | none => none
  | some frame =>
    if frame.type = igMsgXorEnrollError then none
    else
      match decodeChallenge (io.calloc 1) (io.calloc 2) frame with
      | none => none
      | some (.error _) => none
      | some (.ok (serverNonce, receivedProof)) => do
        let session ← deriveSession hmac (io.calloc 3) call.xorKey call.enrollmentId call.clientNonce serverNonce
        let expectedProof ← serverProof hmac (io.calloc 4) session call.enrollmentId call.clientNonce serverNonce
        if expectedProof ≠ receivedProof then none
        else
          let reqPlain ← encodeRequestPlain (io.calloc 5) call.cfg
          let (reqProtected, _) ←
            protectPayload hmac (io.calloc 6) (io.calloc 7) session igMsgXorEnrollRequest 3 reqPlain
          some (serverNonce, session, reqProtected)

/-- From the frame of the challenge to that of the request. -/
def enrollRequest (call : EnrollCall) (io : EnrollIo) (frame : Option IgFrame) : EnrollAt × List EnrollDeed :=
  match acceptChallenge hmac call io frame with
  | none => (.returned (-1), [])
  | some (serverNonce, session, reqProtected) =>
    match sendFrame io.sends igMsgXorEnrollRequest 3 reqProtected with
    | (none, _) => (.returned (-1), [])
    | (some frame, sent) =>
      (if sent then .requestSent serverNonce session else .returned (-1), [.request serverNonce frame])

/-- The response that a frame holds. -/
def openResponse (io : EnrollIo) (session : IgXorSession) (frame : Option IgFrame) : Option IgEnrollResponse :=
  match frame with
  | none => none
  | some frame =>
    if frame.type = igMsgXorEnrollError then none
    else if frame.type ≠ igMsgXorEnrollResponse then none
    else
      match openProtectedPayload hmac (io.calloc 0) (io.calloc 1) session frame.type frame.seq frame.payload with
      | none => none
      | some (respPlain, _) =>
        match decodeResponsePlain (fun k => io.calloc (2 + k)) respPlain with
        | some (.ok resp) => some resp
        | _ => none

/-- From the frame of the response to the end; the acknowledgement may fail without a word. -/
def enrollFinish (io : EnrollIo) (serverNonce : Octets 32) (session : IgXorSession) (frame : Option IgFrame) :
    EnrollAt × List EnrollDeed :=
  match openResponse hmac io session frame with
  | none => (.returned (-1), [])
  | some resp =>
    let (tried, ok) := writeTextFiles io.writes [.ca, .crt, .key]
    let written := tried.map fun file => .writeFile serverNonce file (file.contents resp)
    if !ok then (.returned (-1), written)
    else
      match protectPayload hmac (io.calloc 6) (io.calloc 7) session igMsgXorEnrollAck 5 [] with
      | none => (.returned 0, written)
      | some (ackProtected, _) =>
        match sendFrame io.sends igMsgXorEnrollAck 5 ackProtected with
        | (none, _) => (.returned 0, written)
        | (some frame, _) => (.returned 0, written ++ [.ack serverNonce frame])

/-- What a call does next, given the frame that it reads where it reads one. -/
def igEnrollExecute (call : EnrollCall) (p : EnrollAt) (io : EnrollIo) (frame : Option IgFrame) :
    EnrollAt × List EnrollDeed :=
  match p with
  | .start => enrollHello call io
  | .helloSent => enrollRequest hmac call io frame
  | .requestSent serverNonce session => enrollFinish hmac io serverNonce session frame
  | .returned ret => (.returned ret, [])

end Hmac

end KnIg.Agent
