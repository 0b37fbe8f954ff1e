/-
The agent's side of the wire: how an event becomes the payload of a FILE_EVENT frame. A buffer under
encoding is the bytes written from its start; the writes never pass its end, whatever the message.
-/
import KnIg.Agent.Event

namespace KnIg.Agent

open Lib

/-! ## Writes -/

def writeU8 (p : Bytes) (v : UInt8) : Bytes := p ++ [v]

def writeU16 (p : Bytes) (v : UInt16) : Bytes := p ++ beBytes 2 v.toNat

def writeU32 (p : Bytes) (v : UInt32) : Bytes := p ++ beBytes 4 v.toNat

def writeU64 (p : Bytes) (v : UInt64) : Bytes :=
  let hi := (v >>> 32).toUInt32
  let lo := (v &&& 0xFFFFFFFF).toUInt32
  p ++ beBytes 4 hi.toNat ++ beBytes 4 lo.toNat

def writeStr (p s : Bytes) (len : UInt16) : Bytes :=
  let p := writeU16 p len
  if len > 0 then p ++ s.take len.toNat else p

/-- `strnlen` of a whole array. -/
def CharArr.strnlen {n : Nat} (a : CharArr n) : Nat := a.str.length

/-- A pointer difference cast to `size_t`. -/
def sizeT (z : Int) : Nat := (z % 2 ^ 64).toNat

/-! ## Messages -/

/-- `ig_msg_file_event_t`. -/
structure IgMsgFileEvent where
  agentId : UInt64
  eventType : UInt8
  filePathLen : UInt16
  filePath : Bytes
  fileNameLen : UInt16
  fileName : Bytes
  filePermission : UInt16
  detectedBy : UInt8
  pid : UInt32
  timestamp : UInt32
  targetDev : UInt64
  targetIno : UInt64
  blocked : UInt8
  uid : UInt32
  sid : UInt32
  commLen : UInt16
  comm : Bytes
  chain : Option PidChain

/-- What an encoder leaves: its result and the bytes it wrote from the start of the buffer. -/
structure Encoded where
  ret : Int
  buf : Bytes

namespace Encoded

/-- `return (int)(p - buf)`. -/
def ok (p : Bytes) : Encoded := ⟨p.length, p⟩

/-- `return -1` after writing `p`. -/
def error (p : Bytes) : Encoded := ⟨-1, p⟩

end Encoded

/-! ## Encoding -/

/-- One ancestry entry; `none` where the room left is too small for it. -/
def chainEntryEncode (e : ProcInfo) (p : Bytes) (bufSize : Nat) : Option Bytes :=
  let commL := e.comm.strnlen
  let ttyL := e.tty.strnlen
  let exeL := e.exe.strnlen
  let cmdL := e.cmdline.strnlen
  let need := 28 + 8 + commL + ttyL + exeL + cmdL
  if sizeT (bufSize - p.length) < need then none
  else
    let p := writeU32 p e.pid.toUInt32
    let p := writeU32 p e.ppid.toUInt32
    let p := writeU32 p e.uid
    let p := writeU32 p e.euid
    let p := writeU32 p e.sid.toUInt32
    let p := writeU64 p e.startTimeNs
    let p := writeStr p e.comm.bytes (UInt16.ofNat commL)
    let p := writeStr p e.tty.bytes (UInt16.ofNat ttyL)
    let p := writeStr p e.exe.bytes (UInt16.ofNat exeL)
    let p := writeStr p e.cmdline.bytes (UInt16.ofNat cmdL)
    some p

def chainEncode (bufSize : Nat) : List ProcInfo → Bytes → Encoded
  | [], p => .ok p
  | e :: es, p =>
    match chainEntryEncode e p bufSize with
    | none => .error p
    | some p => chainEncode bufSize es p

/-- The depth as clamped and cast to a byte. -/
def wireDepth (chain : Option PidChain) : UInt8 :=
  match chain with
  | none => 0
  | some c => (if c.depth > Int32.ofNat igPaMaxDepth then Int32.ofNat igPaMaxDepth else c.depth).toUInt32.toUInt8

def wireTrunc (chain : Option PidChain) : UInt8 :=
  match chain with
  | none => 0
  | some c => if c.truncated ≠ 0 then 1 else 0

/-- The first entries of a chain, at most as many as it has room for. -/
def PidChain.first (c : PidChain) (depth : Nat) : List ProcInfo :=
  ((List.finRange igPaMaxDepth).take depth).map c.chain

/-- The bytes that the fields before the entries need. -/
def need (msg : IgMsgFileEvent) : Nat :=
  let needBase := 8 + 1 + 2 + msg.filePathLen.toNat + 2 + msg.fileNameLen.toNat + 2 + 1 + 4 + 4
  let needActor := 8 + 8 + 1 + 4 + 4 + 2 + msg.commLen.toNat
  let needChainMeta := 1 + 1
  needBase + needActor + needChainMeta

/-- The fields before the entries. -/
def writeFields (msg : IgMsgFileEvent) : Bytes :=
  let p := writeU64 [] msg.agentId
  let p := writeU8 p msg.eventType
  let p := writeStr p msg.filePath msg.filePathLen
  let p := writeStr p msg.fileName msg.fileNameLen
  let p := writeU16 p msg.filePermission
  let p := writeU8 p msg.detectedBy
  let p := writeU32 p msg.pid
  let p := writeU32 p msg.timestamp
  let p := writeU64 p msg.targetDev
  let p := writeU64 p msg.targetIno
  let p := writeU8 p msg.blocked
  let p := writeU32 p msg.uid
  let p := writeU32 p msg.sid
  let p := writeStr p msg.comm msg.commLen
  let p := writeU8 p (wireDepth msg.chain)
  writeU8 p (wireTrunc msg.chain)

def igFileEventEncode (msg : IgMsgFileEvent) (bufSize : Nat) : Encoded :=
  if need msg > bufSize then .error []
  else
    let p := writeFields msg
    match msg.chain with
    | none => .ok p
    | some c => chainEncode bufSize (c.first (wireDepth msg.chain).toNat) p

/-! ## Events -/

def igMaxPayload : Nat := 65535 - 9

def igEvtCreate : UInt8 := 1
def igEvtModify : UInt8 := 2
def igEvtDelete : UInt8 := 3
def igEvtAttrib : UInt8 := 4
def igEvtMove : UInt8 := 5

def mapEventType : EventType → UInt8
  | .create => igEvtCreate
  | .modify => igEvtModify
  | .delete => igEvtDelete
  | .attrib => igEvtAttrib
  | .move => igEvtMove
  | _ => igEvtModify

def igMonLkm : UInt8 := 2
def igMonEbpf : UInt8 := 3
def igMonFanotify : UInt8 := 4

def mapSource : EventSource → UInt8
  | .ebpf => igMonEbpf
  | .lkm => igMonLkm
  | .fanotify => igMonFanotify
  | _ => 0

/-- The message `ig_tcp_send_event` fills in for an event. -/
def eventMsg (agentId : UInt64) (ev : IgEvent) : IgMsgFileEvent where
  agentId := agentId
  eventType := mapEventType ev.type
  filePathLen := UInt16.ofNat ev.path.str.length
  filePath := ev.path.str.bytes
  fileNameLen := UInt16.ofNat ev.filename.str.length
  fileName := ev.filename.str.bytes
  filePermission := 0
  detectedBy := mapSource ev.source
  pid := ev.pid.toUInt32
  timestamp := ev.timestamp.toUInt64.toUInt32
  targetDev := ev.dev
  targetIno := ev.ino
  blocked := if ev.blocked ≠ 0 then 1 else 0
  uid := ev.uid
  sid := ev.sid.toUInt32
  commLen := UInt16.ofNat ev.comm.strnlen
  comm := ev.comm.bytes
  chain := some ev.chain

inductive SendEvent where
  /-- `return -1` -/
  | failed
  /-- `return 0`: an event of an unsupported source -/
  | skipped
  /-- `ig_tcp_send_frame` of a FILE_EVENT with this payload -/
  | frame (payload : Bytes)

/-- `ig_tcp_send_event` up to the frame it sends. -/
def igTcpSendEvent (connected : Bool) (agentId : UInt64) (ev : IgEvent) : SendEvent :=
  if connected = false then .failed
  else
    let msg := eventMsg agentId ev
    if msg.detectedBy = 0 then .skipped
    else
      let e := igFileEventEncode msg igMaxPayload
      if e.ret < 0 then .failed
      else .frame (e.buf.take e.ret.toNat)

/-! ## The end of the buffer -/

theorem writeStr_eq (p s : Bytes) (len : UInt16) :
    writeStr p s len = p ++ (beBytes 2 len.toNat ++ s.take len.toNat) := by
  unfold writeStr writeU16
  split
  · rw [List.append_assoc]
  · next h =>
    have h0 : len.toNat = 0 := by
      simpa [UInt16.lt_iff_toNat_lt] using h
    simp [h0]

theorem CharArr.strnlen_le {n : Nat} (a : CharArr n) : a.strnlen ≤ n :=
  (List.takeWhile_prefix _).length_le.trans_eq a.size

theorem sizeT_sub {p size : Nat} (hp : p ≤ size) (hs : size < 2 ^ 64) : sizeT (size - p) = size - p := by
  unfold sizeT
  omega

/-- The fields before the entries take no more bytes than the size check asks for. -/
theorem length_writeFields_le (msg : IgMsgFileEvent) : (writeFields msg).length ≤ need msg := by
  simp only [writeFields, writeU8, writeU16, writeU32, writeU64, writeStr_eq, need, List.length_append,
    beBytes_length, List.length_take, List.length_cons, List.length_nil]
  omega

/-- An entry that was written was given room. -/
theorem chainEntryEncode_within {e : ProcInfo} {p p' : Bytes} {bufSize : Nat} (hp : p.length ≤ bufSize)
    (hs : bufSize < 2 ^ 64) (h : chainEntryEncode e p bufSize = some p') : p'.length ≤ bufSize := by
  have hc := e.comm.strnlen_le
  have ht := e.tty.strnlen_le
  have hx := e.exe.strnlen_le
  have hl := e.cmdline.strnlen_le
  simp only [chainEntryEncode, sizeT_sub hp hs] at h
  split at h
  · cases h
  · next hroom =>
    cases h
    simp only [writeU32, writeU64, writeStr_eq, List.length_append, beBytes_length, List.length_take,
      UInt16.toNat_ofNat']
    omega

theorem chainEncode_within {bufSize : Nat} (hs : bufSize < 2 ^ 64) (es : List ProcInfo) (p : Bytes)
    (hp : p.length ≤ bufSize) : (chainEncode bufSize es p).buf.length ≤ bufSize := by
  induction es generalizing p with
  | nil => exact hp
  | cons e es ih =>
    unfold chainEncode
    split
    · exact hp
    · next p' h => exact ih p' (chainEntryEncode_within hp hs h)

/-- No message makes the encoder write past the end of its buffer. -/
theorem igFileEventEncode_within (msg : IgMsgFileEvent) {bufSize : Nat} (hs : bufSize < 2 ^ 64) :
    (igFileEventEncode msg bufSize).buf.length ≤ bufSize := by
  unfold igFileEventEncode
  split
  · exact Nat.zero_le _
  · next hneed =>
    have hp : (writeFields msg).length ≤ bufSize := (length_writeFields_le msg).trans (by omega)
    simp only
    split
    · exact hp
    · exact chainEncode_within hs _ _ hp

end KnIg.Agent
