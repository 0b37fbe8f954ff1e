/-
The decoding of the agents' messages: the reads of the payload's fields in order, with the server's
error texts, and which bytes each field is read from.
-/
import KnIg.Lib.Wire
import Mathlib

namespace KnIg.Backend

open Lib Lib.Reader

/-! ## Messages -/

def msgRegister : UInt8 := 1
def msgHeartbeat : UInt8 := 2
def msgFileEvent : UInt8 := 3

def maxProcessChainDepth : UInt8 := 16

/-- The header of a frame. -/
structure FrameHeader where
  length : UInt32
  type : UInt8
  seqNum : UInt32
deriving DecidableEq

structure RegisterMsg where
  hostname : Bytes
  ip : Bytes
  monitorType : UInt8
  os : Bytes
deriving DecidableEq

structure HeartbeatMsg where
  agentID : UInt64
  status : UInt8
  timestamp : UInt32
deriving DecidableEq

structure ProcessInfoMsg where
  pid : UInt32
  ppid : UInt32
  uid : UInt32
  euid : UInt32
  sid : UInt32
  startTimeNS : UInt64
  comm : Bytes
  tty : Bytes
  exe : Bytes
  cmdline : Bytes
deriving DecidableEq

structure ProcessChainMsg where
  depth : UInt8
  truncated : Bool
  entries : List ProcessInfoMsg
deriving DecidableEq

structure FileEventMsg where
  agentID : UInt64
  eventType : UInt8
  filePath : Bytes
  fileName : Bytes
  filePermission : UInt16
  detectedBy : UInt8
  pid : UInt32
  timestamp : UInt32
  targetDev : UInt64
  targetIno : UInt64
  blocked : Bool
  uid : UInt32
  sid : UInt32
  comm : Bytes
  chain : ProcessChainMsg
deriving DecidableEq

/-! ## Fields -/

abbrev BinReader := Reader String

def readU8 : BinReader UInt8 := do
  return UInt8.ofNat (← word 1 "버퍼 부족: u8")

def readU16 : BinReader UInt16 := do
  return UInt16.ofNat (← word 2 "버퍼 부족: u16")

def readU32 : BinReader UInt32 := do
  return UInt32.ofNat (← word 4 "버퍼 부족: u32")

def readU64 : BinReader UInt64 := do
  let b ← bytes 8 "버퍼 부족: u64"
  let hi := UInt32.ofNat (beNat (b.take 4))
  let lo := UInt32.ofNat (beNat (b.drop 4))
  return hi.toUInt64 <<< 32 ||| lo.toUInt64

def readStr : BinReader Bytes := do
  let length ← readU16
  bytes length.toNat ("버퍼 부족: string(len=" ++ toString length.toNat ++ ")")

/-- `fmt.Errorf("… 읽기 실패: %w", err)` around the read of a named field. -/
def named {α : Type} (field : String) (r : BinReader α) : BinReader α :=
  wrap (fun err => field ++ " 읽기 실패: " ++ err) r

/-! ## Decoding -/

def decodeRegister (data : Bytes) : Except String RegisterMsg :=
  let fields : BinReader RegisterMsg := do
    let hostname ← readStr
    let ipRaw ← readU32
    let monType ← readU8
    let osName ← readStr
    return ⟨hostname, beBytes 4 ipRaw.toNat, monType, osName⟩
  (fields data).map Prod.fst

def decodeHeartbeat (data : Bytes) : Except String HeartbeatMsg :=
  if data.length < 13 then .error ("HEARTBEAT 크기 부족: " ++ toString data.length)
  else
    let fields : BinReader HeartbeatMsg := do
      let agentID ← readU64
      let status ← readU8
      let timestamp ← readU32
      return ⟨agentID, status, timestamp⟩
    (fields data).map Prod.fst

def decodeProcessInfo : BinReader ProcessInfoMsg := do
  let pid ← readU32
  let ppid ← readU32
  let uid ← readU32
  let euid ← readU32
  let sid ← readU32
  let startTimeNS ← readU64
  let comm ← readStr
  let tty ← readStr
  let exe ← readStr
  let cmdline ← readStr
  return ⟨pid, ppid, uid, euid, sid, startTimeNS, comm, tty, exe, cmdline⟩

def decodeChainEntry (i : Nat) : BinReader ProcessInfoMsg :=
  wrap (fun err => "chain[" ++ toString i ++ "] 디코딩 실패: " ++ err) decodeProcessInfo

def decodeChain : BinReader ProcessChainMsg := do
  let chainDepth ← named "chain_depth" readU8
  if chainDepth > maxProcessChainDepth then
    throw ("chain_depth 초과: " ++ toString chainDepth.toNat ++ " > " ++ toString maxProcessChainDepth.toNat)
  else
    let chainTruncated ← named "chain_truncated" readU8
    let entries ← listFrom decodeChainEntry 0 chainDepth.toNat
    return ⟨chainDepth, chainTruncated != 0, entries⟩

def decodeFileEventFields : BinReader FileEventMsg := do
  let agentID ← readU64
  let evtType ← readU8
  let filePath ← readStr
  let fileName ← readStr
  let perm ← readU16
  let detectedBy ← readU8
  let pid ← readU32
  let timestamp ← readU32
  let targetDev ← named "target_dev" readU64
  let targetIno ← named "target_ino" readU64
  let blocked ← named "blocked" readU8
  let uid ← named "uid" readU32
  let sid ← named "sid" readU32
  let comm ← named "comm" readStr
  let chain ← decodeChain
  return ⟨agentID, evtType, filePath, fileName, perm, detectedBy, pid, timestamp, targetDev, targetIno,
    blocked != 0, uid, sid, comm, chain⟩

def decodeFileEvent (data : Bytes) : Except String FileEventMsg :=
  if data.length < 24 then .error ("FILE_EVENT 크기 부족: " ++ toString data.length)
  else
    match decodeFileEventFields data with
    | .error err => .error err
    | .ok (msg, rest) =>
      if rest.length ≠ 0 then .error ("FILE_EVENT payload trailing bytes: " ++ toString rest.length)
      else .ok msg

/-! ## Frames -/

def frameHeaderSize : Nat := 9
def maxFrameSize : Nat := 65535

/-- `io.ReadFull` of `n` bytes. -/
def readFull (n : Nat) : BinReader Bytes :=
  fun bs => if bs.length < n then .error (if bs = [] then "EOF" else "unexpected EOF") else .ok (bs.take n, bs.drop n)

/-- The header and the payload of the next frame. -/
def readFrame : BinReader (FrameHeader × Bytes) := do
  let hdrBuf ← wrap (fun err => "프레임 헤더 읽기 실패: " ++ err) (readFull frameHeaderSize)
  let hdr : FrameHeader :=
    ⟨UInt32.ofNat (beNat (hdrBuf.take 4)), hdrBuf.getD 4 0, UInt32.ofNat (beNat ((hdrBuf.drop 5).take 4))⟩
  if hdr.length.toNat > maxFrameSize then
    throw ("프레임 크기 초과: " ++ toString hdr.length.toNat ++ " > " ++ toString maxFrameSize)
  else if hdr.length > 0 then
    let payload ← wrap (fun err => "payload 읽기 실패: " ++ err) (readFull hdr.length.toNat)
    return (hdr, payload)
  else return (hdr, [])

/-! ## Encoding -/

def encodeRegisterResp (agentID : UInt64) : Bytes :=
  beBytes 4 (agentID >>> 32).toUInt32.toNat ++ beBytes 4 (agentID &&& 0xFFFFFFFF).toUInt32.toNat

/-! ## Which bytes a field is read from -/

theorem reads_readU8 (v : UInt8) : Reads readU8 [v] v := by
  have h := (reads_word (w := 1) v.toNat_lt "버퍼 부족: u8").last (f := UInt8.ofNat)
  simpa [beBytes, readU8] using h

theorem reads_readU16 (v : UInt16) : Reads readU16 (beBytes 2 v.toNat) v := by
  have h := (reads_word (w := 2) v.toNat_lt "버퍼 부족: u16").last (f := UInt16.ofNat)
  rw [UInt16.ofNat_toNat] at h
  exact h

theorem reads_readU32 (v : UInt32) : Reads readU32 (beBytes 4 v.toNat) v := by
  have h := (reads_word (w := 4) v.toNat_lt "버퍼 부족: u32").last (f := UInt32.ofNat)
  rw [UInt32.ofNat_toNat] at h
  exact h

/-- Two halves of 32 bits are read as one word. -/
theorem reads_readU64 (hi lo : UInt32) :
    Reads readU64 (beBytes 4 hi.toNat ++ beBytes 4 lo.toNat) (hi.toUInt64 <<< 32 ||| lo.toUInt64) := by
  have half : ∀ v : UInt32, UInt32.ofNat (beNat (beBytes 4 v.toNat)) = v := fun v => by
    rw [beNat_beBytes, Nat.mod_eq_of_lt (b := 256 ^ 4) v.toNat_lt, UInt32.ofNat_toNat]
  have h := (reads_bytes (beBytes 4 hi.toNat ++ beBytes 4 lo.toNat) "버퍼 부족: u64").last
    (f := fun b => (UInt32.ofNat (beNat (b.take 4))).toUInt64 <<< 32 |||
      (UInt32.ofNat (beNat (b.drop 4))).toUInt64)
  simp only [List.take_left' (beBytes_length 4 hi.toNat), List.drop_left' (beBytes_length 4 hi.toNat), half,
    List.length_append, beBytes_length] at h
  exact h

theorem reads_readStr {s : Bytes} (hs : s.length < 2 ^ 16) :
    Reads readStr (beBytes 2 s.length ++ s) s := by
  have hlen : (UInt16.ofNat s.length).toNat = s.length := UInt16.toNat_ofNat_of_lt' hs
  have hl := reads_readU16 (UInt16.ofNat s.length)
  rw [hlen] at hl
  refine hl.bind ?_
  rw [hlen]
  exact reads_bytes s _

theorem reads_named {α : Type} {r : BinReader α} {bs : Bytes} {a : α} (field : String) (hr : Reads r bs a) :
    Reads (named field r) bs a := hr.wrap _

theorem reads_readFull (bs : Bytes) : Reads (readFull bs.length) bs bs := by
  intro rest
  simp [readFull]

/-- A frame is read from its header, four bytes of length, its type and four of number, and its payload. -/
theorem reads_readFrame {length : UInt32} {payload : Bytes} (hlen : payload.length = length.toNat)
    (hmax : length.toNat ≤ maxFrameSize) (type : UInt8) (seqNum : UInt32) :
    Reads readFrame (beBytes 4 length.toNat ++ type :: beBytes 4 seqNum.toNat ++ payload)
      (⟨length, type, seqNum⟩, payload) := by
  have word : ∀ v : UInt32, UInt32.ofNat (beNat (beBytes 4 v.toNat)) = v := fun v => by
    rw [beNat_beBytes, Nat.mod_eq_of_lt (b := 256 ^ 4) v.toNat_lt, UInt32.ofNat_toNat]
  have hhdr := (reads_readFull (beBytes 4 length.toNat ++ type :: beBytes 4 seqNum.toNat)).wrap
    fun err => "프레임 헤더 읽기 실패: " ++ err
  have hsize : (beBytes 4 length.toNat ++ type :: beBytes 4 seqNum.toNat).length = frameHeaderSize := by
    simp [frameHeaderSize]
  rw [hsize] at hhdr
  refine hhdr.bind ?_
  have hseq : ((beBytes 4 length.toNat ++ type :: beBytes 4 seqNum.toNat).drop 5).take 4 = beBytes 4 seqNum.toNat := by
    rw [show (5 : Nat) = (beBytes 4 length.toNat).length + 1 by rw [beBytes_length], ← List.drop_drop,
      List.drop_left, List.drop_one, List.tail_cons, List.take_of_length_le (beBytes_length 4 _).le]
  have htype : (beBytes 4 length.toNat ++ type :: beBytes 4 seqNum.toNat).getD 4 0 = type := by
    simp [List.getD_eq_getElem?_getD]
  simp only [List.take_left' (beBytes_length 4 length.toNat), word, hseq, htype, if_neg (not_lt.2 hmax)]
  split
  · have hpay := (reads_readFull payload).wrap fun err => "payload 읽기 실패: " ++ err
    rw [hlen] at hpay
    exact hpay.last
  · next h0 =>
    have hnil : payload = [] := by
      rw [← List.length_eq_zero_iff, hlen]
      simpa [UInt32.lt_iff_toNat_lt] using h0
    rw [hnil]
    exact reads_pure _

/-- A heartbeat of at least thirteen bytes decodes: the errors of its fields, which the server ignores,
do not occur. -/
theorem decodeHeartbeat_isOk {data : Bytes} (h : 13 ≤ data.length) :
    ∃ msg, decodeHeartbeat data = .ok msg := by
  have h13 : ¬ data.length < 13 := by omega
  have h8 : ¬ data.length < 8 := by omega
  have h1 : ¬ data.length - 8 < 1 := by omega
  have h4 : ¬ data.length - 9 < 4 := by omega
  simp [decodeHeartbeat, readU64, readU8, readU32, word, Reader.bytes, bind, StateT.bind, Except.bind, pure,
    StateT.pure, Except.pure, Except.map, h13, h8, h1, h4]

end KnIg.Backend
