/-
FILE_EVENT payloads on both sides of the wire. The layout is stated once, on the server's message; the
agent's encoder writes it for the message an event stands for, the server's decoder reads it back,
and what arrives is the event except for the seconds above 32 bits.
-/
import Mathlib.Data.List.Forall2
import KnIg.Agent.Transport
import KnIg.Backend.Collector.Protocol

namespace KnIg.FileEvent

open Lib Lib.Reader Agent Backend

/-! ## The layout -/

def wireU64 (v : UInt64) : Bytes :=
  beBytes 4 (v >>> 32).toUInt32.toNat ++ beBytes 4 (v &&& 0xFFFFFFFF).toUInt32.toNat

def wireStr (s : Bytes) : Bytes := beBytes 2 s.length ++ s

def wireBool (b : Bool) : UInt8 := if b then 1 else 0

def entryWire (e : ProcessInfoMsg) : Bytes :=
  beBytes 4 e.pid.toNat ++ (beBytes 4 e.ppid.toNat ++ (beBytes 4 e.uid.toNat ++ (beBytes 4 e.euid.toNat ++
    (beBytes 4 e.sid.toNat ++ (wireU64 e.startTimeNS ++ (wireStr e.comm ++ (wireStr e.tty ++
      (wireStr e.exe ++ wireStr e.cmdline))))))))

def fieldsWire (m : FileEventMsg) : Bytes :=
  wireU64 m.agentID ++ ([m.eventType] ++ (wireStr m.filePath ++ (wireStr m.fileName ++
    (beBytes 2 m.filePermission.toNat ++ ([m.detectedBy] ++ (beBytes 4 m.pid.toNat ++
      (beBytes 4 m.timestamp.toNat ++ (wireU64 m.targetDev ++ (wireU64 m.targetIno ++
        ([wireBool m.blocked] ++ (beBytes 4 m.uid.toNat ++ (beBytes 4 m.sid.toNat ++ (wireStr m.comm ++
          ([m.chain.depth] ++ [wireBool m.chain.truncated]))))))))))))))

def wire (m : FileEventMsg) : Bytes := fieldsWire m ++ m.chain.entries.flatMap entryWire

/-- The layout with any two bytes for the flags. -/
def wireWith (m : FileEventMsg) (blocked truncated : UInt8) : Bytes :=
  wireU64 m.agentID ++ ([m.eventType] ++ (wireStr m.filePath ++ (wireStr m.fileName ++
    (beBytes 2 m.filePermission.toNat ++ ([m.detectedBy] ++ (beBytes 4 m.pid.toNat ++
      (beBytes 4 m.timestamp.toNat ++ (wireU64 m.targetDev ++ (wireU64 m.targetIno ++
        ([blocked] ++ (beBytes 4 m.uid.toNat ++ (beBytes 4 m.sid.toNat ++ (wireStr m.comm ++
          ([m.chain.depth] ++ ([truncated] ++ m.chain.entries.flatMap entryWire)))))))))))))))

theorem wire_eq (m : FileEventMsg) : wire m = wireWith m (wireBool m.blocked) (wireBool m.chain.truncated) := by
  simp only [wire, fieldsWire, wireWith, List.append_assoc]

/-- The strings of an entry fit their length prefixes. -/
structure EntryFits (e : ProcessInfoMsg) : Prop where
  comm : e.comm.length < 2 ^ 16
  tty : e.tty.length < 2 ^ 16
  exe : e.exe.length < 2 ^ 16
  cmdline : e.cmdline.length < 2 ^ 16

/-- The strings fit their length prefixes and the depth counts the entries, sixteen at most. -/
structure Fits (m : FileEventMsg) : Prop where
  filePath : m.filePath.length < 2 ^ 16
  fileName : m.fileName.length < 2 ^ 16
  comm : m.comm.length < 2 ^ 16
  depth : m.chain.entries.length = m.chain.depth.toNat
  depth_le : m.chain.depth.toNat ≤ 16
  entries : ∀ e ∈ m.chain.entries, EntryFits e

/-! ## The server reads it -/

theorem reads_u64 (v : UInt64) : Reads readU64 (wireU64 v) v := by
  have h := reads_readU64 (v >>> 32).toUInt32 (v &&& 0xFFFFFFFF).toUInt32
  rw [u64_halves] at h
  exact h

theorem reads_processInfo {e : ProcessInfoMsg} (h : EntryFits e) :
    Reads decodeProcessInfo (entryWire e) e :=
  (reads_readU32 e.pid).bind <| (reads_readU32 e.ppid).bind <| (reads_readU32 e.uid).bind <|
    (reads_readU32 e.euid).bind <| (reads_readU32 e.sid).bind <| (reads_u64 e.startTimeNS).bind <|
    (reads_readStr h.comm).bind <| (reads_readStr h.tty).bind <| (reads_readStr h.exe).bind <|
    (reads_readStr h.cmdline).last

theorem wireBool_ne_zero (b : Bool) : (wireBool b != 0) = b := by
  cases b <;> rfl

theorem reads_chain {c : ProcessChainMsg} {truncated : UInt8} (htrunc : c.truncated = (truncated != 0))
    (hdepth : c.entries.length = c.depth.toNat) (hle : c.depth.toNat ≤ 16) (hfits : ∀ e ∈ c.entries, EntryFits e) :
    Reads decodeChain ([c.depth] ++ ([truncated] ++ c.entries.flatMap entryWire)) c := by
  refine (reads_named "chain_depth" (reads_readU8 c.depth)).bind ?_
  have hmax : ¬ c.depth > maxProcessChainDepth := by
    rw [gt_iff_lt, UInt8.lt_iff_toNat_lt, not_lt]
    exact hle
  rw [if_neg hmax]
  refine (reads_named "chain_truncated" (reads_readU8 truncated)).bind ?_
  rw [← hdepth, ← htrunc]
  have hes : ∀ e ∈ c.entries, ∀ i, Reads (decodeChainEntry i) (entryWire e) e :=
    fun e he i => (reads_processInfo (hfits e he)).wrap _
  exact (reads_listFrom hes 0).last

theorem reads_fields {m : FileEventMsg} (h : Fits m) {blocked truncated : UInt8} (hblocked : m.blocked = (blocked != 0))
    (htrunc : m.chain.truncated = (truncated != 0)) :
    Reads decodeFileEventFields (wireWith m blocked truncated) m := by
  have hchain := reads_chain htrunc h.depth h.depth_le h.entries
  refine (reads_u64 m.agentID).bind <| (reads_readU8 m.eventType).bind <| (reads_readStr h.filePath).bind <|
    (reads_readStr h.fileName).bind <| (reads_readU16 m.filePermission).bind <|
    (reads_readU8 m.detectedBy).bind <| (reads_readU32 m.pid).bind <| (reads_readU32 m.timestamp).bind <|
    (reads_named _ (reads_u64 m.targetDev)).bind <| (reads_named _ (reads_u64 m.targetIno)).bind <|
    (reads_named _ (reads_readU8 blocked)).bind ?_
  rw [← hblocked]
  exact (reads_named _ (reads_readU32 m.uid)).bind <| (reads_named _ (reads_readU32 m.sid)).bind <|
    (reads_named _ (reads_readStr h.comm)).bind hchain.last

theorem length_fieldsWire (m : FileEventMsg) :
    (fieldsWire m).length = 53 + m.filePath.length + m.fileName.length + m.comm.length := by
  simp only [fieldsWire, wireU64, wireStr, List.length_append, beBytes_length, List.length_cons, List.length_nil]
  omega

theorem length_wireWith (m : FileEventMsg) (blocked truncated : UInt8) :
    24 ≤ (wireWith m blocked truncated).length := by
  simp only [wireWith, wireU64, List.length_append, beBytes_length, List.length_cons, List.length_nil]
  omega

/-- The server decodes the layout of a message that fits to that message, whatever nonzero bytes its flags have. -/
theorem decodeFileEvent_wireWith {m : FileEventMsg} (h : Fits m) {blocked truncated : UInt8}
    (hblocked : m.blocked = (blocked != 0)) (htrunc : m.chain.truncated = (truncated != 0)) :
    decodeFileEvent (wireWith m blocked truncated) = .ok m := by
  have hlen := not_lt.2 (length_wireWith m blocked truncated)
  simp [decodeFileEvent, hlen, (reads_fields h hblocked htrunc).all]

theorem decodeFileEvent_wire {m : FileEventMsg} (h : Fits m) : decodeFileEvent (wire m) = .ok m := by
  rw [wire_eq]
  exact decodeFileEvent_wireWith h (wireBool_ne_zero _).symm (wireBool_ne_zero _).symm

/-- The chain of a greater depth is refused before any of its entries is read. -/
theorem decodeChain_deep {depth : UInt8} (h : 16 < depth.toNat) (rest : Bytes) :
    ∃ err, decodeChain ([depth] ++ rest) = .error err := by
  have hmax : depth > maxProcessChainDepth := by
    rw [gt_iff_lt, UInt8.lt_iff_toNat_lt]
    exact h
  rw [decodeChain, (reads_named "chain_depth" (reads_readU8 depth)).run_bind, if_pos hmax]
  exact ⟨_, rfl⟩

theorem decodeFileEvent_deep {m : FileEventMsg} (hpath : m.filePath.length < 2 ^ 16)
    (hname : m.fileName.length < 2 ^ 16) (hcomm : m.comm.length < 2 ^ 16) (h : 16 < m.chain.depth.toNat) :
    ∃ err, decodeFileEvent (wire m) = .error err := by
  obtain ⟨err, herr⟩ := decodeChain_deep h ([wireBool m.chain.truncated] ++ m.chain.entries.flatMap entryWire)
  have hfields : decodeFileEventFields (wireWith m (wireBool m.blocked) (wireBool m.chain.truncated)) = .error err := by
    rw [decodeFileEventFields, wireWith, (reads_u64 m.agentID).run_bind, (reads_readU8 m.eventType).run_bind,
      wireStr, (reads_readStr hpath).run_bind, wireStr, (reads_readStr hname).run_bind,
      (reads_readU16 m.filePermission).run_bind, (reads_readU8 m.detectedBy).run_bind, (reads_readU32 m.pid).run_bind,
      (reads_readU32 m.timestamp).run_bind, (reads_named _ (reads_u64 m.targetDev)).run_bind,
      (reads_named _ (reads_u64 m.targetIno)).run_bind, (reads_named _ (reads_readU8 _)).run_bind,
      (reads_named _ (reads_readU32 m.uid)).run_bind, (reads_named _ (reads_readU32 m.sid)).run_bind, wireStr,
      (reads_named _ (reads_readStr hcomm)).run_bind]
    show (decodeChain _ >>= _) = _
    rw [herr]
    rfl
  have hlen := not_lt.2 (length_wireWith m (wireBool m.blocked) (wireBool m.chain.truncated))
  refine ⟨err, ?_⟩
  rw [wire_eq, decodeFileEvent, if_neg hlen, hfields]

/-! ## The agent writes it -/

/-- The message of an ancestry entry. -/
def infoMsg (e : ProcInfo) : ProcessInfoMsg :=
  ⟨e.pid.toUInt32, e.ppid.toUInt32, e.uid, e.euid, e.sid.toUInt32, e.startTimeNs, e.comm.str, e.tty.str,
    e.exe.str, e.cmdline.str⟩

/-- The message of an event, as the server should see it. -/
def eventMessage (agentId : UInt64) (ev : IgEvent) : FileEventMsg where
  agentID := agentId
  eventType := mapEventType ev.type
  filePath := ev.path.str.bytes
  fileName := ev.filename.str.bytes
  filePermission := 0
  detectedBy := mapSource ev.source
  pid := ev.pid.toUInt32
  timestamp := ev.timestamp.toUInt64.toUInt32
  targetDev := ev.dev
  targetIno := ev.ino
  blocked := ev.blocked ≠ 0
  uid := ev.uid
  sid := ev.sid.toUInt32
  comm := ev.comm.str
  chain := ⟨wireDepth (some ev.chain), ev.chain.truncated ≠ 0,
    (ev.chain.first (wireDepth (some ev.chain)).toNat).map infoMsg⟩

theorem take_strnlen {n : Nat} (a : CharArr n) : a.bytes.take a.strnlen = a.str :=
  (List.prefix_iff_eq_take.1 (List.takeWhile_prefix _)).symm

theorem writeStr_str {n : Nat} (hn : n < 2 ^ 16) (p : Bytes) (a : CharArr n) :
    writeStr p a.bytes (UInt16.ofNat a.strnlen) = p ++ wireStr a.str := by
  have hl : (UInt16.ofNat a.strnlen).toNat = a.strnlen :=
    UInt16.toNat_ofNat_of_lt' (a.strnlen_le.trans_lt hn)
  rw [writeStr_eq, hl, take_strnlen]
  rfl

theorem writeStr_term {n : Nat} (hn : n < 2 ^ 16) (p : Bytes) (t : TermArr n) :
    writeStr p t.str.bytes (UInt16.ofNat t.str.length) = p ++ wireStr t.str.bytes := by
  have hl : (UInt16.ofNat t.str.length).toNat = t.str.bytes.length :=
    UInt16.toNat_ofNat_of_lt' (t.fits.trans hn)
  rw [writeStr_eq, hl, List.take_length]
  rfl

theorem length_entryWire (e : ProcInfo) : (entryWire (infoMsg e)).length =
    28 + 8 + e.comm.strnlen + e.tty.strnlen + e.exe.strnlen + e.cmdline.strnlen := by
  simp only [entryWire, infoMsg, wireU64, wireStr, List.length_append, beBytes_length, CharArr.strnlen]
  omega

/-- With room for its layout an entry is written, and as its layout. -/
theorem chainEntryEncode_eq {e : ProcInfo} {p : Bytes} {bufSize : Nat} (hs : bufSize < 2 ^ 64)
    (hroom : p.length + (entryWire (infoMsg e)).length ≤ bufSize) :
    chainEntryEncode e p bufSize = some (p ++ entryWire (infoMsg e)) := by
  rw [length_entryWire] at hroom
  simp only [chainEntryEncode, sizeT_sub (by omega : p.length ≤ bufSize) hs]
  rw [if_neg (by omega)]
  simp only [writeStr_str (by omega : 16 < 2 ^ 16), writeStr_str (by omega : 32 < 2 ^ 16),
    writeStr_str (by omega : 256 < 2 ^ 16), writeStr_str (by omega : 512 < 2 ^ 16), writeU32, writeU64,
    entryWire, infoMsg, wireU64, List.append_assoc]

theorem chainEncode_eq {bufSize : Nat} (hs : bufSize < 2 ^ 64) (es : List ProcInfo) (p : Bytes)
    (hroom : p.length + ((es.map infoMsg).flatMap entryWire).length ≤ bufSize) :
    chainEncode bufSize es p = .ok (p ++ (es.map infoMsg).flatMap entryWire) := by
  induction es generalizing p with
  | nil => simp [chainEncode]
  | cons e es ih =>
    simp only [List.map_cons, List.flatMap_cons, List.length_append] at hroom ⊢
    rw [chainEncode, chainEntryEncode_eq hs (by omega)]
    simp only
    rw [ih _ (by rw [List.length_append]; omega), List.append_assoc]

theorem writeFields_eq (agentId : UInt64) (ev : IgEvent) :
    writeFields (eventMsg agentId ev) = fieldsWire (eventMessage agentId ev) := by
  have hb : ∀ z : Int32, (if z ≠ 0 then 1 else 0 : UInt8) = wireBool (z ≠ 0) := fun z => by
    by_cases h : z = 0 <;> simp [wireBool, h]
  simp only [writeFields, eventMsg, writeStr_term (by decide : igMaxPath < 2 ^ 16),
    writeStr_term (by omega : 256 < 2 ^ 16), writeStr_str (by omega : 16 < 2 ^ 16), writeU8, writeU16, writeU32,
    writeU64, wireTrunc, hb, fieldsWire, eventMessage, wireU64, List.append_assoc, List.nil_append]

/-! ## Size -/

theorem length_flatMap_le (es : List ProcInfo) :
    ((es.map infoMsg).flatMap entryWire).length ≤ 852 * es.length := by
  induction es with
  | nil => simp
  | cons e es ih =>
    have hc := e.comm.strnlen_le
    have ht := e.tty.strnlen_le
    have hx := e.exe.strnlen_le
    have hl := e.cmdline.strnlen_le
    simp only [List.map_cons, List.flatMap_cons, List.length_append, length_entryWire, List.length_cons]
    omega

theorem length_first (c : PidChain) (depth : Nat) : (c.first depth).length = min depth 16 := by
  rw [PidChain.first, List.length_map, List.length_take, List.length_finRange, igPaMaxDepth]

/-- The layout of every event fits the payload of one frame. -/
theorem length_wire_le (agentId : UInt64) (ev : IgEvent) :
    (wire (eventMessage agentId ev)).length ≤ igMaxPayload := by
  have hp : ev.path.str.bytes.length < 4096 := ev.path.fits
  have hn : ev.filename.str.bytes.length < 256 := ev.filename.fits
  have hc : ev.comm.str.length ≤ 16 := ev.comm.strnlen_le
  have hd := length_first ev.chain (wireDepth (some ev.chain)).toNat
  have hes := length_flatMap_le (ev.chain.first (wireDepth (some ev.chain)).toNat)
  rw [wire, List.length_append, length_fieldsWire]
  simp only [eventMessage, igMaxPayload]
  omega

/-- The encoder writes the layout of the event's message into a payload buffer. -/
theorem igFileEventEncode_eq (agentId : UInt64) (ev : IgEvent) :
    igFileEventEncode (eventMsg agentId ev) igMaxPayload = .ok (wire (eventMessage agentId ev)) := by
  have hroom := length_wire_le agentId ev
  -- the size check asks for just the bytes of the fields
  have hneed : need (eventMsg agentId ev) = (fieldsWire (eventMessage agentId ev)).length := by
    have hp : ev.path.str.length < 2 ^ 16 := ev.path.fits.trans (by decide)
    have hn : ev.filename.str.length < 2 ^ 16 := ev.filename.fits.trans (by decide)
    have hc : ev.comm.strnlen < 2 ^ 16 := ev.comm.strnlen_le.trans_lt (by decide)
    rw [length_fieldsWire]
    simp only [need, eventMsg, eventMessage, UInt16.toNat_ofNat_of_lt' hp, UInt16.toNat_ofNat_of_lt' hn,
      UInt16.toNat_ofNat_of_lt' hc]
    simp only [CStr.length, CharArr.strnlen]
    omega
  rw [wire, List.length_append] at hroom
  rw [igFileEventEncode, if_neg (by omega), writeFields_eq]
  exact chainEncode_eq (by decide) _ _ hroom

/-! ## What is sent -/

/-- A connected client sends an event of any backend but inotify, as its layout. -/
theorem igTcpSendEvent_eq {ev : IgEvent} (h : ev.source ≠ .inotify) (agentId : UInt64) :
    igTcpSendEvent true agentId ev = .frame (wire (eventMessage agentId ev)) := by
  have hsrc : (eventMsg agentId ev).detectedBy ≠ 0 := by
    show mapSource ev.source ≠ 0
    cases hs : ev.source <;> simp_all [mapSource, igMonEbpf, igMonLkm, igMonFanotify]
  simp only [igTcpSendEvent, if_neg hsrc, igFileEventEncode_eq agentId ev, Encoded.ok]
  simp

theorem igTcpSendEvent_inotify {ev : IgEvent} (h : ev.source = .inotify) (agentId : UInt64) :
    igTcpSendEvent true agentId ev = .skipped := by
  simp [igTcpSendEvent, eventMsg, mapSource, h]

/-! ## What arrives -/

/-- The events the agent sends: from a backend of the server's, with a depth within its chain. -/
structure Sendable (ev : IgEvent) : Prop where
  source : ev.source ≠ .inotify
  depth_nonneg : 0 ≤ ev.chain.depth.toInt
  depth_le : ev.chain.depth.toInt ≤ 16

theorem wireDepth_toNat {ev : IgEvent} (h : Sendable ev) :
    ((wireDepth (some ev.chain)).toNat : Int) = ev.chain.depth.toInt := by
  obtain ⟨-, h0, h16⟩ := h
  have hle : ¬ ev.chain.depth > Int32.ofNat igPaMaxDepth := by
    rw [gt_iff_lt, Int32.lt_iff_toInt_lt, not_lt]
    exact h16
  have hx : ev.chain.depth.toInt = if 2 * ev.chain.depth.toUInt32.toNat < 2 ^ 32
      then (ev.chain.depth.toUInt32.toNat : Int) else ev.chain.depth.toUInt32.toNat - (2 ^ 32 : Nat) :=
    BitVec.toInt_eq_toNat_cond ev.chain.depth.toBitVec
  have hlt := ev.chain.depth.toUInt32.toNat_lt
  rw [wireDepth, if_neg hle, UInt32.toNat_toUInt8]
  split at hx <;> omega

/-- With a depth that the wire allows, whatever the event's own. -/
theorem eventMessage_fits_of_depth {ev : IgEvent} (h16 : (wireDepth (some ev.chain)).toNat ≤ 16) (agentId : UInt64) :
    Fits (eventMessage agentId ev) := by
  constructor
  · exact ev.path.fits.trans (by decide)
  · exact ev.filename.fits.trans (by decide)
  · exact ev.comm.strnlen_le.trans_lt (by decide)
  · simp only [eventMessage, List.length_map, length_first]
    omega
  · exact h16
  · intro e he
    obtain ⟨p, -, rfl⟩ := List.mem_map.1 he
    constructor
    · exact p.comm.strnlen_le.trans_lt (by decide)
    · exact p.tty.strnlen_le.trans_lt (by decide)
    · exact p.exe.strnlen_le.trans_lt (by decide)
    · exact p.cmdline.strnlen_le.trans_lt (by decide)

theorem eventMessage_fits {ev : IgEvent} (h : Sendable ev) (agentId : UInt64) :
    Fits (eventMessage agentId ev) := by
  have hd := wireDepth_toNat h
  have h16 := h.depth_le
  exact eventMessage_fits_of_depth (by omega) agentId

/-- The event goes out as one payload within the limit, just the bytes the encoder wrote, and the server
decodes that payload to a message with the property. -/
def Delivers (agentId : UInt64) (ev : IgEvent) (P : FileEventMsg → Prop) : Prop :=
  ∃ payload m, igTcpSendEvent true agentId ev = .frame payload ∧
    igFileEventEncode (eventMsg agentId ev) igMaxPayload = ⟨payload.length, payload⟩ ∧
    payload.length ≤ igMaxPayload ∧ decodeFileEvent payload = .ok m ∧ P m

/-- A sendable event is delivered as its message. -/
theorem delivers_iff {ev : IgEvent} (h : Sendable ev) (agentId : UInt64) (P : FileEventMsg → Prop) :
    Delivers agentId ev P ↔ P (eventMessage agentId ev) := by
  have henc := igFileEventEncode_eq agentId ev
  have hdec := decodeFileEvent_wire (eventMessage_fits h agentId)
  have hsend := igTcpSendEvent_eq h.source agentId
  constructor
  · rintro ⟨payload, m, hs, -, -, hm, hP⟩
    rw [hsend] at hs
    cases hs
    rw [hdec] at hm
    cases hm
    exact hP
  · intro hP
    exact ⟨wire (eventMessage agentId ev), _, hsend, henc, length_wire_le agentId ev, hdec, hP⟩

/-- The ten fields of an ancestry entry arrived. -/
structure SameProcess (m : ProcessInfoMsg) (e : ProcInfo) : Prop where
  pid : m.pid.toInt32 = e.pid
  ppid : m.ppid.toInt32 = e.ppid
  uid : m.uid = e.uid
  euid : m.euid = e.euid
  sid : m.sid.toInt32 = e.sid
  startTimeNS : m.startTimeNS = e.startTimeNs
  comm : m.comm = e.comm.str
  tty : m.tty = e.tty.str
  exe : m.exe = e.exe.str
  cmdline : m.cmdline = e.cmdline.str

/-- The event arrived, but for its time. -/
structure SameEvent (agentId : UInt64) (ev : IgEvent) (m : FileEventMsg) : Prop where
  agentID : m.agentID = agentId
  eventType : m.eventType = mapEventType ev.type
  filePath : m.filePath = ev.path.str.bytes
  fileName : m.fileName = ev.filename.str.bytes
  filePermission : m.filePermission = 0
  detectedBy : m.detectedBy = mapSource ev.source
  pid : m.pid.toInt32 = ev.pid
  targetDev : m.targetDev = ev.dev
  targetIno : m.targetIno = ev.ino
  blocked : m.blocked = true ↔ ev.blocked ≠ 0
  uid : m.uid = ev.uid
  sid : m.sid.toInt32 = ev.sid
  comm : m.comm = ev.comm.str
  depth : (m.chain.depth.toNat : Int) = ev.chain.depth.toInt
  truncated : m.chain.truncated = true ↔ ev.chain.truncated ≠ 0
  entries : List.Forall₂ SameProcess m.chain.entries (ev.chain.first ev.chain.depth.toInt.toNat)

theorem sameProcess_infoMsg (e : ProcInfo) : SameProcess (infoMsg e) e :=
  ⟨by simp [infoMsg], by simp [infoMsg], rfl, rfl, by simp [infoMsg], rfl, rfl, rfl, rfl, rfl⟩

theorem sameEvent_eventMessage {ev : IgEvent} (h : Sendable ev) (agentId : UInt64) :
    SameEvent agentId ev (eventMessage agentId ev) := by
  have hd := wireDepth_toNat h
  have hn : (wireDepth (some ev.chain)).toNat = ev.chain.depth.toInt.toNat := by omega
  refine ⟨rfl, rfl, rfl, rfl, rfl, rfl, by simp [eventMessage], rfl, rfl, by simp [eventMessage], rfl,
    by simp [eventMessage], rfl, hd, by simp [eventMessage], ?_⟩
  rw [← hn]
  exact List.forall₂_map_left_iff.2 (List.forall₂_same.2 fun e _ => sameProcess_infoMsg e)

/-- The wire carries the low 32 bits of the time. -/
theorem timestamp_eventMessage (agentId : UInt64) (ev : IgEvent) :
    ((eventMessage agentId ev).timestamp.toNat : Int) = ev.timestamp.toInt % 2 ^ 32 := by
  have hx : ev.timestamp.toInt = if 2 * ev.timestamp.toUInt64.toNat < 2 ^ 64
      then (ev.timestamp.toUInt64.toNat : Int) else ev.timestamp.toUInt64.toNat - (2 ^ 64 : Nat) :=
    BitVec.toInt_eq_toNat_cond ev.timestamp.toBitVec
  rw [hx]
  simp only [eventMessage, UInt64.toNat_toUInt32]
  split <;> omega

/-- Every sendable event arrives as it was, its time modulo 2^32 seconds. -/
theorem event_arrives {ev : IgEvent} (h : Sendable ev) (agentId : UInt64) :
    Delivers agentId ev fun m => SameEvent agentId ev m ∧ (m.timestamp.toNat : Int) = ev.timestamp.toInt % 2 ^ 32 :=
  (delivers_iff h agentId _).2 ⟨sameEvent_eventMessage h agentId, timestamp_eventMessage agentId ev⟩

/-- A `char[n]` that starts with a string. -/
def charArr (n : Nat) (s : Bytes) : CharArr n := ⟨(s ++ List.replicate n 0).take n, by simp⟩

def shellProc : ProcInfo :=
  ⟨700, 1, 1000, 1000, 700, charArr 32 (ascii "pts/0"), charArr 16 (ascii "bash"), charArr 256 (ascii "/bin/bash"),
    charArr 512 (ascii "-bash"), 90, 123456789⟩

/-- A blocked write of `/etc/passwd` at a time, seen by the kernel module, with its two ancestors. -/
def blockedWrite (timestamp : Int64) : IgEvent where
  type := .modify
  source := .lkm
  path := ⟨⟨ascii "/etc/passwd", by decide⟩, by decide⟩
  filename := ⟨⟨ascii "passwd", by decide⟩, by decide⟩
  timestamp := timestamp
  dev := 8388609
  ino := 131
  blocked := 1
  pid := 701
  uid := 1000
  sid := 700
  comm := charArr 16 (ascii "sixteen-byte-cmd")
  chain := ⟨2, 0, fun _ => shellProc⟩

theorem blockedWrite_sendable (timestamp : Int64) : Sendable (blockedWrite timestamp) :=
  ⟨by simp [blockedWrite], by simp [blockedWrite], by simp [blockedWrite]⟩

theorem event_arrives_blockedWrite :
    Delivers 7 (blockedWrite 1700000000) fun m => SameEvent 7 (blockedWrite 1700000000) m ∧
      (m.timestamp.toNat : Int) = (blockedWrite 1700000000).timestamp.toInt % 2 ^ 32 :=
  event_arrives (blockedWrite_sendable 1700000000) 7

/-- The second after the last one of 32 bits does not arrive. -/
theorem event_late_fails :
    ¬ (Sendable (blockedWrite 4294967296) → Delivers 7 (blockedWrite 4294967296) fun m =>
      SameEvent 7 (blockedWrite 4294967296) m ∧
        (m.timestamp.toNat : Int) = (blockedWrite 4294967296).timestamp.toInt) := by
  intro h
  obtain ⟨-, ht⟩ := (delivers_iff (blockedWrite_sendable _) 7 _).1 (h (blockedWrite_sendable _))
  exact absurd ht (by decide)

end KnIg.FileEvent
