/-
The decoders beside the agent's encoders. A decoder is `none` where it accesses a byte outside its buffer; otherwise it
leaves a return value and a message whose strings are memory of their own. What the encoders write is read back, no
buffer makes a decoder access a byte behind its end, and one that fails frees the strings it has set.
-/
import KnIg.Agent.Register
import KnIg.Agent.Threads
import KnIg.Lib.Counted

namespace KnIg.Agent

open Lib

/-! ## Reads -/

namespace Decode

def readU8 (buf : Bytes) (p : Nat) : Option (UInt8 × Nat) := do
  let b ← load buf p 1
  some (UInt8.ofNat (beNat b), p + 1)

def readU16 (buf : Bytes) (p : Nat) : Option (UInt16 × Nat) := do
  let b ← load buf p 2
  some (UInt16.ofNat (beNat b), p + 2)

def readU32 (buf : Bytes) (p : Nat) : Option (UInt32 × Nat) := do
  let b ← load buf p 4
  some (UInt32.ofNat (beNat b), p + 4)

def readU64 (buf : Bytes) (p : Nat) : Option (UInt64 × Nat) := do
  let hi ← load buf p 4
  let lo ← load buf (p + 4) 4
  some ((UInt32.ofNat (beNat hi)).toUInt64 <<< 32 ||| (UInt32.ofNat (beNat lo)).toUInt64, p + 8)

/-- `(size_t)(end - p)`. -/
def left (buf : Bytes) (p : Nat) : Nat := sizeT ((buf.length : Int) - p)

/-- What `read_str` leaves: its result, the position, the string in memory of its own, and its length. -/
structure ReadStr where
  ok : Bool
  p : Nat
  out : Option Bytes
  outLen : UInt16

/-- `read_str`, where `malloc` may fail. -/
def readStr (buf : Bytes) (malloc : Bool) (p : Nat) : Option ReadStr :=
  if left buf p < 2 then some ⟨false, p, none, 0⟩
  else do
    let (len, p) ← readU16 buf p
    if len = 0 then some ⟨true, p, none, len⟩
    else if left buf p < len.toNat then some ⟨false, p, none, len⟩
    else if !malloc then some ⟨false, p, none, len⟩
    else do
      let s ← load buf p len.toNat
      some ⟨true, p + len.toNat, some s, len⟩

end Decode

open Decode

/-- What a decoder leaves: its result and the message. -/
structure Decoded (M : Type) where
  ret : Int
  msg : M

/-! ## Decoders -/

/-- `ig_msg_register_t` with strings of its own. -/
structure DecodedRegister where
  hostnameLen : UInt16
  hostname : Option Bytes
  ip : UInt32
  monitorType : UInt8
  osLen : UInt16
  os : Option Bytes

namespace DecodedRegister

def zero : DecodedRegister := ⟨0, none, 0, 0, 0, none⟩

/-- `ig_register_free`. -/
def free (msg : DecodedRegister) : DecodedRegister := { msg with hostname := none, os := none }

/-- No string is set. -/
def NoStrings (msg : DecodedRegister) : Prop := msg.hostname = none ∧ msg.os = none

end DecodedRegister

def igRegisterDecode (malloc : Nat → Bool) (buf : Bytes) : Option (Decoded DecodedRegister) := do
  let msg := DecodedRegister.zero
  let r ← readStr buf (malloc 0) 0
  let msg := { msg with hostname := r.out, hostnameLen := r.outLen }
  if !r.ok then some ⟨-1, msg⟩
  else if left buf r.p < 5 then some ⟨-1, msg.free⟩
  else do
    let (ip, p) ← readU32 buf r.p
    let (monitorType, p) ← readU8 buf p
    let r ← readStr buf (malloc 1) p
    let msg := { msg with ip := ip, monitorType := monitorType, os := r.out, osLen := r.outLen }
    if !r.ok then some ⟨-1, msg.free⟩ else some ⟨r.p, msg⟩

/-- `ig_heartbeat_encode`, with its check of the buffer. -/
def igHeartbeatEncodeSized (msg : IgMsgHeartbeat) (bufSize : Nat) : Encoded :=
  if bufSize < 13 then .error [] else .ok (igHeartbeatEncode msg)

def igHeartbeatDecode (buf : Bytes) (msg : IgMsgHeartbeat) : Option (Decoded IgMsgHeartbeat) :=
  if buf.length < 13 then some ⟨-1, msg⟩
  else do
    let (agentId, p) ← readU64 buf 0
    let (status, p) ← readU8 buf p
    let (timestamp, _) ← readU32 buf p
    some ⟨13, ⟨agentId, status, timestamp⟩⟩

/-- `ig_msg_file_event_t` with strings of its own. -/
structure DecodedEvent where
  agentId : UInt64
  eventType : UInt8
  filePathLen : UInt16
  filePath : Option Bytes
  fileNameLen : UInt16
  fileName : Option Bytes
  filePermission : UInt16
  detectedBy : UInt8
  pid : UInt32
  timestamp : UInt32
  targetDev : UInt64
  targetIno : UInt64
  blocked : UInt8
  uid : UInt32
  sid : UInt32
  commLen : UInt16
  comm : Option Bytes
  chain : Option PidChain

namespace DecodedEvent

def zero : DecodedEvent := ⟨0, 0, 0, none, 0, none, 0, 0, 0, 0, 0, 0, 0, 0, 0, 0, none, none⟩

/-- `ig_file_event_free`. -/
def free (msg : DecodedEvent) : DecodedEvent := { msg with filePath := none, fileName := none, comm := none }

/-- No string is set. -/
def NoStrings (msg : DecodedEvent) : Prop := msg.filePath = none ∧ msg.fileName = none ∧ msg.comm = none

end DecodedEvent

/-- The fields of `ig_file_event_decode` behind the names. -/
def decodeTarget (malloc : Nat → Bool) (buf : Bytes) (msg : DecodedEvent) (p : Nat) : Option (Decoded DecodedEvent) :=
  if left buf p < 11 then some ⟨-1, msg.free⟩
  else do
    let (filePermission, p) ← readU16 buf p
    let (detectedBy, p) ← readU8 buf p
    let (pid, p) ← readU32 buf p
    let (timestamp, p) ← readU32 buf p
    let msg := { msg with filePermission, detectedBy, pid, timestamp }
    if left buf p < 25 then some ⟨-1, msg.free⟩
    else do
      let (targetDev, p) ← readU64 buf p
      let (targetIno, p) ← readU64 buf p
      let (blocked, p) ← readU8 buf p
      let (uid, p) ← readU32 buf p
      let (sid, p) ← readU32 buf p
      let r ← readStr buf (malloc 2) p
      let msg := { msg with targetDev, targetIno, blocked, uid, sid, comm := r.out, commLen := r.outLen }
      if !r.ok then some ⟨-1, msg.free⟩ else some ⟨r.p, msg⟩

/-- `ig_file_event_decode`, with the message as it was before. -/
def igFileEventDecode (malloc : Nat → Bool) (buf : Bytes) (msg : DecodedEvent) : Option (Decoded DecodedEvent) :=
  if buf.length < 24 then some ⟨-1, msg⟩
  else do
    let msg := DecodedEvent.zero
    let (agentId, p) ← readU64 buf 0
    let (eventType, p) ← readU8 buf p
    let r ← readStr buf (malloc 0) p
    let msg := { msg with agentId, eventType, filePath := r.out, filePathLen := r.outLen }
    if !r.ok then some ⟨-1, msg.free⟩
    else do
      let r ← readStr buf (malloc 1) r.p
      let msg := { msg with fileName := r.out, fileNameLen := r.outLen }
      if !r.ok then some ⟨-1, msg.free⟩ else decodeTarget malloc buf msg r.p

/-- A step whose result is known. As a rewriting rule for a whole decoder it must go from the outside in (`↓`), or each
step behind it is visited once more for every step before it. -/
theorem bind_of_eq_some {α β : Type} {x : Option α} {a : α} (h : x = some a) (f : α → Option β) : (x >>= f) = f a := by
  rw [h]
  rfl

/-! ## Accesses inside the buffer -/

section Inside

variable {buf : Bytes} {p : Nat}

theorem left_eq (hp : p ≤ buf.length) (hbuf : buf.length < 2 ^ 64) : left buf p = buf.length - p := sizeT_sub hp hbuf

theorem readU8_inside (buf : Bytes) (p : Nat) (h : p + 1 ≤ buf.length) : ∃ v, readU8 buf p = some (v, p + 1) :=
  ⟨_, by rw [readU8, load_inside h]; rfl⟩

theorem readU16_inside (buf : Bytes) (p : Nat) (h : p + 2 ≤ buf.length) : ∃ v, readU16 buf p = some (v, p + 2) :=
  ⟨_, by rw [readU16, load_inside h]; rfl⟩

theorem readU32_inside (buf : Bytes) (p : Nat) (h : p + 4 ≤ buf.length) : ∃ v, readU32 buf p = some (v, p + 4) :=
  ⟨_, by rw [readU32, load_inside h]; rfl⟩

theorem readU64_inside (buf : Bytes) (p : Nat) (h : p + 8 ≤ buf.length) : ∃ v, readU64 buf p = some (v, p + 8) :=
  ⟨_, by rw [readU64, load_inside (by omega : p + 4 ≤ buf.length), Option.bind_eq_bind, Option.bind_some,
    load_inside (by omega : p + 4 + 4 ≤ buf.length)]; rfl⟩

/-- A string is read inside the buffer; where that fails none is set. -/
theorem readStr_inside (hp : p ≤ buf.length) (hbuf : buf.length < 2 ^ 64) (malloc : Bool) :
    ∃ r, readStr buf malloc p = some r ∧ r.p ≤ buf.length ∧ (r.ok = false → r.out = none) := by
  unfold readStr
  rw [left_eq hp hbuf]
  split
  · exact ⟨_, rfl, hp, fun _ => rfl⟩
  · obtain ⟨len, hlen⟩ := readU16_inside buf p (by omega)
    have hp' : p + 2 ≤ buf.length := by omega
    rw [hlen]
    simp only [Option.bind_eq_bind, Option.bind_some, left_eq hp' hbuf]
    split
    · exact ⟨_, rfl, hp', fun _ => rfl⟩
    split
    · exact ⟨_, rfl, hp', fun _ => rfl⟩
    split
    · exact ⟨_, rfl, hp', fun _ => rfl⟩
    · have hs : p + 2 + len.toNat ≤ buf.length := by omega
      rw [load_inside hs]
      exact ⟨_, rfl, hs, nofun⟩

theorem igRegisterDecode_inside (hbuf : buf.length < 2 ^ 64) (malloc : Nat → Bool) :
    ∃ d, igRegisterDecode malloc buf = some d ∧ (d.ret < 0 → d.msg.NoStrings) := by
  obtain ⟨r, hr, hrp, hout⟩ := readStr_inside (Nat.zero_le _) hbuf (malloc 0)
  unfold igRegisterDecode
  simp only [↓bind_of_eq_some hr, left_eq hrp hbuf]
  split
  · next hok => exact ⟨_, rfl, fun _ => ⟨hout (by simpa using hok), rfl⟩⟩
  split
  · exact ⟨_, rfl, fun _ => ⟨rfl, rfl⟩⟩
  · obtain ⟨ip, hip⟩ := readU32_inside buf r.p (by omega)
    obtain ⟨monitorType, hmon⟩ := readU8_inside buf (r.p + 4) (by omega)
    obtain ⟨r', hr', -, -⟩ := readStr_inside (p := r.p + 4 + 1) (by omega) hbuf (malloc 1)
    simp only [↓bind_of_eq_some hip, ↓bind_of_eq_some hmon, ↓bind_of_eq_some hr']
    split
    · exact ⟨_, rfl, fun _ => ⟨rfl, rfl⟩⟩
    · exact ⟨_, rfl, fun hret => absurd hret (Int.natCast_nonneg _).not_gt⟩

theorem igHeartbeatDecode_inside (buf : Bytes) (msg : IgMsgHeartbeat) : ∃ d, igHeartbeatDecode buf msg = some d := by
  unfold igHeartbeatDecode
  split
  · exact ⟨_, rfl⟩
  · obtain ⟨agentId, hid⟩ := readU64_inside buf 0 (by omega)
    obtain ⟨status, hstatus⟩ := readU8_inside buf (0 + 8) (by omega)
    obtain ⟨timestamp, htime⟩ := readU32_inside buf (0 + 8 + 1) (by omega)
    simp only [↓bind_of_eq_some hid, ↓bind_of_eq_some hstatus, ↓bind_of_eq_some htime]
    exact ⟨_, rfl⟩

theorem decodeTarget_inside (hp : p ≤ buf.length) (hbuf : buf.length < 2 ^ 64) (malloc : Nat → Bool)
    (msg : DecodedEvent) :
    ∃ d, decodeTarget malloc buf msg p = some d ∧ (d.ret < 0 → d.msg.NoStrings) := by
  unfold decodeTarget
  rw [left_eq hp hbuf]
  split
  · exact ⟨_, rfl, fun _ => ⟨rfl, rfl, rfl⟩⟩
  · obtain ⟨filePermission, hperm⟩ := readU16_inside buf p (by omega)
    obtain ⟨detectedBy, hby⟩ := readU8_inside buf (p + 2) (by omega)
    obtain ⟨pid, hpid⟩ := readU32_inside buf (p + 2 + 1) (by omega)
    obtain ⟨timestamp, htime⟩ := readU32_inside buf (p + 2 + 1 + 4) (by omega)
    simp only [↓bind_of_eq_some hperm, ↓bind_of_eq_some hby, ↓bind_of_eq_some hpid, ↓bind_of_eq_some htime]
    rw [left_eq (by omega) hbuf]
    split
    · exact ⟨_, rfl, fun _ => ⟨rfl, rfl, rfl⟩⟩
    · obtain ⟨targetDev, hdev⟩ := readU64_inside buf (p + 2 + 1 + 4 + 4) (by omega)
      obtain ⟨targetIno, hino⟩ := readU64_inside buf (p + 2 + 1 + 4 + 4 + 8) (by omega)
      obtain ⟨blocked, hblocked⟩ := readU8_inside buf (p + 2 + 1 + 4 + 4 + 8 + 8) (by omega)
      obtain ⟨uid, huid⟩ := readU32_inside buf (p + 2 + 1 + 4 + 4 + 8 + 8 + 1) (by omega)
      obtain ⟨sid, hsid⟩ := readU32_inside buf (p + 2 + 1 + 4 + 4 + 8 + 8 + 1 + 4) (by omega)
      obtain ⟨r, hr, -, -⟩ :=
        readStr_inside (p := p + 2 + 1 + 4 + 4 + 8 + 8 + 1 + 4 + 4) (by omega) hbuf (malloc 2)
      simp only [↓bind_of_eq_some hdev, ↓bind_of_eq_some hino, ↓bind_of_eq_some hblocked, ↓bind_of_eq_some huid,
        ↓bind_of_eq_some hsid, ↓bind_of_eq_some hr]
      split
      · exact ⟨_, rfl, fun _ => ⟨rfl, rfl, rfl⟩⟩
      · exact ⟨_, rfl, fun hret => absurd hret (Int.natCast_nonneg _).not_gt⟩

theorem igFileEventDecode_cleared (hbuf : buf.length < 2 ^ 64) (hlen : ¬ buf.length < 24) (malloc : Nat → Bool)
    (msg : DecodedEvent) :
    ∃ d, igFileEventDecode malloc buf msg = some d ∧ (d.ret < 0 → d.msg.NoStrings) := by
  unfold igFileEventDecode
  rw [if_neg hlen]
  obtain ⟨agentId, hid⟩ := readU64_inside buf 0 (by omega)
  obtain ⟨eventType, htype⟩ := readU8_inside buf (0 + 8) (by omega)
  obtain ⟨r, hr, hrp, -⟩ := readStr_inside (p := 0 + 8 + 1) (by omega) hbuf (malloc 0)
  obtain ⟨r', hr', hrp', -⟩ := readStr_inside hrp hbuf (malloc 1)
  simp only [↓bind_of_eq_some hid, ↓bind_of_eq_some htype, ↓bind_of_eq_some hr, ↓bind_of_eq_some hr']
  split
  · exact ⟨_, rfl, fun _ => ⟨rfl, rfl, rfl⟩⟩
  split
  · exact ⟨_, rfl, fun _ => ⟨rfl, rfl, rfl⟩⟩
  · exact decodeTarget_inside hrp' hbuf malloc _

/-- A payload too short for its first fields leaves the message as it was, strings and all. -/
theorem igFileEventDecode_inside (hbuf : buf.length < 2 ^ 64) (malloc : Nat → Bool) (msg : DecodedEvent) :
    ∃ d, igFileEventDecode malloc buf msg = some d ∧
      ((d.ret < 0 → d.msg.NoStrings) ↔ 24 ≤ buf.length ∨ msg.NoStrings) := by
  by_cases hlen : buf.length < 24
  · refine ⟨⟨-1, msg⟩, if_pos hlen, fun h => .inr (h (Int.negSucc_lt_zero 0)), fun h _ => ?_⟩
    exact h.resolve_left hlen.not_ge
  · obtain ⟨d, hd, hret⟩ := igFileEventDecode_cleared hbuf hlen malloc msg
    exact ⟨d, hd, fun _ => .inl (not_lt.1 hlen), fun _ => hret⟩

end Inside

/-! ## What was written is read back -/

/-- The rest of a buffer from a position on. -/
def RestAt (buf : Bytes) (p : Nat) (rest : Bytes) : Prop := p ≤ buf.length ∧ buf.drop p = rest

/-- A string behind its length. -/
def strWire (s : Bytes) (len : UInt16) : Bytes := beBytes 2 len.toNat ++ s.take len.toNat

/-- A string in memory of its own; none where there is nothing to copy. -/
def owned (s : Bytes) (len : UInt16) : Option Bytes := if len = 0 then none else some (s.take len.toNat)

/-- No memory is asked for, or it is there. -/
def Allocated (malloc : Bool) (len : UInt16) : Prop := len = 0 ∨ malloc = true

section Written

variable {buf : Bytes} {p : Nat}

theorem RestAt.length {rest : Bytes} (h : RestAt buf p rest) : buf.length = p + rest.length := by
  have hd := congrArg List.length h.2
  rw [List.length_drop] at hd
  have := h.1
  omega

theorem load_at {s rest : Bytes} (h : RestAt buf p (s ++ rest)) :
    load buf p s.length = some s ∧ RestAt buf (p + s.length) rest := by
  have hlen := h.length
  rw [List.length_append] at hlen
  have hp : p + s.length ≤ buf.length := by omega
  refine ⟨?_, hp, ?_⟩
  · rw [load_inside hp, h.2, List.take_left]
  · rw [← List.drop_drop, h.2, List.drop_left]

/-- The bytes of a number are read back as the number. -/
theorem loadNat_at {w n : Nat} {rest : Bytes} (h : RestAt buf p (beBytes w n ++ rest)) (hn : n < 256 ^ w) :
    ∃ b, load buf p w = some b ∧ beNat b = n ∧ RestAt buf (p + w) rest := by
  obtain ⟨hload, hat⟩ := load_at h
  rw [beBytes_length] at hload hat
  exact ⟨_, hload, (beNat_beBytes w n).trans (Nat.mod_eq_of_lt hn), hat⟩

theorem readU8_at {v : UInt8} {rest : Bytes} (h : RestAt buf p ([v] ++ rest)) :
    readU8 buf p = some (v, p + 1) ∧ RestAt buf (p + 1) rest := by
  obtain ⟨hload, hat⟩ := load_at h
  refine ⟨?_, hat⟩
  rw [readU8, show load buf p 1 = some [v] from hload, Option.bind_eq_bind, Option.bind_some, beNat_cons]
  simp [beNat]

theorem readU16_at {v : UInt16} {rest : Bytes} (h : RestAt buf p (beBytes 2 v.toNat ++ rest)) :
    readU16 buf p = some (v, p + 2) ∧ RestAt buf (p + 2) rest := by
  obtain ⟨b, hload, hb, hat⟩ := loadNat_at h v.toNat_lt
  refine ⟨?_, hat⟩
  rw [readU16, hload, Option.bind_eq_bind, Option.bind_some, hb, UInt16.ofNat_toNat]

theorem readU32_at {v : UInt32} {rest : Bytes} (h : RestAt buf p (beBytes 4 v.toNat ++ rest)) :
    readU32 buf p = some (v, p + 4) ∧ RestAt buf (p + 4) rest := by
  obtain ⟨b, hload, hb, hat⟩ := loadNat_at h v.toNat_lt
  refine ⟨?_, hat⟩
  rw [readU32, hload, Option.bind_eq_bind, Option.bind_some, hb, UInt32.ofNat_toNat]

theorem readU64_at {v : UInt64} {rest : Bytes} (h : RestAt buf p (writeU64 [] v ++ rest)) :
    readU64 buf p = some (v, p + 8) ∧ RestAt buf (p + 8) rest := by
  rw [writeU64, List.nil_append, List.append_assoc] at h
  obtain ⟨hi, hhi, hhiv, hat⟩ := loadNat_at h (v >>> 32).toUInt32.toNat_lt
  obtain ⟨lo, hlo, hlov, hat⟩ := loadNat_at hat (v &&& 0xFFFFFFFF).toUInt32.toNat_lt
  refine ⟨?_, hat⟩
  rw [readU64, hhi, Option.bind_eq_bind, Option.bind_some, hlo, Option.bind_some, hhiv, hlov,
    UInt32.ofNat_toNat, UInt32.ofNat_toNat, u64_halves]

/-- A written string is copied where there is memory for it. -/
theorem readStr_at {s rest : Bytes} {len : UInt16} (h : RestAt buf p (strWire s len ++ rest))
    (hlen : len.toNat ≤ s.length) (hbuf : buf.length < 2 ^ 64) (malloc : Bool) :
    RestAt buf (p + 2 + len.toNat) rest ∧
      ((Allocated malloc len ∧ readStr buf malloc p = some ⟨true, p + 2 + len.toNat, owned s len, len⟩) ∨
        (¬ Allocated malloc len ∧ readStr buf malloc p = some ⟨false, p + 2, none, len⟩)) := by
  have htake : (s.take len.toNat).length = len.toNat := List.length_take_of_le hlen
  have hsize := h.length
  rw [strWire, List.length_append, List.length_append, beBytes_length, htake] at hsize
  rw [strWire, List.append_assoc] at h
  obtain ⟨hread, hat⟩ := readU16_at h
  obtain ⟨hload, hat⟩ := load_at hat
  rw [htake] at hload hat
  refine ⟨hat, ?_⟩
  have hroom : ¬ left buf p < 2 := by
    rw [left_eq h.1 hbuf]
    omega
  have hroom' : ¬ left buf (p + 2) < len.toNat := by
    rw [left_eq (by omega) hbuf]
    omega
  rw [readStr, if_neg hroom, hread]
  simp only [Option.bind_eq_bind, Option.bind_some, if_neg hroom', hload, owned]
  by_cases h0 : len = 0
  · refine .inl ⟨.inl h0, ?_⟩
    rw [if_pos h0, if_pos h0, h0]
    rfl
  · rw [if_neg h0, if_neg h0]
    cases malloc
    · exact .inr ⟨fun hmalloc => hmalloc.elim h0 nofun, rfl⟩
    · exact .inl ⟨.inr rfl, rfl⟩

end Written

/-- What a decoder leaves of a message that was written: a copy, and the position behind it, exactly where there is
memory for its strings. -/
def Leaves {M : Type} (buf rest : Bytes) (allocated : Prop) (copied : M) (d : Decoded M) : Prop :=
  (allocated ∧ ∃ q : Nat, RestAt buf q rest ∧ d = ⟨q, copied⟩) ∨ (¬ allocated ∧ d.ret = -1)

theorem Leaves.copied_iff {M : Type} {buf rest : Bytes} {allocated : Prop} {copied : M} {d : Decoded M}
    (h : Leaves buf rest allocated copied d) : (∃ q : Nat, d = ⟨q, copied⟩) ↔ allocated := by
  rcases h with ⟨hall, q, -, hd⟩ | ⟨hall, hret⟩
  · exact ⟨fun _ => hall, fun _ => ⟨q, hd⟩⟩
  · refine ⟨?_, fun h => absurd h hall⟩
    rintro ⟨q, rfl⟩
    exact absurd hret (by simp)

/-! ### Registrations -/

/-- The strings are as long as the message says. -/
structure IgMsgRegister.Readable (msg : IgMsgRegister) : Prop where
  hostname : msg.hostnameLen.toNat ≤ msg.hostname.length
  os : msg.osLen.toNat ≤ msg.os.length

/-- The message with strings of its own. -/
def IgMsgRegister.copied (msg : IgMsgRegister) : DecodedRegister where
  hostnameLen := msg.hostnameLen
  hostname := owned msg.hostname msg.hostnameLen
  ip := msg.ip
  monitorType := msg.monitorType
  osLen := msg.osLen
  os := owned msg.os msg.osLen

def IgMsgRegister.wire (msg : IgMsgRegister) : Bytes :=
  strWire msg.hostname msg.hostnameLen ++ (beBytes 4 msg.ip.toNat ++ ([msg.monitorType] ++ strWire msg.os msg.osLen))

theorem igRegisterEncode_ok {msg : IgMsgRegister} {bufSize : Nat} (hok : 0 ≤ (igRegisterEncode msg bufSize).ret) :
    igRegisterEncode msg bufSize = .ok msg.wire := by
  simp only [igRegisterEncode] at hok ⊢
  split at hok
  · exact absurd hok (by decide)
  · next hneed =>
    rw [if_neg hneed]
    simp only [writeStr_eq, writeU32, writeU8, IgMsgRegister.wire, strWire, List.nil_append, List.append_assoc]

theorem igRegisterDecode_at {msg : IgMsgRegister} (hmsg : msg.Readable) {buf rest : Bytes}
    (h : RestAt buf 0 (msg.wire ++ rest)) (hbuf : buf.length < 2 ^ 64) (malloc : Nat → Bool) :
    ∃ d, igRegisterDecode malloc buf = some d ∧
      Leaves buf rest (Allocated (malloc 0) msg.hostnameLen ∧ Allocated (malloc 1) msg.osLen) msg.copied d := by
  simp only [IgMsgRegister.wire, List.append_assoc] at h
  obtain ⟨hip, ⟨hhost, hread⟩ | ⟨hhost, hread⟩⟩ := readStr_at h hmsg.hostname hbuf (malloc 0)
  · obtain ⟨hreadIp, hmon⟩ := readU32_at hip
    obtain ⟨hreadMon, hos⟩ := readU8_at hmon
    have hroom : ¬ left buf (0 + 2 + msg.hostnameLen.toNat) < 5 := by
      have := hos.1
      rw [left_eq hip.1 hbuf]
      omega
    obtain ⟨hrest, ⟨hos, hread'⟩ | ⟨hos, hread'⟩⟩ := readStr_at hos hmsg.os hbuf (malloc 1)
    all_goals
      simp only [igRegisterDecode, ↓bind_of_eq_some hread, if_neg hroom, ↓bind_of_eq_some hreadIp,
        ↓bind_of_eq_some hreadMon, ↓bind_of_eq_some hread']
    · exact ⟨_, rfl, .inl ⟨⟨hhost, hos⟩, _, hrest, rfl⟩⟩
    · exact ⟨_, rfl, .inr ⟨fun hall => hos hall.2, rfl⟩⟩
  · simp only [igRegisterDecode, ↓bind_of_eq_some hread]
    exact ⟨_, rfl, .inr ⟨fun hall => hhost hall.1, rfl⟩⟩

/-- A registration is decoded to itself exactly where there is memory for its strings. -/
theorem igRegisterDecode_encode {msg : IgMsgRegister} (hmsg : msg.Readable) {bufSize : Nat}
    (hok : 0 ≤ (igRegisterEncode msg bufSize).ret) (malloc : Nat → Bool) :
    igRegisterDecode malloc (igRegisterEncode msg bufSize).buf =
        some ⟨(igRegisterEncode msg bufSize).ret, msg.copied⟩ ↔
      Allocated (malloc 0) msg.hostnameLen ∧ Allocated (malloc 1) msg.osLen := by
  have hlen : msg.wire.length < 2 ^ 64 := by
    have hhost := msg.hostnameLen.toNat_lt
    have hos := msg.osLen.toNat_lt
    simp only [IgMsgRegister.wire, strWire, List.length_append, beBytes_length, List.length_take, List.length_cons,
      List.length_nil]
    omega
  have hat : RestAt msg.wire 0 (msg.wire ++ []) := ⟨Nat.zero_le _, (List.append_nil _).symm⟩
  obtain ⟨d, hd, hleaves⟩ := igRegisterDecode_at hmsg hat hlen malloc
  rw [igRegisterEncode_ok hok, Encoded.ok, hd, Option.some_inj]
  refine ⟨fun h => hleaves.copied_iff.1 ⟨_, h⟩, fun hall => ?_⟩
  obtain ⟨-, q, hq, rfl⟩ := hleaves.resolve_right fun hno => hno.1 hall
  rw [show q = msg.wire.length from hq.length.symm]

/-! ### Heartbeats -/

theorem igHeartbeatDecode_encode {msg : IgMsgHeartbeat} {bufSize : Nat}
    (hok : 0 ≤ (igHeartbeatEncodeSized msg bufSize).ret) (before : IgMsgHeartbeat) :
    igHeartbeatDecode (igHeartbeatEncodeSized msg bufSize).buf before =
      some ⟨(igHeartbeatEncodeSized msg bufSize).ret, msg⟩ := by
  unfold igHeartbeatEncodeSized at hok ⊢
  split at hok
  · exact absurd hok (by decide)
  · next hroom =>
    rw [if_neg hroom]
    have hat : RestAt (igHeartbeatEncode msg) 0
        (writeU64 [] msg.agentId ++ ([msg.status] ++ (beBytes 4 msg.timestamp.toNat ++ []))) := by
      have hwire : igHeartbeatEncode msg =
          writeU64 [] msg.agentId ++ ([msg.status] ++ (beBytes 4 msg.timestamp.toNat ++ [])) := by
        simp only [igHeartbeatEncode, writeU32, writeU8, List.append_assoc, List.append_nil]
      exact ⟨Nat.zero_le _, hwire⟩
    obtain ⟨hid, hat⟩ := readU64_at hat
    obtain ⟨hstatus, hat⟩ := readU8_at hat
    obtain ⟨htime, hat⟩ := readU32_at hat
    have hlen : (igHeartbeatEncode msg).length = 13 := hat.length
    have hlong : ¬ (igHeartbeatEncode msg).length < 13 := by omega
    simp only [Encoded.ok, igHeartbeatDecode, ↓bind_of_eq_some hid, ↓bind_of_eq_some hstatus, ↓bind_of_eq_some htime,
      hlen]
    rfl

/-! ### Events -/

/-- The strings are as long as the message says. -/
structure IgMsgFileEvent.Readable (msg : IgMsgFileEvent) : Prop where
  filePath : msg.filePathLen.toNat ≤ msg.filePath.length
  fileName : msg.fileNameLen.toNat ≤ msg.fileName.length
  comm : msg.commLen.toNat ≤ msg.comm.length

/-- The fields up to the names, with strings of their own. -/
def IgMsgFileEvent.named (msg : IgMsgFileEvent) : DecodedEvent :=
  { DecodedEvent.zero with
    agentId := msg.agentId
    eventType := msg.eventType
    filePathLen := msg.filePathLen
    filePath := owned msg.filePath msg.filePathLen
    fileNameLen := msg.fileNameLen
    fileName := owned msg.fileName msg.fileNameLen }

/-- The fields before the chain, with strings of their own. -/
def IgMsgFileEvent.copied (msg : IgMsgFileEvent) : DecodedEvent :=
  { msg.named with
    filePermission := msg.filePermission
    detectedBy := msg.detectedBy
    pid := msg.pid
    timestamp := msg.timestamp
    targetDev := msg.targetDev
    targetIno := msg.targetIno
    blocked := msg.blocked
    uid := msg.uid
    sid := msg.sid
    commLen := msg.commLen
    comm := owned msg.comm msg.commLen }

def IgMsgFileEvent.targetWire (msg : IgMsgFileEvent) : Bytes :=
  beBytes 2 msg.filePermission.toNat ++ ([msg.detectedBy] ++ (beBytes 4 msg.pid.toNat ++
    (beBytes 4 msg.timestamp.toNat ++ (writeU64 [] msg.targetDev ++ (writeU64 [] msg.targetIno ++ ([msg.blocked] ++
      (beBytes 4 msg.uid.toNat ++ (beBytes 4 msg.sid.toNat ++ strWire msg.comm msg.commLen))))))))

def IgMsgFileEvent.wire (msg : IgMsgFileEvent) : Bytes :=
  writeU64 [] msg.agentId ++ ([msg.eventType] ++ (strWire msg.filePath msg.filePathLen ++
    (strWire msg.fileName msg.fileNameLen ++ msg.targetWire)))

theorem writeFields_eq (msg : IgMsgFileEvent) :
    writeFields msg = msg.wire ++ ([wireDepth msg.chain] ++ [wireTrunc msg.chain]) := by
  simp only [writeFields, writeStr_eq, writeU8, writeU16, writeU32, writeU64, IgMsgFileEvent.wire,
    IgMsgFileEvent.targetWire, strWire, List.nil_append, List.append_assoc]

theorem chainEntryEncode_extends {e : ProcInfo} {p p' : Bytes} {bufSize : Nat}
    (h : chainEntryEncode e p bufSize = some p') : p <+: p' := by
  simp only [chainEntryEncode] at h
  split at h
  · cases h
  · cases h
    simp only [writeU32, writeU64, writeStr_eq, List.append_assoc]
    exact List.prefix_append _ _

theorem chainEncode_extends (bufSize : Nat) (es : List ProcInfo) (p : Bytes) :
    p <+: (chainEncode bufSize es p).buf := by
  induction es generalizing p with
  | nil => exact List.prefix_rfl
  | cons e es ih =>
    unfold chainEncode
    split
    · exact List.prefix_rfl
    · next p' h => exact (chainEntryEncode_extends h).trans (ih p')

theorem igFileEventEncode_ok {msg : IgMsgFileEvent} {bufSize : Nat} (hok : 0 ≤ (igFileEventEncode msg bufSize).ret) :
    msg.wire <+: (igFileEventEncode msg bufSize).buf := by
  have hfields : msg.wire <+: writeFields msg := by
    rw [writeFields_eq]
    exact List.prefix_append _ _
  simp only [igFileEventEncode] at hok ⊢
  split at hok
  · exact absurd hok (by decide)
  · next hneed =>
    rw [if_neg hneed]
    split
    · exact hfields
    · exact hfields.trans (chainEncode_extends _ _ _)

section Event

variable {msg : IgMsgFileEvent} {buf rest : Bytes} {p : Nat}

theorem decodeTarget_at (hmsg : msg.Readable) (h : RestAt buf p (msg.targetWire ++ rest)) (hbuf : buf.length < 2 ^ 64)
    (malloc : Nat → Bool) :
    ∃ d, decodeTarget malloc buf msg.named p = some d ∧
      Leaves buf rest (Allocated (malloc 2) msg.commLen) msg.copied d := by
  simp only [IgMsgFileEvent.targetWire, List.append_assoc] at h
  obtain ⟨hperm, hat⟩ := readU16_at h
  obtain ⟨hby, hat⟩ := readU8_at hat
  obtain ⟨hpid, hat⟩ := readU32_at hat
  obtain ⟨htime, hat₁⟩ := readU32_at hat
  obtain ⟨hdev, hat⟩ := readU64_at hat₁
  obtain ⟨hino, hat⟩ := readU64_at hat
  obtain ⟨hblocked, hat⟩ := readU8_at hat
  obtain ⟨huid, hat⟩ := readU32_at hat
  obtain ⟨hsid, hat⟩ := readU32_at hat
  have hp := hat.1
  have hroom : ¬ left buf p < 11 := by
    rw [left_eq h.1 hbuf]
    omega
  have hroom' : ¬ left buf (p + 2 + 1 + 4 + 4) < 25 := by
    rw [left_eq hat₁.1 hbuf]
    omega
  obtain ⟨hrest, ⟨hcomm, hread⟩ | ⟨hcomm, hread⟩⟩ := readStr_at hat hmsg.comm hbuf (malloc 2)
  all_goals
    simp only [decodeTarget, if_neg hroom, ↓bind_of_eq_some hperm, ↓bind_of_eq_some hby, ↓bind_of_eq_some hpid,
      ↓bind_of_eq_some htime, if_neg hroom', ↓bind_of_eq_some hdev, ↓bind_of_eq_some hino, ↓bind_of_eq_some hblocked,
      ↓bind_of_eq_some huid, ↓bind_of_eq_some hsid, ↓bind_of_eq_some hread]
  · exact ⟨_, rfl, .inl ⟨hcomm, _, hrest, rfl⟩⟩
  · exact ⟨_, rfl, .inr ⟨hcomm, rfl⟩⟩

theorem igFileEventDecode_at (hmsg : msg.Readable) (h : RestAt buf 0 (msg.wire ++ rest)) (hbuf : buf.length < 2 ^ 64)
    (malloc : Nat → Bool) (before : DecodedEvent) :
    ∃ d, igFileEventDecode malloc buf before = some d ∧
      Leaves buf rest (Allocated (malloc 0) msg.filePathLen ∧ Allocated (malloc 1) msg.fileNameLen ∧
        Allocated (malloc 2) msg.commLen) msg.copied d := by
  have hlong : ¬ buf.length < 24 := by
    have hlen := h.length
    simp only [IgMsgFileEvent.wire, IgMsgFileEvent.targetWire, writeU64, List.length_append, beBytes_length] at hlen
    omega
  simp only [IgMsgFileEvent.wire, List.append_assoc] at h
  obtain ⟨hid, hat⟩ := readU64_at h
  obtain ⟨htype, hat⟩ := readU8_at hat
  unfold igFileEventDecode
  rw [if_neg hlong]
  obtain ⟨hat, ⟨hpath, hread⟩ | ⟨hpath, hread⟩⟩ := readStr_at hat hmsg.filePath hbuf (malloc 0)
  · obtain ⟨hat, ⟨hname, hread'⟩ | ⟨hname, hread'⟩⟩ := readStr_at hat hmsg.fileName hbuf (malloc 1)
    all_goals
      simp only [↓bind_of_eq_some hid, ↓bind_of_eq_some htype, ↓bind_of_eq_some hread, ↓bind_of_eq_some hread']
    · obtain ⟨d, hd, hleaves⟩ := decodeTarget_at hmsg hat hbuf malloc
      refine ⟨d, hd, ?_⟩
      rcases hleaves with ⟨hcomm, hcopied⟩ | ⟨hcomm, hret⟩
      · exact .inl ⟨⟨hpath, hname, hcomm⟩, hcopied⟩
      · exact .inr ⟨fun hall => hcomm hall.2.2, hret⟩
    · exact ⟨_, rfl, .inr ⟨fun hall => hname hall.2.1, rfl⟩⟩
  · simp only [↓bind_of_eq_some hid, ↓bind_of_eq_some htype, ↓bind_of_eq_some hread]
    exact ⟨_, rfl, .inr ⟨fun hall => hpath hall.1, rfl⟩⟩

/-- An event is decoded to its fields before the chain exactly where there is memory for its strings. -/
theorem igFileEventDecode_encode (hmsg : msg.Readable) {bufSize : Nat} (hsize : bufSize < 2 ^ 64)
    (hok : 0 ≤ (igFileEventEncode msg bufSize).ret) (malloc : Nat → Bool) (before : DecodedEvent) :
    (∃ q : Nat, igFileEventDecode malloc (igFileEventEncode msg bufSize).buf before = some ⟨q, msg.copied⟩) ↔
      Allocated (malloc 0) msg.filePathLen ∧ Allocated (malloc 1) msg.fileNameLen ∧
        Allocated (malloc 2) msg.commLen := by
  obtain ⟨rest, hrest⟩ := igFileEventEncode_ok hok
  have hat : RestAt (igFileEventEncode msg bufSize).buf 0 (msg.wire ++ rest) := ⟨Nat.zero_le _, hrest.symm⟩
  have hlen := (igFileEventEncode_within msg hsize).trans_lt hsize
  obtain ⟨d, hd, hleaves⟩ := igFileEventDecode_at hmsg hat hlen malloc before
  rw [hd, ← hleaves.copied_iff]
  simp only [Option.some_inj]

end Event

/-! ## The codecs -/

/-- A decoder returns what its encoder wrote wherever there is memory for the strings; it reads inside its buffer; and
one that fails leaves no string set, unless an event's payload is too short for the first fields and the message had
one before. -/
theorem decoders_iff (malloc : Nat → Bool) :
    (∀ (msg : IgMsgRegister) (bufSize : Nat), msg.Readable → 0 ≤ (igRegisterEncode msg bufSize).ret →
      (igRegisterDecode malloc (igRegisterEncode msg bufSize).buf =
          some ⟨(igRegisterEncode msg bufSize).ret, msg.copied⟩ ↔
        Allocated (malloc 0) msg.hostnameLen ∧ Allocated (malloc 1) msg.osLen)) ∧
    (∀ (msg : IgMsgHeartbeat) (bufSize : Nat) (before : IgMsgHeartbeat),
      0 ≤ (igHeartbeatEncodeSized msg bufSize).ret →
      igHeartbeatDecode (igHeartbeatEncodeSized msg bufSize).buf before =
        some ⟨(igHeartbeatEncodeSized msg bufSize).ret, msg⟩) ∧
    (∀ (msg : IgMsgFileEvent) (bufSize : Nat) (before : DecodedEvent), bufSize < 2 ^ 64 → msg.Readable →
      0 ≤ (igFileEventEncode msg bufSize).ret →
      ((∃ q : Nat, igFileEventDecode malloc (igFileEventEncode msg bufSize).buf before = some ⟨q, msg.copied⟩) ↔
        Allocated (malloc 0) msg.filePathLen ∧ Allocated (malloc 1) msg.fileNameLen ∧
          Allocated (malloc 2) msg.commLen)) ∧
    (∀ buf : Bytes, buf.length < 2 ^ 64 →
      ∃ d, igRegisterDecode malloc buf = some d ∧ (d.ret < 0 → d.msg.NoStrings)) ∧
    (∀ (buf : Bytes) (msg : IgMsgHeartbeat), ∃ d, igHeartbeatDecode buf msg = some d) ∧
    ∀ (buf : Bytes) (msg : DecodedEvent), buf.length < 2 ^ 64 →
      ∃ d, igFileEventDecode malloc buf msg = some d ∧
        ((d.ret < 0 → d.msg.NoStrings) ↔ 24 ≤ buf.length ∨ msg.NoStrings) :=
  ⟨fun _ _ hmsg hok => igRegisterDecode_encode hmsg hok malloc,
    fun _ _ before hok => igHeartbeatDecode_encode hok before,
    fun _ _ before hsize hmsg hok => igFileEventDecode_encode hmsg hsize hok malloc before,
    fun _ hbuf => igRegisterDecode_inside hbuf malloc,
    igHeartbeatDecode_inside,
    fun _ msg hbuf => igFileEventDecode_inside hbuf malloc msg⟩

/-- An event of `/a` by a process without a name. -/
def plainEvent : IgMsgFileEvent where
  agentId := 7
  eventType := igEvtCreate
  filePathLen := 2
  filePath := [47, 97]
  fileNameLen := 1
  fileName := [97]
  filePermission := 0
  detectedBy := igMonEbpf
  pid := 42
  timestamp := 1
  targetDev := 1
  targetIno := 2
  blocked := 0
  uid := 0
  sid := 42
  commLen := 0
  comm := []
  chain := none

theorem decoders_plainEvent :
    (∃ q : Nat, igFileEventDecode (fun _ => true) (igFileEventEncode plainEvent 64).buf .zero =
      some ⟨q, plainEvent.copied⟩) ∧
    ∃ d, igFileEventDecode (fun _ => true) [0, 0, 0] plainEvent.copied = some d ∧
      ¬ (d.ret < 0 → d.msg.NoStrings) := by
  obtain ⟨-, -, hreturned, -, -, hleft⟩ := decoders_iff fun _ => true
  refine ⟨(hreturned plainEvent 64 .zero (by decide) ⟨by decide, by decide, by decide⟩ (by decide)).2
    ⟨.inr rfl, .inr rfl, .inr rfl⟩, ?_⟩
  obtain ⟨d, hd, hiff⟩ := hleft [0, 0, 0] plainEvent.copied (by decide)
  exact ⟨d, hd, fun h => (hiff.1 h).elim (by decide) fun hno => nomatch hno.1⟩

/-- A payload that is cut off, decoded into the message that the event before it left. -/
theorem decoders_cutOff_fails :
    ¬ ∀ (malloc : Nat → Bool) (buf : Bytes) (msg : DecodedEvent), buf.length < 2 ^ 64 →
      ∀ d, igFileEventDecode malloc buf msg = some d → d.ret < 0 → d.msg.NoStrings := by
  intro h
  have hno := h (fun _ => true) [0, 0, 0] plainEvent.copied (by decide) _ rfl (by decide)
  exact nomatch hno.1

end KnIg.Agent
