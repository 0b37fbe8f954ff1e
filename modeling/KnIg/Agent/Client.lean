/-
The agent's connection to the server: what a send leaves on it whatever the writes do, how a client
connects and registers, and the attempts of a reconnection.
-/
import KnIg.Agent.Register

namespace KnIg.Agent

open Lib

/-! ## Frames -/

def igMsgTypeRegister : UInt8 := 1
def igMsgTypeHeartbeat : UInt8 := 2
def igMsgTypeFileEvent : UInt8 := 3

def igFrameHeaderSize : Nat := 9
def igMaxFrameSize : Nat := 65535

/-- `ig_frame_header_t`. -/
structure IgFrameHeader where
  length : UInt32
  type : UInt8
  seqNum : UInt32

def igFrameHeaderEncode (h : IgFrameHeader) : Bytes := writeU32 (writeU8 (writeU32 [] h.length) h.type) h.seqNum

/-- A frame the client sends, of a size it sends. -/
structure SentFrame where
  type : UInt8
  seqNum : UInt32
  payload : Bytes
  fits : payload.length ≤ igMaxFrameSize

namespace SentFrame

variable (f : SentFrame)

def header : Bytes := igFrameHeaderEncode ⟨UInt32.ofNat f.payload.length, f.type, f.seqNum⟩

def bytes : Bytes := f.header ++ f.payload

@[simp] theorem header_length : f.header.length = igFrameHeaderSize := by
  simp [header, igFrameHeaderEncode, writeU32, writeU8, igFrameHeaderSize]

end SentFrame

/-! ## Writes -/

/-- What `ssl_write_all` leaves: the bytes that got through, whether all of them did, and the results
of later writes. -/
structure Wrote where
  written : Bytes
  ok : Bool
  rest : List Int

/-- The calls of `SSL_write` return `results`, one after the other; a call past their end fails. -/
def sslWriteAll : List Int → Bytes → Wrote
  | [], buf => ⟨[], buf = [], []⟩
  | n :: results, buf =>
    if buf = [] then ⟨[], true, n :: results⟩
    else if n ≤ 0 then ⟨[], false, results⟩
    else
      let r := sslWriteAll results (buf.drop n.toNat)
      { r with written := buf.take n.toNat ++ r.written }

/-- The header and the payload of a frame, the payload only after all of the header. -/
def sslWriteFrame (results : List Int) (hdrBuf payload : Bytes) : Wrote :=
  let h := sslWriteAll results hdrBuf
  if h.ok ∧ payload.length > 0 then
    let p := sslWriteAll h.rest payload
    { p with written := h.written ++ p.written }
  else h

/-- The results left over once they have carried `n` bytes; `none` if one of them fails first. -/
def carry : List Int → Nat → Option (List Int)
  | [], n => if n = 0 then some [] else none
  | r :: results, n =>
    if n = 0 then some (r :: results) else if r ≤ 0 then none else carry results (n - r.toNat)

/-- The results carry a frame with `n` bytes of payload: its header, then its payload. -/
def Carries (results : List Int) (n : Nat) : Prop := ((carry results igFrameHeaderSize).bind (carry · n)).isSome

instance (results : List Int) (n : Nat) : Decidable (Carries results n) :=
  inferInstanceAs (Decidable (_ = true))

/-- The very first write fails. -/
def FailsAtOnce (results : List Int) : Prop := results.headD 0 ≤ 0

instance (results : List Int) : Decidable (FailsAtOnce results) := inferInstanceAs (Decidable (_ ≤ _))

section Writes

variable {results : List Int} {buf : Bytes}

/-- What gets through is the front of the buffer, and all of it exactly if the write says so. -/
theorem sslWriteAll_front (results : List Int) (buf : Bytes) :
    (sslWriteAll results buf).written <+: buf ∧
      ((sslWriteAll results buf).ok = true ↔ (sslWriteAll results buf).written = buf) := by
  induction results generalizing buf with
  | nil => simp [sslWriteAll, eq_comm]
  | cons r results ih =>
    by_cases hb : buf = []
    · simp [sslWriteAll, hb]
    by_cases hr : r ≤ 0
    · simp [sslWriteAll, hb, hr, eq_comm]
    obtain ⟨hpre, hall⟩ := ih (buf.drop r.toNat)
    simp only [sslWriteAll, if_neg hb, if_neg hr]
    constructor
    · have h := (List.prefix_append_right_inj (buf.take r.toNat)).2 hpre
      rwa [List.take_append_drop] at h
    · rw [hall]
      constructor
      · intro h
        rw [h, List.take_append_drop]
      · intro h
        rw [← List.append_cancel_left_eq (buf.take r.toNat), h, List.take_append_drop]

@[simp] theorem carry_zero (results : List Int) : carry results 0 = some results := by
  cases results <;> simp [carry]

theorem sslWriteAll_carry (results : List Int) (buf : Bytes) :
    carry results buf.length =
      if (sslWriteAll results buf).ok then some (sslWriteAll results buf).rest else none := by
  induction results generalizing buf with
  | nil => by_cases hb : buf = [] <;> simp [sslWriteAll, carry, hb]
  | cons r results ih =>
    by_cases hb : buf = []
    · simp [sslWriteAll, carry, hb]
    by_cases hr : r ≤ 0
    · simp [sslWriteAll, carry, hb, hr]
    have h := ih (buf.drop r.toNat)
    rw [List.length_drop] at h
    simp only [sslWriteAll, carry, List.length_eq_zero_iff, if_neg hb, if_neg hr, h]

theorem sslWriteAll_nothing (hb : buf ≠ []) :
    (sslWriteAll results buf).written = [] ↔ FailsAtOnce results := by
  cases results with
  | nil => simp [sslWriteAll, FailsAtOnce]
  | cons r results =>
    by_cases hr : r ≤ 0
    · simp [sslWriteAll, FailsAtOnce, hb, hr]
    · have hr0 : r.toNat ≠ 0 := by omega
      simp [sslWriteAll, FailsAtOnce, hb, hr, hr0]

/-- The same of the two writes of a frame: nothing gets through exactly if the first write fails, and all
of it exactly if the results carry it. -/
theorem sslWriteFrame_front {hdrBuf : Bytes} (hh : hdrBuf.length = igFrameHeaderSize) (results : List Int)
    (payload : Bytes) :
    (sslWriteFrame results hdrBuf payload).written <+: hdrBuf ++ payload ∧
      ((sslWriteFrame results hdrBuf payload).ok = true ↔
        (sslWriteFrame results hdrBuf payload).written = hdrBuf ++ payload) ∧
      ((sslWriteFrame results hdrBuf payload).ok = true ↔ Carries results payload.length) ∧
      ((sslWriteFrame results hdrBuf payload).written = [] ↔ FailsAtOnce results) := by
  obtain ⟨hpre, hall⟩ := sslWriteAll_front results hdrBuf
  have hhc := sslWriteAll_carry results hdrBuf
  have hne : hdrBuf ≠ [] := by
    rintro rfl
    simp [igFrameHeaderSize] at hh
  rw [Carries, ← hh, hhc, ← sslWriteAll_nothing hne]
  unfold sslWriteFrame
  by_cases hok : (sslWriteAll results hdrBuf).ok = true
  · have hw := hall.1 hok
    by_cases hp : payload = []
    · simp [hp, hok, hw]
    · have hlen : payload.length > 0 := List.length_pos_iff.2 hp
      obtain ⟨hpre', hall'⟩ := sslWriteAll_front (sslWriteAll results hdrBuf).rest payload
      have hpc := sslWriteAll_carry (sslWriteAll results hdrBuf).rest payload
      simp only [hok, hlen, and_self, if_true, Option.bind_some, hpc, hw]
      refine ⟨(List.prefix_append_right_inj _).2 hpre', ?_, by split <;> simp_all, ?_⟩
      · rw [hall', List.append_cancel_left_eq]
      · simp [hne]
  · have hw : (sslWriteAll results hdrBuf).written ≠ hdrBuf ++ payload := by
      intro h
      rw [h] at hpre
      have hp : payload = [] := by
        have hlen := hpre.length_le
        rw [List.length_append] at hlen
        exact List.length_eq_zero_iff.1 (by omega)
      exact hok (hall.2 (by rw [h, hp, List.append_nil]))
    simp [hok, hw, hpre.trans (List.prefix_append hdrBuf payload)]

end Writes

/-! ## The client -/

inductive IgConnState where
  | disconnected | connected
deriving DecidableEq

/-- `ig_tcp_client_t`; `ssl` is the connection, as the bytes written to it so far. -/
structure IgTcpClient where
  ssl : Option Bytes
  state : IgConnState
  seqNum : UInt32
  agentId : UInt64
  sendFailures : Nat
  regHostname : TermArr 256
  regIp : TermArr 64
  regMonitorType : UInt8
  regOs : TermArr 64
  regCached : Bool

def igSendMaxRetries : Nat := 3

/-- `strncpy` of `n` characters into an array with room for a terminator. -/
def strncpy (n : Nat) (s : CStr) : TermArr (n + 1) :=
  ⟨s.cut n, Nat.lt_succ_of_le (List.length_take_le n s.bytes)⟩

/-- What a call that sends one frame leaves: the client, what it returns, and what got through. -/
structure Sent where
  cli : IgTcpClient
  ret : Int
  written : Bytes

namespace IgTcpClient

variable (cli : IgTcpClient)

def sendFrameLocked (type : UInt8) (payload : Bytes) (results : List Int) : Sent :=
  if payload.length > igMaxFrameSize then ⟨cli, -1, []⟩
  else
    match cli.state, cli.ssl with
    | .connected, some stream =>
      let seqNum := cli.seqNum + 1
      let hdrBuf := igFrameHeaderEncode ⟨UInt32.ofNat payload.length, type, seqNum⟩
      let w := sslWriteFrame results hdrBuf payload
      let cli := { cli with seqNum, ssl := some (stream ++ w.written) }
      if w.ok then ⟨{ cli with sendFailures := 0 }, 0, w.written⟩
      else
        let failures := cli.sendFailures + 1
        if failures ≥ igSendMaxRetries then ⟨{ cli with sendFailures := 0 }, -2, w.written⟩
        else ⟨{ cli with sendFailures := failures }, -1, w.written⟩
    | _, _ => ⟨cli, -1, []⟩

/-- `ig_tcp_connect_locked` once the connection stands. -/
def connected : IgTcpClient :=
  { cli with ssl := some [], state := .connected, seqNum := 0, sendFailures := 0 }

def disconnectLocked : IgTcpClient :=
  { cli with ssl := none, state := .disconnected, sendFailures := 0, seqNum := 0 }

/-- `ig_tcp_register_internal_locked`; `reply` is the frame received after the REGISTER, type and payload, if
one is. -/
def registerInternalLocked (hostname ipStr os : CStr) (monitorType : UInt8) (results : List Int)
    (reply : Option (UInt8 × Bytes)) : Sent :=
  if cli.state ≠ .connected then ⟨cli, -1, []⟩
  else
    match registerMsg hostname ipStr os monitorType with
    | none => ⟨cli, -1, []⟩
    | some msg =>
      let e := igRegisterEncode msg registerBufSize
      if e.ret < 0 then ⟨cli, -1, []⟩
      else
        let s := cli.sendFrameLocked igMsgTypeRegister (e.buf.take e.ret.toNat) results
        if s.ret < 0 then { s with ret := -1 }
        else
          match reply with
          | none => { s with ret := -1 }
          | some (type, payload) =>
            if payload.length < 8 ∨ type ≠ igMsgTypeRegister then { s with ret := -1 }
            else
              let hi := UInt32.ofNat (beNat (payload.take 4))
              let lo := UInt32.ofNat (beNat ((payload.drop 4).take 4))
              let cli :=
                { s.cli with
                  agentId := hi.toUInt64 <<< 32 ||| lo.toUInt64
                  regHostname := strncpy 255 hostname
                  regIp := strncpy 63 ipStr
                  regOs := strncpy 63 os
                  regMonitorType := monitorType
                  regCached := true }
              ⟨cli, 0, s.written⟩

end IgTcpClient

/-- A client that `main` has set up. -/
def freshClient : IgTcpClient where
  ssl := none
  state := .disconnected
  seqNum := 0
  agentId := 0
  sendFailures := 0
  regHostname := strncpy 255 ⟨ascii "web-01", by decide⟩
  regIp := strncpy 63 ⟨ascii "10.0.0.7", by decide⟩
  regMonitorType := 2
  regOs := strncpy 63 ⟨ascii "Linux", by decide⟩
  regCached := true

/-! ## Reconnection -/

def igReconnectMaxRetries : Nat := 20

/-- Where `ig_tcp_reconnect` stands: it is to make attempt `i`, or has connected in it and is to register. -/
inductive Redial where
  | attempt (i : Nat)
  | registering (i : Nat)
deriving DecidableEq

/-- How the next step of an attempt turns out. -/
inductive Dial where
  | connect (ok : Bool)
  | register (results : List Int) (reply : Option (UInt8 × Bytes))

/-- Where a step of `ig_tcp_reconnect` leaves it: further on, or returned. -/
inductive Redialed where
  | more (r : Redial)
  | returned (ret : Int)
deriving DecidableEq

/-- The attempt after `i`, if one is left. -/
def Redial.next (i : Nat) : Redialed :=
  if i + 1 < igReconnectMaxRetries then .more (.attempt (i + 1)) else .returned (-1)

namespace IgTcpClient

variable (cli : IgTcpClient)

/-- One step of `ig_tcp_reconnect`, which has disconnected the client before the first; a step that is not
due changes nothing. -/
def redial (r : Redial) (d : Dial) : IgTcpClient × Redialed :=
  match r, d with
  | .attempt i, .connect ok =>
    if ok then (cli.connected, if cli.regCached then .more (.registering i) else .returned 0)
    else (cli, Redial.next i)
  | .registering i, .register results reply =>
    let s := cli.registerInternalLocked cli.regHostname.str cli.regIp.str cli.regOs.str cli.regMonitorType results reply
    if s.ret = 0 then (s.cli, .returned 0) else (s.cli.disconnectLocked, Redial.next i)
  | _, _ => (cli, .more r)

end IgTcpClient

/-! ## What a send leaves -/

namespace IgTcpClient

section Sends

variable {cli : IgTcpClient} {type : UInt8} {payload : Bytes} {results : List Int}

/-- A send on a connection: the front of its frame gets through, the number is used up whatever does, and
the third failure in a row asks for a reconnection. -/
theorem sendFrameLocked_eq (hs : cli.state = .connected) {stream : Bytes} (hw : cli.ssl = some stream)
    (hp : payload.length ≤ igMaxFrameSize) (type : UInt8) (results : List Int) :
    ∃ written, written <+: (SentFrame.mk type (cli.seqNum + 1) payload hp).bytes ∧
      (Carries results payload.length ↔ written = (SentFrame.mk type (cli.seqNum + 1) payload hp).bytes) ∧
      (written = [] ↔ FailsAtOnce results) ∧
      cli.sendFrameLocked type payload results =
        (let cli' := { cli with seqNum := cli.seqNum + 1, ssl := some (stream ++ written) }
        if Carries results payload.length then ⟨{ cli' with sendFailures := 0 }, 0, written⟩
        else if cli.sendFailures + 1 ≥ igSendMaxRetries then ⟨{ cli' with sendFailures := 0 }, -2, written⟩
        else ⟨{ cli' with sendFailures := cli.sendFailures + 1 }, -1, written⟩) := by
  have hlen := (SentFrame.mk type (cli.seqNum + 1) payload hp).header_length
  obtain ⟨hpre, hall, hcar, hnone⟩ := sslWriteFrame_front hlen results payload
  refine ⟨_, hpre, hcar.symm.trans hall, hnone, ?_⟩
  simp only [sendFrameLocked, if_neg (not_lt.2 hp), hs, hw, ← hcar]
  rfl

theorem sendFrameLocked_oversize (hp : igMaxFrameSize < payload.length) :
    cli.sendFrameLocked type payload results = ⟨cli, -1, []⟩ := by
  rw [sendFrameLocked, if_pos hp]

/-- No send goes out on a client that is not connected. -/
theorem sendFrameLocked_disconnected (hs : cli.state ≠ .connected) :
    cli.sendFrameLocked type payload results = ⟨cli, -1, []⟩ := by
  have hd : cli.state = .disconnected := by
    cases h : cli.state with
    | disconnected => rfl
    | connected => exact absurd h hs
  simp [sendFrameLocked, hd]

/-- A client that is connected has a connection. -/
def Linked (cli : IgTcpClient) : Prop := cli.state = .connected ↔ cli.ssl.isSome

/-- A send neither makes nor drops a connection. -/
theorem sendFrameLocked_link (cli : IgTcpClient) (type : UInt8) (payload : Bytes) (results : List Int) :
    (cli.sendFrameLocked type payload results).cli.state = cli.state ∧
      (cli.sendFrameLocked type payload results).cli.ssl.isSome = cli.ssl.isSome := by
  unfold sendFrameLocked
  split
  · exact ⟨rfl, rfl⟩
  · split
    · next stream hs hw =>
      simp only
      split
      · exact ⟨rfl, by rw [hw]; rfl⟩
      · split
        · exact ⟨rfl, by rw [hw]; rfl⟩
        · exact ⟨rfl, by rw [hw]; rfl⟩
    · exact ⟨rfl, rfl⟩

theorem sendFrameLocked_linked (h : cli.Linked) (type : UInt8) (payload : Bytes) (results : List Int) :
    (cli.sendFrameLocked type payload results).cli.Linked := by
  obtain ⟨hs, hl⟩ := sendFrameLocked_link cli type payload results
  rw [Linked, hs, hl]
  exact h

theorem registerInternalLocked_link (cli : IgTcpClient) (hostname ipStr os : CStr) (monitorType : UInt8)
    (results : List Int) (reply : Option (UInt8 × Bytes)) :
    (cli.registerInternalLocked hostname ipStr os monitorType results reply).cli.state = cli.state ∧
      (cli.registerInternalLocked hostname ipStr os monitorType results reply).cli.ssl.isSome = cli.ssl.isSome := by
  unfold registerInternalLocked
  split
  · exact ⟨rfl, rfl⟩
  split
  · exact ⟨rfl, rfl⟩
  simp only
  split
  · exact ⟨rfl, rfl⟩
  split
  · exact sendFrameLocked_link cli ..
  split
  · exact sendFrameLocked_link cli ..
  split
  · exact sendFrameLocked_link cli ..
  · exact sendFrameLocked_link cli ..

theorem registerInternalLocked_linked (h : cli.Linked) (hostname ipStr os : CStr) (monitorType : UInt8)
    (results : List Int) (reply : Option (UInt8 × Bytes)) :
    (cli.registerInternalLocked hostname ipStr os monitorType results reply).cli.Linked := by
  obtain ⟨hs, hl⟩ := registerInternalLocked_link cli hostname ipStr os monitorType results reply
  rw [Linked, hs, hl]
  exact h

/-- A client registers on a connection. -/
theorem registerInternalLocked_connected {hostname ipStr os : CStr} {monitorType : UInt8}
    {reply : Option (UInt8 × Bytes)}
    (h : (cli.registerInternalLocked hostname ipStr os monitorType results reply).ret = 0) :
    cli.state = .connected := by
  by_contra hs
  simp [registerInternalLocked, hs] at h

end Sends

section Redials

variable {cli : IgTcpClient}

@[simp] theorem connected_linked (cli : IgTcpClient) : cli.connected.Linked := by
  simp [Linked, connected]

@[simp] theorem disconnectLocked_linked (cli : IgTcpClient) : cli.disconnectLocked.Linked := by
  simp [Linked, disconnectLocked]

theorem redial_linked (h : cli.Linked) (r : Redial) (d : Dial) : (cli.redial r d).1.Linked := by
  unfold redial
  split
  · split
    · exact connected_linked cli
    · exact h
  · simp only
    split
    · obtain ⟨hs, hl⟩ := registerInternalLocked_link cli ..
      rw [Linked, hs, hl]
      exact h
    · exact disconnectLocked_linked _
  · exact h

theorem redial_next {i : Nat} {ret : Int} (h : Redial.next i = .returned ret) : ret = -1 := by
  unfold Redial.next at h
  split at h
  · cases h
  · cases h
    rfl

/-- A reconnection returns 0, with the client connected, or it gives up. -/
theorem redial_returned {r : Redial} {d : Dial} {ret : Int} (h : (cli.redial r d).2 = .returned ret) :
    (ret = 0 ∧ (cli.redial r d).1.state = .connected) ∨ ret = -1 := by
  unfold redial at h ⊢
  split at h
  · split at h
    · next hok =>
      split at h
      · cases h
      · cases h
        exact .inl ⟨rfl, by simp [hok, connected]⟩
    · exact .inr (redial_next h)
  · simp only at h ⊢
    split at h
    · next hret =>
      cases h
      have hc := registerInternalLocked_connected hret
      obtain ⟨hs, -⟩ := registerInternalLocked_link cli ..
      exact .inl ⟨rfl, by rw [if_pos hret, hs, hc]⟩
    · exact .inr (redial_next h)
  · cases h

end Redials

end IgTcpClient
end KnIg.Agent
