/-
The ledger of the client's connections. It follows the client through the operations that touch its connection
and keeps, for every connection, the frames written to it and the acknowledgement received on it.
-/
import KnIg.Agent.Client
import KnIg.Lib.Run

namespace KnIg.Agent

open Lib

/-! ## Connections -/

/-- What happens on a connection: a frame is written, with the bytes of it that got through, or the
acknowledgement of a REGISTER is received. -/
inductive ConnEvent where
  | wrote (frame : SentFrame) (written : Bytes)
  | acked

def ConnEvent.isWrite : ConnEvent → Bool
  | .wrote _ _ => true
  | .acked => false

/-- The bytes an event puts on the connection. -/
def ConnEvent.written : ConnEvent → Bytes
  | .wrote _ written => written
  | .acked => []

/-- The first frame is REGISTER with number 1; a heartbeat or an event comes after the acknowledgement. -/
def InTurn (before : List ConnEvent) (e : ConnEvent) : Prop :=
  ∀ frame written, e = .wrote frame written →
    ((∀ d ∈ before, d.isWrite = false) → frame.type = igMsgTypeRegister ∧ frame.seqNum = 1) ∧
      (frame.type = igMsgTypeHeartbeat ∨ frame.type = igMsgTypeFileEvent → .acked ∈ before)

def RegistersFirst (conn : List ConnEvent) : Prop := EachAfter InTurn [] conn

/-- The connections that are gone, and the one that stands. -/
structure Ledger where
  gone : List (List ConnEvent)
  current : Option (List ConnEvent)

namespace Ledger

variable (l : Ledger)

def connections : List (List ConnEvent) := l.gone ++ l.current.toList

def opened : Ledger := ⟨l.connections, some []⟩

def dropped : Ledger := ⟨l.connections, none⟩

def record (es : List ConnEvent) : Ledger := { l with current := l.current.map (· ++ es) }

end Ledger

/-! ## What the client does with its connection -/

/-- The operations of the client that touch its connection. -/
inductive ClientOp where
  | connect
  | register (hostname ipStr os : CStr) (monitorType : UInt8) (results : List Int) (reply : Option (UInt8 × Bytes))
  | send (type : UInt8) (payload : Bytes) (results : List Int)
  | disconnect

namespace ClientOp

def apply (cli : IgTcpClient) : ClientOp → IgTcpClient
  | .connect => cli.connected
  | .register hostname ipStr os monitorType results reply =>
    (cli.registerInternalLocked hostname ipStr os monitorType results reply).cli
  | .send type payload results => (cli.sendFrameLocked type payload results).cli
  | .disconnect => cli.disconnectLocked

/-- The frame a send writes, on a client that is connected. -/
def sent (cli : IgTcpClient) (type : UInt8) (payload : Bytes) (results : List Int) : List ConnEvent :=
  if fits : payload.length ≤ igMaxFrameSize then
    if cli.state = .connected ∧ cli.ssl.isSome then
      [.wrote ⟨type, cli.seqNum + 1, payload, fits⟩ (cli.sendFrameLocked type payload results).written]
    else []
  else []

/-- The REGISTER that a registration writes, and its acknowledgement when the registration succeeds. -/
def registered (cli : IgTcpClient) (hostname ipStr os : CStr) (monitorType : UInt8) (results : List Int)
    (reply : Option (UInt8 × Bytes)) : List ConnEvent :=
  match registerMsg hostname ipStr os monitorType with
  | none => []
  | some msg =>
    let e := igRegisterEncode msg registerBufSize
    if e.ret < 0 then []
    else
      sent cli igMsgTypeRegister (e.buf.take e.ret.toNat) results ++
        if (cli.registerInternalLocked hostname ipStr os monitorType results reply).ret = 0 then [.acked] else []

def record (cli : IgTcpClient) (l : Ledger) : ClientOp → Ledger
  | .connect => l.opened
  | .register hostname ipStr os monitorType results reply =>
    l.record (registered cli hostname ipStr os monitorType results reply)
  | .send type payload results => l.record (sent cli type payload results)
  | .disconnect => l.dropped

end ClientOp

/-- The client with the ledger of its connections. -/
structure Followed where
  cli : IgTcpClient
  ledger : Ledger

namespace Followed

def op (f : Followed) (o : ClientOp) : Followed := ⟨o.apply f.cli, o.record f.cli f.ledger⟩

def ops (f : Followed) (os : List ClientOp) : Followed := os.foldl op f

end Followed

/-- The operations of one step of `ig_tcp_reconnect`. -/
def redialOps (cli : IgTcpClient) (r : Redial) (d : Dial) : List ClientOp :=
  match r, d with
  | .attempt _, .connect ok => if ok then [.connect] else []
  | .registering _, .register results reply =>
    let reg : ClientOp := .register cli.regHostname.str cli.regIp.str cli.regOs.str cli.regMonitorType results reply
    if (cli.registerInternalLocked cli.regHostname.str cli.regIp.str cli.regOs.str cli.regMonitorType results
        reply).ret = 0 then [reg]
    else [reg, .disconnect]
  | _, _ => []

/-! ## The ledger follows the client -/

@[simp] theorem Followed.ops_nil (f : Followed) : f.ops [] = f := rfl

@[simp] theorem Followed.ops_cons (f : Followed) (o : ClientOp) (os : List ClientOp) :
    f.ops (o :: os) = (f.op o).ops os :=
  rfl

theorem Followed.ops_append (f : Followed) (os os' : List ClientOp) : f.ops (os ++ os') = (f.ops os).ops os' :=
  List.foldl_append

theorem ops_redialOps (f : Followed) (r : Redial) (d : Dial) :
    (f.ops (redialOps f.cli r d)).cli = (f.cli.redial r d).1 := by
  cases r with
  | attempt i =>
    cases d with
    | connect ok => cases ok <;> rfl
    | register results reply => rfl
  | registering i =>
    cases d with
    | connect ok => rfl
    | register results reply =>
      simp only [redialOps, IgTcpClient.redial]
      split <;> rfl

/-! ## The ledger has the bytes of the connection -/

def bytesOf (es : List ConnEvent) : Bytes := es.flatMap ConnEvent.written

/-- The bytes of the connection that stands. -/
def Ledger.stream (l : Ledger) : Option Bytes := l.current.map bytesOf

theorem Ledger.stream_record (l : Ledger) (es : List ConnEvent) :
    (l.record es).stream = l.stream.map (· ++ bytesOf es) := by
  unfold Ledger.stream Ledger.record bytesOf
  cases l.current <;> simp

namespace ClientOp

variable (cli : IgTcpClient)

theorem ssl_send (type : UInt8) (payload : Bytes) (results : List Int) :
    (cli.sendFrameLocked type payload results).cli.ssl =
      cli.ssl.map (· ++ bytesOf (sent cli type payload results)) := by
  unfold sent
  split
  · next fits =>
    cases hw : cli.ssl with
    | none => cases hs : cli.state <;> simp [IgTcpClient.sendFrameLocked, hs, hw]
    | some stream =>
      cases hs : cli.state with
      | disconnected => simp [IgTcpClient.sendFrameLocked, hs, hw, bytesOf]
      | connected =>
        obtain ⟨written, -, -, -, heq⟩ := IgTcpClient.sendFrameLocked_eq hs hw fits type results
        have hsent : (cli.sendFrameLocked type payload results).cli.ssl = some (stream ++ written) ∧
            (cli.sendFrameLocked type payload results).written = written := by
          rw [heq]
          simp only
          split
          · exact ⟨rfl, rfl⟩
          · split <;> exact ⟨rfl, rfl⟩
        simp [hsent, bytesOf, ConnEvent.written]
  · next hfits =>
    rw [IgTcpClient.sendFrameLocked_oversize (not_le.1 hfits)]
    simp [bytesOf]

theorem ssl_register (hostname ipStr os : CStr) (monitorType : UInt8) (results : List Int)
    (reply : Option (UInt8 × Bytes)) :
    (cli.registerInternalLocked hostname ipStr os monitorType results reply).cli.ssl =
      cli.ssl.map (· ++ bytesOf (registered cli hostname ipStr os monitorType results reply)) := by
  have hnone : cli.ssl = cli.ssl.map (· ++ bytesOf []) := by cases cli.ssl <;> simp [bytesOf]
  unfold registered
  cases hm : registerMsg hostname ipStr os monitorType with
  | none =>
    simp only [IgTcpClient.registerInternalLocked, hm]
    split <;> exact hnone
  | some msg =>
    simp only
    split
    · next hret =>
      simp only [IgTcpClient.registerInternalLocked, hm, if_pos hret]
      split <;> exact hnone
    · next hret =>
      have hacked : ∀ P : Prop, [Decidable P] → bytesOf (if P then [ConnEvent.acked] else []) = [] := by
        intro P _
        split <;> rfl
      have hssl := ssl_send cli igMsgTypeRegister ((igRegisterEncode msg registerBufSize).buf.take
        (igRegisterEncode msg registerBufSize).ret.toNat) results
      rw [bytesOf, List.flatMap_append, ← bytesOf, ← bytesOf, hacked, List.append_nil, ← hssl]
      -- whatever becomes of the reply, the connection is as the REGISTER left it
      by_cases hs : cli.state = .connected
      · simp only [IgTcpClient.registerInternalLocked, hs, hm, if_neg hret, ne_eq, not_true_eq_false, if_false]
        repeat' split
        all_goals rfl
      · rw [IgTcpClient.sendFrameLocked_disconnected hs]
        simp only [IgTcpClient.registerInternalLocked, ne_eq, hs, not_false_eq_true, if_true]

end ClientOp

/-- The ledger's connection has the bytes the client has written. -/
def Followed.Matches (f : Followed) : Prop := f.ledger.stream = f.cli.ssl

theorem Followed.Matches.op {f : Followed} (h : f.Matches) (o : ClientOp) : (f.op o).Matches := by
  unfold Followed.Matches at h ⊢
  cases o with
  | connect => rfl
  | disconnect => rfl
  | register hostname ipStr os monitorType results reply =>
    exact (Ledger.stream_record _ _).trans (h ▸ (ClientOp.ssl_register ..).symm)
  | send type payload results => exact (Ledger.stream_record _ _).trans (h ▸ (ClientOp.ssl_send ..).symm)

theorem Followed.Matches.ops {f : Followed} (h : f.Matches) (os : List ClientOp) : (f.ops os).Matches :=
  List.foldlRecOn os _ h fun _ hf o _ => hf.op o

/-! ## What each operation leaves of a connection -/

namespace ClientOp

variable (cli : IgTcpClient)

/-- A send writes one frame with the next number, or nothing and fails. -/
theorem sent_cases (type : UInt8) (payload : Bytes) (results : List Int) :
    (sent cli type payload results = [] ∧ (cli.sendFrameLocked type payload results).ret < 0) ∨
      ∃ frame written, sent cli type payload results = [.wrote frame written] ∧ frame.type = type ∧
        frame.seqNum = cli.seqNum + 1 := by
  unfold sent
  split
  · next fits =>
    split
    · exact .inr ⟨_, _, rfl, rfl, rfl⟩
    · next hdown =>
      refine .inl ⟨rfl, ?_⟩
      cases hs : cli.state <;> cases hw : cli.ssl <;> simp_all [IgTcpClient.sendFrameLocked]
  · next hfits =>
    rw [IgTcpClient.sendFrameLocked_oversize (not_le.1 hfits)]
    refine .inl ⟨rfl, ?_⟩
    show (-1 : Int) < 0
    omega

/-- A registration writes its REGISTER, and has it acknowledged if it succeeds. -/
theorem registered_cases (hostname ipStr os : CStr) (monitorType : UInt8) (results : List Int)
    (reply : Option (UInt8 × Bytes)) :
    let r := cli.registerInternalLocked hostname ipStr os monitorType results reply
    let es := registered cli hostname ipStr os monitorType results reply
    (es = [] ∧ r.ret ≠ 0) ∨ ∃ frame written, frame.type = igMsgTypeRegister ∧ frame.seqNum = cli.seqNum + 1 ∧
      es = .wrote frame written :: if r.ret = 0 then [.acked] else [] := by
  intro r es
  have hr : r = cli.registerInternalLocked hostname ipStr os monitorType results reply := rfl
  have hes : es = registered cli hostname ipStr os monitorType results reply := rfl
  unfold registered at hes
  unfold IgTcpClient.registerInternalLocked at hr
  cases hm : registerMsg hostname ipStr os monitorType with
  | none =>
    simp only [hm] at hr hes
    refine .inl ⟨hes, ?_⟩
    rw [hr]
    split <;> simp
  | some msg =>
    simp only [hm] at hr hes
    by_cases hret : (igRegisterEncode msg registerBufSize).ret < 0
    · rw [if_pos hret] at hes
      refine .inl ⟨hes, ?_⟩
      rw [hr, if_pos hret]
      split <;> simp
    · rw [if_neg hret] at hr hes
      rcases sent_cases cli igMsgTypeRegister ((igRegisterEncode msg registerBufSize).buf.take
        (igRegisterEncode msg registerBufSize).ret.toNat) results with ⟨hnil, hfail⟩ | ⟨frame, written, hsent, ht, hn⟩
      · have hne : r.ret ≠ 0 := by
          rw [hr, if_pos hfail]
          split <;> simp
        rw [hnil, List.nil_append, if_neg hne] at hes
        exact .inl ⟨hes, hne⟩
      · rw [hsent, List.singleton_append] at hes
        exact .inr ⟨frame, written, ht, hn, hes⟩

/-- An acknowledgement in the ledger is a frame of type REGISTER that was read after the REGISTER. -/
theorem reply_of_acked {hostname ipStr os : CStr} {monitorType : UInt8} {results : List Int}
    {reply : Option (UInt8 × Bytes)}
    (h : .acked ∈ registered cli hostname ipStr os monitorType results reply) :
    ∃ payload, reply = some (igMsgTypeRegister, payload) ∧ 8 ≤ payload.length := by
  have hret : (cli.registerInternalLocked hostname ipStr os monitorType results reply).ret = 0 := by
    rcases registered_cases cli hostname ipStr os monitorType results reply with ⟨hnil, -⟩ | ⟨_, _, -, -, hes⟩
    · rw [hnil] at h
      cases h
    · rw [hes] at h
      by_contra hne
      simp [hne] at h
  unfold IgTcpClient.registerInternalLocked at hret
  by_cases hs : cli.state = .connected
  · rw [if_neg (not_not.2 hs)] at hret
    cases hm : registerMsg hostname ipStr os monitorType with
    | none => simp [hm] at hret
    | some msg =>
      simp only [hm] at hret
      split at hret
      · simp at hret
      split at hret
      · simp at hret
      cases hr : reply with
      | none => simp [hr] at hret
      | some ack =>
        obtain ⟨type, payload⟩ := ack
        simp only [hr] at hret
        split at hret
        · simp at hret
        · next hack =>
          rw [not_or, not_lt, not_not] at hack
          exact ⟨payload, by rw [hack.2], hack.1⟩
  · rw [if_pos hs] at hret
    simp at hret

end ClientOp

namespace Followed

variable (f : Followed)

/-- There is no connection. -/
structure Down : Prop where
  state : f.cli.state = .disconnected
  current : f.ledger.current = none

/-- The connection has just been made. -/
structure Fresh : Prop where
  seqNum : f.cli.seqNum = 0
  current : f.ledger.current = some []

/-- The REGISTER of the connection has been acknowledged. -/
structure Acked (conn : List ConnEvent) : Prop where
  current : f.ledger.current = some conn
  first : RegistersFirst conn
  acked : .acked ∈ conn
  written : ∃ e ∈ conn, e.isWrite = true

/-- What a thread in the middle of a reconnection stands on. -/
def At (f : Followed) : Redial → Prop
  | .attempt _ => f.Down
  | .registering _ => f.Fresh

/-- Where a step of a reconnection leaves the client. -/
def After (f : Followed) : Redialed → Prop
  | .more r => f.At r
  | .returned ret => if ret = 0 then ∃ conn, f.Acked conn else f.Down

/-- What no operation changes: the registration stays cached, the connections that are gone were in order. -/
structure Kept : Prop where
  cached : f.cli.regCached = true
  gone : ∀ conn ∈ f.ledger.gone, RegistersFirst conn

section Ops

variable {f : Followed}

theorem regCached_send (cli : IgTcpClient) (type : UInt8) (payload : Bytes) (results : List Int) :
    (cli.sendFrameLocked type payload results).cli.regCached = cli.regCached := by
  unfold IgTcpClient.sendFrameLocked
  split
  · rfl
  split
  · simp only
    split
    · rfl
    · split <;> rfl
  · rfl

theorem regCached_register {cli : IgTcpClient} (h : cli.regCached = true) (hostname ipStr os : CStr)
    (monitorType : UInt8) (results : List Int) (reply : Option (UInt8 × Bytes)) :
    (cli.registerInternalLocked hostname ipStr os monitorType results reply).cli.regCached = true := by
  have hsend : ∀ payload, (cli.sendFrameLocked igMsgTypeRegister payload results).cli.regCached = true :=
    fun payload => (regCached_send ..).trans h
  unfold IgTcpClient.registerInternalLocked
  split
  · exact h
  split
  · exact h
  simp only
  split
  · exact h
  split
  · exact hsend _
  split
  · exact hsend _
  split
  · exact hsend _
  · rfl

theorem kept_record {cli : IgTcpClient} (h : f.Kept) (hc : cli.regCached = true) (es : List ConnEvent) :
    Kept ⟨cli, f.ledger.record es⟩ :=
  ⟨hc, h.gone⟩

theorem Kept.connections (h : f.Kept) (hcur : ∀ conn ∈ f.ledger.current, RegistersFirst conn) :
    ∀ conn ∈ f.ledger.connections, RegistersFirst conn := by
  intro conn hc
  rcases List.mem_append.1 hc with hgone | hc
  · exact h.gone conn hgone
  · exact hcur conn (Option.mem_toList.1 hc)

/-- A connection may go once its frames are in order. -/
theorem Kept.op_disconnect (h : f.Kept) (hcur : ∀ conn ∈ f.ledger.current, RegistersFirst conn) :
    (f.op .disconnect).Kept ∧ (f.op .disconnect).Down :=
  ⟨⟨h.cached, h.connections hcur⟩, rfl, rfl⟩

theorem Kept.op_connect (h : f.Kept) (hcur : ∀ conn ∈ f.ledger.current, RegistersFirst conn) :
    (f.op .connect).Kept ∧ (f.op .connect).Fresh :=
  ⟨⟨h.cached, h.connections hcur⟩, rfl, rfl⟩

/-- On a fresh connection a registration is in order, and acknowledged if it succeeds. -/
theorem Fresh.op_register (h : f.Fresh) (hk : f.Kept) (hostname ipStr os : CStr) (monitorType : UInt8)
    (results : List Int) (reply : Option (UInt8 × Bytes)) :
    let f' := f.op (.register hostname ipStr os monitorType results reply)
    f'.Kept ∧ ∃ conn, f'.ledger.current = some conn ∧ RegistersFirst conn ∧
      ((f.cli.registerInternalLocked hostname ipStr os monitorType results reply).ret = 0 → f'.Acked conn) := by
  intro f'
  refine ⟨kept_record hk (regCached_register hk.cached ..) _, ?_⟩
  have hcur : f'.ledger.current = some (ClientOp.registered f.cli hostname ipStr os monitorType results reply) := by
    show f.ledger.current.map (· ++ _) = _
    rw [h.current]
    rfl
  refine ⟨_, hcur, ?_⟩
  rcases ClientOp.registered_cases f.cli hostname ipStr os monitorType results reply with
    ⟨hnil, hret⟩ | ⟨frame, written, ht, hn, hes⟩
  · rw [hnil]
    exact ⟨eachAfter_nil, fun h0 => absurd h0 hret⟩
  · have hframe : InTurn [] (.wrote frame written) := by
      rintro frame' written' he
      cases he
      refine ⟨fun _ => ⟨ht, by rw [hn, h.seqNum]; rfl⟩, ?_⟩
      rintro (hty | hty)
      · exact absurd (ht.symm.trans hty) (by decide)
      · exact absurd (ht.symm.trans hty) (by decide)
    have hack : ∀ before, InTurn before .acked := fun before frame written he => by cases he
    have hfirst : RegistersFirst (ClientOp.registered f.cli hostname ipStr os monitorType results reply) := by
      rw [hes]
      refine eachAfter_cons.2 ⟨hframe, ?_⟩
      split
      · exact eachAfter_cons.2 ⟨hack _, eachAfter_nil⟩
      · exact eachAfter_nil
    refine ⟨hfirst, fun h0 => ⟨hcur, hfirst, ?_, ?_⟩⟩
    · rw [hes, if_pos h0]
      simp
    · rw [hes]
      exact ⟨_, List.mem_cons_self, rfl⟩

/-- After the acknowledgement every frame is in order. -/
theorem Acked.op_send {conn : List ConnEvent} (h : f.Acked conn) (type : UInt8) (payload : Bytes)
    (results : List Int) : ∃ conn', (f.op (.send type payload results)).Acked conn' := by
  refine ⟨conn ++ ClientOp.sent f.cli type payload results, ?_, ?_, List.mem_append_left _ h.acked, ?_⟩
  · show f.ledger.current.map (· ++ _) = _
    rw [h.current]
    rfl
  · refine eachAfter_append.2 ⟨h.first, ?_⟩
    rcases ClientOp.sent_cases f.cli type payload results with ⟨hnil, -⟩ | ⟨frame, written, hsent, -, -⟩
    · rw [hnil]
      exact eachAfter_nil
    · rw [hsent]
      refine eachAfter_cons.2 ⟨fun frame' written' _ => ⟨fun hno => ?_, fun _ => h.acked⟩, eachAfter_nil⟩
      obtain ⟨e, he, hwrite⟩ := h.written
      rw [List.nil_append] at hno
      rw [hno e he] at hwrite
      cases hwrite
  · obtain ⟨e, he, hwrite⟩ := h.written
    exact ⟨e, List.mem_append_left _ he, hwrite⟩

theorem Down.op_send (h : f.Down) (type : UInt8) (payload : Bytes) (results : List Int) :
    (f.op (.send type payload results)).Down := by
  have hsend : f.cli.sendFrameLocked type payload results = ⟨f.cli, -1, []⟩ := by
    unfold IgTcpClient.sendFrameLocked
    rw [h.state]
    split <;> rfl
  refine ⟨?_, ?_⟩
  · show (f.cli.sendFrameLocked type payload results).cli.state = _
    rw [hsend]
    exact h.state
  · show f.ledger.current.map (· ++ _) = _
    rw [h.current]
    rfl

theorem Kept.op_send (h : f.Kept) (type : UInt8) (payload : Bytes) (results : List Int) :
    (f.op (.send type payload results)).Kept :=
  kept_record h ((regCached_send ..).trans h.cached) _

/-- A step of a reconnection opens a connection, registers on it first of all, or drops it. -/
theorem At.redial {r : Redial} (h : f.At r) (hk : f.Kept) (d : Dial) :
    (f.ops (redialOps f.cli r d)).Kept ∧ (f.ops (redialOps f.cli r d)).After (f.cli.redial r d).2 := by
  have hgiveUp : ∀ {f : Followed} (i : Nat), f.Down → f.After (Redial.next i) := by
    intro f i hdown
    unfold Redial.next
    split
    · exact hdown
    · exact hdown
  cases r with
  | attempt i =>
    cases d with
    | register results reply => exact ⟨hk, h⟩
    | connect ok =>
      cases ok with
      | false => exact ⟨hk, hgiveUp i h⟩
      | true =>
        have hnone : ∀ conn ∈ f.ledger.current, RegistersFirst conn := fun conn hc => by
          rw [Down.current h] at hc
          cases hc
        obtain ⟨hk', hfresh⟩ := hk.op_connect hnone
        simp only [IgTcpClient.redial, hk.cached, if_true]
        exact ⟨hk', hfresh⟩
  | registering i =>
    cases d with
    | connect ok => exact ⟨hk, h⟩
    | register results reply =>
      obtain ⟨hk', conn, hcur, hfirst, hacked⟩ := Fresh.op_register h hk f.cli.regHostname.str f.cli.regIp.str
        f.cli.regOs.str f.cli.regMonitorType results reply
      simp only [redialOps, IgTcpClient.redial]
      split
      · next hret => exact ⟨hk', conn, hacked hret⟩
      · obtain ⟨hk'', hdown⟩ := hk'.op_disconnect fun c hc => by
          rw [hcur] at hc
          cases hc
          exact hfirst
        exact ⟨hk'', hgiveUp i hdown⟩

end Ops

end Followed

end KnIg.Agent
