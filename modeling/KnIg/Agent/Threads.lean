/-
The two threads of the agent that share its client. The main loop sends the events and the heartbeat
thread sends heartbeats; each reconnects when its own send is the third failure in a row, under the lock
but with the client's state open to the other's eyes. Only the main loop has the flag that says the
transport is up, so it goes on believing in a connection that the other has given up.
-/
import KnIg.Agent.Client
import KnIg.Lib.Run

namespace KnIg.Agent

open Lib

/-! ## Where the threads stand -/

def igStatusHealthy : UInt8 := 3

/-- `ig_msg_heartbeat_t`. -/
structure IgMsgHeartbeat where
  agentId : UInt64
  status : UInt8
  timestamp : UInt32

def igHeartbeatEncode (msg : IgMsgHeartbeat) : Bytes :=
  writeU32 (writeU8 (writeU64 [] msg.agentId) msg.status) msg.timestamp

/-- A call of `send_event_with_reconnect`, with what got through of the frames it has sent and the agent id
that each of them bears. -/
structure Call where
  ev : IgEvent
  writes : List (UInt64 × Bytes)

/-- A call that returned, and whether `g_transport_ok` was set then. -/
structure Returned where
  call : Call
  transportOk : Bool

/-- Where the main thread stands in `send_event_with_reconnect`. -/
inductive MainAt where
  | idle
  /-- it has its frame and waits for the lock -/
  | sending (call : Call) (agentId : UInt64) (payload : Bytes)
  /-- it waits for the lock to reconnect, or holds it -/
  | reconnecting (call : Call) (redial : Option Redial)
  /-- its reconnection has succeeded and it has yet to say so -/
  | reconnected (call : Call)
  | resending (call : Call) (agentId : UInt64) (payload : Bytes)

/-- Where `ig_heartbeat_thread` stands. -/
inductive HeartbeatAt where
  | sleeping
  | sending (payload : Bytes)
  | reconnecting (redial : Option Redial)
  | ended

/-- The client, the main thread's globals, and the two threads. -/
structure Transport where
  cli : IgTcpClient
  transportOk : Bool
  agentId : Bytes
  main : MainAt
  heartbeat : HeartbeatAt
  /-- the calls that began with `g_transport_ok` set, as they returned -/
  returns : List Returned

inductive MainAct where
  | pop (ev : IgEvent)
  | send (results : List Int)
  | reconnect
  | dial (d : Dial)
  | resume

inductive HeartbeatAct where
  | wake (timestamp : UInt32)
  | send (results : List Int)
  | reconnect
  | dial (d : Dial)

inductive Act where
  | main (a : MainAct)
  | heartbeat (a : HeartbeatAct)

/-! ## Steps -/

namespace Transport

variable (s : Transport)

/-- A thread is inside `ig_tcp_reconnect`, which keeps `conn_lock` throughout. -/
def locked : Bool :=
  match s.main, s.heartbeat with
  | .reconnecting _ (some _), _ => true
  | _, .reconnecting (some _) => true
  | _, _ => false

def returned (call : Call) : Transport :=
  { s with main := .idle, returns := s.returns ++ [⟨call, s.transportOk⟩] }

/-- `ig_tcp_send_event` up to the lock: the state and the id are read without it. -/
def sendEvent (ev : IgEvent) : SendEvent := igTcpSendEvent (s.cli.state = .connected) s.cli.agentId ev

/-- The main thread in `send_event_with_reconnect`; an act it does not stand before changes nothing. -/
def stepMain : MainAct → Transport
  | .pop ev =>
    match s.main with
    | .idle =>
      if s.transportOk = false then s
      else if s.agentId = [] then s.returned ⟨ev, []⟩
      else
        match s.sendEvent ev with
        | .frame payload => { s with main := .sending ⟨ev, []⟩ s.cli.agentId payload }
        | .failed => s.returned ⟨ev, []⟩
        | .skipped => s.returned ⟨ev, []⟩
    | _ => s
  | .send results =>
    if s.locked then s
    else
      match s.main with
      | .sending call agentId payload =>
        let r := s.cli.sendFrameLocked igMsgTypeFileEvent payload results
        let call := { call with writes := call.writes ++ [(agentId, r.written)] }
        if r.ret = -2 then { s with cli := r.cli, transportOk := false, main := .reconnecting call none }
        else { s with cli := r.cli }.returned call
      | .resending call agentId payload =>
        let r := s.cli.sendFrameLocked igMsgTypeFileEvent payload results
        { s with cli := r.cli }.returned { call with writes := call.writes ++ [(agentId, r.written)] }
      | _ => s
  | .reconnect =>
    if s.locked then s
    else
      match s.main with
      | .reconnecting call none =>
        { s with cli := s.cli.disconnectLocked, main := .reconnecting call (some (.attempt 0)) }
      | _ => s
  | .dial d =>
    match s.main with
    | .reconnecting call (some redial) =>
      let r := s.cli.redial redial d
      match r.2 with
      | .more redial => { s with cli := r.1, main := .reconnecting call (some redial) }
      | .returned ret =>
        if ret = 0 then { s with cli := r.1, main := .reconnected call }
        else { s with cli := r.1 }.returned call
    | _ => s
  | .resume =>
    match s.main with
    | .reconnected call =>
      let s := { s with agentId := decimal s.cli.agentId.toNat, transportOk := true }
      match s.sendEvent call.ev with
      | .frame payload => { s with main := .resending call s.cli.agentId payload }
      | .failed => s.returned call
      | .skipped => s.returned call
    | _ => s

/-- `ig_heartbeat_thread`. -/
def stepHeartbeat : HeartbeatAct → Transport
  | .wake timestamp =>
    match s.heartbeat with
    | .sleeping =>
      { s with heartbeat := .sending (igHeartbeatEncode ⟨s.cli.agentId, igStatusHealthy, timestamp⟩) }
    | _ => s
  | .send results =>
    if s.locked then s
    else
      match s.heartbeat with
      | .sending payload =>
        let r := s.cli.sendFrameLocked igMsgTypeHeartbeat payload results
        { s with cli := r.cli, heartbeat := if r.ret = -2 then .reconnecting none else .sleeping }
      | _ => s
  | .reconnect =>
    if s.locked then s
    else
      match s.heartbeat with
      | .reconnecting none =>
        { s with cli := s.cli.disconnectLocked, heartbeat := .reconnecting (some (.attempt 0)) }
      | _ => s
  | .dial d =>
    match s.heartbeat with
    | .reconnecting (some redial) =>
      let r := s.cli.redial redial d
      match r.2 with
      | .more redial => { s with cli := r.1, heartbeat := .reconnecting (some redial) }
      | .returned ret => { s with cli := r.1, heartbeat := if ret = 0 then .sleeping else .ended }
    | _ => s

def step : Act → Transport
  | .main a => s.stepMain a
  | .heartbeat a => s.stepHeartbeat a

end Transport

/-! ## The start -/

/-- The steps of a reconnection that no other thread takes part in. -/
def redialAll (cli : IgTcpClient) : Redialed → List Dial → IgTcpClient × Redialed
  | .more r, d :: ds => redialAll (cli.redial r d).1 (cli.redial r d).2 ds
  | out, _ => (cli, out)

/-- How the start of the transport turns out: the first connection, the REGISTER on it or else the
reconnection, and the creation of the heartbeat thread. -/
structure Startup where
  connects : Bool
  results : List Int
  reply : Option (UInt8 × Bytes)
  dials : List Dial
  thread : Bool

/-- What `main` does with a client it has set up, whose registration it has cached. -/
def startTransport (cli : IgTcpClient) (u : Startup) : Transport :=
  let down : IgTcpClient → Transport := fun cli => ⟨cli, false, [], .idle, .ended, []⟩
  let up : IgTcpClient → Transport := fun cli =>
    ⟨cli, true, decimal cli.agentId.toNat, .idle, if u.thread then .sleeping else .ended, []⟩
  if u.connects then
    let r := cli.connected.registerInternalLocked cli.regHostname.str cli.regIp.str cli.regOs.str cli.regMonitorType
      u.results u.reply
    if r.ret = 0 then up r.cli else down r.cli
  else
    let r := redialAll cli.disconnectLocked (.more (.attempt 0)) u.dials
    if r.2 = .returned 0 then up r.1 else down r.1

/-! ## A dead connection believed to be up -/

namespace Transport

variable (s : Transport)

/-- A thread is to reconnect or is at it. -/
def Reconnecting : Prop :=
  (∃ call redial, s.main = .reconnecting call redial) ∨ ∃ redial, s.heartbeat = .reconnecting redial

/-- What the main thread goes through with the next event, or the rest of the one it has in hand, when no
reconnection comes of it. -/
def processNext (ev : IgEvent) (results : List Int) : Transport := (s.stepMain (.pop ev)).stepMain (.send results)

/-- The flag says the transport is up, the client is disconnected, nobody is reconnecting, and no event
changes that. -/
structure Stuck : Prop where
  transportOk : s.transportOk = true
  state : s.cli.state = .disconnected
  quiet : ¬ s.Reconnecting
  next : ∀ ev results, (s.processNext ev results).transportOk = true ∧ ¬ (s.processNext ev results).Reconnecting

/-- The main thread takes the transport to be up, or is about to. -/
def believesUp : Bool :=
  s.transportOk || match s.main with
    | .reconnected _ => true
    | _ => false

/-- The act is the failure of the last attempt of the heartbeat thread's reconnection. -/
def givesUp : Act → Bool
  | .heartbeat (.dial d) =>
    match s.heartbeat with
    | .reconnecting (some redial) => (s.cli.redial redial d).2 = .returned (-1)
    | _ => false
  | _ => false

/-- The heartbeat thread gives up only while the main thread does not believe in the transport. -/
def GivesUpOnlyDown (s : Transport) (a : Act) : Prop := s.givesUp a = true → s.believesUp = false

instance (s : Transport) (a : Act) : Decidable (GivesUpOnlyDown s a) :=
  inferInstanceAs (Decidable (_ → _))

/-- A transport the main thread believes in is connected, unless the heartbeat thread is just about to see
to it; while the main thread reconnects it does not believe. -/
structure Backed : Prop where
  down : ∀ call redial, s.main = .reconnecting call redial → s.transportOk = false
  up : s.believesUp = true → (∀ redial, s.heartbeat ≠ .reconnecting (some redial)) → s.cli.state = .connected

section Steps

variable {s : Transport}

theorem Backed.not_stuck (h : s.Backed) : ¬ s.Stuck := by
  intro hs
  have hb : s.believesUp = true := by simp [believesUp, hs.transportOk]
  have hc := h.up hb fun redial hr => hs.quiet (.inr ⟨_, hr⟩)
  rw [hs.state] at hc
  cases hc

/-- A step that neither touches the connection nor makes the main thread believe. -/
theorem Backed.keep {s' : Transport} (h : s.Backed) (hstate : s'.cli.state = s.cli.state)
    (hheart : s'.heartbeat = s.heartbeat) (hbelief : s'.believesUp = true → s.believesUp = true)
    (hdown : ∀ call redial, s'.main = .reconnecting call redial → s'.transportOk = false) : s'.Backed := by
  refine ⟨hdown, fun hb hq => ?_⟩
  rw [hstate]
  exact h.up (hbelief hb) fun redial hr => hq redial (hheart.trans hr)

/-- A call that returns leaves the flag as it is. -/
theorem Backed.returned (h : s.Backed) {cli : IgTcpClient} (hstate : cli.state = s.cli.state) (call : Call) :
    ({ s with cli }.returned call).Backed := by
  refine h.keep hstate rfl (fun hb => ?_) fun call redial hr => ?_
  · simp only [believesUp, Transport.returned, Bool.or_false] at hb
    simp [believesUp, hb]
  · simp [Transport.returned] at hr

/-- While the main thread does not believe, it may do what it likes with the connection. -/
theorem Backed.of_not_believesUp (hb : s.believesUp = false) : s.Backed := by
  refine ⟨fun _ _ _ => ?_, fun hb' => absurd hb' (by simp [hb])⟩
  rw [believesUp, Bool.or_eq_false_iff] at hb
  exact hb.1

theorem Backed.stepMain (h : s.Backed) (a : MainAct) : (s.stepMain a).Backed := by
  cases a with
  | pop ev =>
    simp only [Transport.stepMain]
    split
    · split
      · exact h
      split
      · exact h.returned rfl _
      split
      · refine h.keep rfl rfl (fun hb => ?_) (by simp)
        simp only [believesUp, Bool.or_false] at hb
        simp [believesUp, hb]
      · exact h.returned rfl _
      · exact h.returned rfl _
    · exact h
  | send results =>
    simp only [Transport.stepMain]
    split
    · exact h
    split
    · split
      · exact .of_not_believesUp (by simp [believesUp])
      · exact h.returned (IgTcpClient.sendFrameLocked_link s.cli ..).1 _
    · exact h.returned (IgTcpClient.sendFrameLocked_link s.cli ..).1 _
    · exact h
  | reconnect =>
    simp only [Transport.stepMain]
    split
    · exact h
    split
    · next call hm => exact .of_not_believesUp (by simp [believesUp, h.down call none hm])
    · exact h
  | dial d =>
    simp only [Transport.stepMain]
    split
    · next call redial hm =>
      have hok := h.down call _ hm
      split
      · exact .of_not_believesUp (by simp [believesUp, hok])
      · next ret hr =>
        split
        · next h0 =>
          -- the one way back to a belief is through a connection
          rcases IgTcpClient.redial_returned hr with ⟨-, hc⟩ | hgone
          · exact ⟨by simp, fun _ _ => hc⟩
          · omega
        · exact .of_not_believesUp (by simp [believesUp, Transport.returned, hok])
    · exact h
  | resume =>
    simp only [Transport.stepMain]
    split
    · next call hm =>
      have hb : s.believesUp = true := by simp [believesUp, hm]
      split
      · exact h.keep rfl rfl (fun _ => hb) (by simp)
      · exact h.keep rfl rfl (fun _ => hb) (by simp [Transport.returned])
      · exact h.keep rfl rfl (fun _ => hb) (by simp [Transport.returned])
    · exact h

theorem Backed.stepHeartbeat (h : s.Backed) (a : HeartbeatAct) (ha : s.GivesUpOnlyDown (.heartbeat a)) :
    (s.stepHeartbeat a).Backed := by
  cases a with
  | wake timestamp =>
    simp only [Transport.stepHeartbeat]
    split
    · next hs => exact ⟨h.down, fun hb _ => h.up hb (by simp [hs])⟩
    · exact h
  | send results =>
    simp only [Transport.stepHeartbeat]
    split
    · exact h
    split
    · next payload hs =>
      refine ⟨h.down, fun hb _ => ?_⟩
      have hstate := (IgTcpClient.sendFrameLocked_link s.cli igMsgTypeHeartbeat payload results).1
      exact hstate.trans (h.up hb (by simp [hs]))
    · exact h
  | reconnect =>
    simp only [Transport.stepHeartbeat]
    split
    · exact h
    split
    · exact ⟨h.down, fun _ hq => absurd rfl (hq (.attempt 0))⟩
    · exact h
  | dial d =>
    simp only [Transport.stepHeartbeat]
    split
    · next redial hs =>
      split
      · next redial' hr => exact ⟨h.down, fun _ hq => absurd rfl (hq redial')⟩
      · next ret hr =>
        simp only [GivesUpOnlyDown, givesUp, hs, decide_eq_true_eq] at ha
        rcases IgTcpClient.redial_returned hr with ⟨-, hc⟩ | rfl
        · exact ⟨h.down, fun _ _ => hc⟩
        · exact ⟨h.down, fun hb _ => absurd hb (by simpa [believesUp] using ha hr)⟩
    · exact h

theorem Backed.step (h : s.Backed) (a : Act) (ha : s.GivesUpOnlyDown a) : (s.step a).Backed := by
  cases a with
  | main a => exact h.stepMain a
  | heartbeat a => exact h.stepHeartbeat a ha

end Steps

theorem redialAll_returned {cli : IgTcpClient} {out : Redialed} {ds : List Dial}
    (h : (redialAll cli out ds).2 = .returned 0) (h0 : out = .returned 0 → cli.state = .connected) :
    (redialAll cli out ds).1.state = .connected := by
  induction ds generalizing cli out with
  | nil => cases out with
    | more r => simp [redialAll] at h
    | returned ret => exact h0 (by simpa [redialAll] using h)
  | cons d ds ih =>
    cases out with
    | more r =>
      refine ih h fun hr => ?_
      rcases IgTcpClient.redial_returned hr with ⟨-, hc⟩ | hgone
      · exact hc
      · cases hgone
    | returned ret => exact h0 (by simpa [redialAll] using h)

/-- The transport starts up only on a connection. -/
theorem startTransport_backed (cli : IgTcpClient) (u : Startup) : (startTransport cli u).Backed := by
  unfold startTransport
  simp only
  split
  · split
    · refine ⟨by simp, fun _ _ => ?_⟩
      exact (IgTcpClient.registerInternalLocked_link cli.connected ..).1.trans rfl
    · exact .of_not_believesUp (by simp [believesUp])
  · split
    · next hret => exact ⟨by simp, fun _ _ => redialAll_returned hret (by simp)⟩
    · exact .of_not_believesUp (by simp [believesUp])

/-- As long as the heartbeat thread gives up only while the main thread does not believe in the transport, the
agent is never stuck. -/
theorem transport_not_stuck (cli : IgTcpClient) (u : Startup) {acts : List Act}
    (h : AllSteps step GivesUpOnlyDown (startTransport cli u) acts) {done : List Act} (hd : done <+: acts) :
    ¬ (done.foldl step (startTransport cli u)).Stuck := by
  have hstep : ∀ s a, Backed s → GivesUpOnlyDown s a → Backed (step s a) := fun _ a hs ha => hs.step a ha
  exact (foldl_invariant hstep done _ (startTransport_backed cli u) (h.of_isPrefix hd)).not_stuck

/-! ## Once stuck -/

/-- Nobody is left to reconnect, and the main thread believes in a dead connection. -/
structure Stranded (s : Transport) : Prop where
  transportOk : s.transportOk = true
  state : s.cli.state = .disconnected
  main : s.main = .idle
  heartbeat : s.heartbeat = .ended

theorem sendEvent_disconnected {s : Transport} (h : s.cli.state = .disconnected) (ev : IgEvent) :
    s.sendEvent ev = .failed := by
  simp [sendEvent, igTcpSendEvent, h]

namespace Stranded

variable {s : Transport}

/-- An event that comes is given up, and another act does nothing. -/
theorem step_eq (h : s.Stranded) (a : Act) : s.step a = s ∨ ∃ ev, s.step a = s.returned ⟨ev, []⟩ := by
  cases a with
  | main a =>
    cases a with
    | pop ev =>
      right
      refine ⟨ev, ?_⟩
      simp [step, stepMain, h.main, h.transportOk, sendEvent_disconnected h.state]
    | _ => simp [step, stepMain, h.main]
  | heartbeat a =>
    left
    cases a <;> simp [step, stepHeartbeat, h.heartbeat]

theorem step (h : s.Stranded) (a : Act) : (s.step a).Stranded := by
  rcases h.step_eq a with he | ⟨ev, he⟩
  · rw [he]
    exact h
  · rw [he]
    exact ⟨h.transportOk, h.state, rfl, h.heartbeat⟩

theorem stuck (h : s.Stranded) : s.Stuck := by
  refine ⟨h.transportOk, h.state, ?_, fun ev results => ?_⟩
  · simp [Reconnecting, h.main, h.heartbeat]
  · have hnext : (s.processNext ev results).Stranded := (h.step (.main (.pop ev))).step (.main (.send results))
    exact ⟨hnext.transportOk, by simp [Reconnecting, hnext.main, hnext.heartbeat]⟩

/-- It stays stuck, and every call of the rest of the run gives its event up with nothing sent. -/
theorem forever (h : s.Stranded) (acts : List Act) :
    (acts.foldl Transport.step s).Stuck ∧
      ∃ evs : List IgEvent,
        (acts.foldl Transport.step s).returns = s.returns ++ evs.map fun ev => ⟨⟨ev, []⟩, true⟩ := by
  induction acts generalizing s with
  | nil => exact ⟨h.stuck, [], by simp⟩
  | cons a acts ih =>
    obtain ⟨hstuck, evs, hr⟩ := ih (h.step a)
    refine ⟨hstuck, ?_⟩
    rw [List.foldl_cons, hr]
    rcases h.step_eq a with he | ⟨ev, he⟩
    · exact ⟨evs, by rw [he]⟩
    · exact ⟨ev :: evs, by simp [he, Transport.returned, h.transportOk]⟩

end Stranded

/-! ## A heartbeat that gives up -/

/-- A start that connects and registers at once. -/
def goodStart : Startup := ⟨true, [9, 20], some (igMsgTypeRegister, [0, 0, 0, 0, 0, 0, 0, 5]), [], true⟩

/-- Three heartbeats in a row fail, and so do the twenty attempts that follow. -/
def heartbeatGivesUp : List Act :=
  (List.replicate 3 [Act.heartbeat (.wake 0), .heartbeat (.send [])]).flatten ++ .heartbeat .reconnect ::
    List.replicate 20 (.heartbeat (.dial (.connect false)))

theorem stranded_heartbeatGivesUp : (heartbeatGivesUp.foldl step (startTransport freshClient goodStart)).Stranded :=
  ⟨by decide, by decide, rfl, rfl⟩

theorem transport_stuck_fails :
    ¬ ∀ done, done <+: heartbeatGivesUp → ¬ (done.foldl step (startTransport freshClient goodStart)).Stuck :=
  fun h => h heartbeatGivesUp List.prefix_rfl stranded_heartbeatGivesUp.stuck

/-- Three heartbeats in a row fail, and the second attempt to connect and register succeeds. -/
def heartbeatRecovers : List Act :=
  (List.replicate 3 [Act.heartbeat (.wake 0), .heartbeat (.send [])]).flatten ++
    [.heartbeat .reconnect, .heartbeat (.dial (.connect false)), .heartbeat (.dial (.connect true)),
      .heartbeat (.dial (.register [9, 20] (some (igMsgTypeRegister, [0, 0, 0, 0, 0, 0, 0, 5]))))]

theorem transport_not_stuck_recovers :
    ¬ (heartbeatRecovers.foldl step (startTransport freshClient goodStart)).Stuck :=
  transport_not_stuck freshClient goodStart (by decide) List.prefix_rfl

end Transport

end KnIg.Agent
