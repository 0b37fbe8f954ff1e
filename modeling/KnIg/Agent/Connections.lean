/-
What goes over each connection of the agent. The ledger goes along with the steps of the two threads: on every
connection the first frame is REGISTER with number 1, and heartbeats and events come only after the
acknowledgement.
-/
import KnIg.Agent.Ledger
import KnIg.Agent.Threads

namespace KnIg.Agent

open Lib

/-! ## The operations of each step -/

/-- The operations of one step of either thread. -/
def Transport.ops (s : Transport) : Act → List ClientOp
  | .main (.send results) =>
    if s.locked then []
    else
      match s.main with
      | .sending _ _ payload | .resending _ _ payload => [.send igMsgTypeFileEvent payload results]
      | _ => []
  | .main .reconnect =>
    if s.locked then []
    else
      match s.main with
      | .reconnecting _ none => [.disconnect]
      | _ => []
  | .main (.dial d) =>
    match s.main with
    | .reconnecting _ (some r) => redialOps s.cli r d
    | _ => []
  | .heartbeat (.send results) =>
    if s.locked then []
    else
      match s.heartbeat with
      | .sending payload => [.send igMsgTypeHeartbeat payload results]
      | _ => []
  | .heartbeat .reconnect =>
    if s.locked then []
    else
      match s.heartbeat with
      | .reconnecting none => [.disconnect]
      | _ => []
  | .heartbeat (.dial d) =>
    match s.heartbeat with
    | .reconnecting (some r) => redialOps s.cli r d
    | _ => []
  | _ => []

/-- The agent with the ledger of its connections. -/
structure Watched where
  agent : Transport
  ledger : Ledger

def Watched.step (w : Watched) (a : Act) : Watched :=
  ⟨w.agent.step a, (Followed.ops ⟨w.agent.cli, w.ledger⟩ (w.agent.ops a)).ledger⟩

/-- The operations of the steps of a reconnection that no other thread takes part in. -/
def redialAllOps (cli : IgTcpClient) : Redialed → List Dial → List ClientOp
  | .more r, d :: ds => redialOps cli r d ++ redialAllOps (cli.redial r d).1 (cli.redial r d).2 ds
  | _, _ => []

/-- The operations of the start. -/
def startOps (cli : IgTcpClient) (u : Startup) : List ClientOp :=
  if u.connects then
    [.connect, .register cli.regHostname.str cli.regIp.str cli.regOs.str cli.regMonitorType u.results u.reply]
  else .disconnect :: redialAllOps cli.disconnectLocked (.more (.attempt 0)) u.dials

def watchedStart (cli : IgTcpClient) (u : Startup) : Watched :=
  ⟨startTransport cli u, (Followed.ops ⟨cli, ⟨[], none⟩⟩ (startOps cli u)).ledger⟩

theorem regOs_noZero : 0 ∉ ascii "Linux" := by decide

/-- The client that `main` sets up: `ig_tcp_init`, then the registration it caches. -/
def setUpClient (hostname : TermArr 256) (localIp : TermArr 64) (monitorType : UInt8) : IgTcpClient where
  ssl := none
  state := .disconnected
  seqNum := 0
  agentId := 0
  sendFailures := 0
  regHostname := hostname
  regIp := localIp
  regMonitorType := monitorType
  regOs := strncpy 63 ⟨ascii "Linux", regOs_noZero⟩
  regCached := true

/-! ## The ledger along a run -/

theorem ops_redialAllOps (f : Followed) (out : Redialed) (ds : List Dial) :
    (f.ops (redialAllOps f.cli out ds)).cli = (redialAll f.cli out ds).1 := by
  induction ds generalizing f out with
  | nil => cases out <;> rfl
  | cons d ds ih =>
    cases out with
    | returned ret => rfl
    | more r =>
      have hcli := ops_redialOps f r d
      simp only [redialAllOps, redialAll, Followed.ops_append]
      rw [← hcli]
      exact ih _ _

theorem ops_stepMain (s : Transport) (a : MainAct) (l : Ledger) :
    (Followed.ops ⟨s.cli, l⟩ (s.ops (.main a))).cli = (s.stepMain a).cli := by
  obtain ⟨cli, transportOk, agentId, main, heartbeat, returns⟩ := s
  have hredial : ∀ r d, (Followed.ops ⟨cli, l⟩ (redialOps cli r d)).cli = (cli.redial r d).1 := ops_redialOps ⟨cli, l⟩
  cases a with
  | pop ev =>
    simp only [Transport.ops, Transport.stepMain, Followed.ops_nil]
    repeat' split
    all_goals rfl
  | send results =>
    simp only [Transport.ops, Transport.stepMain]
    split
    · rfl
    · cases main with
      | sending call agentId payload =>
        simp only
        split <;> rfl
      | _ => rfl
  | reconnect =>
    simp only [Transport.ops, Transport.stepMain]
    split
    · rfl
    · cases main with
      | reconnecting call redial => cases redial <;> rfl
      | _ => rfl
  | dial d =>
    cases main with
    | reconnecting call redial =>
      cases redial with
      | none => rfl
      | some r =>
        simp only [Transport.ops, Transport.stepMain, hredial]
        split
        · rfl
        · split <;> rfl
    | _ => rfl
  | resume =>
    simp only [Transport.ops, Transport.stepMain, Followed.ops_nil]
    repeat' split
    all_goals rfl

theorem ops_stepHeartbeat (s : Transport) (a : HeartbeatAct) (l : Ledger) :
    (Followed.ops ⟨s.cli, l⟩ (s.ops (.heartbeat a))).cli = (s.stepHeartbeat a).cli := by
  obtain ⟨cli, transportOk, agentId, main, heartbeat, returns⟩ := s
  have hredial : ∀ r d, (Followed.ops ⟨cli, l⟩ (redialOps cli r d)).cli = (cli.redial r d).1 := ops_redialOps ⟨cli, l⟩
  cases a with
  | wake timestamp => cases heartbeat <;> rfl
  | send results =>
    simp only [Transport.ops, Transport.stepHeartbeat]
    split
    · rfl
    · cases heartbeat <;> rfl
  | reconnect =>
    simp only [Transport.ops, Transport.stepHeartbeat]
    split
    · rfl
    · cases heartbeat with
      | reconnecting redial => cases redial <;> rfl
      | _ => rfl
  | dial d =>
    cases heartbeat with
    | reconnecting redial =>
      cases redial with
      | none => rfl
      | some r =>
        simp only [Transport.ops, Transport.stepHeartbeat, hredial]
        split <;> rfl
    | _ => rfl

/-- The operations of a step are what it does to the client. -/
theorem ops_step (s : Transport) (a : Act) (l : Ledger) :
    (Followed.ops ⟨s.cli, l⟩ (s.ops a)).cli = (s.step a).cli := by
  cases a with
  | main a => exact ops_stepMain s a l
  | heartbeat a => exact ops_stepHeartbeat s a l

theorem ops_start (cli : IgTcpClient) (l : Ledger) (u : Startup) :
    (Followed.ops ⟨cli, l⟩ (startOps cli u)).cli = (startTransport cli u).cli := by
  unfold startOps startTransport
  simp only
  split
  · split <;> rfl
  · have hall := ops_redialAllOps (Followed.op ⟨cli, l⟩ .disconnect) (.more (.attempt 0)) u.dials
    rw [Followed.ops_cons]
    split <;> exact hall

/-- Along every run the ledger has, of the connection that stands, the bytes the client has written to it. -/
theorem ledger_stream {cli : IgTcpClient} (hcli : cli.ssl = none) (u : Startup) (acts : List Act) :
    (acts.foldl Watched.step (watchedStart cli u)).ledger.stream =
      (acts.foldl Watched.step (watchedStart cli u)).agent.cli.ssl := by
  have hempty : (Followed.mk cli ⟨[], none⟩).Matches := hcli.symm
  have hstart : (watchedStart cli u).ledger.stream = (watchedStart cli u).agent.cli.ssl := by
    have h := hempty.ops (startOps cli u)
    unfold Followed.Matches at h
    rwa [ops_start] at h
  refine List.foldlRecOn (motive := fun w : Watched => w.ledger.stream = w.agent.cli.ssl) acts _ hstart
    fun w hw a _ => ?_
  have hf : (Followed.mk w.agent.cli w.ledger).Matches := hw
  have h := hf.ops (w.agent.ops a)
  unfold Followed.Matches at h
  rwa [ops_step] at h

/-! ## The two threads -/

namespace Transport

variable (s : Transport)

/-- Nobody is left to send: the start did not get through. -/
structure Quiet : Prop where
  transportOk : s.transportOk = false
  main : s.main = .idle
  heartbeat : s.heartbeat = .ended

/-- The main thread is inside a reconnection at `r`. -/
def MainHolds (r : Redial) : Prop := ∃ call, s.main = .reconnecting call (some r)

def HeartbeatHolds (r : Redial) : Prop := s.heartbeat = .reconnecting (some r)

theorem locked_eq_false : s.locked = false ↔ (∀ r, ¬ s.MainHolds r) ∧ ∀ r, ¬ s.HeartbeatHolds r := by
  unfold locked MainHolds HeartbeatHolds
  split
  · next call r hm => exact iff_of_false (by simp) fun h => h.1 r ⟨call, hm⟩
  · next r hb _ => exact iff_of_false (by simp) fun h => h.2 r hb
  · next hm hb => exact iff_of_true rfl ⟨fun r ⟨call, h⟩ => hm call r h, fun r h => hb r h⟩

/-- One thread at most is inside a reconnection and stands on what it has made of the connection; otherwise
there is no connection, or an acknowledged one, or nobody to send on it. -/
structure Sound (f : Followed) : Prop where
  kept : f.Kept
  main : ∀ r, s.MainHolds r → f.At r ∧ ∀ r', ¬ s.HeartbeatHolds r'
  heartbeat : ∀ r, s.HeartbeatHolds r → f.At r
  free : s.locked = false →
    (f.Down ∨ ∃ conn, f.Acked conn) ∨ s.Quiet ∧ ∀ conn ∈ f.ledger.current, RegistersFirst conn

section Sound

variable {s s' : Transport} {f : Followed}

theorem not_mainHolds (hm : ∀ call r, s.main ≠ .reconnecting call (some r)) (r : Redial) : ¬ s.MainHolds r := by
  rintro ⟨call, hc⟩
  exact hm call r hc

theorem Sound.of_unlocked (hk : f.Kept) (hmain : ∀ r, ¬ s.MainHolds r) (hheart : ∀ r, ¬ s.HeartbeatHolds r)
    (hfree : f.Down ∨ ∃ conn, f.Acked conn) : s.Sound f :=
  ⟨hk, fun r h => absurd h (hmain r), fun r h => absurd h (hheart r), fun _ => .inl hfree⟩

theorem Sound.of_mainHolds (hk : f.Kept) {call : Call} {r : Redial} (hm : s.main = .reconnecting call (some r))
    (hat : f.At r) (hheart : ∀ r, ¬ s.HeartbeatHolds r) : s.Sound f := by
  refine ⟨hk, ?_, fun r h => absurd h (hheart r), fun hl => ?_⟩
  · rintro r' ⟨call', h⟩
    rw [hm] at h
    cases h
    exact ⟨hat, hheart⟩
  · exact absurd ⟨call, hm⟩ (((locked_eq_false s).1 hl).1 r)

theorem Sound.of_heartbeatHolds (hk : f.Kept) {r : Redial} (hb : s.heartbeat = .reconnecting (some r)) (hat : f.At r)
    (hmain : ∀ r, ¬ s.MainHolds r) : s.Sound f := by
  refine ⟨hk, fun r h => absurd h (hmain r), fun r' h => ?_, fun hl => ?_⟩
  · unfold HeartbeatHolds at h
    rw [hb] at h
    cases h
    exact hat
  · exact absurd hb (((locked_eq_false s).1 hl).2 r)

/-- A step that leaves the connection, the lock and a thread to send. -/
theorem Sound.keep (h : s.Sound f) (hmain : ∀ r, s'.MainHolds r ↔ s.MainHolds r)
    (hheart : ∀ r, s'.HeartbeatHolds r ↔ s.HeartbeatHolds r) (hq : ¬ s.Quiet) : s'.Sound f := by
  refine ⟨h.kept, fun r hr => ?_, fun r hr => h.heartbeat r ((hheart r).1 hr), fun hl => ?_⟩
  · obtain ⟨hat, hother⟩ := h.main r ((hmain r).1 hr)
    exact ⟨hat, fun r' hr' => hother r' ((hheart r').1 hr')⟩
  · obtain ⟨hm, hb⟩ := (locked_eq_false s').1 hl
    have hfree : s.locked = false :=
      (locked_eq_false s).2 ⟨fun r hr => hm r ((hmain r).2 hr), fun r hr => hb r ((hheart r).2 hr)⟩
    rcases h.free hfree with hsettled | ⟨hquiet, -⟩
    · exact .inl hsettled
    · exact absurd hquiet hq

/-- Who is about to send or to reconnect has a connection that is acknowledged, or none. -/
theorem Sound.settled (h : s.Sound f) (hl : s.locked = false) (hq : ¬ s.Quiet) : f.Down ∨ ∃ conn, f.Acked conn :=
  (h.free hl).resolve_right fun hquiet => hq hquiet.1

end Sound

end Transport

/-- A send leaves no connection, or one that is acknowledged. -/
theorem Followed.settled_op_send {f : Followed} (h : f.Down ∨ ∃ conn, f.Acked conn) (type : UInt8) (payload : Bytes)
    (results : List Int) :
    (f.op (.send type payload results)).Down ∨ ∃ conn, (f.op (.send type payload results)).Acked conn := by
  rcases h with hdown | ⟨conn, hacked⟩
  · exact .inl (hdown.op_send type payload results)
  · exact .inr (hacked.op_send type payload results)

theorem Followed.settled_first {f : Followed} (h : f.Down ∨ ∃ conn, f.Acked conn) :
    ∀ conn ∈ f.ledger.current, RegistersFirst conn := by
  intro conn hc
  rcases h with hdown | ⟨conn', hacked⟩
  · rw [hdown.current] at hc
    cases hc
  · rw [hacked.current] at hc
    cases hc
    exact hacked.first

namespace Transport

section Steps

variable {s : Transport} {f : Followed}

/-- A step of the main thread, outside a reconnection before and after it. -/
theorem Sound.keep_main (h : s.Sound f) {s' : Transport} (hheart : s'.heartbeat = s.heartbeat)
    (hm : ∀ r, ¬ s.MainHolds r) (hm' : ∀ r, ¬ s'.MainHolds r) (hq : ¬ s.Quiet) : s'.Sound f :=
  h.keep (fun r => iff_of_false (hm' r) (hm r)) (fun r => by unfold HeartbeatHolds; rw [hheart]) hq

theorem Sound.pop (h : s.Sound f) (ev : IgEvent) :
    (s.stepMain (.pop ev)).Sound (f.ops (s.ops (.main (.pop ev)))) := by
  simp only [Transport.ops, Followed.ops_nil, Transport.stepMain]
  split
  · next hm =>
    have hidle : ∀ r, ¬ s.MainHolds r := not_mainHolds fun _ _ hc => by cases hm.symm.trans hc
    split
    · exact h
    next hok =>
    have hq : ¬ s.Quiet := fun hq => hok hq.transportOk
    split
    · exact h.keep_main rfl hidle (not_mainHolds fun _ _ hc => by cases hc) hq
    split
    · exact h.keep_main rfl hidle (not_mainHolds fun _ _ hc => by cases hc) hq
    · exact h.keep_main rfl hidle (not_mainHolds fun _ _ hc => by cases hc) hq
    · exact h.keep_main rfl hidle (not_mainHolds fun _ _ hc => by cases hc) hq
  · exact h

theorem Sound.sendEvent (h : s.Sound f) (results : List Int) :
    (s.stepMain (.send results)).Sound (f.ops (s.ops (.main (.send results)))) := by
  simp only [Transport.ops, Transport.stepMain]
  by_cases hl : s.locked = true
  · rw [if_pos hl, if_pos hl]
    exact h
  rw [if_neg hl, if_neg hl]
  have hfree := Bool.eq_false_iff.2 hl
  have hheart := ((locked_eq_false s).1 hfree).2
  cases hm : s.main with
  | sending call agentId payload =>
    have hsettled := Followed.settled_op_send (h.settled hfree fun hq => by cases hm.symm.trans hq.main)
      igMsgTypeFileEvent payload results
    simp only [Followed.ops_cons, Followed.ops_nil]
    split
    · exact .of_unlocked (h.kept.op_send ..) (not_mainHolds fun _ _ hc => by cases hc) hheart hsettled
    · exact .of_unlocked (h.kept.op_send ..) (not_mainHolds fun _ _ hc => by cases hc) hheart hsettled
  | resending call agentId payload =>
    have hsettled := Followed.settled_op_send (h.settled hfree fun hq => by cases hm.symm.trans hq.main)
      igMsgTypeFileEvent payload results
    exact .of_unlocked (h.kept.op_send ..) (not_mainHolds fun _ _ hc => by cases hc) hheart hsettled
  | _ => exact h

theorem Sound.reconnectMain (h : s.Sound f) :
    (s.stepMain .reconnect).Sound (f.ops (s.ops (.main .reconnect))) := by
  simp only [Transport.ops, Transport.stepMain]
  by_cases hl : s.locked = true
  · rw [if_pos hl, if_pos hl]
    exact h
  rw [if_neg hl, if_neg hl]
  have hfree := Bool.eq_false_iff.2 hl
  cases hm : s.main with
  | reconnecting call redial =>
    cases redial with
    | none =>
      have hsettled := h.settled hfree fun hq => by cases hm.symm.trans hq.main
      obtain ⟨hk, hdown⟩ := h.kept.op_disconnect (Followed.settled_first hsettled)
      exact .of_mainHolds hk rfl hdown ((locked_eq_false s).1 hfree).2
    | some r => exact h
  | _ => exact h

theorem Sound.dialMain (h : s.Sound f) (hf : f.cli = s.cli) (d : Dial) :
    (s.stepMain (.dial d)).Sound (f.ops (s.ops (.main (.dial d)))) := by
  simp only [Transport.ops, Transport.stepMain]
  cases hm : s.main with
  | reconnecting call redial =>
    cases redial with
    | none => exact h
    | some r =>
      obtain ⟨hat, hheart⟩ := h.main r ⟨call, hm⟩
      obtain ⟨hk, hafter⟩ := hat.redial h.kept d
      rw [hf] at hk hafter
      simp only
      cases hr : (s.cli.redial r d).2 with
      | more r' =>
        rw [hr] at hafter
        exact .of_mainHolds hk rfl hafter hheart
      | returned ret =>
        rw [hr] at hafter
        simp only [Followed.After] at hafter ⊢
        split
        · next h0 =>
          rw [if_pos h0] at hafter
          exact .of_unlocked hk (not_mainHolds fun _ _ hc => by cases hc) hheart (.inr hafter)
        · next h0 =>
          rw [if_neg h0] at hafter
          exact .of_unlocked hk (not_mainHolds fun _ _ hc => by cases hc) hheart (.inl hafter)
  | _ => exact h

theorem Sound.resume (h : s.Sound f) :
    (s.stepMain .resume).Sound (f.ops (s.ops (.main .resume))) := by
  simp only [Transport.ops, Followed.ops_nil, Transport.stepMain]
  split
  · next call hm =>
    have hdone : ∀ r, ¬ s.MainHolds r := not_mainHolds fun _ _ hc => by cases hm.symm.trans hc
    have hq : ¬ s.Quiet := fun hq => by cases hm.symm.trans hq.main
    split
    · exact h.keep_main rfl hdone (not_mainHolds fun _ _ hc => by cases hc) hq
    · exact h.keep_main rfl hdone (not_mainHolds fun _ _ hc => by cases hc) hq
    · exact h.keep_main rfl hdone (not_mainHolds fun _ _ hc => by cases hc) hq
  · exact h

theorem Sound.stepMain (h : s.Sound f) (hf : f.cli = s.cli) (a : MainAct) :
    (s.stepMain a).Sound (f.ops (s.ops (.main a))) := by
  cases a with
  | pop ev => exact h.pop ev
  | send results => exact h.sendEvent results
  | reconnect => exact h.reconnectMain
  | dial d => exact h.dialMain hf d
  | resume => exact h.resume

theorem Sound.wake (h : s.Sound f) (timestamp : UInt32) :
    (s.stepHeartbeat (.wake timestamp)).Sound (f.ops (s.ops (.heartbeat (.wake timestamp)))) := by
  simp only [Transport.ops, Followed.ops_nil, Transport.stepHeartbeat]
  split
  · next hb =>
    refine h.keep (fun r => Iff.rfl) (fun r => iff_of_false (fun hr => by cases hr) fun hr => ?_) fun hq => ?_
    · cases hb.symm.trans hr
    · cases hb.symm.trans hq.heartbeat
  · exact h

theorem Sound.sendHeartbeat (h : s.Sound f) (results : List Int) :
    (s.stepHeartbeat (.send results)).Sound (f.ops (s.ops (.heartbeat (.send results)))) := by
  simp only [Transport.ops, Transport.stepHeartbeat]
  by_cases hl : s.locked = true
  · rw [if_pos hl, if_pos hl]
    exact h
  rw [if_neg hl, if_neg hl]
  have hfree := Bool.eq_false_iff.2 hl
  have hmain := ((locked_eq_false s).1 hfree).1
  cases hb : s.heartbeat with
  | sending payload =>
    have hsettled := Followed.settled_op_send (h.settled hfree fun hq => by cases hb.symm.trans hq.heartbeat)
      igMsgTypeHeartbeat payload results
    refine .of_unlocked (h.kept.op_send ..) hmain (fun r hr => ?_) hsettled
    unfold HeartbeatHolds at hr
    simp only at hr
    split at hr <;> cases hr
  | _ => exact h

theorem Sound.reconnectHeartbeat (h : s.Sound f) :
    (s.stepHeartbeat .reconnect).Sound (f.ops (s.ops (.heartbeat .reconnect))) := by
  simp only [Transport.ops, Transport.stepHeartbeat]
  by_cases hl : s.locked = true
  · rw [if_pos hl, if_pos hl]
    exact h
  rw [if_neg hl, if_neg hl]
  have hfree := Bool.eq_false_iff.2 hl
  cases hb : s.heartbeat with
  | reconnecting redial =>
    cases redial with
    | none =>
      have hsettled := h.settled hfree fun hq => by cases hb.symm.trans hq.heartbeat
      obtain ⟨hk, hdown⟩ := h.kept.op_disconnect (Followed.settled_first hsettled)
      exact .of_heartbeatHolds hk rfl hdown ((locked_eq_false s).1 hfree).1
    | some r => exact h
  | _ => exact h

theorem Sound.dialHeartbeat (h : s.Sound f) (hf : f.cli = s.cli) (d : Dial) :
    (s.stepHeartbeat (.dial d)).Sound (f.ops (s.ops (.heartbeat (.dial d)))) := by
  simp only [Transport.ops, Transport.stepHeartbeat]
  cases hb : s.heartbeat with
  | reconnecting redial =>
    cases redial with
    | none => exact h
    | some r =>
      have hmain : ∀ r, ¬ s.MainHolds r := fun r' hr' => (h.main r' hr').2 r hb
      obtain ⟨hk, hafter⟩ := (h.heartbeat r hb).redial h.kept d
      rw [hf] at hk hafter
      simp only
      cases hr : (s.cli.redial r d).2 with
      | more r' =>
        rw [hr] at hafter
        exact .of_heartbeatHolds hk rfl hafter hmain
      | returned ret =>
        rw [hr] at hafter
        simp only [Followed.After] at hafter
        split at hafter
        · next h0 => exact .of_unlocked hk hmain (fun r hr => by simp [HeartbeatHolds, h0] at hr) (.inr hafter)
        · next h0 => exact .of_unlocked hk hmain (fun r hr => by simp [HeartbeatHolds, h0] at hr) (.inl hafter)
  | _ => exact h

theorem Sound.stepHeartbeat (h : s.Sound f) (hf : f.cli = s.cli) (a : HeartbeatAct) :
    (s.stepHeartbeat a).Sound (f.ops (s.ops (.heartbeat a))) := by
  cases a with
  | wake timestamp => exact h.wake timestamp
  | send results => exact h.sendHeartbeat results
  | reconnect => exact h.reconnectHeartbeat
  | dial d => exact h.dialHeartbeat hf d

theorem Sound.step (h : s.Sound f) (hf : f.cli = s.cli) (a : Act) : (s.step a).Sound (f.ops (s.ops a)) := by
  cases a with
  | main a => exact h.stepMain hf a
  | heartbeat a => exact h.stepHeartbeat hf a

end Steps

end Transport

/-! ## The start and the runs -/

theorem Followed.After.first {f : Followed} {out : Redialed} (h : f.After out) :
    ∀ conn ∈ f.ledger.current, RegistersFirst conn := by
  have hdown : f.Down → ∀ conn ∈ f.ledger.current, RegistersFirst conn := fun h => settled_first (.inl h)
  cases out with
  | more r =>
    cases r with
    | attempt i => exact hdown h
    | registering i =>
      intro conn hc
      rw [Fresh.current h] at hc
      cases hc
      exact eachAfter_nil
  | returned ret =>
    simp only [After] at h
    split at h
    · exact settled_first (.inr h)
    · exact hdown h

/-- A reconnection that no other thread takes part in leaves what its last step leaves. -/
theorem Followed.After.redialAll {f : Followed} {out : Redialed} (h : f.After out) (hk : f.Kept) (ds : List Dial) :
    (f.ops (redialAllOps f.cli out ds)).Kept ∧
      (f.ops (redialAllOps f.cli out ds)).After (KnIg.Agent.redialAll f.cli out ds).2 := by
  induction ds generalizing f out with
  | nil => cases out <;> exact ⟨hk, h⟩
  | cons d ds ih =>
    cases out with
    | returned ret => exact ⟨hk, h⟩
    | more r =>
      obtain ⟨hk', hafter⟩ := At.redial h hk d
      have hcli := ops_redialOps f r d
      have hrest := ih hafter hk'
      rw [hcli] at hrest
      simp only [redialAllOps, KnIg.Agent.redialAll, Followed.ops_append]
      exact hrest

/-- The start leaves the two threads sound. -/
theorem startTransport_sound {cli : IgTcpClient} (hcached : cli.regCached = true) (u : Startup) :
    (startTransport cli u).Sound (Followed.ops ⟨cli, ⟨[], none⟩⟩ (startOps cli u)) := by
  have hk : (Followed.mk cli ⟨[], none⟩).Kept := ⟨hcached, fun conn hc => by cases hc⟩
  have hnone : ∀ conn ∈ (Followed.mk cli ⟨[], none⟩).ledger.current, RegistersFirst conn := fun conn hc => by cases hc
  have hmain : ∀ {s : Transport}, s.main = .idle → ∀ r, ¬ s.MainHolds r := fun hm r ⟨call, hc⟩ => by
    cases hm.symm.trans hc
  -- a start that does not get through leaves nobody to send
  have hquiet : ∀ {s : Transport} {f : Followed}, s.Quiet → f.Kept →
      (∀ conn ∈ f.ledger.current, RegistersFirst conn) → s.Sound f := by
    intro s f hq hk hfirst
    refine ⟨hk, fun r hr => absurd hr (hmain hq.main r), fun r hr => ?_, fun _ => .inr ⟨hq, hfirst⟩⟩
    cases hq.heartbeat.symm.trans hr
  have hup : ∀ {s : Transport} {f : Followed} {thread : Bool}, s.main = .idle →
      s.heartbeat = (if thread then .sleeping else .ended) → f.Kept → (∃ conn, f.Acked conn) → s.Sound f := by
    intro s f thread hm hb hk hacked
    refine .of_unlocked hk (hmain hm) (fun r hr => ?_) (.inr hacked)
    have hr : s.heartbeat = .reconnecting (some r) := hr
    rw [hb] at hr
    cases thread <;> cases hr
  by_cases hc : u.connects = true
  · obtain ⟨hk₁, hfresh⟩ := hk.op_connect hnone
    obtain ⟨hk₂, conn, hcur, hfirst, hacked⟩ := hfresh.op_register hk₁ cli.regHostname.str cli.regIp.str
      cli.regOs.str cli.regMonitorType u.results u.reply
    simp only [startTransport, startOps, hc, if_true]
    split
    · next hret => exact hup rfl rfl hk₂ ⟨conn, hacked hret⟩
    · refine hquiet ⟨rfl, rfl, rfl⟩ hk₂ fun c hc => ?_
      cases hcur.symm.trans hc
      exact hfirst
  · obtain ⟨hk₁, hdown⟩ := hk.op_disconnect hnone
    have hattempt : (Followed.op ⟨cli, ⟨[], none⟩⟩ .disconnect).After (.more (.attempt 0)) := hdown
    obtain ⟨hk₂, hafter⟩ := hattempt.redialAll hk₁ u.dials
    simp only [startTransport, startOps, hc, Bool.false_eq_true, if_false]
    split
    · next hret =>
      have hret : (redialAll (Followed.op ⟨cli, ⟨[], none⟩⟩ .disconnect).cli (.more (.attempt 0)) u.dials).2 =
        .returned 0 := hret
      rw [hret] at hafter
      exact hup rfl rfl hk₂ hafter
    · exact hquiet ⟨rfl, rfl, rfl⟩ hk₂ hafter.first

theorem Transport.Sound.connections {s : Transport} {f : Followed} (h : s.Sound f) :
    ∀ conn ∈ f.ledger.connections, RegistersFirst conn := by
  have hat : ∀ r, f.At r → ∀ conn ∈ f.ledger.current, RegistersFirst conn := by
    intro r hr
    have hafter : f.After (.more r) := hr
    exact hafter.first
  have hcurrent : ∀ conn ∈ f.ledger.current, RegistersFirst conn := by
    by_cases hl : s.locked = false
    · rcases h.free hl with hsettled | ⟨-, hfirst⟩
      · exact Followed.settled_first hsettled
      · exact hfirst
    · by_cases hm : ∃ r, s.MainHolds r
      · obtain ⟨r, hr⟩ := hm
        exact hat r (h.main r hr).1
      · by_cases hb : ∃ r, s.HeartbeatHolds r
        · obtain ⟨r, hr⟩ := hb
          exact hat r (h.heartbeat r hr)
        · exact absurd ((Transport.locked_eq_false s).2 ⟨not_exists.1 hm, not_exists.1 hb⟩) hl
  exact h.kept.connections hcurrent

/-- Whatever the two threads do in whatever order, and however their connections, writes and registrations turn
out, on every connection of the agent the first frame is REGISTER with number 1, and heartbeats and events come
only after the acknowledgement received on it. -/
theorem connections_registersFirst (hostname : TermArr 256) (localIp : TermArr 64) (monitorType : UInt8) (u : Startup)
    (acts : List Act) :
    ∀ conn ∈ (acts.foldl Watched.step (watchedStart (setUpClient hostname localIp monitorType) u)).ledger.connections,
      RegistersFirst conn := by
  have hstep : ∀ w : Watched, w.agent.Sound ⟨w.agent.cli, w.ledger⟩ → ∀ a,
      (w.step a).agent.Sound ⟨(w.step a).agent.cli, (w.step a).ledger⟩ := by
    intro w hw a
    have h : (w.agent.step a).Sound ⟨(Followed.ops ⟨w.agent.cli, w.ledger⟩ (w.agent.ops a)).cli,
      (Followed.ops ⟨w.agent.cli, w.ledger⟩ (w.agent.ops a)).ledger⟩ := hw.step rfl a
    rwa [ops_step] at h
  have hstart : ∀ cli : IgTcpClient, cli.regCached = true →
      (watchedStart cli u).agent.Sound ⟨(watchedStart cli u).agent.cli, (watchedStart cli u).ledger⟩ := by
    intro cli hcached
    have h : (startTransport cli u).Sound ⟨(Followed.ops ⟨cli, ⟨[], none⟩⟩ (startOps cli u)).cli,
      (Followed.ops ⟨cli, ⟨[], none⟩⟩ (startOps cli u)).ledger⟩ := startTransport_sound hcached u
    rwa [ops_start] at h
  have hrun := List.foldlRecOn (motive := fun w : Watched => w.agent.Sound ⟨w.agent.cli, w.ledger⟩) acts _
    (hstart (setUpClient hostname localIp monitorType) rfl) fun w hw a _ => hstep w hw a
  exact hrun.connections

/-- A start that gets through, and the first heartbeat. -/
def watchedBeat : Watched :=
  [.heartbeat (.wake 1700000000), .heartbeat (.send [9, 13])].foldl Watched.step
    (watchedStart (setUpClient freshClient.regHostname freshClient.regIp 2) Transport.goodStart)

/-- REGISTER, its acknowledgement and the heartbeat. -/
theorem connections_registersFirst_beat :
    ∃ conn ∈ watchedBeat.ledger.connections, conn.length = 3 ∧ RegistersFirst conn := by
  have hlength : watchedBeat.ledger.connections.map List.length = [3] := by decide
  obtain ⟨conn, hmem, hconn⟩ := List.mem_map.1 (hlength ▸ List.mem_singleton_self 3)
  exact ⟨conn, hmem, hconn, connections_registersFirst _ _ 2 Transport.goodStart _ conn hmem⟩

end KnIg.Agent
