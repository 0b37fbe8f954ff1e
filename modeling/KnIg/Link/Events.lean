/-
The events of the queue on their way out: what a call of `send_event_with_reconnect` that returns with the
transport still taken for up has got onto a connection, over every interleaving with the heartbeat thread.
-/
import KnIg.Agent.Threads
import KnIg.Backend.Collector.FileEvent

namespace KnIg.Link

open Lib Agent FileEvent

/-! ## Events that get out -/

/-- The FILE_EVENT frame of an event. -/
def eventFrame (agentId : UInt64) (seqNum : UInt32) (ev : IgEvent) : SentFrame where
  type := igMsgTypeFileEvent
  seqNum := seqNum
  payload := wire (eventMessage agentId ev)
  fits := (length_wire_le agentId ev).trans (by decide)

/-- A call that returned with the transport taken for up has put the whole frame of its event on a
connection. -/
def Kept (r : Returned) : Prop :=
  r.transportOk = true → ∃ w ∈ r.call.writes, ∃ seqNum, w.2 = (eventFrame w.1 seqNum r.call.ev).bytes

/-- The client is connected when the event is looked at, and again when the main thread has the lock; its
writes then carry the frame, or it is the third failure in a row; and after a reconnection the same of the second
send, whose writes carry the frame. -/
def Delivers (s : Transport) : Act → Prop
  | .main (.pop ev) =>
    match s.main with
    | .idle => s.transportOk = true → s.cli.state = .connected ∧ ev.source ≠ .inotify
    | _ => True
  | .main (.send results) =>
    match s.main with
    | .sending _ _ payload => s.locked = false → s.cli.state = .connected ∧
        (Carries results payload.length ∨ igSendMaxRetries ≤ s.cli.sendFailures + 1)
    | .resending _ _ payload => s.locked = false → s.cli.state = .connected ∧ Carries results payload.length
    | _ => True
  | .main .resume =>
    match s.main with
    | .reconnected _ => s.cli.state = .connected
    | _ => True
  | _ => True

/-! ## One send of an event -/

/-- No send of the call has got through whole. -/
def Unsent (call : Call) : Prop :=
  ∀ w ∈ call.writes, w.2.length < igFrameHeaderSize + (wire (eventMessage w.1 call.ev)).length

theorem length_eventFrame (agentId : UInt64) (seqNum : UInt32) (ev : IgEvent) :
    (eventFrame agentId seqNum ev).bytes.length = igFrameHeaderSize + (wire (eventMessage agentId ev)).length := by
  rw [SentFrame.bytes, List.length_append, SentFrame.header_length]
  rfl

theorem Unsent.not_kept {call : Call} (h : Unsent call) : ¬ Kept ⟨call, true⟩ := by
  intro hk
  obtain ⟨w, hw, seqNum, he⟩ := hk rfl
  have hlt := h w hw
  rw [he, length_eventFrame] at hlt
  exact lt_irrefl _ hlt

theorem kept_false (call : Call) : Kept ⟨call, false⟩ := fun h => by cases h

/-- The call after another send. -/
def sentOn (call : Call) (agentId : UInt64) (written : Bytes) : Call :=
  { call with writes := call.writes ++ [(agentId, written)] }

theorem Unsent.sentOn {call : Call} (hu : Unsent call) {agentId : UInt64} {written : Bytes}
    (hw : written.length < igFrameHeaderSize + (wire (eventMessage agentId call.ev)).length) :
    Unsent (sentOn call agentId written) := by
  intro w hmem
  rcases List.mem_append.1 hmem with hmem | hmem
  · exact hu w hmem
  · rw [List.mem_singleton.1 hmem]
    exact hw

section Send

variable {cli : IgTcpClient} {call : Call}

/-- Either the client is connected and the results carry the frame, which is then on the connection, or the
send fails, with the third failure in a row on a connection set apart. -/
theorem send_event_cases (hl : cli.Linked) (hu : Unsent call) (agentId : UInt64) (results : List Int) :
    let r := cli.sendFrameLocked igMsgTypeFileEvent (wire (eventMessage agentId call.ev)) results
    let carried := cli.state = .connected ∧ Carries results (wire (eventMessage agentId call.ev)).length
    (carried ∧ r.ret = 0 ∧ Kept ⟨sentOn call agentId r.written, true⟩) ∨
      (¬ carried ∧ r.ret ≠ 0 ∧ Unsent (sentOn call agentId r.written) ∧
        (r.ret = -2 ↔ cli.state = .connected ∧ igSendMaxRetries ≤ cli.sendFailures + 1)) := by
  intro r carried
  by_cases hs : cli.state = .connected
  · obtain ⟨stream, hstream⟩ := Option.isSome_iff_exists.1 (hl.1 hs)
    have hfits : (wire (eventMessage agentId call.ev)).length ≤ igMaxFrameSize := (eventFrame agentId 0 call.ev).fits
    obtain ⟨written, hpre, hall, -, heq⟩ :=
      IgTcpClient.sendFrameLocked_eq hs hstream hfits igMsgTypeFileEvent results
    by_cases hc : Carries results (wire (eventMessage agentId call.ev)).length
    · left
      have hr : r.ret = 0 ∧ r.written = written := by
        simp only [r]
        rw [heq, if_pos hc]
        exact ⟨rfl, rfl⟩
      refine ⟨⟨hs, hc⟩, hr.1, fun _ => ⟨(agentId, written), ?_, cli.seqNum + 1, hall.1 hc⟩⟩
      rw [hr.2]
      exact List.mem_append_right _ (List.mem_singleton_self _)
    · right
      have hlt : written.length < igFrameHeaderSize + (wire (eventMessage agentId call.ev)).length := by
        rw [← length_eventFrame agentId (cli.seqNum + 1)]
        exact lt_of_le_of_ne hpre.length_le fun hlen => hc (hall.2 (hpre.eq_of_length hlen))
      have hr : r.written = written ∧ r.ret = if cli.sendFailures + 1 ≥ igSendMaxRetries then -2 else -1 := by
        simp only [r]
        rw [heq, if_neg hc]
        split <;> exact ⟨rfl, rfl⟩
      refine ⟨fun h => hc h.2, ?_, hr.1 ▸ hu.sentOn hlt, ?_⟩
      · rw [hr.2]
        split <;> decide
      · rw [hr.2]
        split
        · next hge => simp [hs, hge]
        · next hge => simp [hs, hge]
  · right
    have hr : r = ⟨cli, -1, []⟩ := IgTcpClient.sendFrameLocked_disconnected hs
    refine ⟨fun h => hs h.1, by simp [hr], ?_, by simp [hr, hs]⟩
    rw [hr]
    exact hu.sentOn (by simp [igFrameHeaderSize])

end Send

/-! ## Where a call stands -/

/-- Where the main thread stands, the flag is as it left it, the frame in hand is that of its event, which is one
the client sends, and none got through before. -/
def Pending (s : Transport) : Prop :=
  match s.main with
  | .idle => True
  | .sending call agentId payload => s.transportOk = true ∧ payload = wire (eventMessage agentId call.ev) ∧
      call.ev.source ≠ .inotify ∧ Unsent call
  | .reconnecting call _ => s.transportOk = false ∧ call.ev.source ≠ .inotify ∧ Unsent call
  | .reconnected call => s.transportOk = false ∧ call.ev.source ≠ .inotify ∧ Unsent call
  | .resending call agentId payload => s.transportOk = true ∧ payload = wire (eventMessage agentId call.ev) ∧
      call.ev.source ≠ .inotify ∧ Unsent call

structure Tracks (s : Transport) : Prop where
  linked : s.cli.Linked
  pending : Pending s
  named : s.transportOk = true → s.agentId ≠ []

section Steps

variable {s : Transport}

theorem sendEvent_eq (s : Transport) (ev : IgEvent) :
    (s.cli.state = .connected ∧ ev.source ≠ .inotify ∧
      s.sendEvent ev = .frame (wire (eventMessage s.cli.agentId ev))) ∨
    (¬ (s.cli.state = .connected ∧ ev.source ≠ .inotify) ∧ (s.sendEvent ev = .failed ∨ s.sendEvent ev = .skipped)) := by
  by_cases hs : s.cli.state = .connected
  · by_cases hi : ev.source = .inotify
    · right
      refine ⟨fun h => h.2 hi, .inr ?_⟩
      rw [Transport.sendEvent, decide_eq_true hs]
      exact igTcpSendEvent_inotify hi _
    · left
      refine ⟨hs, hi, ?_⟩
      rw [Transport.sendEvent, decide_eq_true hs]
      exact igTcpSendEvent_eq hi _
  · right
    exact ⟨fun h => hs h.1, .inl (by simp [Transport.sendEvent, igTcpSendEvent, hs])⟩

/-- Every call that has returned so far is kept. -/
def AllKept (s : Transport) : Prop := ∀ r ∈ s.returns, Kept r

/-- A step to `s'` that leaves the calls tracked and the events kept exactly under the condition. -/
def Goes (s s' : Transport) (cond : Prop) : Prop := Tracks s' ∧ (AllKept s' ↔ AllKept s ∧ cond)

theorem Goes.quiet {s' : Transport} {cond : Prop} (h : Tracks s') (hr : s'.returns = s.returns) (hc : cond) :
    Goes s s' cond :=
  ⟨h, by simp [AllKept, hr, hc]⟩

theorem Goes.returned {s' : Transport} {call : Call} {cond : Prop} (hl : s'.cli.Linked)
    (hn : s'.transportOk = true → s'.agentId ≠ []) (hr : s'.returns = s.returns)
    (hk : Kept ⟨call, s'.transportOk⟩ ↔ cond) : Goes s (s'.returned call) cond := by
  refine ⟨⟨hl, trivial, hn⟩, ?_⟩
  rw [← hk]
  simp [AllKept, Transport.returned, hr, or_imp, forall_and]

theorem Tracks.goes_refl (h : Tracks s) {cond : Prop} (hc : cond) : Goes s s cond := .quiet h rfl hc

theorem unsent_nil (ev : IgEvent) : Unsent ⟨ev, []⟩ := by simp [Unsent]

theorem Tracks.goes_pop (h : Tracks s) (ev : IgEvent) :
    Goes s (s.stepMain (.pop ev)) (Delivers s (.main (.pop ev))) := by
  simp only [Transport.stepMain, Delivers]
  cases hm : s.main with
  | idle =>
    simp only
    by_cases hok : s.transportOk = true
    · rw [if_neg (by simp [hok]), if_neg (h.named hok)]
      have hfail : Goes s (s.returned ⟨ev, []⟩) False := by
        refine .returned h.linked h.named rfl (iff_of_false ?_ id)
        rw [hok]
        exact (unsent_nil ev).not_kept
      rcases sendEvent_eq s ev with ⟨hs, hi, he⟩ | ⟨hno, he⟩
      · rw [he]
        exact .quiet ⟨h.linked, ⟨hok, rfl, hi, unsent_nil ev⟩, h.named⟩ rfl fun _ => ⟨hs, hi⟩
      · have hcond : (s.transportOk = true → s.cli.state = .connected ∧ ev.source ≠ .inotify) ↔ False :=
          iff_of_false (fun hc => hno (hc hok)) id
        rw [hcond]
        rcases he with he | he
        · rw [he]; exact hfail
        · rw [he]; exact hfail
    · rw [if_pos (by simpa using hok)]
      exact h.goes_refl fun hc => absurd hc hok
  | sending | reconnecting | reconnected | resending => exact h.goes_refl trivial

theorem Tracks.goes_send (h : Tracks s) (results : List Int) :
    Goes s (s.stepMain (.send results)) (Delivers s (.main (.send results))) := by
  have hp := h.pending
  simp only [Transport.stepMain, Delivers]
  by_cases hlock : s.locked = true
  · rw [if_pos hlock]
    refine h.goes_refl ?_
    split <;> simp [hlock]
  rw [if_neg hlock]
  have hfree : s.locked = false := by simpa using hlock
  cases hm : s.main with
  | sending call agentId payload =>
    simp only [Pending, hm] at hp
    obtain ⟨hok, rfl, hi, hu⟩ := hp
    have hl :=
      IgTcpClient.sendFrameLocked_linked h.linked igMsgTypeFileEvent (wire (eventMessage agentId call.ev)) results
    simp only
    rcases send_event_cases h.linked hu agentId results with ⟨hc, hret, hk⟩ | ⟨hc, hret, hu', h3⟩
    · rw [if_neg (by rw [hret]; decide)]
      exact .returned hl h.named rfl (iff_of_true (hok ▸ hk) fun _ => ⟨hc.1, .inl hc.2⟩)
    · split
      · next h2 =>
        have ht := h3.1 h2
        exact .quiet ⟨hl, ⟨rfl, hi, hu'⟩, fun hf => by cases hf⟩ rfl fun _ => ⟨ht.1, .inr ht.2⟩
      · next h2 =>
        refine .returned hl h.named rfl (iff_of_false ?_ fun hd => ?_)
        · rw [hok]
          exact hu'.not_kept
        · rcases hd hfree with ⟨hs, hw | hw⟩
          · exact hc ⟨hs, hw⟩
          · exact h2 (h3.2 ⟨hs, hw⟩)
  | resending call agentId payload =>
    simp only [Pending, hm] at hp
    obtain ⟨hok, rfl, hi, hu⟩ := hp
    have hl :=
      IgTcpClient.sendFrameLocked_linked h.linked igMsgTypeFileEvent (wire (eventMessage agentId call.ev)) results
    simp only
    rcases send_event_cases h.linked hu agentId results with ⟨hc, -, hk⟩ | ⟨hc, -, hu', -⟩
    · exact .returned hl h.named rfl (iff_of_true (hok ▸ hk) fun _ => hc)
    · refine .returned hl h.named rfl (iff_of_false ?_ fun hd => hc (hd hfree))
      rw [hok]
      exact hu'.not_kept
  | idle | reconnecting | reconnected => exact h.goes_refl trivial

theorem Tracks.goes_reconnect (h : Tracks s) :
    Goes s (s.stepMain .reconnect) (Delivers s (.main .reconnect)) := by
  have hp := h.pending
  simp only [Transport.stepMain]
  split
  · exact h.goes_refl trivial
  split
  · next call hm =>
    simp only [Pending, hm] at hp
    exact .quiet ⟨IgTcpClient.disconnectLocked_linked s.cli, hp, h.named⟩ rfl trivial
  · exact h.goes_refl trivial

theorem Tracks.goes_dial (h : Tracks s) (d : Dial) :
    Goes s (s.stepMain (.dial d)) (Delivers s (.main (.dial d))) := by
  have hp := h.pending
  simp only [Transport.stepMain]
  split
  · next call redial hm =>
    simp only [Pending, hm] at hp
    have hl := IgTcpClient.redial_linked h.linked redial d
    split
    · exact .quiet ⟨hl, hp, h.named⟩ rfl trivial
    · split
      · exact .quiet ⟨hl, hp, h.named⟩ rfl trivial
      · refine .returned hl h.named rfl (iff_of_true ?_ trivial)
        rw [hp.1]
        exact kept_false call
  · exact h.goes_refl trivial

theorem Tracks.goes_resume (h : Tracks s) : Goes s (s.stepMain .resume) (Delivers s (.main .resume)) := by
  have hp := h.pending
  simp only [Transport.stepMain, Delivers]
  cases hm : s.main with
  | reconnected call =>
    simp only [Pending, hm] at hp
    obtain ⟨-, hi, hu⟩ := hp
    have hn := decimal_ne_nil s.cli.agentId.toNat
    simp only
    obtain ⟨hs, -, he⟩ | ⟨hno, he⟩ :=
      sendEvent_eq
        { s with agentId := decimal s.cli.agentId.toNat, transportOk := true, main := .reconnected call } call.ev
    · rw [he]
      exact .quiet ⟨h.linked, ⟨rfl, rfl, hi, hu⟩, fun _ => hn⟩ rfl hs
    · have hfail : Kept ⟨call, true⟩ ↔ s.cli.state = .connected := iff_of_false hu.not_kept fun hs => hno ⟨hs, hi⟩
      rcases he with he | he
      · rw [he]
        exact .returned h.linked (fun _ => hn) rfl hfail
      · rw [he]
        exact .returned h.linked (fun _ => hn) rfl hfail
  | idle | sending | reconnecting | resending => exact h.goes_refl trivial

/-- The heartbeat thread lets no call return. -/
theorem Tracks.goes_heartbeat (h : Tracks s) (a : HeartbeatAct) :
    Goes s (s.stepHeartbeat a) (Delivers s (.heartbeat a)) := by
  cases a with
  | wake timestamp =>
    simp only [Transport.stepHeartbeat]
    split
    · exact .quiet ⟨h.linked, h.pending, h.named⟩ rfl trivial
    · exact h.goes_refl trivial
  | send results =>
    simp only [Transport.stepHeartbeat]
    split
    · exact h.goes_refl trivial
    split
    · exact .quiet ⟨IgTcpClient.sendFrameLocked_linked h.linked _ _ _, h.pending, h.named⟩ rfl trivial
    · exact h.goes_refl trivial
  | reconnect =>
    simp only [Transport.stepHeartbeat]
    split
    · exact h.goes_refl trivial
    split
    · exact .quiet ⟨IgTcpClient.disconnectLocked_linked s.cli, h.pending, h.named⟩ rfl trivial
    · exact h.goes_refl trivial
  | dial d =>
    simp only [Transport.stepHeartbeat]
    split
    · next redial hs =>
      have hl := IgTcpClient.redial_linked h.linked redial d
      split
      · exact .quiet ⟨hl, h.pending, h.named⟩ rfl trivial
      · exact .quiet ⟨hl, h.pending, h.named⟩ rfl trivial
    · exact h.goes_refl trivial

theorem Tracks.goes (h : Tracks s) (a : Act) : Goes s (s.step a) (Delivers s a) := by
  cases a with
  | main a =>
    cases a with
    | pop ev => exact h.goes_pop ev
    | send results => exact h.goes_send results
    | reconnect => exact h.goes_reconnect
    | dial d => exact h.goes_dial d
    | resume => exact h.goes_resume
  | heartbeat a => exact h.goes_heartbeat a

end Steps

/-! ## Runs -/

theorem redialAll_linked {cli : IgTcpClient} (h : cli.Linked) (out : Redialed) (ds : List Dial) :
    (redialAll cli out ds).1.Linked := by
  induction ds generalizing cli out with
  | nil => cases out <;> exact h
  | cons d ds ih =>
    cases out with
    | more r => exact ih (IgTcpClient.redial_linked h r d) _
    | returned ret => exact h

theorem startTransport_tracks (cli : IgTcpClient) (u : Startup) : Tracks (startTransport cli u) := by
  unfold startTransport
  simp only
  split
  · have hl := IgTcpClient.registerInternalLocked_linked (IgTcpClient.connected_linked cli) cli.regHostname.str
      cli.regIp.str cli.regOs.str cli.regMonitorType u.results u.reply
    split
    · exact ⟨hl, trivial, fun _ => decimal_ne_nil _⟩
    · exact ⟨hl, trivial, fun h => by cases h⟩
  · have hl := redialAll_linked (IgTcpClient.disconnectLocked_linked cli) (.more (.attempt 0)) u.dials
    split
    · exact ⟨hl, trivial, fun _ => decimal_ne_nil _⟩
    · exact ⟨hl, trivial, fun h => by cases h⟩

theorem startTransport_returns (cli : IgTcpClient) (u : Startup) : (startTransport cli u).returns = [] := by
  unfold startTransport
  simp only
  split <;> split <;> rfl

theorem allKept_run_iff (cli : IgTcpClient) (u : Startup) (acts : List Act) :
    AllKept (acts.foldl Transport.step (startTransport cli u)) ↔
      AllSteps Transport.step Delivers (startTransport cli u) acts := by
  have hinv : ∀ s a, Tracks s → Tracks (Transport.step s a) := fun _ a hs => (hs.goes a).1
  have hstep : ∀ s a, Tracks s → (AllKept (Transport.step s a) ↔ AllKept s ∧ Delivers s a) :=
    fun _ a hs => (hs.goes a).2
  rw [foldl_iff hinv hstep acts _ (startTransport_tracks cli u)]
  exact and_iff_right (by simp [AllKept, startTransport_returns])

/-- Whatever the two threads do: every call that began with the transport up and returned with it still taken for up
has put its frame on a connection, exactly if each step of the main thread delivers. -/
theorem events_kept_iff (cli : IgTcpClient) (u : Startup) (acts : List Act) :
    (∀ r ∈ (acts.foldl Transport.step (startTransport cli u)).returns, Kept r) ↔
      AllSteps Transport.step Delivers (startTransport cli u) acts :=
  allKept_run_iff cli u acts

/-- An event whose first write fails, when it is not the third failure in a row, is gone. -/
theorem firstFailure_lost {s : Transport} (hmain : s.main = .idle) (hok : s.transportOk = true)
    (hname : s.agentId ≠ []) (hheart : s.heartbeat = .sleeping) (hfew : s.cli.sendFailures + 1 < igSendMaxRetries)
    (ev : IgEvent) :
    ¬ AllSteps Transport.step Delivers s [.main (.pop ev), .main (.send [])] := by
  rintro ⟨hpop, hsend, -⟩
  simp only [Delivers, hmain] at hpop
  rcases sendEvent_eq s ev with ⟨-, -, he⟩ | ⟨hno, -⟩
  · simp [Delivers, Transport.step, Transport.stepMain, hmain, hok, hname, he, Transport.locked, hheart, Carries,
      carry, igFrameHeaderSize] at hsend
    omega
  · exact hno (hpop hok)

theorem events_firstFailure_fails :
    ¬ ∀ r ∈ ([Act.main (.pop (blockedWrite 1700000000)), .main (.send [])].foldl Transport.step
      (startTransport freshClient Transport.goodStart)).returns, Kept r := fun h =>
  firstFailure_lost rfl (by decide) (by decide) rfl (by decide) _ ((allKept_run_iff _ _ _).1 h)

end KnIg.Link
