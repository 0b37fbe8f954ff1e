/-
Which of the agent's events the server stores. Every value of an event that the server decodes fits its column by
size, but the agent cuts texts at fixed byte positions and sends ids as they are, so an event is refused if one of
its texts is not UTF-8, one of its ids is negative, or the agent has no row.
-/
import KnIg.Backend.Collector.FileEvent
import KnIg.Backend.Store.EventStore

namespace KnIg.Link

open Lib Lib.Reader Agent Backend FileEvent

/-! ## What the store asks for -/

/-- The ids of an ancestry entry are not negative and its texts are UTF-8. -/
structure ProcStorable (e : ProcInfo) : Prop where
  pid : 0 ≤ e.pid.toInt
  ppid : 0 ≤ e.ppid.toInt
  sid : 0 ≤ e.sid.toInt
  tty : validString e.tty.str
  comm : validString e.comm.str
  exe : validString e.exe.str
  cmdline : validString e.cmdline.str

/-- The ancestry entries that the agent sends with an event. -/
def sentChain (ev : IgEvent) : List ProcInfo := ev.chain.first (wireDepth (some ev.chain)).toNat

/-- The agent has a row, and the ids and texts of the event and its ancestry can be stored; the event's own actor
counts only without an ancestry. -/
structure Storable (db : Db) (agentId : UInt64) (ev : IgEvent) : Prop where
  agent : (db.agents.find (formatUint agentId)).isSome
  path : validString ev.path.str.bytes
  filename : validString ev.filename.str.bytes
  pid : 0 ≤ ev.pid.toInt
  actor : sentChain ev = [] → validString ev.comm.str ∧ 0 ≤ ev.sid.toInt
  chain : ∀ e ∈ sentChain ev, ProcStorable e

/-! ## Rows of an event -/

/-- What the server makes of an ancestry entry. -/
def processInfo (e : ProcInfo) : ProcessInfo :=
  ⟨e.pid.toUInt32.toNat, e.ppid.toUInt32.toNat, e.uid, e.euid, e.sid.toUInt32.toNat, e.tty.str, e.comm.str, e.exe.str,
    e.cmdline.str, e.startTimeNs⟩

theorem convertProcessChain_infoMsg (es : List ProcInfo) :
    convertProcessChain (es.map infoMsg) = es.map processInfo := by
  rw [convertProcessChain, List.map_map]
  rfl

theorem takes_id (x : Int32) : ColumnType.takes .int (.int x.toUInt32.toNat) = true ↔ 0 ≤ x.toInt := by
  have hx : x.toInt = if 2 * x.toUInt32.toNat < 2 ^ 32 then (x.toUInt32.toNat : Int)
      else x.toUInt32.toNat - (2 ^ 32 : Nat) := BitVec.toInt_eq_toNat_cond x.toBitVec
  have hlt := x.toUInt32.toNat_lt
  rw [takes_int, decide_eq_true_eq]
  split at hx <;> omega

theorem takes_charArr {n : Nat} (a : CharArr n) : ColumnType.takes (.varchar n) (.text a.str) = validString a.str :=
  takes_varchar a.strnlen_le

theorem takes_cmdline (a : CharArr 512) : ColumnType.takes .text (.text a.str) = validString a.str :=
  takes_text (a.strnlen_le.trans_lt (by decide))

/-- The cells of an acting process, in both tables. -/
theorem chainRow_taken_iff (eventID : Int64) {i : Nat} (hi : i < 2 ^ 8) (e : ProcInfo) :
    (chainRow eventID i (processInfo e)).all Cell.taken = true ↔ ProcStorable e := by
  simp only [chainRow, processInfo, List.all_cons, List.all_nil, Cell.taken, Bool.and_eq_true, takes_bigint,
    takes_tinyintUnsigned hi, takes_id, takes_intUnsigned, takes_charArr, takes_cmdline, takes_bigintUnsigned,
    true_and, and_true]
  constructor
  · rintro ⟨hpid, hppid, hsid, htty, hcomm, hexe, hcmdline⟩
    exact ⟨hpid, hppid, hsid, htty, hcomm, hexe, hcmdline⟩
  · intro h
    exact ⟨h.pid, h.ppid, h.sid, h.tty, h.comm, h.exe, h.cmdline⟩

theorem takes_eventType (t : EventType) :
    ColumnType.takes (.varchar 10) (.text (eventTypeName (mapEventType t))) = true := by
  cases t <;> decide

theorem takes_source {src : EventSource} (h : src ≠ .inotify) :
    ColumnType.takes (.varchar 20) (.text (monitorTypeName (mapSource src))) = true := by
  cases src with
  | inotify => exact absurd rfl h
  | ebpf => decide
  | lkm => decide
  | fanotify => decide

theorem takes_permission : ColumnType.takes (.varchar 10) (.text (permString 0)) = true := by decide

theorem takes_zero : ColumnType.takes .int (.int 0) = true := by decide

theorem takes_no_cmdline : ColumnType.takes .text (.text []) = true := by decide

theorem takes_empty (n : Nat) : ColumnType.takes (.varchar n) (.text []) = true := by
  rw [takes_varchar (Nat.zero_le n)]
  rfl

theorem takes_path (ev : IgEvent) :
    ColumnType.takes .text (.text ev.path.str.bytes) = validString ev.path.str.bytes :=
  takes_text (ev.path.fits.trans (by decide))

theorem takes_filename (ev : IgEvent) :
    ColumnType.takes (.varchar 255) (.text ev.filename.str.bytes) = validString ev.filename.str.bytes :=
  takes_varchar (Nat.le_of_lt_succ ev.filename.fits)

theorem eventActor_of_nil (agentId : UInt64) {ev : IgEvent} (h : sentChain ev = []) :
    eventActor (eventMessage agentId ev) =
      ⟨ev.pid.toUInt32.toNat, 0, ev.uid, 0, ev.sid.toUInt32.toNat, [], ev.comm.str, [], [], 0⟩ := by
  have hentries : (eventMessage agentId ev).chain.entries = [] := congrArg (List.map infoMsg) h
  rw [eventActor, hentries]
  rfl

theorem eventActor_of_cons (agentId : UInt64) {ev : IgEvent} {e : ProcInfo} {es : List ProcInfo}
    (h : sentChain ev = e :: es) : eventActor (eventMessage agentId ev) = processInfo e := by
  have hentries : (eventMessage agentId ev).chain.entries = infoMsg e :: es.map infoMsg := congrArg (List.map infoMsg) h
  rw [eventActor, hentries]
  rfl

/-- What the row of the event itself asks for. -/
theorem fileEventRow_taken_iff (agentId : UInt64) {ev : IgEvent} (hsrc : ev.source ≠ .inotify) :
    (fileEventRow (eventPayload (eventMessage agentId ev))).all Cell.taken = true ↔
      validString ev.path.str.bytes ∧ validString ev.filename.str.bytes ∧ 0 ≤ ev.pid.toInt ∧
        (sentChain ev = [] → validString ev.comm.str ∧ 0 ≤ ev.sid.toInt) ∧
        ∀ e ∈ (sentChain ev).head?, ProcStorable e := by
  have hdepth : (eventMessage agentId ev).chain.depth.toNat < 2 ^ 8 := UInt8.toNat_lt _
  cases hchain : sentChain ev with
  | nil =>
    -- without an ancestry the event itself is the actor
    simp only [fileEventRow, eventPayload, eventActor_of_nil agentId hchain, List.all_cons, List.all_nil, Cell.taken,
      Bool.and_eq_true, takes_formatUint, takes_sqlBool, takes_intUnsigned, takes_bigintUnsigned,
      takes_tinyintUnsigned hdepth, takes_datetime, takes_empty, takes_zero, takes_no_cmdline, true_and, and_true]
    simp only [eventMessage, takes_eventType, takes_source hsrc, takes_permission, takes_path, takes_filename,
      takes_id, takes_charArr, true_and]
    simp
    tauto
  | cons e es =>
    -- the first entry is the actor, its cells are those of its own row
    simp only [fileEventRow, eventPayload, eventActor_of_cons agentId hchain, List.all_cons, List.all_nil, Cell.taken,
      Bool.and_eq_true, takes_formatUint, takes_sqlBool, takes_intUnsigned, takes_bigintUnsigned,
      takes_tinyintUnsigned hdepth, takes_datetime, true_and, and_true]
    simp only [eventMessage, processInfo, takes_eventType, takes_source hsrc, takes_permission, takes_path,
      takes_filename, takes_id, takes_charArr, takes_cmdline, true_and, reduceCtorEq, false_implies]
    simp only [List.head?_cons, Option.mem_some_iff, forall_eq']
    constructor
    · rintro ⟨hpath, hname, hown, hpid, hppid, hsid, htty, hcomm, hexe, hcmdline⟩
      exact ⟨hpath, hname, hown, hpid, hppid, hsid, htty, hcomm, hexe, hcmdline⟩
    · rintro ⟨hpath, hname, hown, hp⟩
      exact ⟨hpath, hname, hown, hp.pid, hp.ppid, hp.sid, hp.tty, hp.comm, hp.exe, hp.cmdline⟩

theorem length_sentChain_le (ev : IgEvent) : (sentChain ev).length ≤ 16 := by
  rw [sentChain, length_first]
  omega

/-- The store takes the rows of an event exactly if they can be stored. -/
theorem saveEvent_iff (db : Db) (eventID : Int64) (agentId : UInt64) {ev : IgEvent} (hsrc : ev.source ≠ .inotify) :
    saveEvent db eventID (eventPayload (eventMessage agentId ev)) = .ok () ↔ Storable db agentId ev := by
  have hchain : (eventPayload (eventMessage agentId ev)).chain = (sentChain ev).map processInfo :=
    convertProcessChain_infoMsg (sentChain ev)
  have hrow : ∀ k < (sentChain ev).length, ∀ e,
      (chainRow eventID (0 + k) (processInfo e)).all Cell.taken = true ↔ ProcStorable e := by
    intro k hk e
    have hle := length_sentChain_le ev
    exact chainRow_taken_iff eventID (by omega) e
  rw [saveEvent_eq_ok, fileEventRow_taken_iff agentId hsrc, hchain, insertChain_eq_ok]
  constructor
  · rintro ⟨⟨hpath, hname, hpid, hactor, -⟩, hagent, hentries⟩
    refine ⟨hagent, hpath, hname, hpid, hactor, fun e he => ?_⟩
    obtain ⟨k, hk, rfl⟩ := List.mem_iff_getElem.1 he
    refine (hrow k hk _).1 (hentries k _ ?_)
    rw [List.getElem?_map, List.getElem?_eq_getElem hk]
    rfl
  · intro h
    refine ⟨⟨h.path, h.filename, h.pid, h.actor, fun e he => h.chain e (List.mem_of_head? he)⟩, h.agent, ?_⟩
    intro k e' hk
    rw [List.getElem?_map] at hk
    obtain ⟨e, he, rfl⟩ := Option.map_eq_some_iff.1 hk
    obtain ⟨hlt, rfl⟩ := List.getElem?_eq_some_iff.1 he
    exact (hrow k hlt _).2 (h.chain _ (List.getElem_mem hlt))

/-! ## From the agent's send to the store -/

/-- What a connected agent sends comes from a backend of the server's, as its layout. -/
theorem igTcpSendEvent_frame {connected : Bool} {agentId : UInt64} {ev : IgEvent} {payload : Bytes}
    (h : igTcpSendEvent connected agentId ev = .frame payload) :
    ev.source ≠ .inotify ∧ payload = wire (eventMessage agentId ev) := by
  cases connected with
  | false => cases h
  | true =>
    by_cases hsrc : ev.source = .inotify
    · rw [igTcpSendEvent_inotify hsrc] at h
      cases h
    · rw [igTcpSendEvent_eq hsrc] at h
      cases h
      exact ⟨hsrc, rfl⟩

/-- What the server decodes from an event's layout is its message. -/
theorem eq_of_decodeFileEvent {agentId : UInt64} {ev : IgEvent} {m : FileEventMsg}
    (h : decodeFileEvent (wire (eventMessage agentId ev)) = .ok m) : m = eventMessage agentId ev := by
  by_cases h16 : (wireDepth (some ev.chain)).toNat ≤ 16
  · rw [decodeFileEvent_wire (eventMessage_fits_of_depth h16 agentId)] at h
    exact (Except.ok.inj h).symm
  -- a deeper chain than the server takes is not decoded
  · obtain ⟨err, herr⟩ := decodeFileEvent_deep (m := eventMessage agentId ev) (ev.path.fits.trans (by decide))
      (ev.filename.fits.trans (by decide)) (ev.comm.strnlen_le.trans_lt (by decide)) (not_le.1 h16)
    rw [herr] at h
    cases h

/-- A session saves only what it has decoded. -/
theorem payload_of_saveEvent {s : AgentSession} {f : Frame} {p : FileEventPayload}
    (h : Effect.saveEvent p ∈ s.handleFileEvent f) :
    ∃ m, decodeFileEvent f.payload = .ok m ∧ s.validateAgentIdentity m.agentID = true ∧ p = eventPayload m := by
  unfold AgentSession.handleFileEvent at h
  split at h
  · cases h
  next m hm =>
  split at h
  · simp at h
  next hid =>
  refine ⟨m, hm, not_not.1 hid, ?_⟩
  split at h <;> simpa using h

/-- An event that the agent sent, and that passed decoding and the check of its agent, is stored exactly if its ids
are not negative, its texts are UTF-8 and its agent has a row. -/
theorem saveEvent_sent_iff (db : Db) (eventID : Int64) (connected : Bool) (agentId : UInt64) (ev : IgEvent)
    (s : AgentSession) (f : Frame) (hsent : igTcpSendEvent connected agentId ev = .frame f.payload)
    (p : FileEventPayload) (hsaved : Effect.saveEvent p ∈ s.handleFileEvent f) :
    saveEvent db eventID p = .ok () ↔ Storable db agentId ev := by
  obtain ⟨hsrc, hpayload⟩ := igTcpSendEvent_frame hsent
  obtain ⟨m, hm, -, rfl⟩ := payload_of_saveEvent hsaved
  rw [hpayload] at hm
  rw [eq_of_decodeFileEvent hm]
  exact saveEvent_iff db eventID agentId hsrc

/-! ## An event on its way -/

/-- The frame of an event, read by a server whose store answers. -/
def sentFrame (agentId : UInt64) (ev : IgEvent) : Frame :=
  let payload := wire (eventMessage agentId ev)
  ⟨⟨UInt32.ofNat payload.length, msgFileEvent, 2⟩, payload, .ok ()⟩

/-- The session of an agent with this id. -/
def sessionOf (agentId : UInt64) : AgentSession := ⟨formatUint agentId, agentId, 1⟩

/-- A database with the row of one agent. -/
def dbOf (agentId : UInt64) : Db :=
  ⟨⟨[⟨formatUint agentId, ascii "web", ascii "10.0.0.1", [], ascii "Linux", ascii "lkm", ascii "online", 0, none⟩],
    List.nodup_singleton _⟩, .empty, .empty, by simp [UniqueTable.empty]⟩

/-- The agent's session passes the event on to the store. -/
theorem saveEvent_mem {agentId : UInt64} {ev : IgEvent} (hid : agentId ≠ 0)
    (h16 : (wireDepth (some ev.chain)).toNat ≤ 16) :
    Effect.saveEvent (eventPayload (eventMessage agentId ev)) ∈
      (sessionOf agentId).handleFileEvent (sentFrame agentId ev) := by
  have hdec := decodeFileEvent_wire (eventMessage_fits_of_depth h16 agentId)
  have hvalid : (sessionOf agentId).validateAgentIdentity (eventMessage agentId ev).agentID = true := by
    simp [AgentSession.validateAgentIdentity, sessionOf, hid, formatUint_ne_nil, eventMessage]
  simp [AgentSession.handleFileEvent, sentFrame, hdec, hvalid]

theorem saveEvent_sent_blockedWrite :
    saveEvent (dbOf 7) 1 (eventPayload (eventMessage 7 (blockedWrite 1700000000))) = .ok () ↔
      Storable (dbOf 7) 7 (blockedWrite 1700000000) :=
  saveEvent_sent_iff (dbOf 7) 1 true 7 (blockedWrite 1700000000) (sessionOf 7) (sentFrame 7 (blockedWrite 1700000000))
    (igTcpSendEvent_eq (blockedWrite_sendable 1700000000).source 7) _ (saveEvent_mem (by decide) (by decide))

/-- The name `a가나다라마` of a program, as much of it as the kernel keeps. -/
def cutName : Bytes := [0x61, 0xEA, 0xB0, 0x80, 0xEB, 0x82, 0x98, 0xEB, 0x8B, 0xA4, 0xEB, 0x9D, 0xBC, 0xEB, 0xA7]

/-- The program is blocked from writing a file. -/
def cutComm : IgEvent :=
  { blockedWrite 1700000000 with
    comm := charArr 16 cutName
    chain := ⟨1, 0, fun _ => { shellProc with comm := charArr 16 cutName }⟩ }

/-- The agent sends the event, the server takes it for its agent's, and the store refuses it. -/
theorem saveEvent_cutComm_fails :
    igTcpSendEvent true 7 cutComm = .frame (sentFrame 7 cutComm).payload ∧
      ¬ ∀ p, Effect.saveEvent p ∈ (sessionOf 7).handleFileEvent (sentFrame 7 cutComm) →
        saveEvent (dbOf 7) 1 p = .ok () := by
  have hsrc : cutComm.source ≠ .inotify := by simp [cutComm, blockedWrite]
  refine ⟨igTcpSendEvent_eq hsrc 7, fun h => ?_⟩
  have hsaved := h _ (saveEvent_mem (by decide) (by decide))
  have hstorable := (saveEvent_iff (dbOf 7) 1 7 hsrc).1 hsaved
  have hcomm : (sentChain cutComm).all (fun e => validString e.comm.str) = true :=
    List.all_eq_true.2 fun e he => (hstorable.chain e he).comm
  exact absurd hcomm (by decide)

end KnIg.Link
