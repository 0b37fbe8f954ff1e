/-
One agent's connection to the server: what the session does with each frame, whatever the store
answers, and which store calls it makes on behalf of an agent. A REGISTER names the session before it
has passed its checks, so the calls are authorized exactly as long as no later frame uses the name of
a REGISTER that failed.
-/
import KnIg.Backend.Collector.Identity
import KnIg.Backend.Collector.Protocol
import KnIg.Backend.Store.AgentStore
import KnIg.Lib.Run

namespace KnIg.Backend

open Lib

/-! ## Sessions and what they do -/

structure ProcessInfo where
  pid : Int
  ppid : Int
  uid : UInt32
  euid : UInt32
  sid : Int
  tty : Bytes
  comm : Bytes
  exe : Bytes
  cmdline : Bytes
  startTimeNS : UInt64
deriving DecidableEq

/-- What `SaveEvent` stores; `actor` stands for the fields of the acting process. -/
structure FileEventPayload where
  agentID : Bytes
  eventType : Bytes
  filePath : Bytes
  fileName : Bytes
  filePermission : Bytes
  detectedBy : Bytes
  pid : Int
  timestamp : Int
  targetDev : UInt64
  targetIno : UInt64
  blocked : Bool
  actor : ProcessInfo
  chainDepth : Int
  chainTruncated : Bool
  chain : List ProcessInfo
deriving DecidableEq

/-- What the server took from the certificate of the peer. -/
structure PeerCert where
  subject : Bytes
  subjectHash : Bytes
  fingerprint : Bytes
  issuedAt : Option Time
  expiresAt : Option Time

/-- The fields of an `AgentSession` that change. -/
structure AgentSession where
  agentID : Bytes
  agentNum : UInt64
  lastSeq : UInt32

/-- The session as the server starts it. -/
def AgentSession.new : AgentSession := ⟨[], 0, 0⟩

/-- What a session does to the world around it, in order. -/
inductive Effect where
  /-- `conn.Close`; frames already received may still be read afterwards -/
  | close
  /-- `RegisterAgentWithCertificate` and what it returned -/
  | register (agentID : Bytes) (p : RegisterPayload) (cert : AgentCertificate) (answer : Except StoreError Unit)
  /-- the session takes the agent's place in the map of sessions and closes the one it replaces -/
  | replaceSession (agentID : Bytes)
  | ack (seqNum : UInt32) (resp : Bytes)
  | updateHeartbeat (agentID : Bytes) (t : Time)
  | saveEvent (p : FileEventPayload)
  /-- the stored event goes to the event stream and to the engine -/
  | publish (p : FileEventPayload)
  | setOffline (agentID : Bytes)

/-- A frame as `Run` reads it, with what the store answers to the call the frame leads to, if any. -/
structure Frame where
  hdr : FrameHeader
  payload : Bytes
  answer : Except StoreError Unit

namespace PeerCert

variable (c : PeerCert)

def certificateIdentityMatchesAgent (s : AgentSession) : Bool :=
  if ¬ isAgentIdentity c.subject then false
  else trimPrefix c.subject agentIdentityPrefix = s.agentID

def handleRegister (s : AgentSession) (f : Frame) : AgentSession × List Effect :=
  if s.agentID ≠ [] then (s, [.close])
  else
    match decodeRegister f.payload with
    | .error _ => (s, [])
    | .ok reg =>
      if c.subjectHash = [] ∨ c.fingerprint = [] then (s, [.close])
      else
        let agentNum := generateAgentID reg.hostname reg.ip
        -- the session has its name from here on, whatever becomes of the registration
        let s := { s with agentNum, agentID := formatUint agentNum }
        if ¬ c.certificateIdentityMatchesAgent s then (s, [.close])
        else
          let p : RegisterPayload := ⟨reg.hostname, ipString reg.ip, reg.os, monitorTypeName reg.monitorType⟩
          let cert : AgentCertificate := ⟨s.agentID, c.subjectHash, c.fingerprint, c.issuedAt, c.expiresAt⟩
          let call := Effect.register s.agentID p cert f.answer
          match f.answer with
          | .error .agentCertificateMismatch => (s, [call, .close])
          | .error .agentCertificateRevoked => (s, [call, .close])
          | .error _ => (s, [call])
          | .ok () => (s, [call, .replaceSession s.agentID, .ack f.hdr.seqNum (encodeRegisterResp s.agentNum)])

end PeerCert

namespace AgentSession

/-- Whether a message for an agent belongs to the session. A message that does not closes the connection. -/
def validateAgentIdentity (s : AgentSession) (agentNum : UInt64) : Bool :=
  if s.agentNum = 0 ∨ s.agentID = [] then false else agentNum = s.agentNum

def handleHeartbeat (s : AgentSession) (f : Frame) : List Effect :=
  match decodeHeartbeat f.payload with
  | .error _ => []
  | .ok hb =>
    if ¬ s.validateAgentIdentity hb.agentID then [.close]
    else [.updateHeartbeat (formatUint hb.agentID) hb.timestamp.toNat]

end AgentSession

def convertProcessChain (entries : List ProcessInfoMsg) : List ProcessInfo :=
  entries.map fun e => ⟨e.pid.toNat, e.ppid.toNat, e.uid, e.euid, e.sid.toNat, e.tty, e.comm, e.exe, e.cmdline,
    e.startTimeNS⟩

/-- The acting process: the first one of the chain, or what the event itself says of it. -/
def eventActor (ev : FileEventMsg) : ProcessInfo :=
  match convertProcessChain ev.chain.entries with
  | [] => ⟨ev.pid.toNat, 0, ev.uid, 0, ev.sid.toNat, [], ev.comm, [], [], 0⟩
  | e :: _ => e

def eventPayload (ev : FileEventMsg) : FileEventPayload where
  agentID := formatUint ev.agentID
  eventType := eventTypeName ev.eventType
  filePath := ev.filePath
  fileName := ev.fileName
  filePermission := permString ev.filePermission
  detectedBy := monitorTypeName ev.detectedBy
  pid := ev.pid.toNat
  timestamp := ev.timestamp.toNat
  targetDev := ev.targetDev
  targetIno := ev.targetIno
  blocked := ev.blocked
  actor := eventActor ev
  chainDepth := ev.chain.depth.toNat
  chainTruncated := ev.chain.truncated
  chain := convertProcessChain ev.chain.entries

namespace AgentSession

def handleFileEvent (s : AgentSession) (f : Frame) : List Effect :=
  match decodeFileEvent f.payload with
  | .error _ => []
  | .ok ev =>
    if ¬ s.validateAgentIdentity ev.agentID then [.close]
    else
      match f.answer with
      | .error _ => [.saveEvent (eventPayload ev)]
      | .ok () => [.saveEvent (eventPayload ev), .publish (eventPayload ev)]

/-- The deferred end of a session; `current` says that the map of sessions still holds its connection. -/
def cleanup (s : AgentSession) (current : Bool) : List Effect :=
  (if s.agentNum > 0 ∧ s.agentID ≠ [] ∧ current then [.setOffline s.agentID] else []) ++ [.close]

end AgentSession

/-- A frame follows one numbered `lastSeq`; after 0 every number does. -/
def Frame.follows (f : Frame) (lastSeq : UInt32) : Bool := ¬ (lastSeq > 0 ∧ f.hdr.seqNum ≠ lastSeq + 1)

namespace PeerCert

variable (c : PeerCert)

/-- One frame whose sequence number `Run` accepted. -/
def dispatch (s : AgentSession) (f : Frame) : AgentSession × List Effect :=
  if f.hdr.type = msgRegister then c.handleRegister s f
  else if f.hdr.type = msgHeartbeat then (s, s.handleHeartbeat f)
  else if f.hdr.type = msgFileEvent then (s, s.handleFileEvent f)
  else (s, [])

/-- `Run` on the frames the connection yields before a read fails. -/
def run (current : Bool) : AgentSession → List Frame → List Effect
  | s, [] => s.cleanup current
  | s, f :: fs =>
    if f.follows s.lastSeq then
      let r := c.dispatch { s with lastSeq := f.hdr.seqNum } f
      r.2 ++ run current r.1 fs
    else s.cleanup current

end PeerCert

/-- The frames `Run` dispatches: those before the first one out of sequence. -/
def dispatched : UInt32 → List Frame → List Frame
  | _, [] => []
  | lastSeq, f :: fs => if f.follows lastSeq then f :: dispatched f.hdr.seqNum fs else []

/-! ## Calls on behalf of an agent -/

namespace Effect

/-- The agent on whose behalf a heartbeat or an event is stored. -/
def onBehalf : Effect → Option Bytes
  | updateHeartbeat agentID _ => some agentID
  | saveEvent p => some p.agentID
  | _ => none

/-- The agent a call has registered. -/
def registered : Effect → Option Bytes
  | register agentID _ _ (.ok ()) => some agentID
  | _ => none

end Effect

/-- The certificate names the agent and the session has registered it. -/
def PeerCert.Authorizes (c : PeerCert) (before : List Effect) (agentID : Bytes) : Prop :=
  c.subject = agentIdentityPrefix ++ agentID ∧ ∃ e ∈ before, e.registered = some agentID

/-- A call that stores something for an agent is authorized by what the session did before it. -/
def PeerCert.Allows (c : PeerCert) (before : List Effect) (e : Effect) : Prop :=
  ∀ agentID, e.onBehalf = some agentID → c.Authorizes before agentID

def PeerCert.CallsAuthorized (c : PeerCert) (current : Bool) (frames : List Frame) : Prop :=
  EachAfter c.Allows [] (c.run current .new frames)

/-! ## Registrations that fail -/

/-- The id a REGISTER names a session with that has none, and whether its registration succeeds. -/
def PeerCert.registration (c : PeerCert) (f : Frame) : Option (UInt64 × Bool) :=
  if f.hdr.type ≠ msgRegister ∨ c.subjectHash = [] ∨ c.fingerprint = [] then none
  else
    match decodeRegister f.payload with
    | .error _ => none
    | .ok reg =>
      let agentNum := generateAgentID reg.hostname reg.ip
      some (agentNum, c.subject = agentIdentityPrefix ++ formatUint agentNum ∧ f.answer = .ok ())

/-- The first REGISTER that names the session. -/
def PeerCert.firstRegistration (c : PeerCert) (frames : List Frame) : Option (UInt64 × Bool) :=
  frames.findSome? c.registration

/-- The agent a HEARTBEAT or a FILE_EVENT says it comes from. -/
def Frame.claimedID (f : Frame) : Option UInt64 :=
  if f.hdr.type = msgHeartbeat then (decodeHeartbeat f.payload).toOption.map (·.agentID)
  else if f.hdr.type = msgFileEvent then (decodeFileEvent f.payload).toOption.map (·.agentID)
  else none

/-- A frame does not claim the id of a first REGISTER that failed. -/
def PeerCert.AvoidsFailed (c : PeerCert) (before : List Frame) (f : Frame) : Prop :=
  ∀ id, f.claimedID = some id → c.firstRegistration before ≠ some (id, false)

/-- No dispatched frame does. -/
def PeerCert.FailedUnused (c : PeerCert) (frames : List Frame) : Prop :=
  EachAfter c.AvoidsFailed [] (dispatched 0 frames)

/-! ## Where a session stands -/

section Standing

variable {c : PeerCert} {before : List Frame} {hist es : List Effect} {s : AgentSession} {f : Frame}

theorem authorizes_append (hes : ∀ e ∈ es, e.registered = none) (agentID : Bytes) :
    c.Authorizes (hist ++ es) agentID ↔ c.Authorizes hist agentID := by
  refine and_congr_right fun _ => ⟨?_, ?_⟩
  · rintro ⟨e, he, hr⟩
    rcases List.mem_append.1 he with he | he
    · exact ⟨e, he, hr⟩
    · rw [hes e he] at hr
      cases hr
  · rintro ⟨e, he, hr⟩
    exact ⟨e, List.mem_append_left es he, hr⟩

theorem eachAfter_allows (hes : ∀ e ∈ es, e.onBehalf = none) : EachAfter c.Allows hist es := by
  intro pre e post h agentID ha
  rw [hes e (by simp [h])] at ha
  cases ha

/-- A session that read `before` and did `hist`: without a name as long as no REGISTER gave it one, then
with that name, and authorized for it exactly if that registration succeeded. -/
structure Stands (c : PeerCert) (before : List Frame) (hist : List Effect) (s : AgentSession) : Prop where
  unnamed : c.firstRegistration before = none →
    s.agentID = [] ∧ s.agentNum = 0 ∧ ∀ e ∈ hist, e.registered = none
  named : ∀ id ok, c.firstRegistration before = some (id, ok) →
    s.agentID = formatUint id ∧ s.agentNum = id ∧ id ≠ 0 ∧ (c.Authorizes hist (formatUint id) ↔ ok = true)

theorem stands_new (c : PeerCert) : Stands c [] [] .new :=
  ⟨fun _ => ⟨rfl, rfl, by simp⟩, fun _ _ h => by simp [PeerCert.firstRegistration] at h⟩

theorem Stands.setSeq (h : Stands c before hist s) (n : UInt32) : Stands c before hist { s with lastSeq := n } :=
  ⟨h.unnamed, h.named⟩

theorem firstRegistration_append (c : PeerCert) (before : List Frame) (f : Frame) :
    c.firstRegistration (before ++ [f]) = (c.firstRegistration before).or (c.registration f) := by
  simp [PeerCert.firstRegistration, List.findSome?_append]

/-- A frame that does not name the session leaves it where it stands. -/
theorem Stands.keep (h : Stands c before hist s) (hes : ∀ e ∈ es, e.registered = none)
    (hf : c.firstRegistration (before ++ [f]) = c.firstRegistration before) :
    Stands c (before ++ [f]) (hist ++ es) s := by
  constructor
  · intro hn
    obtain ⟨h1, h2, h3⟩ := h.unnamed (hf ▸ hn)
    refine ⟨h1, h2, fun e he => ?_⟩
    rcases List.mem_append.1 he with he | he
    · exact h3 e he
    · exact hes e he
  · intro id ok hs
    obtain ⟨h1, h2, h3, h4⟩ := h.named id ok (hf ▸ hs)
    exact ⟨h1, h2, h3, (authorizes_append hes _).trans h4⟩

/-- The session takes a message for its own exactly if the message bears the name a REGISTER gave it. -/
theorem Stands.validate_iff (h : Stands c before hist s) (id : UInt64) :
    s.validateAgentIdentity id = true ↔ ∃ ok, c.firstRegistration before = some (id, ok) := by
  unfold AgentSession.validateAgentIdentity
  cases hr : c.firstRegistration before with
  | none =>
    obtain ⟨h1, -, -⟩ := h.unnamed hr
    simp [h1]
  | some r =>
    obtain ⟨h1, h2, h3, -⟩ := h.named r.1 r.2 hr
    rw [if_neg (by simp [h1, h2, h3, formatUint_ne_nil]), h2, decide_eq_true_eq]
    constructor
    · rintro rfl
      exact ⟨r.2, rfl⟩
    · rintro ⟨ok, hok⟩
      cases hok
      rfl

/-- A message the session takes for its own is authorized unless it bears the name of a failed REGISTER. -/
theorem Stands.message_iff (h : Stands c before hist s) (id : UInt64) :
    (s.validateAgentIdentity id = true → c.Authorizes hist (formatUint id)) ↔
      c.firstRegistration before ≠ some (id, false) := by
  rw [h.validate_iff]
  constructor
  · intro hauth hfailed
    obtain ⟨-, -, -, hok⟩ := h.named id false hfailed
    exact absurd (hok.1 (hauth ⟨false, hfailed⟩)) (by decide)
  · rintro hne ⟨ok, hr⟩
    obtain ⟨-, -, -, hok⟩ := h.named id ok hr
    cases ok with
    | true => exact hok.2 rfl
    | false => exact absurd hr hne

end Standing

/-! ## One frame -/

section Dispatch

variable {c : PeerCert} {before : List Frame} {hist es : List Effect} {s : AgentSession} {f : Frame}

/-- A call for an agent, with what follows it once the message is taken: authorized exactly if the message
avoids the failed name. -/
theorem Stands.eachAfter_message (h : Stands c before hist s) (id : UInt64) (call : Effect) (es : List Effect)
    (hcall : call.onBehalf = some (formatUint id)) (hes : ∀ e ∈ es, e.onBehalf = none) :
    EachAfter c.Allows hist (if ¬ s.validateAgentIdentity id then [.close] else call :: es) ↔
      c.firstRegistration before ≠ some (id, false) := by
  have hcall' : c.Allows hist call ↔ c.Authorizes hist (formatUint id) := by
    simp [PeerCert.Allows, hcall]
  rw [← h.message_iff]
  by_cases hv : s.validateAgentIdentity id
  · rw [if_neg (not_not.2 hv), eachAfter_cons, hcall', and_iff_left (eachAfter_allows hes)]
    exact ⟨fun ha _ => ha, fun ha => ha hv⟩
  · rw [if_pos hv]
    exact iff_of_true (eachAfter_allows (by simp [Effect.onBehalf])) fun hv' => absurd hv' hv

theorem avoidsFailed_of_claimedID {o : Option UInt64} (ho : f.claimedID = o) :
    c.AvoidsFailed before f ↔ ∀ id ∈ o, c.firstRegistration before ≠ some (id, false) := by
  subst ho
  rfl

theorem Stands.eachAfter_heartbeat (h : Stands c before hist s) (ht : f.hdr.type = msgHeartbeat) :
    EachAfter c.Allows hist (s.handleHeartbeat f) ↔ c.AvoidsFailed before f := by
  have hid : f.claimedID = (decodeHeartbeat f.payload).toOption.map (·.agentID) := if_pos ht
  rw [avoidsFailed_of_claimedID hid]
  unfold AgentSession.handleHeartbeat
  cases decodeHeartbeat f.payload with
  | error err => simp [Except.toOption]
  | ok hb =>
    simpa [Except.toOption] using h.eachAfter_message hb.agentID (.updateHeartbeat _ _) [] rfl (by simp)

theorem Stands.eachAfter_fileEvent (h : Stands c before hist s) (ht : f.hdr.type = msgFileEvent) :
    EachAfter c.Allows hist (s.handleFileEvent f) ↔ c.AvoidsFailed before f := by
  have hid : f.claimedID = (decodeFileEvent f.payload).toOption.map (·.agentID) := by
    rw [Frame.claimedID, ht]
    rfl
  rw [avoidsFailed_of_claimedID hid]
  unfold AgentSession.handleFileEvent
  cases decodeFileEvent f.payload with
  | error err => simp [Except.toOption]
  | ok ev =>
    cases f.answer with
    | error err =>
      simpa [Except.toOption] using h.eachAfter_message ev.agentID (.saveEvent (eventPayload ev)) [] rfl (by simp)
    | ok =>
      simpa [Except.toOption] using h.eachAfter_message ev.agentID (.saveEvent (eventPayload ev))
        [.publish (eventPayload ev)] rfl (by simp [Effect.onBehalf])

theorem matchesAgent_iff (c : PeerCert) (s : AgentSession) (h : s.agentID ≠ []) :
    c.certificateIdentityMatchesAgent s = true ↔ c.subject = agentIdentityPrefix ++ s.agentID := by
  rw [← isAgentIdentity_iff h]
  unfold PeerCert.certificateIdentityMatchesAgent
  by_cases his : isAgentIdentity c.subject <;> simp [his]

/-- A REGISTER that names the session. -/
theorem Stands.name (h : Stands c before hist s) (hn : c.firstRegistration before = none) {id : UInt64} {ok : Bool}
    (hf : c.registration f = some (id, ok)) (hid : id ≠ 0)
    (hes : (c.subject = agentIdentityPrefix ++ formatUint id ∧ ∃ e ∈ es, e.registered = some (formatUint id)) ↔
      ok = true) :
    Stands c (before ++ [f]) (hist ++ es) { s with agentNum := id, agentID := formatUint id } := by
  have hfirst : c.firstRegistration (before ++ [f]) = some (id, ok) := by
    rw [firstRegistration_append, hn, hf]
    rfl
  obtain ⟨-, -, hnone⟩ := h.unnamed hn
  constructor
  · intro hnone'
    rw [hfirst] at hnone'
    cases hnone'
  · intro id' ok' hr
    rw [hfirst] at hr
    cases hr
    refine ⟨rfl, rfl, hid, Iff.trans (and_congr_right fun _ => ⟨?_, ?_⟩) hes⟩
    · rintro ⟨e, he, hreg⟩
      rcases List.mem_append.1 he with he | he
      · rw [hnone e he] at hreg
        cases hreg
      · exact ⟨e, he, hreg⟩
    · rintro ⟨e, he, hreg⟩
      exact ⟨e, List.mem_append_right hist he, hreg⟩

theorem Stands.register (h : Stands c before hist s) (ht : f.hdr.type = msgRegister) :
    Stands c (before ++ [f]) (hist ++ (c.handleRegister s f).2) (c.handleRegister s f).1 := by
  unfold PeerCert.handleRegister
  cases hr : c.firstRegistration before with
  | some r =>
    obtain ⟨hname, -⟩ := h.named r.1 r.2 hr
    -- the session has a name: a second REGISTER only closes the connection
    rw [if_pos (by rw [hname]; exact formatUint_ne_nil _)]
    exact h.keep (by simp [Effect.registered]) (by rw [firstRegistration_append, hr]; rfl)
  | none =>
    obtain ⟨hname, -, -⟩ := h.unnamed hr
    rw [if_neg (not_not.2 hname)]
    have keep : ∀ {es : List Effect}, (∀ e ∈ es, e.registered = none) → c.registration f = none →
        Stands c (before ++ [f]) (hist ++ es) s := fun hes hf =>
      h.keep hes (by rw [firstRegistration_append, hr, hf]; rfl)
    cases hd : decodeRegister f.payload with
    | error err => exact keep (by simp) (by simp [PeerCert.registration, hd])
    | ok reg =>
      simp only
      by_cases hb : c.subjectHash = [] ∨ c.fingerprint = []
      · rw [if_pos hb]
        exact keep (by simp [Effect.registered]) (if_pos (Or.inr hb))
      · rw [if_neg hb]
        have hf : c.registration f = some (generateAgentID reg.hostname reg.ip,
            decide (c.subject = agentIdentityPrefix ++ formatUint (generateAgentID reg.hostname reg.ip) ∧
              f.answer = .ok ())) := by
          rw [PeerCert.registration, if_neg (by simp [ht, hb]), hd]
        -- past this point the session has the name, and the exits differ in the effects only
        have hne := generateAgentID_ne_zero reg.hostname reg.ip
        have hm := matchesAgent_iff c { s with
          agentNum := generateAgentID reg.hostname reg.ip
          agentID := formatUint (generateAgentID reg.hostname reg.ip) } (formatUint_ne_nil _)
        split
        · next hno =>
          rw [hm] at hno
          exact h.name hr hf hne (by simp [hno, Effect.registered])
        · next hyes =>
          rw [not_not, hm] at hyes
          cases ha : f.answer with
          | error err => cases err <;> exact h.name hr hf hne (by simp [ha, Effect.registered])
          | ok => exact h.name hr hf hne (by simp [ha, hyes, Effect.registered])

theorem handleRegister_quiet (c : PeerCert) (s : AgentSession) (f : Frame) :
    ∀ e ∈ (c.handleRegister s f).2, e.onBehalf = none := by
  unfold PeerCert.handleRegister
  dsimp only
  repeat' split
  all_goals simp [Effect.onBehalf]

theorem handleHeartbeat_registered (s : AgentSession) (f : Frame) :
    ∀ e ∈ s.handleHeartbeat f, e.registered = none := by
  unfold AgentSession.handleHeartbeat
  repeat' split
  all_goals simp [Effect.registered]

theorem handleFileEvent_registered (s : AgentSession) (f : Frame) :
    ∀ e ∈ s.handleFileEvent f, e.registered = none := by
  unfold AgentSession.handleFileEvent
  repeat' split
  all_goals simp [Effect.registered]

/-- What one dispatched frame does: the session stands where it should, and its calls are authorized exactly
if the frame avoids the name of a failed REGISTER. -/
theorem Stands.dispatch (h : Stands c before hist s) (f : Frame) :
    Stands c (before ++ [f]) (hist ++ (c.dispatch s f).2) (c.dispatch s f).1 ∧
      (EachAfter c.Allows hist (c.dispatch s f).2 ↔ c.AvoidsFailed before f) := by
  have other : f.hdr.type ≠ msgRegister → c.firstRegistration (before ++ [f]) = c.firstRegistration before :=
    fun hne => by rw [firstRegistration_append, PeerCert.registration, if_pos (Or.inl hne), Option.or_none]
  unfold PeerCert.dispatch
  by_cases hr : f.hdr.type = msgRegister
  · rw [if_pos hr]
    have hid : f.claimedID = none := by
      rw [Frame.claimedID, hr]
      rfl
    exact ⟨h.register hr, iff_of_true (eachAfter_allows (handleRegister_quiet c s f))
      ((avoidsFailed_of_claimedID hid).2 (by simp))⟩
  · rw [if_neg hr]
    by_cases hh : f.hdr.type = msgHeartbeat
    · rw [if_pos hh]
      exact ⟨h.keep (handleHeartbeat_registered s f) (other hr), h.eachAfter_heartbeat hh⟩
    · rw [if_neg hh]
      by_cases he : f.hdr.type = msgFileEvent
      · rw [if_pos he]
        exact ⟨h.keep (handleFileEvent_registered s f) (other hr), h.eachAfter_fileEvent he⟩
      · rw [if_neg he]
        have hid : f.claimedID = none := by
          rw [Frame.claimedID, if_neg hh, if_neg he]
        exact ⟨h.keep (by simp) (other hr), iff_of_true eachAfter_nil
          ((avoidsFailed_of_claimedID hid).2 (by simp))⟩

theorem handleRegister_lastSeq (c : PeerCert) (s : AgentSession) (f : Frame) :
    (c.handleRegister s f).1.lastSeq = s.lastSeq := by
  unfold PeerCert.handleRegister
  dsimp only
  repeat' split
  all_goals rfl

theorem dispatch_lastSeq (c : PeerCert) (s : AgentSession) (f : Frame) :
    (c.dispatch s f).1.lastSeq = s.lastSeq := by
  unfold PeerCert.dispatch
  split
  · exact handleRegister_lastSeq c s f
  · split
    · rfl
    · split <;> rfl

end Dispatch

/-! ## Runs -/

theorem cleanup_quiet (s : AgentSession) (current : Bool) : ∀ e ∈ s.cleanup current, e.onBehalf = none := by
  unfold AgentSession.cleanup
  split <;> simp [Effect.onBehalf]

theorem eachAfter_run {c : PeerCert} (current : Bool) {before : List Frame} {hist : List Effect} {s : AgentSession}
    (h : Stands c before hist s) (frames : List Frame) :
    EachAfter c.Allows hist (c.run current s frames) ↔
      EachAfter c.AvoidsFailed before (dispatched s.lastSeq frames) := by
  induction frames generalizing before hist s with
  | nil => exact iff_of_true (eachAfter_allows (cleanup_quiet s current)) eachAfter_nil
  | cons f fs ih =>
    rw [PeerCert.run, dispatched]
    split
    · obtain ⟨hs, hf⟩ := (h.setSeq f.hdr.seqNum).dispatch f
      simp only
      rw [eachAfter_append, eachAfter_cons, hf, ih hs, dispatch_lastSeq]
    · exact iff_of_true (eachAfter_allows (cleanup_quiet s current)) eachAfter_nil

/-- A session stores something for an agent only when authorized in every run in which no dispatched frame
claims the id of a first REGISTER that failed, and in no other. -/
theorem callsAuthorized_iff (c : PeerCert) (current : Bool) (frames : List Frame) :
    c.CallsAuthorized current frames ↔ c.FailedUnused frames :=
  eachAfter_run current (stands_new c) frames

/-- The id of the host `web` at 10.0.0.1. -/
def webID : UInt64 := generateAgentID (ascii "web") [10, 0, 0, 1]

/-- A certificate that names that host. -/
def webCert : PeerCert := ⟨agentIdentityPrefix ++ formatUint webID, ascii "s", ascii "f", none, none⟩

/-- The host's REGISTER meets an error of the database driver; its HEARTBEAT follows. -/
def heartbeatAfterError : List Frame :=
  [⟨⟨17, msgRegister, 1⟩, [0, 3] ++ ascii "web" ++ [10, 0, 0, 1, 2, 0, 5] ++ ascii "Linux", .error .driver⟩,
    ⟨⟨13, msgHeartbeat, 2⟩, encodeRegisterResp webID ++ [1, 0, 0, 0, 9], .ok ()⟩]

/-- The heartbeat is stored although the registration failed. -/
theorem callsAuthorized_heartbeatAfterError_fails : ¬ webCert.CallsAuthorized true heartbeatAfterError := by
  intro h
  have hunused : webCert.FailedUnused heartbeatAfterError :=
    (eachAfter_run true (stands_new webCert) heartbeatAfterError).1 h
  have hclaim := hunused [heartbeatAfterError.head (by decide)] _ [] rfl webID
  exact hclaim (by decide +kernel) (by decide +kernel)

end KnIg.Backend
