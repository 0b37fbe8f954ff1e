/-
The sessions of the collector beside one another: the map from agents to their connections, the writes to
the database, and every interleaving of the steps in which a session takes its agent's place and gives it
up again. Each step is atomic, the sequences are not: a session may store itself over another, or delete
another's entry, so that an agent has a live session that the map does not know.
-/
import KnIg.Backend.Collector.AgentSession
import Mathlib.Data.Fintype.Basic
import Mathlib.Logic.Function.Basic

namespace KnIg.Backend

open Lib

/-! ## Sessions and the map -/

/-- Where a session's goroutine stands; `o` is how the database will end the SetOffline of its cleanup. -/
inductive SessionAt (Conn : Type) where
  /-- in the loop of `Run`, without a registration -/
  | reading
  /-- `RegisterAgentWithCertificate` returned nil -/
  | granted
  /-- it took another connection out of the map and is to close it -/
  | replacing (old : Conn)
  /-- it is to put its own connection into the map -/
  | storing
  /-- in the loop of `Run` again -/
  | registered
  /-- `Run` is over, the deferred cleanup begins -/
  | ending (o : Outcome)
  /-- it found its own connection in the map -/
  | deleting (o : Outcome)
  | marking (o : Outcome)
  | closing
  | ended
deriving DecidableEq

namespace SessionAt

variable {Conn : Type}

/-- `Run` is over. -/
def leaving : SessionAt Conn → Bool
  | ending _ => true
  | deleting _ => true
  | marking _ => true
  | closing => true
  | ended => true
  | _ => false

/-- The next step puts the session's own connection into the map, or deletes the entry of its agent. -/
def writesEntry : SessionAt Conn → Bool
  | storing => true
  | deleting _ => true
  | _ => false

/-- The session is in none of the steps that take a place in the map or give it up. -/
def quiet : SessionAt Conn → Bool
  | reading => true
  | registered => true
  | ended => true
  | _ => false

end SessionAt

structure Handler (Conn : Type) where
  session : AgentSession
  stands : SessionAt Conn
  /-- it has been put into the map -/
  completed : Bool

/-- The server's map of sessions, its database, and for every connection its session and whether the server
has closed it. -/
structure Collector (Conn : Type) where
  sessions : Bytes → Option Conn
  handler : Conn → Handler Conn
  isClosed : Conn → Bool
  db : Db

inductive SessionAct where
  /-- a REGISTER frame is handled, up to the answer of the database, on which `io` bears -/
  | register (cert : PeerCert) (hdr : FrameHeader) (payload : Bytes) (io : Io)
  /-- `rejectSession` -/
  | reject
  /-- `Run` returns -/
  | leave (o : Outcome)
  /-- the next step of the registration or of the cleanup -/
  | advance

/-- The call of the store that a REGISTER leads to, if it passes the checks before. -/
def PeerCert.registerCall (c : PeerCert) (s : AgentSession) (hdr : FrameHeader) (payload : Bytes) :
    Option (Bytes × RegisterPayload × AgentCertificate) :=
  (c.handleRegister s ⟨hdr, payload, .ok ()⟩).2.findSome? fun
    | .register agentID p cert _ => some (agentID, p, cert)
    | _ => none

/-- Whether a REGISTER led to a close, and whether it led to the replacement of the session. -/
def Effect.closes : Effect → Bool
  | .close => true
  | _ => false

def Effect.replaces : Effect → Bool
  | .replaceSession _ => true
  | _ => false

namespace Collector

variable {Conn : Type} [DecidableEq Conn] (s : Collector Conn)

def init : Collector Conn := ⟨fun _ => none, fun _ => ⟨.new, .reading, false⟩, fun _ => false, .empty⟩

def agentID (c : Conn) : Bytes := (s.handler c).session.agentID

def close (c : Conn) : Collector Conn := { s with isClosed := Function.update s.isClosed c true }

def put (c : Conn) (h : Handler Conn) : Collector Conn := { s with handler := Function.update s.handler c h }

def stand (c : Conn) (p : SessionAt Conn) : Collector Conn := s.put c { s.handler c with stands := p }

/-- What the database answers to the call that a REGISTER leads to, and what it then holds. -/
def registerAnswer (c : Conn) (cert : PeerCert) (hdr : FrameHeader) (payload : Bytes) (io : Io) :
    Except StoreError Unit × Db :=
  match cert.registerCall (s.handler c).session hdr payload with
  | none => (.ok (), s.db)
  | some (agentID, p, binding) => registerAgentWithCertificate io s.db agentID p binding

/-- `handleRegister`, up to the answer of the database. -/
def register (c : Conn) (cert : PeerCert) (hdr : FrameHeader) (payload : Bytes) (io : Io) : Collector Conn :=
  let h := s.handler c
  let r := s.registerAnswer c cert hdr payload io
  let es := cert.handleRegister h.session ⟨hdr, payload, r.1⟩
  let stands := if es.2.any Effect.replaces then .granted else h.stands
  { s with
    handler := Function.update s.handler c { h with session := es.1, stands }
    isClosed := if es.2.any Effect.closes then Function.update s.isClosed c true else s.isClosed
    db := r.2 }

/-- The next step of a registration that the database has granted, or of a cleanup. -/
def advance (c : Conn) : Collector Conn :=
  let h := s.handler c
  let agentID := h.session.agentID
  match h.stands with
  | .granted =>
    -- `LoadAndDelete`
    let s' := { s with sessions := Function.update s.sessions agentID none }
    match s.sessions agentID with
    | some old => s'.stand c (.replacing old)
    | none => s'.stand c .storing
  | .replacing old => (s.close old).stand c .storing
  | .storing =>
    { s with sessions := Function.update s.sessions agentID (some c) }.put c
      { h with stands := .registered, completed := true }
  | .ending o =>
    -- `Load`
    if h.session.agentNum > 0 ∧ agentID ≠ [] ∧ s.sessions agentID = some c then s.stand c (.deleting o)
    else s.stand c .closing
  | .deleting o => { s with sessions := Function.update s.sessions agentID none }.stand c (.marking o)
  | .marking o => { s with db := (setOffline o s.db agentID).2 }.stand c .closing
  | .closing => (s.close c).stand c .ended
  | .reading => s
  | .registered => s
  | .ended => s

/-- The session is in the loop of `Run`. -/
def InLoop (c : Conn) : Prop := (s.handler c).stands = .reading ∨ (s.handler c).stands = .registered

instance (c : Conn) : Decidable (s.InLoop c) := inferInstanceAs (Decidable (_ ∨ _))

/-- One step of one session; what it does not stand before changes nothing. -/
def step (x : Conn × SessionAct) : Collector Conn :=
  match x.2 with
  | .register cert hdr payload io => if s.InLoop x.1 then s.register x.1 cert hdr payload io else s
  | .reject => if s.InLoop x.1 then s.close x.1 else s
  | .leave o => if s.InLoop x.1 then s.stand x.1 (.ending o) else s
  | .advance => s.advance x.1

end Collector

/-! ## Registrations -/

section Register

variable (c : PeerCert) {s : AgentSession} (hdr : FrameHeader) (payload : Bytes)

theorem handleRegister_named (f : Frame) (h : s.agentID ≠ []) : c.handleRegister s f = (s, [.close]) := by
  rw [PeerCert.handleRegister, if_pos h]

/-- A REGISTER of a session without a name: it stops short of the database, or it names the session and takes
its place exactly if the database answers nil. -/
theorem handleRegister_cases (h : s.agentID = []) :
    (c.registerCall s hdr payload = none ∧ ∀ answer,
        (c.handleRegister s ⟨hdr, payload, answer⟩).2.any Effect.replaces = false) ∨
      ∃ p cert id, id ≠ 0 ∧ c.registerCall s hdr payload = some (formatUint id, p, cert) ∧ ∀ answer,
        (c.handleRegister s ⟨hdr, payload, answer⟩).1 = { s with agentNum := id, agentID := formatUint id } ∧
        ((c.handleRegister s ⟨hdr, payload, answer⟩).2.any Effect.replaces = true ↔ answer = .ok ()) := by
  have h0 : ¬ s.agentID ≠ [] := not_not.2 h
  unfold PeerCert.registerCall PeerCert.handleRegister
  simp only [if_neg h0]
  cases hd : decodeRegister payload with
  | error err => left; simp
  | ok reg =>
    simp only
    by_cases hb : c.subjectHash = [] ∨ c.fingerprint = []
    · left
      simp [if_pos hb, Effect.replaces]
    simp only [if_neg hb]
    split
    · left
      simp [Effect.replaces]
    · right
      refine ⟨_, _, _, generateAgentID_ne_zero reg.hostname reg.ip, rfl, fun answer => ?_⟩
      cases answer with
      | error err => cases err <;> simp [Effect.replaces]
      | ok => simp [Effect.replaces]

end Register

/-! ## One live session of an agent -/

namespace Collector

variable {Conn : Type} [DecidableEq Conn]

/-- A connection that completed its registration for the agent and that the server has not closed. -/
def Live (s : Collector Conn) (a : Bytes) (c : Conn) : Prop :=
  s.agentID c = a ∧ (s.handler c).completed = true ∧ s.isClosed c = false

/-- No session of the agent is in the middle of its registration or of its cleanup. -/
def Quiet (s : Collector Conn) (a : Bytes) : Prop := ∀ c, s.agentID c = a → (s.handler c).stands.quiet = true

/-- At most one live connection of the agent, and the map holds it if there is one. -/
structure Sole (s : Collector Conn) (a : Bytes) : Prop where
  unique : ∀ c c', s.Live a c → s.Live a c' → c = c'
  mapped : ∀ c, s.Live a c → s.sessions a = some c

/-- A Store or a Delete does not find another session's connection in the agent's entry, unless that one is closed
or is about to be by its own cleanup. -/
def SparesOthers (s : Collector Conn) : Conn × SessionAct → Prop
  | (c, .advance) =>
    (s.handler c).stands.writesEntry = true →
      ∀ d ∈ s.sessions (s.agentID c), d ≠ c → s.isClosed d = true ∨ (s.handler d).stands.leaving = true
  | _ => True

instance (s : Collector Conn) : ∀ x, Decidable (s.SparesOthers x)
  | (_, .advance) => inferInstanceAs (Decidable (_ → ∀ d ∈ _, _ → _))
  | (_, .register ..) => inferInstanceAs (Decidable True)
  | (_, .reject) => inferInstanceAs (Decidable True)
  | (_, .leave _) => inferInstanceAs (Decidable True)

instance [Fintype Conn] (s : Collector Conn) (a : Bytes) : Decidable (s.Quiet a) :=
  inferInstanceAs (Decidable (∀ _, _ → _))

/-- A live connection is in the map, or about to be closed: by its own cleanup or by the session that took it out.
-/
structure Tidy (s : Collector Conn) : Prop where
  mapped : ∀ a c, s.sessions a = some c → s.agentID c = a ∧ (s.handler c).completed = true
  held : ∀ e c, (s.handler e).stands = .replacing c → s.agentID c = s.agentID e ∧ (s.handler c).completed = true
  stands : ∀ c, (s.handler c).completed = true →
    (s.handler c).stands = .registered ∨ (s.handler c).stands.leaving = true
  named : ∀ c, (s.handler c).stands ≠ .reading → (s.handler c).stands.leaving = false → s.agentID c ≠ []
  ended : ∀ c, (s.handler c).stands = .ended → s.isClosed c = true
  live : ∀ c, (s.handler c).completed = true → s.isClosed c = false →
    s.sessions (s.agentID c) = some c ∨ (s.handler c).stands.leaving = true ∨
      ∃ e, (s.handler e).stands = .replacing c

omit [DecidableEq Conn] in
/-- What is open after a step that only closes was open before it. -/
theorem open_before {s s' : Collector Conn} (hclosed : ∀ d, s.isClosed d = true → s'.isClosed d = true) {d : Conn}
    (h : s'.isClosed d = false) : s.isClosed d = false := by
  by_contra hne
  rw [hclosed d (by simpa using hne)] at h
  cases h

omit [DecidableEq Conn] in
/-- A session that is neither in the loop nor leaving has not been put into the map. -/
theorem Tidy.not_completed {s : Collector Conn} (h : Tidy s) {c : Conn} (hr : (s.handler c).stands ≠ .registered)
    (hl : (s.handler c).stands.leaving = false) : ¬ (s.handler c).completed = true := by
  intro hc
  rcases h.stands c hc with hreg | hleave
  · exact hr hreg
  · rw [hl] at hleave
    cases hleave

omit [DecidableEq Conn] in
theorem Tidy.sole {s : Collector Conn} (h : Tidy s) {a : Bytes} (hq : s.Quiet a) : s.Sole a := by
  have hmapped : ∀ c, s.Live a c → s.sessions a = some c := by
    rintro c ⟨rfl, hc, hopen⟩
    have hquiet := hq c rfl
    rcases h.live c hc hopen with hm | hl | ⟨e, he⟩
    · exact hm
    · -- of the cleanup only its end is quiet, and then the connection is closed
      have hend : (s.handler c).stands = .ended := by
        cases hs : (s.handler c).stands <;> simp_all [SessionAt.leaving, SessionAt.quiet]
      rw [h.ended c hend] at hopen
      cases hopen
    · have hqe := hq e (h.held e c he).1.symm
      rw [he] at hqe
      cases hqe
  refine ⟨fun c c' hc hc' => ?_, hmapped⟩
  have he := (hmapped c hc).symm.trans (hmapped c' hc')
  exact Option.some.inj he

/-- Where a session stands after a step that completes no registration: nothing that it let go of is still live. -/
theorem Tidy.moves {s s' : Collector Conn} (h : Tidy s) {c : Conn} {p : SessionAt Conn}
    (hh : s'.handler = Function.update s.handler c { s.handler c with stands := p })
    (hclosed : ∀ d, s.isClosed d = true → s'.isClosed d = true)
    (hmap : ∀ a d, s'.sessions a = some d → s.sessions a = some d)
    (hstands : (s.handler c).completed = true → p = .registered ∨ p.leaving = true)
    (hnamed : p ≠ .reading → p.leaving = false → s.agentID c ≠ [])
    (hended : p = .ended → s'.isClosed c = true)
    (hheld : ∀ d, p = .replacing d → s.agentID d = s.agentID c ∧ (s.handler d).completed = true)
    (hdrop : ∀ d, (s.handler c).stands = .replacing d → s'.isClosed d = true)
    (hleave : (s.handler c).stands.leaving = true → p.leaving = true)
    (hlost : ∀ d, s.sessions (s.agentID d) = some d →
      s'.sessions (s.agentID d) = some d ∨ s'.isClosed d = true ∨ (s.handler d).stands.leaving = true ∨
        p = .replacing d) : Tidy s' := by
  have hid : ∀ d, s'.agentID d = s.agentID d := by
    intro d
    by_cases hd : d = c
    · simp [agentID, hh, hd]
    · simp [agentID, hh, hd]
  have hcompleted : ∀ d, (s'.handler d).completed = (s.handler d).completed := by
    intro d
    by_cases hd : d = c
    · simp [hh, hd]
    · simp [hh, hd]
  have hc : (s'.handler c).stands = p := by simp [hh]
  have hother : ∀ d, d ≠ c → (s'.handler d).stands = (s.handler d).stands := by
    intro d hd
    simp [hh, hd]
  constructor
  · intro a d hd
    rw [hid, hcompleted]
    exact h.mapped a d (hmap a d hd)
  · intro e d he
    rw [hid, hid, hcompleted]
    by_cases hec : e = c
    · subst hec
      exact hheld d (hc.symm.trans he)
    · exact h.held e d ((hother e hec).symm.trans he)
  · intro d hd
    rw [hcompleted] at hd
    by_cases hdc : d = c
    · subst hdc
      rw [hc]
      exact hstands hd
    · rw [hother d hdc]
      exact h.stands d hd
  · intro d hr hl
    rw [hid]
    by_cases hdc : d = c
    · subst hdc
      rw [hc] at hr hl
      exact hnamed hr hl
    · rw [hother d hdc] at hr hl
      exact h.named d hr hl
  · intro d hd
    by_cases hdc : d = c
    · subst hdc
      exact hended (hc.symm.trans hd)
    · exact hclosed d (h.ended d ((hother d hdc).symm.trans hd))
  · intro d hd hopen
    rw [hcompleted] at hd
    have hopen' := open_before hclosed hopen
    have hleave' : (s.handler d).stands.leaving = true → (s'.handler d).stands.leaving = true := by
      intro hl
      by_cases hdc : d = c
      · subst hdc
        rw [hc]
        exact hleave hl
      · rwa [hother d hdc]
    rw [hid]
    rcases h.live d hd hopen' with hm | hl | ⟨e, he⟩
    · rcases hlost d hm with hm | hcl | hl | hp
      · exact .inl hm
      · rw [hcl] at hopen
        cases hopen
      · exact .inr (.inl (hleave' hl))
      · exact .inr (.inr ⟨c, hc.trans hp⟩)
    · exact .inr (.inl (hleave' hl))
    · by_cases hec : e = c
      · subst hec
        rw [hdrop d he] at hopen
        cases hopen
      · exact .inr (.inr ⟨e, (hother e hec).trans he⟩)

omit [DecidableEq Conn] in
theorem entry_of_update_none {m : Bytes → Option Conn} {a b : Bytes} {d : Conn}
    (h : Function.update m a none b = some d) : m b = some d := by
  rw [Function.update_apply] at h
  split at h
  · cases h
  · exact h

omit [DecidableEq Conn] in
/-- Deleting an agent's entry loses the connection in it, and no other. -/
theorem entry_update_none {m : Bytes → Option Conn} {b : Bytes} {d : Conn} (h : m b = some d) (a : Bytes) :
    Function.update m a none b = some d ∨ m a = some d := by
  by_cases hab : b = a
  · subst hab
    exact .inr h
  · exact .inl (by rw [Function.update_of_ne hab, h])

theorem Tidy.advance_granted {s : Collector Conn} (h : Tidy s) {c : Conn} (hp : (s.handler c).stands = .granted) :
    Tidy (s.advance c) := by
  have hname : s.agentID c ≠ [] := h.named c (by simp [hp]) (by simp [hp, SessionAt.leaving])
  have hnot := h.not_completed (c := c) (by simp [hp]) (by simp [hp, SessionAt.leaving])
  simp only [Collector.advance, hp]
  cases hold : s.sessions (s.handler c).session.agentID with
  | none =>
    refine h.moves rfl (fun _ hd => hd) (fun _ _ => entry_of_update_none) (fun hc => absurd hc hnot)
      (fun _ _ => hname) (by simp) (by simp) (by simp [hp]) (by simp [hp, SessionAt.leaving]) fun d hd => .inl ?_
    rcases entry_update_none hd (s.agentID c) with hkept | hc
    · exact hkept
    · exact absurd (hold.symm.trans hc) (by simp)
  | some old =>
    refine h.moves rfl (fun _ hd => hd) (fun _ _ => entry_of_update_none) (fun hc => absurd hc hnot)
      (fun _ _ => hname) (by simp) (fun d hd => ?_) (by simp [hp]) (by simp [hp, SessionAt.leaving]) fun d hd => ?_
    · cases hd
      exact h.mapped _ old hold
    · rcases entry_update_none hd (s.agentID c) with hkept | hc
      · exact .inl hkept
      -- the entry taken out is the one it is to close
      · have hod : old = d := Option.some.inj (hold.symm.trans hc)
        exact .inr (.inr (.inr (by rw [hod])))

theorem Tidy.advance_storing {s : Collector Conn} (h : Tidy s) {c : Conn} (hp : (s.handler c).stands = .storing)
    (hok : s.SparesOthers (c, .advance)) : Tidy (s.advance c) := by
  have hname : s.agentID c ≠ [] := h.named c (by simp [hp]) (by simp [hp, SessionAt.leaving])
  have hspare := hok (by simp [hp, SessionAt.writesEntry])
  have hself : ((s.advance c).handler c).stands = .registered ∧ ((s.advance c).handler c).completed = true := by
    simp [Collector.advance, hp, put]
  have hother : ∀ d, d ≠ c → (s.advance c).handler d = s.handler d := by
    intro d hd
    simp [Collector.advance, hp, put, hd]
  have hid : ∀ d, (s.advance c).agentID d = s.agentID d := by
    intro d
    by_cases hd : d = c
    · simp [agentID, Collector.advance, hp, put, hd]
    · rw [agentID, hother d hd, agentID]
  have hmap : (s.advance c).sessions = Function.update s.sessions (s.agentID c) (some c) := by
    simp [Collector.advance, hp, put, agentID]
  have hclosed : (s.advance c).isClosed = s.isClosed := by simp [Collector.advance, hp, put]
  have hcompleted : ∀ d, (s.handler d).completed = true → ((s.advance c).handler d).completed = true := by
    intro d hd
    by_cases hdc : d = c
    · rw [hdc]
      exact hself.2
    · rw [hother d hdc]
      exact hd
  constructor
  · intro a d hd
    rw [hmap, Function.update_apply] at hd
    rw [hid]
    split at hd
    · next ha =>
      cases hd
      exact ⟨ha.symm, hself.2⟩
    · obtain ⟨hida, hcomp⟩ := h.mapped a d hd
      exact ⟨hida, hcompleted d hcomp⟩
  · intro e d he
    have hec : e ≠ c := by
      rintro rfl
      rw [hself.1] at he
      cases he
    rw [hother e hec] at he
    obtain ⟨hida, hcomp⟩ := h.held e d he
    rw [hid, hid]
    exact ⟨hida, hcompleted d hcomp⟩
  · intro d hd
    by_cases hdc : d = c
    · rw [hdc]
      exact .inl hself.1
    · rw [hother d hdc] at hd ⊢
      exact h.stands d hd
  · intro d hr hl
    rw [hid]
    by_cases hdc : d = c
    · rw [hdc]
      exact hname
    · rw [hother d hdc] at hr hl
      exact h.named d hr hl
  · intro d hd
    have hdc : d ≠ c := by
      rintro rfl
      rw [hself.1] at hd
      cases hd
    rw [hother d hdc] at hd
    rw [hclosed]
    exact h.ended d hd
  · intro d hd hopen
    rw [hid, hmap]
    rw [hclosed] at hopen
    by_cases hdc : d = c
    · subst hdc
      exact .inl (Function.update_self ..)
    rw [hother d hdc] at hd ⊢
    rcases h.live d hd hopen with hm | hl | ⟨e, he⟩
    · by_cases hidc : s.agentID d = s.agentID c
      · -- the connection stored over is closed or leaving
        rcases hspare d (hidc ▸ hm) hdc with hcl | hl
        · rw [hcl] at hopen
          cases hopen
        · exact .inr (.inl hl)
      · rw [Function.update_of_ne hidc]
        exact .inl hm
    · exact .inr (.inl hl)
    · have hec : e ≠ c := by
        rintro rfl
        rw [hp] at he
        cases he
      exact .inr (.inr ⟨e, by rw [hother e hec, he]⟩)

theorem Tidy.advance {s : Collector Conn} (h : Tidy s) (c : Conn) (hok : s.SparesOthers (c, .advance)) :
    Tidy (s.advance c) := by
  cases hp : (s.handler c).stands with
  | granted => exact h.advance_granted hp
  | storing => exact h.advance_storing hp hok
  | replacing old =>
    have hname : s.agentID c ≠ [] := h.named c (by simp [hp]) (by simp [hp, SessionAt.leaving])
    have hnot := h.not_completed (c := c) (by simp [hp]) (by simp [hp, SessionAt.leaving])
    simp only [Collector.advance, hp]
    refine h.moves rfl (fun d hd => ?_) (fun _ _ hd => hd) (fun hc => absurd hc hnot) (fun _ _ => hname) (by simp)
      (by simp) (fun d hd => ?_) (by simp [hp, SessionAt.leaving]) fun d hd => .inl hd
    · simp [stand, put, close, Function.update_apply, hd]
    · cases hp.symm.trans hd
      simp [stand, put, close]
  | ending o =>
    simp only [Collector.advance, hp]
    split
    · exact h.moves rfl (fun _ hd => hd) (fun _ _ hd => hd) (fun _ => .inr rfl) (by simp [SessionAt.leaving]) (by simp)
        (by simp) (by simp [hp]) (fun _ => rfl) fun d hd => .inl hd
    · exact h.moves rfl (fun _ hd => hd) (fun _ _ hd => hd) (fun _ => .inr rfl) (by simp [SessionAt.leaving]) (by simp)
        (by simp) (by simp [hp]) (fun _ => rfl) fun d hd => .inl hd
  | deleting o =>
    have hspare := hok (by simp [hp, SessionAt.writesEntry])
    simp only [Collector.advance, hp]
    refine h.moves rfl (fun _ hd => hd) (fun _ _ => entry_of_update_none) (fun _ => .inr rfl)
      (by simp [SessionAt.leaving]) (by simp) (by simp) (by simp [hp]) (fun _ => rfl) fun d hd => ?_
    rcases entry_update_none hd (s.agentID c) with hkept | hc
    · exact .inl hkept
    -- the entry deleted is its own, or one that is spared nothing
    · by_cases hdc : d = c
      · subst hdc
        exact .inr (.inr (.inl (by simp [hp, SessionAt.leaving])))
      · rcases hspare d hc hdc with hcl | hl
        · exact .inr (.inl hcl)
        · exact .inr (.inr (.inl hl))
  | marking o =>
    simp only [Collector.advance, hp]
    exact h.moves rfl (fun _ hd => hd) (fun _ _ hd => hd) (fun _ => .inr rfl) (by simp [SessionAt.leaving]) (by simp)
      (by simp) (by simp [hp]) (fun _ => rfl) fun d hd => .inl hd
  | closing =>
    simp only [Collector.advance, hp]
    refine h.moves rfl (fun d hd => ?_) (fun _ _ hd => hd) (fun _ => .inr rfl) (by simp [SessionAt.leaving])
      (fun _ => ?_) (by simp) (by simp [hp]) (fun _ => rfl) fun d hd => .inl hd
    · simp [stand, put, close, Function.update_apply, hd]
    · simp [stand, put, close]
  | reading | registered | ended =>
    simp only [Collector.advance, hp]
    exact h

/-- A session that has none may get a name, and with it the grant of a registration. -/
theorem Tidy.names {s s' : Collector Conn} (h : Tidy s) {c : Conn} {h' : Handler Conn}
    (hh : s'.handler = Function.update s.handler c h') (hmap : s'.sessions = s.sessions)
    (hclosed : ∀ d, s.isClosed d = true → s'.isClosed d = true) (hread : (s.handler c).stands = .reading)
    (hc : h'.completed = (s.handler c).completed)
    (hp : h'.stands = .reading ∨ (h'.stands = .granted ∧ h'.session.agentID ≠ [])) : Tidy s' := by
  have hnot := h.not_completed (c := c) (by simp [hread]) (by simp [hread, SessionAt.leaving])
  have hself : s'.handler c = h' := by simp [hh]
  have hother : ∀ d, d ≠ c → s'.handler d = s.handler d := by
    intro d hd
    simp [hh, hd]
  -- it is neither in the map nor held by another
  have hfree : ∀ d, (s.handler d).completed = true → d ≠ c := by
    rintro d hd rfl
    exact hnot hd
  have hfree' : ∀ d, (s'.handler d).completed = true → d ≠ c := by
    rintro d hd rfl
    rw [hself, hc] at hd
    exact hnot hd
  constructor
  · intro a d hd
    rw [hmap] at hd
    obtain ⟨hid, hcomp⟩ := h.mapped a d hd
    rw [agentID, hother d (hfree d hcomp)]
    exact ⟨hid, hcomp⟩
  · intro e d he
    have hec : e ≠ c := by
      rintro rfl
      rw [hself] at he
      rcases hp with hp | hp <;> simp [he] at hp
    rw [hother e hec] at he
    obtain ⟨hid, hcomp⟩ := h.held e d he
    rw [agentID, agentID, hother d (hfree d hcomp), hother e hec]
    exact ⟨hid, hcomp⟩
  · intro d hd
    have hdc := hfree' d hd
    rw [hother d hdc] at hd ⊢
    exact h.stands d hd
  · intro d hr hl
    by_cases hdc : d = c
    · subst hdc
      rw [hself] at hr
      rw [agentID, hself]
      exact hp.elim (fun hp => absurd hp hr) fun hp => hp.2
    · rw [hother d hdc] at hr hl
      rw [agentID, hother d hdc]
      exact h.named d hr hl
  · intro d hd
    by_cases hdc : d = c
    · subst hdc
      rw [hself] at hd
      rcases hp with hp | hp <;> simp [hd] at hp
    · rw [hother d hdc] at hd
      exact hclosed d (h.ended d hd)
  · intro d hd hopen
    have hdc := hfree' d hd
    rw [hother d hdc] at hd
    have hopen' := open_before hclosed hopen
    rw [agentID, hother d hdc, hmap]
    rcases h.live d hd hopen' with hm | hl | ⟨e, he⟩
    · exact .inl hm
    · exact .inr (.inl hl)
    · have hec : e ≠ c := by
        rintro rfl
        rw [hread] at he
        cases he
      exact .inr (.inr ⟨e, by rw [hother e hec, he]⟩)

/-- A session that has a name only closes its connection at a REGISTER. -/
theorem register_named {s : Collector Conn} {c : Conn} (cert : PeerCert) (hdr : FrameHeader) (payload : Bytes)
    (io : Io) (hn : s.agentID c ≠ []) : s.register c cert hdr payload io = s.close c := by
  simp [register, registerAnswer, PeerCert.registerCall, handleRegister_named cert _ hn, Effect.closes,
    Effect.replaces, close, Function.update_eq_self]

theorem Tidy.close {s : Collector Conn} (h : Tidy s) (c : Conn) : Tidy (s.close c) := by
  refine ⟨h.mapped, h.held, h.stands, h.named, fun d hd => ?_, fun d hd hopen => h.live d hd ?_⟩
  · simp [Collector.close, Function.update_apply, h.ended d hd]
  · simp only [Collector.close, Function.update_apply] at hopen
    split at hopen
    · cases hopen
    · exact hopen

theorem Tidy.register {s : Collector Conn} (h : Tidy s) (c : Conn) (cert : PeerCert) (hdr : FrameHeader)
    (payload : Bytes) (io : Io) (hloop : s.InLoop c) : Tidy (s.register c cert hdr payload io) := by
  by_cases hname : s.agentID c = []
  · have hread : (s.handler c).stands = .reading := by
      refine hloop.resolve_right fun hr => ?_
      exact h.named c (by simp [hr]) (by simp [hr, SessionAt.leaving]) hname
    refine h.names rfl rfl (fun d hd => ?_) hread rfl ?_
    · simp only [Collector.register]
      split
      · simp [Function.update_apply, hd]
      · exact hd
    · rcases handleRegister_cases cert hdr payload hname with ⟨hcall, hno⟩ | ⟨p, binding, id, hid, hcall, hes⟩
      · left
        simp [hno, hread]
      · obtain ⟨hs, hr⟩ := hes (s.registerAnswer c cert hdr payload io).1
        by_cases hok : (s.registerAnswer c cert hdr payload io).1 = .ok ()
        · right
          rw [if_pos (hr.2 hok), hs]
          exact ⟨rfl, formatUint_ne_nil id⟩
        · left
          rw [if_neg fun hc => hok (hr.1 hc), hread]
  · rw [register_named cert hdr payload io hname]
    exact h.close c

theorem Tidy.step {s : Collector Conn} (h : Tidy s) (x : Conn × SessionAct) (hok : s.SparesOthers x) :
    Tidy (s.step x) := by
  obtain ⟨c, a⟩ := x
  cases a with
  | advance => exact h.advance c hok
  | register cert hdr payload io =>
    simp only [Collector.step]
    split
    · next hloop => exact h.register c cert hdr payload io hloop
    · exact h
  | reject =>
    simp only [Collector.step]
    split
    · exact h.close c
    · exact h
  | leave o =>
    simp only [Collector.step]
    split
    · next hloop =>
      refine h.moves rfl (fun _ hd => hd) (fun _ _ hd => hd) (fun _ => .inr rfl) (by simp [SessionAt.leaving]) (by simp)
        (by simp) (fun d hd => ?_) (fun _ => rfl) fun d hd => .inl hd
      rcases hloop with hl | hl
      · rw [hl] at hd
        cases hd
      · rw [hl] at hd
        cases hd
    · exact h

omit [DecidableEq Conn] in
theorem tidy_init : Tidy (init : Collector Conn) := by
  constructor
  all_goals simp [init, agentID]

/-- In every run whose Stores and Deletes spare the connections of other sessions, an agent whose sessions are in the
middle of nothing has at most one live connection, the one in the map. -/
theorem sessions_sole {acts done : List (Conn × SessionAct)}
    (h : AllSteps step SparesOthers (init : Collector Conn) acts) (hd : done <+: acts) {a : Bytes}
    (hq : Quiet (done.foldl step init) a) : Sole (done.foldl step init) a := by
  have hstep : ∀ (s : Collector Conn) x, Tidy s → SparesOthers s x → Tidy (step s x) := fun _ x hs hx => hs.step x hx
  exact (foldl_invariant hstep done init tidy_init (h.of_isPrefix hd)).sole hq

end Collector

/-! ## Two sessions of one agent -/

/-- The REGISTER of the host `web` under its certificate. -/
def webRegister : SessionAct :=
  .register webCert ⟨17, msgRegister, 1⟩ ([0, 3] ++ ascii "web" ++ [10, 0, 0, 1, 2, 0, 5] ++ ascii "Linux") (Io.sound 9)

/-- The agent connects anew while its first session is registered, and that one ends. -/
def reconnects : List (Bool × SessionAct) :=
  [(false, webRegister), (false, .advance), (false, .advance), (true, webRegister), (true, .advance), (true, .advance),
    (true, .advance), (false, .leave .ok), (false, .advance), (false, .advance)]

/-- Both sessions look into the empty map before either is in it. -/
def registersTwice : List (Bool × SessionAct) :=
  [(false, webRegister), (false, .advance), (true, webRegister), (true, .advance), (false, .advance), (true, .advance)]

namespace Collector

theorem sessions_sole_reconnects : Sole (reconnects.foldl step init) (formatUint webID) :=
  sessions_sole (show AllSteps step SparesOthers init reconnects by decide +kernel) List.prefix_rfl (by decide +kernel)

theorem sessions_registersTwice_fails :
    ¬ ∀ done, done <+: registersTwice → ∀ a, Quiet (done.foldl step init) a → Sole (done.foldl step init) a := by
  intro h
  have hs := h registersTwice List.prefix_rfl (formatUint webID) (by decide +kernel)
  have hlive : ∀ c, Live (registersTwice.foldl step init) (formatUint webID) c := by
    unfold Live
    decide +kernel
  exact absurd (hs.unique false true (hlive false) (hlive true)) (by decide)

end Collector

end KnIg.Backend
