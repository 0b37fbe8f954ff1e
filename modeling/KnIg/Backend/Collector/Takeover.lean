/-
One session of an agent ends while another one registers. The cleanup asks the map whether its session is
still the agent's, and writes to the database later; the registration writes to the database first, and takes
the map later. The agent is left offline just when these two stretches overlap.
-/
import KnIg.Backend.Collector.Sessions

namespace KnIg.Backend

open Lib

/-! ## The two sessions -/

namespace SessionAt

variable {Conn : Type}

/-- The cleanup has found its session current and is to mark the agent offline, which the database will carry out. -/
def marks : SessionAt Conn → Bool
  | deleting o => o ≠ .failed
  | marking o => o ≠ .failed
  | _ => false

/-- The next step of the cleanup marks the agent offline. -/
def marksNext : SessionAt Conn → Bool
  | marking o => o ≠ .failed
  | _ => false

/-- The registration has been at the map, or is complete. -/
def tookPlace : SessionAt Conn → Bool
  | replacing _ => true
  | storing => true
  | registered => true
  | _ => false

/-- The registration has its grant, or is complete. -/
def past (p : SessionAt Conn) : Bool := p.tookPlace || p matches granted

theorem marks_of_marksNext {p : SessionAt Conn} (h : p.marksNext = true) : p.marks = true := by
  cases p with
  | marking o => exact h
  | _ => cases h

end SessionAt

namespace Collector

variable {Conn : Type} [DecidableEq Conn]

/-- The old session is registered, and the new one at its beginning. -/
structure Starts (s : Collector Conn) (old new : Conn) : Prop where
  ne : old ≠ new
  registered : (s.handler old).stands = .registered
  named : s.agentID old ≠ []
  fresh : s.handler new = ⟨.new, .reading, false⟩

/-- The old session has ended, and the new one is registered for its agent and open. -/
structure Finishes (s : Collector Conn) (old new : Conn) : Prop where
  ended : (s.handler old).stands = .ended
  registered : (s.handler new).stands = .registered
  agent : s.agentID new = s.agentID old
  isOpen : s.isClosed new = false

/-- The step does not mark an agent offline that has the new session live. -/
def SparesLive (old new : Conn) (s : Collector Conn) (x : Conn × SessionAct) : Prop :=
  x.1 = old → x.2 = .advance → (s.handler old).stands.marksNext = true → ¬ s.Live (s.agentID old) new

/-- The old session's cleanup is between the Load that found it current and its SetOffline, and the new session
between the answer of the database and its LoadAndDelete. -/
def Overlap (old new : Conn) (s : Collector Conn) : Prop :=
  s.agentID new = s.agentID old ∧ (s.handler new).stands = .granted ∧ (s.handler old).stands.marks = true

instance (old new : Conn) (s : Collector Conn) : Decidable (Overlap old new s) :=
  inferInstanceAs (Decidable (_ ∧ _ ∧ _))

/-! ## What a step does -/

section Step

variable {s : Collector Conn} {c d : Conn}

/-- Where a REGISTER leaves a session without a name: it has the grant only if the database has the agent online. -/
theorem register_unnamed (cert : PeerCert) (hdr : FrameHeader) (payload : Bytes) (io : Io) (hn : s.agentID c = [])
    (hr : (s.handler c).stands = .reading) :
    ∃ h', (s.register c cert hdr payload io).handler = Function.update s.handler c h' ∧
      h'.completed = (s.handler c).completed ∧
      (h'.stands = .reading ∨
        (h'.stands = .granted ∧ h'.session.agentID ≠ [] ∧
          Online (s.register c cert hdr payload io).db h'.session.agentID)) := by
  refine ⟨_, rfl, rfl, ?_⟩
  rcases handleRegister_cases cert hdr payload hn with ⟨-, hno⟩ | ⟨p, binding, id, -, hcall, hes⟩
  · left
    simp [hno, hr]
  · obtain ⟨hs, hg⟩ := hes (s.registerAnswer c cert hdr payload io).1
    by_cases hok : (s.registerAnswer c cert hdr payload io).1 = .ok ()
    · right
      have hreg : registerAgentWithCertificate io s.db (formatUint id) p binding =
          (.ok (), (s.registerAnswer c cert hdr payload io).2) := by
        rw [← hok]
        simp [registerAnswer, hcall]
      rw [if_pos (hg.2 hok), hs]
      exact ⟨rfl, formatUint_ne_nil id, online_register hreg⟩
    · left
      rw [if_neg fun hc => hok (hg.1 hc), hr]

theorem advance_handler (hd : d ≠ c) : (s.advance c).handler d = s.handler d := by
  unfold Collector.advance
  simp only
  repeat' split
  all_goals simp [stand, put, close, hd]

/-- What a session does in one step: nothing beyond a close, a registration, the start of its cleanup, or the next
of the steps that it is in the middle of. -/
theorem step_cases (x : Conn × SessionAct) :
    s.step x = s ∨ s.step x = s.close x.1 ∨
      (∃ cert hdr payload io, s.InLoop x.1 ∧ s.agentID x.1 = [] ∧
        s.step x = s.register x.1 cert hdr payload io) ∨
      (∃ o, s.InLoop x.1 ∧ s.step x = s.stand x.1 (.ending o)) ∨
      s.step x = s.advance x.1 := by
  obtain ⟨c, a⟩ := x
  cases a with
  | advance => exact .inr (.inr (.inr (.inr rfl)))
  | register cert hdr payload io =>
    by_cases hl : s.InLoop c
    · by_cases hn : s.agentID c = []
      · exact .inr (.inr (.inl ⟨cert, hdr, payload, io, hl, hn, if_pos hl⟩))
      · exact .inr (.inl ((if_pos hl).trans (register_named cert hdr payload io hn)))
    · exact .inl (if_neg hl)
  | reject =>
    by_cases hl : s.InLoop c
    · exact .inr (.inl (if_pos hl))
    · exact .inl (if_neg hl)
  | leave o =>
    by_cases hl : s.InLoop c
    · exact .inr (.inr (.inr (.inl ⟨o, hl, if_pos hl⟩)))
    · exact .inl (if_neg hl)

end Step

/-! ## Cleanup and registration -/

section Takeover

variable {s : Collector Conn} {old new : Conn} {a : Bytes}

/-- Nothing has gone wrong: an agent whose new session has the grant is online, and a new session that has been at the
map has no cleanup of the old one to fear. -/
structure Clean (old new : Conn) (a : Bytes) (s : Collector Conn) : Prop where
  named : s.agentID old = a ∧ a ≠ []
  oldStands : (s.handler old).stands = .registered ∨ (s.handler old).stands.leaving = true
  completed : (s.handler new).completed = true →
    (s.handler new).stands = .registered ∨ (s.handler new).stands.leaving = true
  pastNamed : (s.handler new).stands.past = true → s.agentID new ≠ []
  online : s.agentID new = a → (s.handler new).stands.past = true → Online s.db a
  taken : s.agentID new = a → (s.handler new).stands.tookPlace = true →
    s.sessions a ≠ some old ∧ (s.handler old).stands.marks = false

/-- The new session has been granted its place, and the old one marks the agent offline after that. -/
structure Doomed (old new : Conn) (a : Bytes) (s : Collector Conn) : Prop where
  named : s.agentID old = a ∧ s.agentID new = a ∧ a ≠ []
  past : (s.handler new).stands.past = true
  dead : (s.handler old).stands.marks = true ∨
    ((s.handler old).stands = .closing ∨ (s.handler old).stands = .ended) ∧ ¬ Online s.db a

omit [DecidableEq Conn] in
theorem Starts.clean (h : s.Starts old new) : Clean old new (s.agentID old) s := by
  refine ⟨⟨rfl, h.named⟩, .inl h.registered, ?_, ?_, ?_, ?_⟩
  all_goals simp [h.fresh, SessionAt.past, SessionAt.tookPlace]

omit [DecidableEq Conn] in
theorem Clean.doomed (h : Clean old new a s) (ho : s.Overlap old new) : Doomed old new a s :=
  ⟨⟨h.named.1, ho.1.trans h.named.1, h.named.2⟩, by rw [ho.2.1]; rfl, .inl ho.2.2⟩

/-- Neither a close nor where a connection is closed matters. -/
theorem Clean.close (h : Clean old new a s) (c : Conn) : Clean old new a (s.close c) := ⟨h.1, h.2, h.3, h.4, h.5, h.6⟩

theorem Doomed.close (h : Doomed old new a s) (c : Conn) : Doomed old new a (s.close c) := ⟨h.1, h.2, h.3⟩

theorem stand_self (c : Conn) (p : SessionAt Conn) : (s.stand c p).handler c = { s.handler c with stands := p } := by
  simp [stand, put]

theorem stand_of_ne {c d : Conn} (hd : d ≠ c) (p : SessionAt Conn) : (s.stand c p).handler d = s.handler d := by
  simp [stand, put, hd]

omit [DecidableEq Conn] in
theorem past_cases {p : SessionAt Conn} (h : p.past = true) : p.tookPlace = true ∨ p = .granted := by
  cases p with
  | granted => exact .inr rfl
  | replacing old => exact .inl rfl
  | storing | registered => exact .inl rfl
  | _ => cases h

/-- The old session goes on with its cleanup. -/
theorem Clean.old_moves {s' : Collector Conn} {p : SessionAt Conn} (h : Clean old new a s) (hne : old ≠ new)
    (hh : s'.handler = Function.update s.handler old { s.handler old with stands := p }) (hp : p.leaving = true)
    (honline : s.agentID new = a → (s.handler new).stands.past = true → Online s.db a → Online s'.db a)
    (htaken : s.agentID new = a → (s.handler new).stands.tookPlace = true → s.sessions a ≠ some old →
      (s.handler old).stands.marks = false → s'.sessions a ≠ some old ∧ p.marks = false) :
    Clean old new a s' := by
  have hnew : s'.handler new = s.handler new := by rw [hh, Function.update_of_ne hne.symm]
  have hold : s'.handler old = { s.handler old with stands := p } := by rw [hh, Function.update_self]
  have hid : s'.agentID new = s.agentID new := by rw [agentID, hnew, agentID]
  constructor
  · rw [agentID, hold]
    exact h.named
  · rw [hold]
    exact .inr hp
  · rw [hnew]
    exact h.completed
  · rw [hnew, hid]
    exact h.pastNamed
  · rw [hnew, hid]
    exact fun hn hg => honline hn hg (h.online hn hg)
  · rw [hnew, hid, hold]
    intro hn ht
    obtain ⟨hmap, hmarks⟩ := h.taken hn ht
    exact htaken hn ht hmap hmarks

theorem Clean.advance_old (h : Clean old new a s) (hne : old ≠ new) (ho : ¬ s.Overlap old new) :
    Clean old new a (s.advance old) := by
  have hid : (s.handler old).session.agentID = a := h.named.1
  cases hp : (s.handler old).stands with
  | registered | ended =>
    simp only [Collector.advance, hp]
    exact h
  | ending o =>
    simp only [Collector.advance, hp, hid]
    split
    · next hload =>
      -- it finds itself, so that the new session has not been at the map
      exact h.old_moves hne rfl rfl (fun _ _ hon => hon) fun _ _ hmap _ => absurd hload.2.2 hmap
    · exact h.old_moves hne rfl rfl (fun _ _ hon => hon) fun _ _ hmap _ => ⟨hmap, rfl⟩
  | deleting o =>
    simp only [Collector.advance, hp, hid]
    refine h.old_moves hne rfl rfl (fun _ _ hon => hon) fun _ _ hmap hmarks => ⟨?_, ?_⟩
    · show Function.update s.sessions a none a ≠ some old
      rw [Function.update_self]
      exact Option.some_ne_none old |>.symm
    · rw [hp] at hmarks
      exact hmarks
  | marking o =>
    simp only [Collector.advance, hp, hid]
    refine h.old_moves hne rfl rfl (fun hn hg hon => ?_) fun _ _ hmap _ => ⟨hmap, rfl⟩
    by_cases hfail : o = .failed
    · show Online (setOffline o s.db a).2 a
      rw [hfail, setOffline_failed]
      exact hon
    · -- it would mark the agent offline, and the new session has its grant
      have hmarks : (s.handler old).stands.marks = true := by
        rw [hp]
        exact decide_eq_true hfail
      rcases past_cases hg with ht | hgrant
      · rw [(h.taken hn ht).2] at hmarks
        cases hmarks
      · exact absurd ⟨hn.trans h.named.1.symm, hgrant, hmarks⟩ ho
  | closing =>
    simp only [Collector.advance, hp]
    exact h.old_moves hne rfl rfl (fun _ _ hon => hon) fun _ _ hmap _ => ⟨hmap, rfl⟩
  | _ =>
    have hstands := h.oldStands
    rw [hp] at hstands
    simp [SessionAt.leaving] at hstands

/-- The new session goes on with its registration or its cleanup. -/
theorem Clean.new_moves {s' : Collector Conn} {h' : Handler Conn} (h : Clean old new a s) (hne : old ≠ new)
    (hh : s'.handler = Function.update s.handler new h')
    (hcompleted : h'.completed = true → h'.stands = .registered ∨ h'.stands.leaving = true)
    (hnamed : h'.stands.past = true → h'.session.agentID ≠ [])
    (honline : h'.session.agentID = a → h'.stands.past = true → Online s'.db a)
    (htaken : h'.session.agentID = a → h'.stands.tookPlace = true →
      s'.sessions a ≠ some old ∧ (s.handler old).stands.marks = false) : Clean old new a s' := by
  have hnew : s'.handler new = h' := by rw [hh, Function.update_self]
  have hold : s'.handler old = s.handler old := by rw [hh, Function.update_of_ne hne]
  constructor
  · rw [agentID, hold]
    exact h.named
  · rw [hold]
    exact h.oldStands
  · rw [hnew]
    exact hcompleted
  · rw [agentID, hnew]
    exact hnamed
  · rw [agentID, hnew]
    exact honline
  · rw [agentID, hnew, hold]
    exact htaken

omit [DecidableEq Conn] in
theorem past_of_leaving {p : SessionAt Conn} (h : p.leaving = true) : p.past = false ∧ p.tookPlace = false := by
  cases p with
  | ending o | deleting o | marking o => exact ⟨rfl, rfl⟩
  | closing | ended => exact ⟨rfl, rfl⟩
  | _ => cases h

/-- A new session that leaves has nothing to lose. -/
theorem Clean.new_leaves {s' : Collector Conn} {h' : Handler Conn} (h : Clean old new a s) (hne : old ≠ new)
    (hh : s'.handler = Function.update s.handler new h') (hl : h'.stands.leaving = true) : Clean old new a s' := by
  obtain ⟨hpast, htook⟩ := past_of_leaving hl
  refine h.new_moves hne hh (fun _ => .inr hl) (fun hp => ?_) (fun _ hp => ?_) fun _ ht => ?_
  · rw [hpast] at hp
    cases hp
  · rw [hpast] at hp
    cases hp
  · rw [htook] at ht
    cases ht

theorem Clean.advance_new (h : Clean old new a s) (hne : old ≠ new) (ho : ¬ s.Overlap old new) :
    Clean old new a (s.advance new) := by
  have hcompleted : (s.handler new).stands.leaving = false → (s.handler new).stands ≠ .registered →
      ¬ (s.handler new).completed = true := by
    intro hl hr hc
    rcases h.completed hc with hreg | hleave
    · exact hr hreg
    · rw [hl] at hleave
      cases hleave
  cases hp : (s.handler new).stands with
  | reading | registered | ended =>
    simp only [Collector.advance, hp]
    exact h
  | granted =>
    have hpast : (s.handler new).stands.past = true := by rw [hp]; rfl
    have hnot := hcompleted (by rw [hp]; rfl) (by simp [hp])
    have htaken : (s.handler new).session.agentID = a →
        Function.update s.sessions (s.handler new).session.agentID none a ≠ some old ∧
          (s.handler old).stands.marks = false := by
      intro hn
      refine ⟨by simp [hn], ?_⟩
      by_contra hmarks
      exact ho ⟨hn.trans h.named.1.symm, hp, by simpa using hmarks⟩
    simp only [Collector.advance, hp]
    split
    · exact h.new_moves hne rfl (fun hc => absurd hc hnot) (fun _ => h.pastNamed hpast)
        (fun hn _ => h.online hn hpast) fun hn _ => htaken hn
    · exact h.new_moves hne rfl (fun hc => absurd hc hnot) (fun _ => h.pastNamed hpast)
        (fun hn _ => h.online hn hpast) fun hn _ => htaken hn
  | replacing d =>
    have hpast : (s.handler new).stands.past = true := by rw [hp]; rfl
    have hnot := hcompleted (by rw [hp]; rfl) (by simp [hp])
    simp only [Collector.advance, hp]
    exact h.new_moves hne rfl (fun hc => absurd hc hnot) (fun _ => h.pastNamed hpast)
      (fun hn _ => h.online hn hpast) fun hn _ => h.taken hn (by rw [hp]; rfl)
  | storing =>
    have hpast : (s.handler new).stands.past = true := by rw [hp]; rfl
    simp only [Collector.advance, hp]
    refine h.new_moves hne rfl (fun _ => .inl rfl) (fun _ => h.pastNamed hpast) (fun hn _ => h.online hn hpast)
      fun hn _ => ⟨?_, (h.taken hn (by rw [hp]; rfl)).2⟩
    -- the entry is its own now
    show Function.update s.sessions (s.handler new).session.agentID (some new) a ≠ some old
    rw [show (s.handler new).session.agentID = a from hn, Function.update_self]
    exact fun he => hne (Option.some.inj he).symm
  | ending o =>
    simp only [Collector.advance, hp]
    split
    · exact h.new_leaves hne rfl rfl
    · exact h.new_leaves hne rfl rfl
  | deleting o | marking o | closing =>
    simp only [Collector.advance, hp]
    exact h.new_leaves hne rfl rfl

theorem Clean.step (h : Clean old new a s) (hne : old ≠ new) (ho : ¬ s.Overlap old new) {x : Conn × SessionAct}
    (hx : x.1 = old ∨ x.1 = new) : Clean old new a (s.step x) := by
  rcases step_cases x with hs | hs | ⟨cert, hdr, payload, io, hl, hn, hs⟩ | ⟨o, hl, hs⟩ | hs
  · rw [hs]
    exact h
  · rw [hs]
    exact h.close x.1
  · -- only the new session is without a name
    rw [hs]
    rcases hx with hx | hx
    · rw [hx, h.named.1] at hn
      exact absurd hn h.named.2
    · rw [hx] at hl hn ⊢
      have hread : (s.handler new).stands = .reading := by
        refine hl.resolve_right fun hr => ?_
        exact h.pastNamed (by rw [hr]; rfl) hn
      have hnot : ¬ (s.handler new).completed = true := by
        intro hc
        have hgone := h.completed hc
        simp [hread, SessionAt.leaving] at hgone
      rcases register_unnamed cert hdr payload io hn hread with ⟨h', hh, hcomp, hst | ⟨hst, hname, hon⟩⟩
      · refine h.new_moves hne hh (fun hc => absurd (hcomp.symm.trans hc) hnot) (fun hp => ?_) (fun _ hp => ?_)
          fun _ ht => ?_
        · rw [hst] at hp
          cases hp
        · rw [hst] at hp
          cases hp
        · rw [hst] at ht
          cases ht
      · refine h.new_moves hne hh (fun hc => absurd (hcomp.symm.trans hc) hnot) (fun _ => hname) (fun hid _ => ?_)
          fun _ ht => ?_
        · rw [← hid]
          exact hon
        · rw [hst] at ht
          cases ht
  · rw [hs]
    rcases hx with hx | hx
    · rw [hx]
      exact h.old_moves hne rfl rfl (fun _ _ hon => hon) fun _ _ hmap _ => ⟨hmap, rfl⟩
    · rw [hx]
      exact h.new_leaves hne rfl rfl
  · rw [hs]
    rcases hx with hx | hx
    · rw [hx]
      exact h.advance_old hne ho
    · rw [hx]
      exact h.advance_new hne ho

/-! ## After an overlap -/

theorem Doomed.old_moves {s' : Collector Conn} {p : SessionAt Conn} (h : Doomed old new a s) (hne : old ≠ new)
    (hh : s'.handler = Function.update s.handler old { s.handler old with stands := p })
    (hdead : p.marks = true ∨ (p = .closing ∨ p = .ended) ∧ ¬ Online s'.db a) : Doomed old new a s' := by
  have hnew : s'.handler new = s.handler new := by rw [hh, Function.update_of_ne hne.symm]
  have hold : s'.handler old = { s.handler old with stands := p } := by rw [hh, Function.update_self]
  constructor
  · rw [agentID, agentID, hold, hnew]
    exact h.named
  · rw [hnew]
    exact h.past
  · rw [hold]
    exact hdead

theorem Doomed.new_moves {s' : Collector Conn} {h' : Handler Conn} (h : Doomed old new a s) (hne : old ≠ new)
    (hh : s'.handler = Function.update s.handler new h') (hid : h'.session = (s.handler new).session)
    (hpast : h'.stands.past = true) (hdb : s'.db = s.db) : Doomed old new a s' := by
  have hnew : s'.handler new = h' := by rw [hh, Function.update_self]
  have hold : s'.handler old = s.handler old := by rw [hh, Function.update_of_ne hne]
  constructor
  · rw [agentID, agentID, hold, hnew, hid]
    exact h.named
  · rw [hnew]
    exact hpast
  · rw [hold, hdb]
    exact h.dead

theorem Doomed.advance_old (h : Doomed old new a s) (hne : old ≠ new) : Doomed old new a (s.advance old) := by
  have hid : (s.handler old).session.agentID = a := h.named.1
  have hdead := h.dead
  cases hp : (s.handler old).stands with
  | deleting o =>
    rw [hp] at hdead
    have hmarks := hdead.resolve_right (by simp)
    simp only [Collector.advance, hp]
    exact h.old_moves hne rfl (.inl hmarks)
  | marking o =>
    rw [hp] at hdead
    have hmarks := hdead.resolve_right (by simp)
    simp only [Collector.advance, hp]
    refine h.old_moves hne rfl (.inr ⟨.inl rfl, ?_⟩)
    rw [← hid]
    exact not_online_setOffline (of_decide_eq_true hmarks) s.db _
  | closing =>
    rw [hp] at hdead
    have hoff := (hdead.resolve_left (by simp [SessionAt.marks])).2
    simp only [Collector.advance, hp]
    exact h.old_moves hne rfl (.inr ⟨.inr rfl, hoff⟩)
  | ended =>
    simp only [Collector.advance, hp]
    exact h
  | _ =>
    rw [hp] at hdead
    simp [SessionAt.marks] at hdead

theorem Doomed.advance_new (h : Doomed old new a s) (hne : old ≠ new) : Doomed old new a (s.advance new) := by
  cases hp : (s.handler new).stands with
  | granted =>
    simp only [Collector.advance, hp]
    split
    · exact h.new_moves hne rfl rfl rfl rfl
    · exact h.new_moves hne rfl rfl rfl rfl
  | replacing d | storing =>
    simp only [Collector.advance, hp]
    exact h.new_moves hne rfl rfl rfl rfl
  | registered =>
    simp only [Collector.advance, hp]
    exact h
  | _ =>
    have hpast := h.past
    rw [hp] at hpast
    cases hpast

theorem Doomed.step (h : Doomed old new a s) (hne : old ≠ new) {x : Conn × SessionAct}
    (hx : x.1 = old ∨ x.1 = new) :
    Doomed old new a (s.step x) ∨ ((s.step x).handler new).stands.leaving = true := by
  rcases step_cases x with hs | hs | ⟨cert, hdr, payload, io, hl, hn, hs⟩ | ⟨o, hl, hs⟩ | hs
  · rw [hs]
    exact .inl h
  · rw [hs]
    exact .inl (h.close x.1)
  · -- both have a name
    rcases hx with hx | hx
    · rw [hx, h.named.1] at hn
      exact absurd hn h.named.2.2
    · rw [hx, h.named.2.1] at hn
      exact absurd hn h.named.2.2
  · rw [hs]
    rcases hx with hx | hx
    · rw [hx] at hl
      have hdead := h.dead
      rcases hl with hl | hl <;> simp [hl, SessionAt.marks] at hdead
    · right
      rw [hx, stand_self]
      rfl
  · rw [hs]
    rcases hx with hx | hx
    · rw [hx]
      exact .inl (h.advance_old hne)
    · rw [hx]
      exact .inl (h.advance_new hne)

/-- A session that leaves does not come back. -/
theorem leaving_step {c : Conn} (h : (s.handler c).stands.leaving = true) (x : Conn × SessionAct) :
    ((s.step x).handler c).stands.leaving = true := by
  have hout : ¬ s.InLoop c := by
    rintro (hl | hl)
    · rw [hl] at h
      cases h
    · rw [hl] at h
      cases h
  rcases step_cases x with hs | hs | ⟨cert, hdr, payload, io, hl, hn, hs⟩ | ⟨o, hl, hs⟩ | hs
  · rw [hs]
    exact h
  · rw [hs]
    exact h
  · rw [hs]
    have hc : c ≠ x.1 := fun hc => hout (hc ▸ hl)
    simp [register, Function.update_of_ne hc, h]
  · have hc : c ≠ x.1 := fun hc => hout (hc ▸ hl)
    rw [hs, stand_of_ne hc]
    exact h
  · rw [hs]
    by_cases hc : c = x.1
    · subst hc
      cases hp : (s.handler x.1).stands with
      | ending o =>
        simp only [Collector.advance, hp]
        split
        · rw [stand_self]
          rfl
        · rw [stand_self]
          rfl
      | deleting o | marking o | closing =>
        simp only [Collector.advance, hp]
        rw [stand_self]
        rfl
      | ended =>
        simp only [Collector.advance, hp]
        rfl
      | _ =>
        rw [hp] at h
        cases h
    · rw [advance_handler hc]
      exact h

theorem leaving_run {c : Conn} (acts : List (Conn × SessionAct)) (h : (s.handler c).stands.leaving = true) :
    ((acts.foldl Collector.step s).handler c).stands.leaving = true := by
  induction acts generalizing s with
  | nil => exact h
  | cons x acts ih => exact ih (leaving_step h x)

omit [DecidableEq Conn] in
/-- The step that follows spares the new session, unless that one has left. -/
theorem Clean.sparesLive (h : Clean old new a s) (hl : (s.handler new).stands.leaving = false)
    (x : Conn × SessionAct) : s.SparesLive old new x := by
  intro _ _ hnext hlive
  have hid : s.agentID new = a := hlive.1.trans h.named.1
  have hreg : (s.handler new).stands = .registered := by
    refine (h.completed hlive.2.1).resolve_right fun hleave => ?_
    rw [hl] at hleave
    cases hleave
  have hmarks := (h.taken hid (by rw [hreg]; rfl)).2
  rw [SessionAt.marks_of_marksNext hnext] at hmarks
  cases hmarks

omit [DecidableEq Conn] in
theorem Doomed.offline (h : Doomed old new a s) (hf : s.Finishes old new) : ¬ Online s.db a := by
  have hdead := h.dead
  rw [hf.ended] at hdead
  exact (hdead.resolve_left (by simp [SessionAt.marks])).2

theorem Doomed.run (hne : old ≠ new) {acts : List (Conn × SessionAct)} (h : Doomed old new a s)
    (hacts : ∀ x ∈ acts, x.1 = old ∨ x.1 = new) (hf : (acts.foldl Collector.step s).Finishes old new) :
    ¬ Online (acts.foldl Collector.step s).db a := by
  induction acts generalizing s with
  | nil => exact h.offline hf
  | cons x acts ih =>
    rcases h.step hne (hacts x List.mem_cons_self) with hd | hleave
    · exact ih hd (fun y hy => hacts y (List.mem_cons_of_mem x hy)) hf
    · have hend := leaving_run acts hleave
      rw [show ((acts.foldl Collector.step (s.step x)).handler new).stands = .registered from hf.registered] at hend
      cases hend

theorem Clean.run (hne : old ≠ new) {acts : List (Conn × SessionAct)} (h : Clean old new a s)
    (hacts : ∀ x ∈ acts, x.1 = old ∨ x.1 = new) (hf : (acts.foldl Collector.step s).Finishes old new) :
    (Online (acts.foldl Collector.step s).db a ∧ AllSteps Collector.step (SparesLive old new) s acts) ↔
      AllSteps Collector.step (fun s _ => ¬ s.Overlap old new) s acts := by
  induction acts generalizing s with
  | nil =>
    have hid : s.agentID new = a := hf.agent.trans h.named.1
    have hpast : (s.handler new).stands.past = true := by
      rw [show (s.handler new).stands = .registered from hf.registered]
      rfl
    exact iff_of_true ⟨h.online hid hpast, trivial⟩ trivial
  | cons x acts ih =>
    by_cases ho : s.Overlap old new
    · exact iff_of_false (fun hon => (h.doomed ho).run hne hacts hf hon.1) fun hno => hno.1 ho
    · have hleave : (s.handler new).stands.leaving = false := by
        by_contra hl
        have hend := leaving_run (x :: acts) (by simpa using hl)
        rw [hf.registered] at hend
        cases hend
      have hrest := ih (h.step hne ho (hacts x List.mem_cons_self)) (fun y hy => hacts y (List.mem_cons_of_mem x hy)) hf
      constructor
      · rintro ⟨hon, -, hspares⟩
        exact ⟨ho, hrest.1 ⟨hon, hspares⟩⟩
      · rintro ⟨-, hno⟩
        obtain ⟨hon, hspares⟩ := hrest.2 hno
        exact ⟨hon, h.sparesLive hleave x, hspares⟩

/-- An agent whose old session has ended and whose new one is registered is online, and was marked offline over no
live session, exactly if at no moment of the run the cleanup of the old session was between its look at the map and
its write while the registration of the new one was between its write and its look at the map. -/
theorem takeover_online_iff (hs : s.Starts old new) {acts : List (Conn × SessionAct)}
    (hacts : ∀ x ∈ acts, x.1 = old ∨ x.1 = new) (hf : (acts.foldl Collector.step s).Finishes old new) :
    (Online (acts.foldl Collector.step s).db (s.agentID old) ∧
        AllSteps Collector.step (SparesLive old new) s acts) ↔
      AllSteps Collector.step (fun s _ => ¬ s.Overlap old new) s acts :=
  hs.clean.run hs.ne hacts hf

end Takeover

end Collector

/-! ## Two sessions of one agent -/

/-- The first session of the agent is registered, and the second has not begun. -/
def beforeTakeover : Collector Bool :=
  [(false, webRegister), (false, .advance), (false, .advance)].foldl Collector.step Collector.init

/-- The old session is gone before the new one registers. -/
def cleansFirst : List (Bool × SessionAct) :=
  [(false, .leave .ok), (false, .advance), (false, .advance), (false, .advance), (false, .advance),
    (true, webRegister), (true, .advance), (true, .advance)]

/-- The old session looks into the map after the new one has its grant, and before that one is at the map. -/
def cleansAcross : List (Bool × SessionAct) :=
  [(true, webRegister), (false, .leave .ok), (false, .advance), (true, .advance), (true, .advance), (true, .advance),
    (false, .advance), (false, .advance), (false, .advance)]

namespace Collector

theorem starts_beforeTakeover : beforeTakeover.Starts false true := by
  refine ⟨by decide, by decide +kernel, by decide +kernel, ?_⟩
  rfl

theorem takeover_online_cleansFirst :
    Online (cleansFirst.foldl step beforeTakeover).db (beforeTakeover.agentID false) ∧
      AllSteps step (SparesLive false true) beforeTakeover cleansFirst :=
  (takeover_online_iff starts_beforeTakeover (by simp [cleansFirst])
    ⟨by decide +kernel, by decide +kernel, by decide +kernel, by decide +kernel⟩).2
    (show AllSteps step (fun s _ => ¬ Overlap false true s) beforeTakeover cleansFirst by decide +kernel)

theorem takeover_cleansAcross_fails : ¬ ∀ acts : List (Bool × SessionAct), (∀ x ∈ acts, x.1 = false ∨ x.1 = true) →
    (acts.foldl step beforeTakeover).Finishes false true →
    Online (acts.foldl step beforeTakeover).db (beforeTakeover.agentID false) ∧
      AllSteps step (SparesLive false true) beforeTakeover acts := by
  intro h
  have hend : (cleansAcross.foldl step beforeTakeover).Finishes false true :=
    ⟨by decide +kernel, by decide +kernel, by decide +kernel, by decide +kernel⟩
  obtain ⟨⟨row, hrow, hon⟩, -⟩ := h cleansAcross (by simp [cleansAcross]) hend
  have hoff : ∀ row ∈ (cleansAcross.foldl step beforeTakeover).db.agents.find (beforeTakeover.agentID false),
      row.status ≠ statusOnline := by decide +kernel
  exact hoff row hrow hon

end Collector

end KnIg.Backend
