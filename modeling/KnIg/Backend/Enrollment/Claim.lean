/-
One enrollment under any number of connections: over every run of interleaved store calls, with every
failure of the issuer, of a statement or of a commit, the enrollment is issued at most once, in time
and to the agent it was bound to, and a claim that is given back leaves it as it was.

The invariant follows the one connection that holds the claim: while the enrollment is pending nobody
does, while it is issuing at most one does and the row names its agent.
-/
import KnIg.Backend.Enrollment.Service

namespace KnIg.Backend

open Lib

/-! ## The rest of the server -/

theorem register_unchanged (io : Io) (db : Db) (agentID : Bytes) (p : RegisterPayload) (cert : AgentCertificate) :
    Unchanged db (registerAgentWithCertificate io db agentID p cert).2 := by
  intro eid
  rcases runTx_db io db (registerBody io db agentID p cert) with h | ⟨a, hbody⟩
  · unfold registerAgentWithCertificate; rw [h]
  · have hupsert := rowState_upsertAgent db ⟨agentID, p.hostname, p.ip, [], p.os, p.monitorType, statusOnline, io.clock,
      some io.clock⟩ (fun r => { r.setPayload p with lastSeen := some io.clock, status := statusOnline })
      (fun _ => rfl) eid
    unfold registerAgentWithCertificate
    rcases ensureMatching_ok (registerBody_ok hbody) with ⟨_, _, _, _, _, h⟩ | ⟨_, _, hins⟩
    · rw [h]; exact hupsert
    · unfold Db.rowState at hupsert ⊢
      rw [insertCert_enrollments hins]
      exact hupsert

theorem create_unchanged (o : Outcome) (clock : Time) (db : Db) (e : Enrollment) {eid : Bytes} {st : RowState}
    (h : db.rowState eid = some st) : (createEnrollment o clock db e).2.rowState eid = some st := by
  obtain ⟨r, hr, rfl⟩ := Option.map_eq_some_iff.1 h
  unfold createEnrollment
  split
  · rename_i db' hins
    obtain ⟨t, ht, rfl⟩ := Option.map_eq_some_iff.1 hins
    have hfind := UniqueTable.find_insert ht eid
    have hfree := UniqueTable.find_of_insert ht
    rcases settle_db o db { db with enrollments := t } (.ok ()) with h' | h'
    · rw [h']; exact h
    · rw [h']
      unfold Db.rowState
      rw [hfind, if_neg, hr]
      · rfl
      · rintro rfl
        rw [hfree] at hr
        cases hr
  · exact h

/-- The calls of the rest of the server leave an existing enrollment. -/
theorem other_unchanged (call : OtherCall) {db : Db} {eid : Bytes} {st : RowState} (h : db.rowState eid = some st) :
    (call.run db).rowState eid = some st := by
  cases call with
  | register io agentID p cert => exact (register_unchanged io db agentID p cert eid).trans h
  | deleteAgent o agentID =>
    rcases settle_db o db (db.deleteAgent agentID) (.ok ()) with h' | h'
    · exact (congrArg (Db.rowState · eid) h').trans h
    · exact (congrArg (Db.rowState · eid) h').trans h
  | create o clock e => exact create_unchanged o clock db e h

/-! ## What a step of a connection can do -/

/-- Every way a step of a connection for the enrollment moves it on, with the database and the commits
it leaves. -/
inductive ConnMove (eid : Bytes) (db : Db) : Phase → Phase → Db → List Commit → Prop where
  | giveUp {phase : Phase} {db' : Db} (hun : Unchanged db db')
      (hin : phase = .hello ∨ (∃ row, phase = .handshake row) ∨ ∃ a, phase = .acking a) :
    ConnMove eid db phase .closed db' []
  | read {row : Enrollment} {db' : Db} {st : RowState} (hst : db.rowState eid = some st) (hp : st.status = .pending)
      (hid : row.agentID = st.agentId.getD []) (hun : Unchanged db db') :
    ConnMove eid db .hello (.handshake row) db' []
  | enter {row : Enrollment} {e : Enrolling} (he : e.expectedAgentID = row.agentID) :
    ConnMove eid db (.handshake row) (.ready e) db []
  | claim {e : Enrolling} {db' : Db} {now : Time} {st : RowState} (hst : db.rowState eid = some st)
      (hc : st.claimable now = true)
      (hch : Changed db db' eid (RowState.claimable now) (RowState.claim e.agentID)) :
    ConnMove eid db (.ready e) (.claimed e) db' []
  | claimFails {e : Enrolling} {db' : Db} {now : Time}
      (hch : Unchanged db db' ∨ Changed db db' eid (RowState.claimable now) (RowState.claim e.agentID)) :
    ConnMove eid db (.ready e) .closed db' []
  | issue {e : Enrolling} {cert : AgentCertificate} : ConnMove eid db (.claimed e) (.issued e cert) db []
  | issueFails {e : Enrolling} : ConnMove eid db (.claimed e) (.releasing e) db []
  | commit {e : Enrolling} {cert : AgentCertificate} {phase : Phase} {db' : Db} {now : Time} {st : RowState}
      (hst : db.rowState eid = some st) (hi : st.issuable e.agentID now = true)
      (hch : Changed db db' eid (RowState.issuable e.agentID now) (RowState.issue e.agentID))
      (hph : phase = .acking e.agentID ∨ phase = .releasing e) :
    ConnMove eid db (.issued e cert) phase db' [⟨eid, e.agentID, now⟩]
  | rollback {e : Enrolling} {cert : AgentCertificate} : ConnMove eid db (.issued e cert) (.releasing e) db []
  | release {e : Enrolling} {db' : Db}
      (hch : Unchanged db db' ∨
        Changed db db' eid (RowState.claimedBy e.agentID) (RowState.release (e.expectedAgentID ≠ []))) :
    ConnMove eid db (.releasing e) .closed db' []
  | ack {a : Bytes} {db' : Db}
      (hch : Unchanged db db' ∨ Changed db db' eid (RowState.issuedTo a) (RowState.use a)) :
    ConnMove eid db (.acking a) .closed db' []

theorem checkRequest_ok {parseIP : Bytes → Option Bytes} {id expected : Bytes} {req : Request} {e : Enrolling}
    (h : checkRequest parseIP id expected req = .ok e) : e.expectedAgentID = expected := by
  unfold checkRequest at h
  split at h
  · cases h
  · split at h
    · cases h
    · simp only at h
      split at h
      · cases h
      · cases h; rfl

section Move

variable {parseIP : Bytes → Option Bytes} {eid : Bytes} {db db' : Db} {phase' : Phase} {new : List Commit}

theorem getPending_move (parseIP : Bytes → Option Bytes) {now : Time} {io : Io}
    (h : connStep parseIP eid db .hello (.getPending now io) = (phase', db', new)) :
    ConnMove eid db .hello phase' db' new := by
  have hun := getPending_unchanged io db eid now
  simp only [connStep] at h
  split at h
  · rename_i row db₁ hr
    cases h
    rw [hr] at hun
    obtain ⟨st, hst, hp, hid⟩ := getPending_ok hr
    exact .read hst hp hid hun
  · rename_i err db₁ hr
    cases h
    rw [hr] at hun
    exact .giveUp hun (.inl rfl)

theorem claim_move (parseIP : Bytes → Option Bytes) {e : Enrolling} {now : Time} {o : Outcome}
    (h : connStep parseIP eid db (.ready e) (.claim now o) = (phase', db', new)) :
    ConnMove eid db (.ready e) phase' db' new := by
  have hch := claim_changed o db eid e.agentID now
  simp only [connStep] at h
  split at h
  · rename_i db₁ hr
    cases h
    obtain ⟨⟨st, hst, hc⟩, hch⟩ := claim_ok (congrArg Prod.fst hr)
    rw [hr] at hch
    exact .claim hst hc hch
  · rename_i err db₁ hr
    cases h
    rw [hr] at hch
    exact .claimFails hch

/-- A finalize may commit and still report an error: the connection then releases what it no longer holds. -/
theorem finalize_move (parseIP : Bytes → Option Bytes) {e : Enrolling} {cert : AgentCertificate} {now : Time} {io : Io}
    (h : connStep parseIP eid db (.issued e cert) (.finalize now io) = (phase', db', new)) :
    ConnMove eid db (.issued e cert) phase' db' new := by
  simp only [connStep] at h
  cases hcm : finalizeCommits io db eid e.agentID e.payload cert now with
  | true =>
    obtain ⟨⟨st, hst, hi⟩, hch⟩ := finalize_commits hcm
    simp only [hcm, if_true] at h
    split at h
    · rename_i db₁ hr
      cases h
      rw [hr] at hch
      exact .commit hst hi hch (.inl rfl)
    · rename_i err db₁ hr
      cases h
      rw [hr] at hch
      exact .commit hst hi hch (.inr rfl)
  | false =>
    obtain ⟨hdb, hne⟩ := finalize_not_commits hcm
    simp only [hcm] at h
    split at h
    · rename_i db₁ hr
      rw [hr] at hne
      exact absurd rfl hne
    · rename_i err db₁ hr
      cases h
      rw [hr] at hdb
      cases hdb
      exact .rollback

/-- A step of a connection moves it on in one of these ways or does nothing. -/
theorem connStep_move {phase : Phase} {step : ConnStep} (h : connStep parseIP eid db phase step = (phase', db', new)) :
    ConnMove eid db phase phase' db' new ∨ (phase' = phase ∧ db' = db ∧ new = []) := by
  -- one case for each equation of the step function, in its order; the last is the idle step
  unfold connStep at h
  split at h
  · exact .inl (getPending_move parseIP h)
  · cases h
    exact .inl (.giveUp (fun _ => rfl) (.inl rfl))
  · rename_i row req
    split at h
    · rename_i e he
      cases h
      exact .inl (.enter (checkRequest_ok he))
    · cases h
      exact .inl (.giveUp (fun _ => rfl) (.inr (.inl ⟨row, rfl⟩)))
  · rename_i row
    cases h
    exact .inl (.giveUp (fun _ => rfl) (.inr (.inl ⟨row, rfl⟩)))
  · exact .inl (claim_move parseIP h)
  · cases h
    exact .inl .issueFails
  · cases h
    exact .inl .issue
  · exact .inl (finalize_move parseIP h)
  · rename_i e o
    cases h
    exact .inl (.release (release_changed o db eid e.agentID _))
  · rename_i a now o
    cases h
    exact .inl (.ack (markUsed_changed o db eid a now))
  · rename_i a
    cases h
    exact .inl (.giveUp (fun _ => rfl) (.inr (.inr ⟨a, rfl⟩)))
  · cases h
    exact .inr ⟨rfl, rfl, rfl⟩

end Move

/-! ## The invariant -/

/-- The agent id a connection expects, once it has read the enrollment. -/
def Phase.expected : Phase → Option Bytes
  | handshake row => some row.agentID
  | ready e => some e.expectedAgentID
  | claimed e => some e.expectedAgentID
  | issued e _ => some e.expectedAgentID
  | releasing e => some e.expectedAgentID
  | _ => none

/-- The `Enroll` of a connection that holds a claim: it has claimed, and neither released nor returned. -/
def Phase.holder : Phase → Option Enrolling
  | claimed e => some e
  | issued e _ => some e
  | releasing e => some e
  | _ => none

/-- What holds of the row and the commits of an enrollment that started as `st₀`. -/
structure RowInv (eid : Bytes) (st₀ st : RowState) (commits : List Commit) : Prop where
  expires : st.expiresAt = st₀.expiresAt
  pending : st.status = .pending → st = st₀
  uncommitted : st.status = .pending ∨ st.status = .issuing → ∀ c ∈ commits, c.enrollmentID ≠ eid
  once : (commits.filter (·.enrollmentID = eid)).length ≤ 1
  sound : ∀ c ∈ commits, c.enrollmentID = eid →
    c.now < st₀.expiresAt ∧ ∀ a, st₀.agentId = some a → c.agentID = a

/-- What holds of a connection for the enrollment: it expects the agent the enrollment was bound to,
and the row names the agent of a claim it holds, unless its own finalize has committed. -/
structure PhaseInv (eid : Bytes) (st₀ st : RowState) (commits : List Commit) (phase : Phase) : Prop where
  expected : ∀ x, phase.expected = some x → x = st₀.agentId.getD []
  holder : ∀ e, phase.holder = some e →
    st.claimedBy e.agentID = true ∨ (phase = .releasing e ∧ ∃ c ∈ commits, c.enrollmentID = eid)

/-- The invariant of one enrollment, whose row is now `st`. -/
structure EnrollInv (eid : Bytes) (st₀ : RowState) (s : Server) (st : RowState) : Prop where
  found : s.db.rowState eid = some st
  row : RowInv eid st₀ st s.commits
  phases : ∀ i, (s.conns i).enrollmentID = eid → PhaseInv eid st₀ st s.commits (s.conns i).phase
  unique : ∀ i j, (s.conns i).enrollmentID = eid → (s.conns j).enrollmentID = eid →
    (s.conns i).phase.holder.isSome → (s.conns j).phase.holder.isSome → i = j

theorem EnrollInv.start {db : Db} {eid : Bytes} {st₀ : RowState} (ids : Nat → Bytes) (h : db.rowState eid = some st₀) :
    EnrollInv eid st₀ (Server.start db ids) st₀ where
  found := h
  row := ⟨rfl, fun _ => rfl, fun _ _ hc => (List.not_mem_nil hc).elim, Nat.zero_le 1,
    fun _ hc => (List.not_mem_nil hc).elim⟩
  phases i _ := ⟨nofun, nofun⟩
  unique i j _ _ hi := by cases hi

/-- The status of an enrollment moves along these edges only. -/
inductive StatusMove : EnrollmentStatus → EnrollmentStatus → Prop where
  | claim : StatusMove .pending .issuing
  | release : StatusMove .issuing .pending
  | issue : StatusMove .issuing .issued
  | use : StatusMove .issued .used

/-- The server after connection `i` has moved on. -/
def Server.moved (s : Server) (i : Nat) (db : Db) (phase : Phase) (new : List Commit) : Server :=
  ⟨db, Function.update s.conns i { s.conns i with phase }, s.commits ++ new⟩

namespace Server

variable {s : Server} {i j : Nat} {db : Db} {phase : Phase} {new : List Commit}

@[simp] theorem moved_db : (s.moved i db phase new).db = db := rfl

@[simp] theorem moved_commits : (s.moved i db phase new).commits = s.commits ++ new := rfl

@[simp] theorem moved_self : (s.moved i db phase new).conns i = ⟨(s.conns i).enrollmentID, phase⟩ :=
  Function.update_self i _ _

theorem moved_of_ne (h : j ≠ i) : (s.moved i db phase new).conns j = s.conns j :=
  Function.update_of_ne h _ _

@[simp] theorem moved_enrollmentID : ((s.moved i db phase new).conns j).enrollmentID = (s.conns j).enrollmentID := by
  by_cases h : j = i
  · rw [h, moved_self]
  · rw [moved_of_ne h]

theorem moved_idle : s.moved i s.db (s.conns i).phase [] = s := by
  unfold moved
  rw [List.append_nil, Function.update_eq_self]

end Server

/-- The invariant holds, and the status is the one before or one edge further. -/
def Kept (eid : Bytes) (st₀ st : RowState) (s' : Server) : Prop :=
  ∃ st', EnrollInv eid st₀ s' st' ∧ (st'.status = st.status ∨ StatusMove st.status st'.status)

namespace EnrollInv

open Server

variable {eid : Bytes} {st₀ st st' : RowState} {s : Server}

theorem pending_of_claimable {now : Time} (h : st.claimable now = true) : st.status = .pending :=
  (of_decide_eq_true h).1

theorem issuing_of_claimedBy {a : Bytes} (h : st.claimedBy a = true) : st.status = .issuing :=
  (of_decide_eq_true h).1

theorem issued_of_issuedTo {a : Bytes} (h : st.issuedTo a = true) : st.status = .issued :=
  (of_decide_eq_true h).1

/-- Nobody holds a claim on a pending enrollment. -/
theorem no_holder (h : EnrollInv eid st₀ s st) (hp : st.status = .pending) (j : Nat)
    (hj : (s.conns j).enrollmentID = eid) : (s.conns j).phase.holder = none := by
  cases hh : (s.conns j).phase.holder with
  | none => rfl
  | some e =>
    rcases (h.phases j hj).holder e hh with hc | ⟨-, c, hc, hid⟩
    · unfold RowState.claimedBy at hc
      rw [hp] at hc
      simp at hc
    · exact absurd hid (h.row.uncommitted (.inl hp) c hc)

/-- A step of one connection for the enrollment keeps the invariant when what it makes of the row and
of its own phase does, it takes no claim that another holds, and the row stays what the holders of
claims need it to be. -/
theorem update (h : EnrollInv eid st₀ s st) {i : Nat} (hi : (s.conns i).enrollmentID = eid) {db' : Db} {phase : Phase}
    {new : List Commit} (hfound : db'.rowState eid = some st') (hrow : RowInv eid st₀ st' (s.commits ++ new))
    (hphase : PhaseInv eid st₀ st' (s.commits ++ new) phase)
    (htake : phase.holder.isSome → (s.conns i).phase.holder.isSome ∨ st.status = .pending)
    (hkeep : st' = st ∨ st.status = .issued ∨ (s.conns i).phase.holder.isSome ∨ st.status = .pending) :
    EnrollInv eid st₀ (s.moved i db' phase new) st' where
  found := hfound
  row := hrow
  phases j hj := by
    rw [moved_enrollmentID] at hj
    by_cases hji : j = i
    · rw [hji, moved_self]
      exact hphase
    · rw [moved_of_ne hji]
      have hold := h.phases j hj
      refine ⟨hold.expected, fun e he => ?_⟩
      rcases hold.holder e he with hc | ⟨hrel, c, hc, hid⟩
      · left
        rcases hkeep with rfl | hissued | hholds | hpending
        -- the row another holder needs is still there, or there is no other holder
        · exact hc
        · unfold RowState.claimedBy at hc
          rw [hissued] at hc
          simp at hc
        · exact absurd (h.unique j i hj hi (by rw [he]; rfl) hholds) hji
        · rw [h.no_holder hpending j hj] at he
          cases he
      · exact .inr ⟨hrel, c, List.mem_append_left _ hc, hid⟩
  unique j k hj hk hlj hlk := by
    have hother : ∀ m, m ≠ i → (s.conns m).enrollmentID = eid → phase.holder.isSome →
        (s.conns m).phase.holder.isSome → False := by
      intro m hm hme hp hl
      rcases htake hp with hs | hpending
      · exact hm (h.unique m i hme hi hl hs)
      · rw [h.no_holder hpending m hme] at hl
        cases hl
    rw [moved_enrollmentID] at hj hk
    by_cases hji : j = i
    · by_cases hki : k = i
      · rw [hji, hki]
      · rw [hji, moved_self] at hlj
        rw [moved_of_ne hki] at hlk
        exact (hother k hki hk hlj hlk).elim
    · rw [moved_of_ne hji] at hlj
      by_cases hki : k = i
      · rw [hki, moved_self] at hlk
        exact (hother j hji hj hlk hlj).elim
      · rw [moved_of_ne hki] at hlk
        exact h.unique j k hj hk hlj hlk

/-- The row after a guarded change of it. -/
theorem found_of_changed (h : EnrollInv eid st₀ s st) {db' : Db} {cond : RowState → Bool} {g : RowState → RowState}
    (hc : Changed s.db db' eid cond g) : db'.rowState eid = some (if cond st = true then g st else st) := by
  rw [hc eid, h.found]
  simp

/-- A step that leaves the row and takes no claim keeps the invariant. -/
theorem quiet (h : EnrollInv eid st₀ s st) {i : Nat} (hi : (s.conns i).enrollmentID = eid) {db' : Db} {phase : Phase}
    (hun : Unchanged s.db db') (hexp : ∀ x, phase.expected = some x → x = st₀.agentId.getD [])
    (hholder : ∀ e, phase.holder = some e →
      (s.conns i).phase.holder = some e ∧ ((s.conns i).phase = .releasing e → phase = .releasing e)) :
    EnrollInv eid st₀ (s.moved i db' phase []) st := by
  refine h.update hi ((hun eid).trans h.found) (by rw [List.append_nil]; exact h.row) ⟨hexp, fun e he => ?_⟩
    (fun hs => ?_) (.inl rfl)
  · obtain ⟨hold, hrel⟩ := hholder e he
    rcases (h.phases i hi).holder e hold with hc | ⟨hph, hcommit⟩
    · exact .inl hc
    · rw [List.append_nil]
      exact .inr ⟨hrel hph, hcommit⟩
  · obtain ⟨e, he⟩ := Option.isSome_iff_exists.1 hs
    rw [(hholder e he).1]
    exact .inl rfl

/-- The row is as it started, once a claim on it is given back. -/
theorem release_eq (h : EnrollInv eid st₀ s st) {i : Nat} (hi : (s.conns i).enrollmentID = eid) {e : Enrolling}
    (hph : (s.conns i).phase = .releasing e) (hp₀ : st₀.status = .pending) (hne : st₀.agentId ≠ some [])
    (hc : st.claimedBy e.agentID = true) : st.release (e.expectedAgentID ≠ []) = st₀ := by
  have hexp := (h.phases i hi).expected e.expectedAgentID (by rw [hph]; rfl)
  have hag := e.agrees
  have hst : st.agentId = some e.agentID := (of_decide_eq_true hc).2
  unfold RowState.release
  rw [h.row.expires, ← hp₀, hst]
  -- an enrollment bound to no agent is unbound again; a bound one expects its own agent
  cases hb : st₀.agentId with
  | none =>
    rw [hb] at hexp
    simp only [Option.getD_none] at hexp
    simp [hexp, ← hb]
  | some a =>
    rw [hb] at hexp hne
    simp only [Option.getD_some] at hexp
    have ha : a ≠ [] := fun h0 => hne (by rw [h0])
    have hagent : e.agentID = a := by
      rw [← hexp]
      exact (hag (by rwa [hexp])).symm
    simp [hexp, ha, hagent, ← hb]

/-- A closed connection expects nothing and holds nothing. -/
theorem phaseInv_closed (eid : Bytes) (st₀ st : RowState) (commits : List Commit) :
    PhaseInv eid st₀ st commits .closed := ⟨nofun, nofun⟩

/-- The row of a claimed enrollment. -/
theorem rowInv_claim (h : EnrollInv eid st₀ s st) (hp : st.status = .pending) (agentID : Bytes) :
    RowInv eid st₀ (st.claim agentID) (s.commits ++ []) := by
  rw [List.append_nil]
  exact ⟨h.row.expires, nofun, fun _ => h.row.uncommitted (.inl hp), h.row.once, h.row.sound⟩

/-- The row of an enrollment just issued. -/
theorem rowInv_issue (h : EnrollInv eid st₀ s st) (hne : st₀.agentId ≠ some []) {i : Nat}
    (hi : (s.conns i).enrollmentID = eid) {e : Enrolling} {cert : AgentCertificate}
    (hph : (s.conns i).phase = .issued e cert)
    {now : Time} (hst : st.status = .issuing) (hnow : now < st.expiresAt) :
    RowInv eid st₀ (st.issue e.agentID) (s.commits ++ [⟨eid, e.agentID, now⟩]) := by
  have hnone := h.row.uncommitted (.inr hst)
  have hexp := (h.phases i hi).expected e.expectedAgentID (by rw [hph]; rfl)
  refine ⟨h.row.expires, nofun, nofun, ?_, fun c hc hid => ?_⟩
  · have hfilter : s.commits.filter (·.enrollmentID = eid) = [] :=
      List.filter_eq_nil_iff.2 fun c hc => by simpa using hnone c hc
    rw [List.filter_append, hfilter]
    exact List.length_filter_le _ _
  · rcases List.mem_append.1 hc with hc | hc
    · exact absurd hid (hnone c hc)
    · rw [List.mem_singleton.1 hc]
      refine ⟨h.row.expires ▸ hnow, fun a ha => ?_⟩
      rw [ha, Option.getD_some] at hexp
      have hane : e.expectedAgentID ≠ [] := fun h0 => hne (by rw [ha, ← hexp, h0])
      exact (e.agrees hane).symm.trans hexp

/-- A connection that ends after a guarded change of the row: the invariant is kept when the change keeps it
under its guard. -/
theorem kept_closed (h : EnrollInv eid st₀ s st) {i : Nat} (hi : (s.conns i).enrollmentID = eid) {db' : Db}
    {cond : RowState → Bool} {g : RowState → RowState} (hch : Unchanged s.db db' ∨ Changed s.db db' eid cond g)
    (hrow : cond st = true → RowInv eid st₀ (g st) (s.commits ++ []))
    (hkeep : cond st = true → st.status = .issued ∨ (s.conns i).phase.holder.isSome ∨ st.status = .pending)
    (hmove : cond st = true → StatusMove st.status (g st).status) :
    Kept eid st₀ st (s.moved i db' .closed []) := by
  rcases hch with hun | hch
  · exact ⟨st, h.quiet hi hun nofun nofun, .inl rfl⟩
  · have hfound := h.found_of_changed hch
    by_cases hc : cond st = true
    · rw [if_pos hc] at hfound
      exact ⟨g st, h.update hi hfound (hrow hc) (phaseInv_closed _ _ _ _) nofun (.inr (hkeep hc)), .inr (hmove hc)⟩
    · rw [if_neg hc] at hfound
      have hrow₀ : RowInv eid st₀ st (s.commits ++ []) := by
        rw [List.append_nil]
        exact h.row
      exact ⟨st, h.update hi hfound hrow₀ (phaseInv_closed _ _ _ _) nofun (.inl rfl), .inl rfl⟩

theorem kept_claim (h : EnrollInv eid st₀ s st) {i : Nat} (hi : (s.conns i).enrollmentID = eid) {e : Enrolling}
    (hph : (s.conns i).phase = .ready e) {db' : Db} {now : Time} (hc : st.claimable now = true)
    (hch : Changed s.db db' eid (RowState.claimable now) (RowState.claim e.agentID)) :
    Kept eid st₀ st (s.moved i db' (.claimed e) []) := by
  have hp := pending_of_claimable hc
  have hfound := h.found_of_changed hch
  rw [if_pos hc] at hfound
  have hexp := (h.phases i hi).expected
  rw [hph] at hexp
  have hphase : PhaseInv eid st₀ (st.claim e.agentID) (s.commits ++ []) (.claimed e) := by
    refine ⟨hexp, ?_⟩
    rintro e' he'
    cases he'
    exact .inl (by simp [RowState.claimedBy, RowState.claim])
  exact ⟨st.claim e.agentID, h.update hi hfound (h.rowInv_claim hp e.agentID) hphase (fun _ => .inr hp)
    (.inr (.inr (.inr hp))), .inr (by rw [hp]; exact .claim)⟩

/-- A commit: its connection goes on to the acknowledgement, or to a release that finds nothing to release. -/
theorem kept_commit (h : EnrollInv eid st₀ s st) (hne : st₀.agentId ≠ some []) {i : Nat}
    (hi : (s.conns i).enrollmentID = eid) {e : Enrolling} {cert : AgentCertificate}
    (hph : (s.conns i).phase = .issued e cert) {phase : Phase} {db' : Db} {now : Time}
    (hissuable : st.issuable e.agentID now = true)
    (hch : Changed s.db db' eid (RowState.issuable e.agentID now) (RowState.issue e.agentID))
    (hphase : phase = .acking e.agentID ∨ phase = .releasing e) :
    Kept eid st₀ st (s.moved i db' phase [⟨eid, e.agentID, now⟩]) := by
  have hfound := h.found_of_changed hch
  rw [if_pos hissuable] at hfound
  obtain ⟨hs, -, hnow⟩ := of_decide_eq_true hissuable
  have hexp := (h.phases i hi).expected
  rw [hph] at hexp
  have hholds : (s.conns i).phase.holder.isSome := by rw [hph]; rfl
  have hafter : PhaseInv eid st₀ (st.issue e.agentID) (s.commits ++ [⟨eid, e.agentID, now⟩]) phase := by
    rcases hphase with rfl | rfl
    · exact ⟨nofun, nofun⟩
    · refine ⟨hexp, ?_⟩
      rintro e' he'
      cases he'
      exact .inr ⟨rfl, ⟨eid, e.agentID, now⟩, by simp, rfl⟩
  exact ⟨st.issue e.agentID, h.update hi hfound (h.rowInv_issue hne hi hph hs hnow) hafter (fun _ => .inl hholds)
    (.inr (.inr (.inl hholds))), .inr (by rw [hs]; exact .issue)⟩

theorem kept_release (h : EnrollInv eid st₀ s st) (hp₀ : st₀.status = .pending) (hne : st₀.agentId ≠ some [])
    {i : Nat} (hi : (s.conns i).enrollmentID = eid) {e : Enrolling} (hph : (s.conns i).phase = .releasing e)
    {db' : Db} (hch : Unchanged s.db db' ∨
      Changed s.db db' eid (RowState.claimedBy e.agentID) (RowState.release (e.expectedAgentID ≠ []))) :
    Kept eid st₀ st (s.moved i db' .closed []) := by
  refine h.kept_closed hi hch (fun hc => ?_) (fun _ => .inr (.inl (by rw [hph]; rfl))) (fun hc => ?_)
  · rw [h.release_eq hi hph hp₀ hne hc, List.append_nil]
    exact ⟨rfl, fun _ => rfl, fun _ => h.row.uncommitted (.inr (issuing_of_claimedBy hc)), h.row.once, h.row.sound⟩
  · rw [issuing_of_claimedBy hc]
    exact .release

theorem kept_ack (h : EnrollInv eid st₀ s st) {i : Nat} (hi : (s.conns i).enrollmentID = eid) {a : Bytes} {db' : Db}
    (hch : Unchanged s.db db' ∨ Changed s.db db' eid (RowState.issuedTo a) (RowState.use a)) :
    Kept eid st₀ st (s.moved i db' .closed []) := by
  refine h.kept_closed hi hch (fun hc => ?_) (fun hc => .inl (issued_of_issuedTo hc)) (fun hc => ?_)
  · rw [List.append_nil]
    exact ⟨h.row.expires, nofun, nofun, h.row.once, h.row.sound⟩
  · rw [issued_of_issuedTo hc]
    exact .use

theorem kept_move (h : EnrollInv eid st₀ s st) (hp₀ : st₀.status = .pending) (hne : st₀.agentId ≠ some []) {i : Nat}
    (hi : (s.conns i).enrollmentID = eid) {phase : Phase} {db' : Db} {new : List Commit}
    (hm : ConnMove eid s.db (s.conns i).phase phase db' new) : Kept eid st₀ st (s.moved i db' phase new) := by
  have hold := h.phases i hi
  generalize hph : (s.conns i).phase = before at hm hold
  -- the moves between the claim and the release leave the row and the holder as they are
  have hholds : ∀ {e : Enrolling} {phase : Phase}, before.holder = some e → before ≠ .releasing e →
      phase.holder = some e → phase.expected = some e.expectedAgentID → before.expected = some e.expectedAgentID →
      Kept eid st₀ st (s.moved i s.db phase []) := by
    intro e phase hb hnr hp hexp hbexp
    refine ⟨st, h.quiet hi (fun _ => rfl) (fun x hx => ?_) (fun e' he' => ?_), .inl rfl⟩
    · rw [hexp] at hx
      exact hold.expected x (hbexp.trans hx)
    · rw [hp] at he'
      cases he'
      rw [hph]
      exact ⟨hb, fun hr => absurd hr hnr⟩
  cases hm with
  | giveUp hun hin => exact ⟨st, h.quiet hi hun nofun nofun, .inl rfl⟩
  | @read row _ st' hst hp hid hun =>
    rw [h.found] at hst
    cases hst
    refine ⟨st, h.quiet hi hun (fun x hx => ?_) nofun, .inl rfl⟩
    cases hx
    rw [hid, h.row.pending hp]
  | @enter row e he =>
    refine ⟨st, h.quiet hi (fun _ => rfl) (fun x hx => ?_) nofun, .inl rfl⟩
    cases hx
    rw [he]
    exact hold.expected row.agentID rfl
  | claim hst hc hch =>
    rw [h.found] at hst
    cases hst
    exact h.kept_claim hi hph hc hch
  | @claimFails e _ now hch =>
    refine h.kept_closed hi hch (fun hc => h.rowInv_claim (pending_of_claimable hc) e.agentID)
      (fun hc => .inr (.inr (pending_of_claimable hc))) (fun hc => ?_)
    rw [pending_of_claimable hc]
    exact .claim
  | issue => exact hholds rfl nofun rfl rfl rfl
  | issueFails => exact hholds rfl nofun rfl rfl rfl
  | commit hst hissuable hch hphase =>
    rw [h.found] at hst
    cases hst
    exact h.kept_commit hne hi hph hissuable hch hphase
  | rollback => exact hholds rfl nofun rfl rfl rfl
  | release hch => exact h.kept_release hp₀ hne hi hph hch
  | ack hch => exact h.kept_ack hi hch

/-- A connection for another enrollment leaves this one's row, and its commits are not this one's. -/
theorem other_of_move {id : Bytes} {db db' : Db} {phase phase' : Phase} {new : List Commit} (hne : eid ≠ id)
    (hm : ConnMove id db phase phase' db' new) :
    db'.rowState eid = db.rowState eid ∧ ∀ c ∈ new, c.enrollmentID ≠ eid := by
  have hchanged : ∀ {cond : RowState → Bool} {g : RowState → RowState}, Changed db db' id cond g →
      db'.rowState eid = db.rowState eid := fun hc => by
    rw [hc eid]
    simp [hne]
  cases hm with
  | giveUp hun hin => exact ⟨hun eid, nofun⟩
  | read hst hp hid hun => exact ⟨hun eid, nofun⟩
  | enter he => exact ⟨rfl, nofun⟩
  | claim hst hc hch => exact ⟨hchanged hch, nofun⟩
  | claimFails hch => exact ⟨hch.elim (fun hun => hun eid) hchanged, nofun⟩
  | issue => exact ⟨rfl, nofun⟩
  | issueFails => exact ⟨rfl, nofun⟩
  | commit hst hi hch hph =>
    refine ⟨hchanged hch, fun c hc => ?_⟩
    rw [List.mem_singleton.1 hc]
    exact hne.symm
  | rollback => exact ⟨rfl, nofun⟩
  | release hch => exact ⟨hch.elim (fun hun => hun eid) hchanged, nofun⟩
  | ack hch => exact ⟨hch.elim (fun hun => hun eid) hchanged, nofun⟩

/-- A step of a connection for another enrollment keeps the invariant. -/
theorem other (h : EnrollInv eid st₀ s st) {i : Nat} (hi : (s.conns i).enrollmentID ≠ eid) {db' : Db} {phase : Phase}
    {new : List Commit} (hfound : db'.rowState eid = s.db.rowState eid) (hnew : ∀ c ∈ new, c.enrollmentID ≠ eid) :
    EnrollInv eid st₀ (s.moved i db' phase new) st := by
  have hconn : ∀ j, ((s.moved i db' phase new).conns j).enrollmentID = eid →
      j ≠ i ∧ (s.conns j).enrollmentID = eid := by
    intro j hj
    rw [moved_enrollmentID] at hj
    exact ⟨fun hji => hi (hji ▸ hj), hj⟩
  have hmem : ∀ c ∈ s.commits ++ new, c.enrollmentID = eid → c ∈ s.commits := fun c hc hid =>
    (List.mem_append.1 hc).resolve_right fun hc => hnew c hc hid
  refine ⟨hfound.trans h.found, ⟨h.row.expires, h.row.pending, ?_, ?_, ?_⟩, ?_, ?_⟩
  · intro hs c hc hid
    exact h.row.uncommitted hs c (hmem c hc hid) hid
  · have hfilter : new.filter (·.enrollmentID = eid) = [] :=
      List.filter_eq_nil_iff.2 fun c hc => by simpa using hnew c hc
    rw [moved_commits, List.filter_append, hfilter, List.append_nil]
    exact h.row.once
  · intro c hc hid
    exact h.row.sound c (hmem c hc hid) hid
  · intro j hj
    obtain ⟨hji, hj⟩ := hconn j hj
    rw [moved_of_ne hji]
    refine ⟨(h.phases j hj).expected, fun e he => ?_⟩
    rcases (h.phases j hj).holder e he with hc | ⟨hph, c, hc, hid⟩
    · exact .inl hc
    · exact .inr ⟨hph, c, List.mem_append_left _ hc, hid⟩
  · intro j k hj hk hlj hlk
    obtain ⟨hji, hj⟩ := hconn j hj
    obtain ⟨hki, hk⟩ := hconn k hk
    rw [moved_of_ne hji] at hlj
    rw [moved_of_ne hki] at hlk
    exact h.unique j k hj hk hlj hlk

end EnrollInv

/-! ## Steps and runs of the server -/

theorem Server.step_conn {parseIP : Bytes → Option Bytes} {s : Server} {i : Nat} {step : ConnStep} {phase : Phase}
    {db' : Db} {new : List Commit}
    (h : connStep parseIP (s.conns i).enrollmentID s.db (s.conns i).phase step = (phase, db', new)) :
    s.step parseIP (.conn i step) = s.moved i db' phase new := by
  unfold Server.step Server.moved
  simp only [h]

section Run

variable (parseIP : Bytes → Option Bytes) {eid : Bytes} {st₀ st : RowState} {s : Server}

/-- What a step of a connection does to the server: one move, or nothing. -/
theorem step_conn_cases (s : Server) (i : Nat) (step : ConnStep) :
    s.step parseIP (.conn i step) = s ∨
      ∃ phase db' new, ConnMove (s.conns i).enrollmentID s.db (s.conns i).phase phase db' new ∧
        s.step parseIP (.conn i step) = s.moved i db' phase new := by
  cases hr : connStep parseIP (s.conns i).enrollmentID s.db (s.conns i).phase step with
  | mk phase rest =>
    obtain ⟨db', new⟩ := rest
    have hstep := Server.step_conn hr
    rcases connStep_move hr with hm | ⟨rfl, rfl, rfl⟩
    · exact .inr ⟨phase, db', new, hm, hstep⟩
    · left
      rw [hstep, Server.moved_idle]

/-- Every step of the server keeps the invariant. -/
theorem kept_step (h : EnrollInv eid st₀ s st) (hp₀ : st₀.status = .pending) (hne : st₀.agentId ≠ some [])
    (ev : Event) :
    Kept eid st₀ st (s.step parseIP ev) := by
  cases ev with
  | conn i step =>
    rcases step_conn_cases parseIP s i step with hidle | ⟨phase, db', new, hm, hstep⟩
    · rw [hidle]
      exact ⟨st, h, .inl rfl⟩
    · rw [hstep]
      by_cases hi : (s.conns i).enrollmentID = eid
      · rw [hi] at hm
        exact h.kept_move hp₀ hne hi hm
      · obtain ⟨hfound, hnew⟩ := EnrollInv.other_of_move (Ne.symm hi) hm
        exact ⟨st, h.other hi hfound hnew, .inl rfl⟩
  | other call => exact ⟨st, ⟨other_unchanged call h.found, h.row, h.phases, h.unique⟩, .inl rfl⟩

/-- Every run keeps the invariant. -/
theorem run_inv (hp₀ : st₀.status = .pending) (hne : st₀.agentId ≠ some []) (h : EnrollInv eid st₀ s st)
    (evs : List Event) : ∃ st, EnrollInv eid st₀ (s.run parseIP evs) st :=
  List.foldlRecOn (motive := fun s => ∃ st, EnrollInv eid st₀ s st) evs (Server.step parseIP) ⟨st, h⟩
    fun _ ⟨_, h⟩ ev _ =>
      let ⟨st', h', _⟩ := kept_step parseIP h hp₀ hne ev
      ⟨st', h'⟩

theorem enrollmentID_step (s : Server) (ev : Event) (i : Nat) :
    ((s.step parseIP ev).conns i).enrollmentID = (s.conns i).enrollmentID := by
  cases ev with
  | conn j step =>
    rcases step_conn_cases parseIP s j step with hidle | ⟨phase, db', new, hm, hstep⟩
    · rw [hidle]
    · rw [hstep, Server.moved_enrollmentID]
  | other call => rfl

theorem enrollmentID_run (s : Server) (evs : List Event) (i : Nat) :
    ((s.run parseIP evs).conns i).enrollmentID = (s.conns i).enrollmentID := by
  unfold Server.run
  induction evs generalizing s with
  | nil => rfl
  | cons ev evs ih => exact (ih _).trans (enrollmentID_step parseIP s ev i)

/-- A connection that has just claimed found the enrollment pending. -/
theorem pending_of_claimed {s : Server} {i : Nat} {step : ConnStep} {e e' : Enrolling}
    (hready : (s.conns i).phase = .ready e) (hclaimed : ((s.step parseIP (.conn i step)).conns i).phase = .claimed e') :
    ∃ st, s.db.rowState (s.conns i).enrollmentID = some st ∧ st.status = .pending := by
  rcases step_conn_cases parseIP s i step with hidle | ⟨phase, db', new, hm, hstep⟩
  · rw [hidle, hready] at hclaimed
    cases hclaimed
  · rw [hstep, Server.moved_self] at hclaimed
    rw [show phase = .claimed e' from hclaimed, hready] at hm
    cases hm with
    | claim hst hc hch =>
      exact ⟨_, hst, EnrollInv.pending_of_claimable hc⟩

/-- A claim given back before anything was committed leaves the enrollment as it started. -/
theorem release_restores (h : EnrollInv eid st₀ s st) (hp₀ : st₀.status = .pending) (hne : st₀.agentId ≠ some [])
    {i : Nat} (hi : (s.conns i).enrollmentID = eid) {e : Enrolling} (hph : (s.conns i).phase = .releasing e)
    (hnone : s.commitsFor eid = []) :
    (s.step parseIP (.conn i (.release .ok))).db.rowState eid = some st₀ := by
  have hc : st.claimedBy e.agentID = true := by
    rcases (h.phases i hi).holder e (by rw [hph]; rfl) with hc | ⟨-, c, hc, hid⟩
    · exact hc
    · have hmem : c ∈ s.commitsFor eid := List.mem_filter.2 ⟨hc, by simpa using hid⟩
      rw [hnone] at hmem
      cases hmem
  have hstep : connStep parseIP (s.conns i).enrollmentID s.db (s.conns i).phase (.release .ok) =
      (.closed, (releaseEnrollmentClaim .ok s.db eid e.agentID (e.expectedAgentID ≠ [])).2, []) := by
    rw [hi, hph]
    rfl
  rw [Server.step_conn hstep]
  have hfound := h.found_of_changed (releaseRow_changed s.db eid e.agentID (e.expectedAgentID ≠ []))
  rw [if_pos hc, h.release_eq hi hph hp₀ hne hc] at hfound
  exact hfound

end Run

/-! ## The enrollment over every run -/

/-- What the server guarantees of an enrollment after a run from `s₀`. -/
structure SafeEnrollment (parseIP : Bytes → Option Bytes) (e : Enrollment) (s₀ : Server) (evs : List Event) : Prop where
  once : ((s₀.run parseIP evs).commitsFor e.enrollmentID).length ≤ 1
  inTime : ∀ c ∈ (s₀.run parseIP evs).commitsFor e.enrollmentID, c.now < e.expiresAt
  bound : ∀ c ∈ (s₀.run parseIP evs).commitsFor e.enrollmentID, e.agentID ≠ [] → c.agentID = e.agentID
  moves : ∀ ev, ∃ st st', (s₀.run parseIP evs).db.rowState e.enrollmentID = some st ∧
    ((s₀.run parseIP evs).step parseIP ev).db.rowState e.enrollmentID = some st' ∧
    (st'.status = st.status ∨ StatusMove st.status st'.status)

/-- Along a run, the claim of a connection that then gives it back: `pre` leads to the claim, `mid` to the
release, and no finalize committed in between. The release leaves the row as it was before the claim. -/
def RestoresClaim (parseIP : Bytes → Option Bytes) (e : Enrollment) (s₀ : Server) (pre mid : List Event) : Prop :=
  ∀ (i : Nat) (claim : ConnStep) (r r' r'' : Enrolling),
    let s₁ := s₀.run parseIP pre
    let s₂ := (s₁.step parseIP (.conn i claim)).run parseIP mid
    (s₁.conns i).enrollmentID = e.enrollmentID → (s₁.conns i).phase = .ready r →
    ((s₁.step parseIP (.conn i claim)).conns i).phase = .claimed r' → (s₂.conns i).phase = .releasing r'' →
    s₂.commitsFor e.enrollmentID = s₁.commitsFor e.enrollmentID →
    ∃ st, s₁.db.rowState e.enrollmentID = some st ∧ st.status = .pending ∧
      (s₂.step parseIP (.conn i (.release .ok))).db.rowState e.enrollmentID = some st

/-- The claim state of an enrollment just created. -/
theorem rowState_create {clock : Time} {db : Db} {o : Outcome} {e : Enrollment}
    (h : (createEnrollment o clock db e).1 = .ok ()) :
    (createEnrollment o clock db e).2.rowState e.enrollmentID =
      some ⟨.pending, nullIfEmpty e.agentID, e.expiresAt⟩ := by
  unfold createEnrollment at h ⊢
  split at h
  · rename_i db' hins
    obtain ⟨t, ht, rfl⟩ := Option.map_eq_some_iff.1 hins
    cases o with
    | ok =>
      simp only [settle]
      unfold Db.rowState
      rw [UniqueTable.find_insert ht, if_pos rfl]
      rfl
    | failed => cases h
    | unknown => cases h
  · cases h

/-- However the store calls of any number of connections interleave and fail, an enrollment is issued at
most once, before it expires and to the agent it was bound to, its status moves along its edges, and a
claim given back before anything was committed leaves it as it was. -/
theorem enrollment_safe (parseIP : Bytes → Option Bytes) (o : Outcome) (clock : Time) (db : Db) (e : Enrollment)
    (h : (createEnrollment o clock db e).1 = .ok ()) (ids : Nat → Bytes) (evs : List Event) :
    SafeEnrollment parseIP e (Server.start (createEnrollment o clock db e).2 ids) evs ∧
      ∀ pre mid, RestoresClaim parseIP e (Server.start (createEnrollment o clock db e).2 ids) pre mid := by
  have hstart := EnrollInv.start ids (rowState_create h)
  have hne : nullIfEmpty e.agentID ≠ some [] := by
    unfold nullIfEmpty
    split
    · exact nofun
    · rename_i hne
      simpa using hne
  have hrun := run_inv parseIP rfl hne hstart
  constructor
  · obtain ⟨st, hinv⟩ := hrun evs
    refine ⟨hinv.row.once, fun c hc => ?_, fun c hc ha => ?_, fun ev => ?_⟩
    · obtain ⟨hc, hid⟩ := List.mem_filter.1 hc
      exact (hinv.row.sound c hc (by simpa using hid)).1
    · obtain ⟨hc, hid⟩ := List.mem_filter.1 hc
      refine (hinv.row.sound c hc (by simpa using hid)).2 e.agentID ?_
      unfold nullIfEmpty
      rw [if_neg ha]
    · obtain ⟨st', hinv', hmove⟩ := kept_step parseIP hinv rfl hne ev
      exact ⟨st, st', hinv.found, hinv'.found, hmove⟩
  · intro pre mid i claim r r' r'' s₁ s₂ hi hready hclaimed hreleasing hcommits
    obtain ⟨st₁, hinv₁⟩ := hrun pre
    obtain ⟨st, hst, hp⟩ := pending_of_claimed parseIP hready hclaimed
    rw [hi, hinv₁.found] at hst
    cases hst
    have hnone : s₁.commitsFor e.enrollmentID = [] :=
      List.filter_eq_nil_iff.2 fun c hc => by simpa using hinv₁.row.uncommitted (.inl hp) c hc
    obtain ⟨st₂', hinv₂', -⟩ := kept_step parseIP hinv₁ rfl hne (.conn i claim)
    obtain ⟨st₂, hinv₂⟩ := run_inv parseIP rfl hne hinv₂' mid
    have hi₂ : (s₂.conns i).enrollmentID = e.enrollmentID := by
      rw [enrollmentID_run, enrollmentID_step]
      exact hi
    refine ⟨st₁, hinv₁.found, hp, ?_⟩
    rw [hinv₁.row.pending hp]
    exact release_restores parseIP hinv₂ rfl hne hi₂ hreleasing (hcommits.trans hnone)

/-- An enrollment for any agent, of which one connection gives its claim back and another one is issued. -/
def openEnrollment : Enrollment := ⟨ascii "e1", [], ascii "h", [], [], .pending, 100, 0⟩

def tenZeroZeroOne : Bytes → Option Bytes := fun _ => some [10, 0, 0, 1]

def webRequest : Request := ⟨ascii "web", ascii "10.0.0.1", 2, ascii "Linux"⟩

def retriedRun : List Event :=
  [.conn 0 (.getPending 1 (.sound 1)), .conn 1 (.getPending 2 (.sound 2)), .conn 0 (.request webRequest),
    .conn 1 (.request webRequest), .conn 0 (.claim 3 .ok), .conn 0 (.issue none), .conn 0 (.release .ok),
    .conn 1 (.claim 4 .ok), .conn 1 (.issue (some ⟨ascii "s", ascii "f", none, none⟩)),
    .conn 1 (.finalize 5 (.sound 5)), .conn 1 (.ack 6 .ok)]

def retriedStart : Server := Server.start (createEnrollment .ok 0 Db.empty openEnrollment).2 fun _ => ascii "e1"

theorem enrollment_safe_retried :
    (retriedStart.run tenZeroZeroOne retriedRun).commitsFor (ascii "e1") =
        [⟨ascii "e1", formatUint (generateAgentID (ascii "web") [10, 0, 0, 1]), 5⟩] ∧
      SafeEnrollment tenZeroZeroOne openEnrollment retriedStart retriedRun ∧
      ∀ pre mid, RestoresClaim tenZeroZeroOne openEnrollment retriedStart pre mid :=
  ⟨by decide +kernel,
    enrollment_safe tenZeroZeroOne .ok 0 Db.empty openEnrollment rfl (fun _ => ascii "e1") retriedRun⟩

end KnIg.Backend
