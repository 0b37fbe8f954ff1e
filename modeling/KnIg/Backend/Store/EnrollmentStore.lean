/-
The MySQL store of enrollments: creation, the read that starts an enrollment session, the claim, its
release, the transaction that issues, and the mark of a used one, each with what it makes of the row
of an enrollment.
-/
import KnIg.Backend.Store.AgentStore

namespace KnIg.Backend

open Lib

/-- `Enrollment`, as the store returns it; the agent id is empty where the column is NULL. -/
structure Enrollment where
  enrollmentID : Bytes
  agentID : Bytes
  secretHash : Bytes
  keyCiphertext : Bytes
  keyNonce : Bytes
  status : EnrollmentStatus
  expiresAt : Time
  createdAt : Time
deriving DecidableEq

/-- `NULLIF(?, '')`. -/
def nullIfEmpty (s : Bytes) : Option Bytes := if s = [] then none else some s

def createEnrollment (o : Outcome) (clock : Time) (db : Db) (e : Enrollment) : Except StoreError Unit × Db :=
  match db.insertEnrollment
    ⟨e.enrollmentID, nullIfEmpty e.agentID, e.secretHash, e.keyCiphertext, e.keyNonce, .pending, e.expiresAt, none,
      none, clock, 0, none⟩ with
  | some db' => settle o db db' (.ok ())
  | none => (.error .driver, db)

/-- The checks `GetPendingEnrollment` makes on the status of the row. -/
def checkPending : EnrollmentStatus → Except StoreError Unit
  | .pending => .ok ()
  | .issuing => .error .enrollmentUsed
  | .used => .error .enrollmentUsed
  | .issued => .error .enrollmentUsed
  | .revoked => .error .enrollmentRevoked
  | .other => .error .invalidInput

def EnrollmentRow.attempted (r : EnrollmentRow) (now : Time) : EnrollmentRow :=
  { r with attemptCount := r.attemptCount + 1, lastAttemptAt := some now }

def EnrollmentRow.toEnrollment (r : EnrollmentRow) : Enrollment :=
  ⟨r.enrollmentId, r.agentId.getD [], r.secretHash, r.keyCiphertext, r.keyNonce, r.status, r.expiresAt, r.createdAt⟩

/-- The update of `GetPendingEnrollment`. -/
def Db.attemptRow (db : Db) (enrollmentID : Bytes) (now : Time) : Db :=
  (db.updateEnrollment enrollmentID (fun _ => true) (·.attempted now) fun _ => rfl).1

/-- The statements of `GetPendingEnrollment` between `BeginTx` and `Commit`. -/
def pendingBody (io : Io) (db : Db) (enrollmentID : Bytes) (now : Time) : Except StoreError (Enrollment × Db) := do
  match ← stmt io 1 (.ok (db.enrollments.find enrollmentID)) with
  | none => .error .enrollmentNotFound
  | some row =>
    checkPending row.status
    if ¬ now < row.expiresAt then .error .enrollmentExpired
    else
      let db ← stmt io 2 (.ok (db.attemptRow enrollmentID now))
      return (row.toEnrollment, db)

def getPendingEnrollment (io : Io) (db : Db) (enrollmentID : Bytes) (now : Time) : Except StoreError Enrollment × Db :=
  runTx io db (pendingBody io db enrollmentID now)

/-- The statements whose `RowsAffected` of zero is `ErrEnrollmentUsed`. -/
def affectOrUsed (o : Outcome) (db : Db) (r : Db × Nat) : Except StoreError Unit × Db :=
  settle o db r.1 (if r.2 = 0 then .error .enrollmentUsed else .ok ())

def EnrollmentRow.claim (r : EnrollmentRow) (agentID : Bytes) : EnrollmentRow :=
  { r with status := .issuing, agentId := some agentID }

def Db.claimRow (db : Db) (enrollmentID agentID : Bytes) (now : Time) : Db × Nat :=
  db.updateEnrollment enrollmentID (fun r => r.status = .pending ∧ r.expiresAt > now) (·.claim agentID) fun _ => rfl

def claimEnrollment (o : Outcome) (db : Db) (enrollmentID agentID : Bytes) (now : Time) : Except StoreError Unit × Db :=
  affectOrUsed o db (db.claimRow enrollmentID agentID now)

def EnrollmentRow.release (r : EnrollmentRow) (keepAgentID : Bool) : EnrollmentRow :=
  if keepAgentID then { r with status := .pending } else { r with status := .pending, agentId := none }

def Db.releaseRow (db : Db) (enrollmentID agentID : Bytes) (keepAgentID : Bool) : Db :=
  (db.updateEnrollment enrollmentID (fun r => r.status = .issuing ∧ r.agentId = some agentID) (·.release keepAgentID)
    fun r => by unfold EnrollmentRow.release; split <;> rfl).1

def releaseEnrollmentClaim (o : Outcome) (db : Db) (enrollmentID agentID : Bytes) (keepAgentID : Bool) :
    Except StoreError Unit × Db :=
  settle o db (db.releaseRow enrollmentID agentID keepAgentID) (.ok ())

def EnrollmentRow.issue (r : EnrollmentRow) (agentID : Bytes) (now : Time) : EnrollmentRow :=
  { r with status := .issued, issuedAt := some now, agentId := some agentID }

def Db.issueRow (db : Db) (enrollmentID agentID : Bytes) (now : Time) : Db × Nat :=
  db.updateEnrollment enrollmentID
    (fun r => r.status = .issuing ∧ r.agentId = some agentID ∧ r.expiresAt > now) (·.issue agentID now) fun _ => rfl

/-- The statements of `FinalizeEnrollmentIssue` between `BeginTx` and `Commit`. -/
def finalizeBody (io : Io) (db : Db) (enrollmentID agentID : Bytes) (p : RegisterPayload) (cert : AgentCertificate)
    (now : Time) : Except StoreError (Unit × Db) := do
  let db ← ensureAgentOfflineTx io db agentID p
  let db ← rotateActiveCertificateTx io db agentID cert
  let (db, n) ← stmt io 6 (.ok (db.issueRow enrollmentID agentID now))
  if n = 0 then .error .enrollmentUsed else return ((), db)

def finalizeEnrollmentIssue (io : Io) (db : Db) (enrollmentID agentID : Bytes) (p : RegisterPayload)
    (cert : AgentCertificate) (now : Time) : Except StoreError Unit × Db :=
  runTx io db (finalizeBody io db enrollmentID agentID p cert now)

def EnrollmentRow.use (r : EnrollmentRow) (agentID : Bytes) (now : Time) : EnrollmentRow :=
  { r with status := .used, usedAt := some now, agentId := some agentID }

def Db.useRow (db : Db) (enrollmentID agentID : Bytes) (now : Time) : Db × Nat :=
  db.updateEnrollment enrollmentID (fun r => r.status = .issued ∧ r.agentId = some agentID) (·.use agentID now)
    fun _ => rfl

def markEnrollmentUsed (o : Outcome) (db : Db) (enrollmentID agentID : Bytes) (now : Time) :
    Except StoreError Unit × Db :=
  affectOrUsed o db (db.useRow enrollmentID agentID now)

/-- The transaction commits, whatever the caller is told. -/
def finalizeCommits (io : Io) (db : Db) (enrollmentID agentID : Bytes) (p : RegisterPayload) (cert : AgentCertificate)
    (now : Time) : Bool :=
  !io.fails 0 && io.commit ≠ .failed && (finalizeBody io db enrollmentID agentID p cert now).toBool

/-! ## The claim state of an enrollment -/

/-- The columns the claim depends on. -/
structure RowState where
  status : EnrollmentStatus
  agentId : Option Bytes
  expiresAt : Time
deriving DecidableEq

def EnrollmentRow.state (r : EnrollmentRow) : RowState := ⟨r.status, r.agentId, r.expiresAt⟩

def Db.rowState (db : Db) (enrollmentID : Bytes) : Option RowState :=
  (db.enrollments.find enrollmentID).map EnrollmentRow.state

/-- An update whose condition and change depend on the claim state acts on the claim state. -/
theorem rowState_update {db : Db} {id : Bytes} {cond : EnrollmentRow → Bool} {f : EnrollmentRow → EnrollmentRow}
    {hf : ∀ r, (f r).enrollmentId = r.enrollmentId} (condS : RowState → Bool) (g : RowState → RowState)
    (hcond : ∀ r, cond r = condS r.state) (hg : ∀ r, (f r).state = g r.state) (eid : Bytes) :
    (db.updateEnrollment id cond f hf).1.rowState eid =
      (db.rowState eid).map fun st => if eid = id ∧ condS st = true then g st else st := by
  unfold Db.rowState Db.updateEnrollment
  rw [UniqueTable.find_update]
  cases h : db.enrollments.find eid with
  | none => rfl
  | some r =>
    have hid : r.enrollmentId = eid := (UniqueTable.find_eq_some.1 h).2
    simp only [Option.map_some, hid, hcond, Bool.and_eq_true, decide_eq_true_eq]
    split
    · rw [hg]
    · rfl

/-- `RowsAffected` of such an update is not zero when the row meets the condition. -/
theorem count_update {db : Db} {id : Bytes} {cond : EnrollmentRow → Bool} {f : EnrollmentRow → EnrollmentRow}
    {hf : ∀ r, (f r).enrollmentId = r.enrollmentId} (condS : RowState → Bool) (hcond : ∀ r, cond r = condS r.state) :
    (db.updateEnrollment id cond f hf).2 ≠ 0 ↔ ∃ st, db.rowState id = some st ∧ condS st = true := by
  have hzero : (db.updateEnrollment id cond f hf).2 = 0 ↔ ∀ r, db.enrollments.find id = some r → cond r = false :=
    UniqueTable.count_key_eq_zero
  unfold Db.rowState
  rw [ne_eq, hzero]
  constructor
  · intro h
    push Not at h
    obtain ⟨r, hr, hc⟩ := h
    exact ⟨r.state, by rw [hr]; rfl, by rw [← hcond]; simpa using hc⟩
  · rintro ⟨st, hst, hc⟩ h
    obtain ⟨r, hr, rfl⟩ := Option.map_eq_some_iff.1 hst
    rw [← hcond, h r hr] at hc
    cases hc

theorem rowState_upsertAgent (db : Db) (row : AgentRow) (f : AgentRow → AgentRow)
    (hf : ∀ a, (f a).agentId = a.agentId) (eid : Bytes) : (db.upsertAgent row f hf).rowState eid = db.rowState eid := by
  unfold Db.rowState; rw [upsertAgent_enrollments]

theorem rowState_rotate {io : Io} {db db' : Db} {agentID : Bytes} {cert : AgentCertificate}
    (h : rotateActiveCertificateTx io db agentID cert = .ok db') (eid : Bytes) :
    db'.rowState eid = db.rowState eid := by
  unfold Db.rowState
  rcases rotate_ok h with ⟨_, _, _, rfl⟩ | ⟨_, _, hins⟩ | ⟨_, hins⟩
  · rfl
  · rw [insertCert_enrollments hins]; rfl
  · rw [insertCert_enrollments hins]

/-- The claim state after a change of one enrollment that a condition guards. -/
def Changed (db db' : Db) (id : Bytes) (cond : RowState → Bool) (g : RowState → RowState) : Prop :=
  ∀ eid, db'.rowState eid = (db.rowState eid).map fun st => if eid = id ∧ cond st = true then g st else st

/-- No claim state differs. -/
def Unchanged (db db' : Db) : Prop := ∀ eid, db'.rowState eid = db.rowState eid

def RowState.claimable (now : Time) (st : RowState) : Bool := st.status = .pending ∧ st.expiresAt > now

def RowState.claim (agentID : Bytes) (st : RowState) : RowState :=
  { st with status := .issuing, agentId := some agentID }

def RowState.claimedBy (agentID : Bytes) (st : RowState) : Bool := st.status = .issuing ∧ st.agentId = some agentID

def RowState.release (keepAgentID : Bool) (st : RowState) : RowState :=
  { st with status := .pending, agentId := if keepAgentID then st.agentId else none }

def RowState.issuable (agentID : Bytes) (now : Time) (st : RowState) : Bool :=
  st.status = .issuing ∧ st.agentId = some agentID ∧ st.expiresAt > now

def RowState.issue (agentID : Bytes) (st : RowState) : RowState :=
  { st with status := .issued, agentId := some agentID }

def RowState.issuedTo (agentID : Bytes) (st : RowState) : Bool := st.status = .issued ∧ st.agentId = some agentID

def RowState.use (agentID : Bytes) (st : RowState) : RowState := { st with status := .used, agentId := some agentID }

theorem attemptRow_unchanged (db : Db) (id : Bytes) (now : Time) : Unchanged db (db.attemptRow id now) := fun eid =>
  (rowState_update (f := (·.attempted now)) (fun _ => true) (fun st => st) (fun _ => rfl) (fun _ => rfl) eid).trans
    (by simp)

theorem claimRow_changed (db : Db) (id agentID : Bytes) (now : Time) :
    Changed db (db.claimRow id agentID now).1 id (RowState.claimable now) (RowState.claim agentID) :=
  rowState_update _ _ (fun _ => rfl) fun _ => rfl

theorem releaseRow_changed (db : Db) (id agentID : Bytes) (keepAgentID : Bool) :
    Changed db (db.releaseRow id agentID keepAgentID) id (RowState.claimedBy agentID) (RowState.release keepAgentID) :=
  rowState_update _ _ (fun _ => rfl) fun _ => by cases keepAgentID <;> rfl

theorem issueRow_changed (db : Db) (id agentID : Bytes) (now : Time) :
    Changed db (db.issueRow id agentID now).1 id (RowState.issuable agentID now) (RowState.issue agentID) :=
  rowState_update _ _ (fun _ => rfl) fun _ => rfl

theorem useRow_changed (db : Db) (id agentID : Bytes) (now : Time) :
    Changed db (db.useRow id agentID now).1 id (RowState.issuedTo agentID) (RowState.use agentID) :=
  rowState_update _ _ (fun _ => rfl) fun _ => rfl

/-! ## What each call makes of it -/

theorem pendingBody_ok {io : Io} {db db' : Db} {id : Bytes} {now : Time} {e : Enrollment}
    (h : pendingBody io db id now = .ok (e, db')) :
    (∃ st, db.rowState id = some st ∧ st.status = .pending ∧ e.agentID = st.agentId.getD []) ∧ Unchanged db db' := by
  obtain ⟨found, hfound, h⟩ := bind_eq_ok.1 h
  obtain ⟨-, hfound⟩ := stmt_eq_ok.1 hfound
  cases hfound
  split at h
  · cases h
  · rename_i row hrow
    obtain ⟨_, hcheck, h⟩ := bind_eq_ok.1 h
    split at h
    · cases h
    · obtain ⟨db₁, hdb₁, h⟩ := bind_eq_ok.1 h
      obtain ⟨-, hdb₁⟩ := stmt_eq_ok.1 hdb₁
      cases hdb₁
      cases h
      refine ⟨⟨row.state, by unfold Db.rowState; rw [hrow]; rfl, ?_, rfl⟩, attemptRow_unchanged db id now⟩
      cases hs : row.status with
      | pending => exact hs
      | _ => rw [hs] at hcheck; cases hcheck

theorem getPending_ok {io : Io} {db db' : Db} {id : Bytes} {now : Time} {e : Enrollment}
    (h : getPendingEnrollment io db id now = (.ok e, db')) :
    ∃ st, db.rowState id = some st ∧ st.status = .pending ∧ e.agentID = st.agentId.getD [] :=
  (pendingBody_ok (runTx_ok h)).1

theorem getPending_unchanged (io : Io) (db : Db) (id : Bytes) (now : Time) :
    Unchanged db (getPendingEnrollment io db id now).2 := by
  rcases runTx_db io db (pendingBody io db id now) with h | ⟨e, hbody⟩
  · unfold getPendingEnrollment; rw [h]; exact fun _ => rfl
  · exact (pendingBody_ok hbody).2

theorem settle_unchanged_or {α : Type} {db db' : Db} {id : Bytes} {cond : RowState → Bool} {g : RowState → RowState}
    (hc : Changed db db' id cond g) (o : Outcome) (a : Except StoreError α) :
    Unchanged db (settle o db db' a).2 ∨ Changed db (settle o db db' a).2 id cond g := by
  rcases settle_db o db db' a with h | h
  · rw [h]; exact .inl fun _ => rfl
  · rw [h]; exact .inr hc

theorem claim_changed (o : Outcome) (db : Db) (id agentID : Bytes) (now : Time) :
    Unchanged db (claimEnrollment o db id agentID now).2 ∨
      Changed db (claimEnrollment o db id agentID now).2 id (RowState.claimable now) (RowState.claim agentID) :=
  settle_unchanged_or (claimRow_changed db id agentID now) o _

/-- A claim that returns nil was made on a pending enrollment. -/
theorem claim_ok {o : Outcome} {db : Db} {id agentID : Bytes} {now : Time}
    (h : (claimEnrollment o db id agentID now).1 = .ok ()) :
    (∃ st, db.rowState id = some st ∧ st.claimable now = true) ∧
      Changed db (claimEnrollment o db id agentID now).2 id (RowState.claimable now) (RowState.claim agentID) := by
  unfold claimEnrollment affectOrUsed at h ⊢
  cases o with
  | ok =>
    simp only [settle] at h ⊢
    split at h
    · cases h
    · rename_i hn
      exact ⟨(count_update (RowState.claimable now) fun _ => rfl).1 hn, claimRow_changed db id agentID now⟩
  | failed => cases h
  | unknown => cases h

theorem release_changed (o : Outcome) (db : Db) (id agentID : Bytes) (keepAgentID : Bool) :
    Unchanged db (releaseEnrollmentClaim o db id agentID keepAgentID).2 ∨
      Changed db (releaseEnrollmentClaim o db id agentID keepAgentID).2 id (RowState.claimedBy agentID)
        (RowState.release keepAgentID) :=
  settle_unchanged_or (releaseRow_changed db id agentID keepAgentID) o _

theorem markUsed_changed (o : Outcome) (db : Db) (id agentID : Bytes) (now : Time) :
    Unchanged db (markEnrollmentUsed o db id agentID now).2 ∨
      Changed db (markEnrollmentUsed o db id agentID now).2 id (RowState.issuedTo agentID) (RowState.use agentID) :=
  settle_unchanged_or (useRow_changed db id agentID now) o _

theorem ensureAgentOffline_unchanged {io : Io} {db db' : Db} {agentID : Bytes} {p : RegisterPayload}
    (h : ensureAgentOfflineTx io db agentID p = .ok db') : Unchanged db db' := by
  obtain ⟨-, h⟩ := stmt_eq_ok.1 h
  cases h
  exact rowState_upsertAgent db _ _ _

theorem finalizeBody_ok {io : Io} {db db' : Db} {id agentID : Bytes} {p : RegisterPayload} {cert : AgentCertificate}
    {now : Time} (h : finalizeBody io db id agentID p cert now = .ok ((), db')) :
    (∃ st, db.rowState id = some st ∧ st.issuable agentID now = true) ∧
      Changed db db' id (RowState.issuable agentID now) (RowState.issue agentID) := by
  obtain ⟨db₁, h1, h⟩ := bind_eq_ok.1 h
  obtain ⟨db₂, h2, h⟩ := bind_eq_ok.1 h
  have hrow : Unchanged db db₂ := fun eid =>
    (rowState_rotate h2 eid).trans (ensureAgentOffline_unchanged h1 eid)
  obtain ⟨⟨db₃, n⟩, h3, h⟩ := bind_eq_ok.1 h
  obtain ⟨-, h3⟩ := stmt_eq_ok.1 h3
  simp only at h
  split at h
  · cases h
  · rename_i hn
    cases h
    have hissue : db₂.issueRow id agentID now = (db', n) := by injection h3
    constructor
    · have hcount : (db₂.issueRow id agentID now).2 ≠ 0 := by rw [hissue]; exact hn
      obtain ⟨st, hst, hi⟩ := (count_update (RowState.issuable agentID now) fun _ => rfl).1 hcount
      exact ⟨st, (hrow id).symm.trans hst, hi⟩
    · intro eid
      have hchanged := issueRow_changed db₂ id agentID now eid
      rw [hissue, hrow] at hchanged
      exact hchanged

/-- What a finalize that commits does; one that does not leaves everything. -/
theorem finalize_commits {io : Io} {db : Db} {id agentID : Bytes} {p : RegisterPayload} {cert : AgentCertificate}
    {now : Time} (h : finalizeCommits io db id agentID p cert now = true) :
    (∃ st, db.rowState id = some st ∧ st.issuable agentID now = true) ∧
      Changed db (finalizeEnrollmentIssue io db id agentID p cert now).2 id (RowState.issuable agentID now)
        (RowState.issue agentID) := by
  unfold finalizeCommits at h
  simp only [Bool.and_eq_true, Bool.not_eq_true', decide_eq_true_eq] at h
  obtain ⟨⟨hbegin, hcommit⟩, hok⟩ := h
  cases hbody : finalizeBody io db id agentID p cert now with
  | error e => rw [hbody] at hok; cases hok
  | ok r =>
    obtain ⟨⟨⟩, db'⟩ := r
    have hdb : (finalizeEnrollmentIssue io db id agentID p cert now).2 = db' := by
      have hstmt : stmt io 0 (.ok ((), db')) = .ok ((), db') := stmt_eq_ok.2 ⟨hbegin, rfl⟩
      unfold finalizeEnrollmentIssue runTx
      rw [hbody, hstmt]
      cases hc : io.commit with
      | failed => exact absurd hc hcommit
      | ok => rfl
      | unknown => rfl
    rw [hdb]
    exact finalizeBody_ok hbody

theorem finalize_not_commits {io : Io} {db : Db} {id agentID : Bytes} {p : RegisterPayload} {cert : AgentCertificate}
    {now : Time} (h : finalizeCommits io db id agentID p cert now = false) :
    (finalizeEnrollmentIssue io db id agentID p cert now).2 = db ∧
      (finalizeEnrollmentIssue io db id agentID p cert now).1 ≠ .ok () := by
  unfold finalizeEnrollmentIssue runTx
  cases hbody : stmt io 0 (finalizeBody io db id agentID p cert now) with
  | error e => exact ⟨rfl, nofun⟩
  | ok r =>
    obtain ⟨hbegin, hok⟩ := stmt_eq_ok.1 hbody
    unfold finalizeCommits at h
    rw [hbegin, hok] at h
    cases hc : io.commit with
    | failed => exact ⟨rfl, nofun⟩
    | ok => rw [hc] at h; cases h
    | unknown => rw [hc] at h; cases h

end KnIg.Backend
