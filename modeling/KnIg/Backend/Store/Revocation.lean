/-
A certificate revoked by a rotation, over every sequence of store calls: its row refuses every later
registration that presents it, until the agent it belonged to is deleted. The deletion takes the row
with it, and the certificate is then accepted again.
-/
import KnIg.Backend.Store.EnrollmentStore

namespace KnIg.Backend

open Lib

/-! ## Sequences of calls -/

/-- A `FinalizeEnrollmentIssue`. -/
structure Rotation where
  io : Io
  enrollmentID : Bytes
  agentID : Bytes
  payload : RegisterPayload
  cert : AgentCertificate
  now : Time

def Rotation.run (r : Rotation) (db : Db) : Except StoreError Unit × Db :=
  finalizeEnrollmentIssue r.io db r.enrollmentID r.agentID r.payload r.cert r.now

/-- A `RegisterAgentWithCertificate`. -/
structure Registration where
  io : Io
  agentID : Bytes
  payload : RegisterPayload
  cert : AgentCertificate

def Registration.run (r : Registration) (db : Db) : Except StoreError Unit × Db :=
  registerAgentWithCertificate r.io db r.agentID r.payload r.cert

inductive StoreOp where
  | register (r : Registration)
  | finalize (r : Rotation)
  | deleteAgent (o : Outcome) (agentID : Bytes)
  | createEnrollment (o : Outcome) (clock : Time) (e : Enrollment)
  | claimEnrollment (o : Outcome) (enrollmentID agentID : Bytes) (now : Time)

namespace StoreOp

def apply (db : Db) : StoreOp → Db
  | register r => (r.run db).2
  | finalize r => (r.run db).2
  | deleteAgent o agentID => (KnIg.Backend.deleteAgent o db agentID).2
  | createEnrollment o clock e => (KnIg.Backend.createEnrollment o clock db e).2
  | claimEnrollment o enrollmentID agentID now => (KnIg.Backend.claimEnrollment o db enrollmentID agentID now).2

/-- The call deletes the agent. -/
def Deletes (agentID : Bytes) : StoreOp → Prop
  | deleteAgent o agentID' => o ≠ .failed ∧ agentID' = agentID
  | _ => False

end StoreOp

/-- The database after a sequence of calls. -/
def runOps (db : Db) (ops : List StoreOp) : Db := ops.foldl StoreOp.apply db

/-! ## Revoked certificates -/

/-- The certificate of the fingerprint belongs to the agent and is revoked. -/
def Revoked (db : Db) (agentID fp : Bytes) : Prop :=
  ∃ row, db.certs.find fp = some row ∧ row.status = .revoked ∧ row.agentId = agentID

/-- The rotation revokes the certificate: it is active before and revoked after. -/
def Rotation.Revokes (r : Rotation) (db : Db) (fp : Bytes) : Prop :=
  (∃ row, db.certs.find fp = some row ∧ row.status = .active) ∧
    ∃ row, (r.run db).2.certs.find fp = some row ∧ row.status = .revoked

/-- The certificates of an agent keep their rows, their agent and their revocation. -/
def KeepsCerts (agentID : Bytes) (db db' : Db) : Prop :=
  ∀ fp row, db.certs.find fp = some row → row.agentId = agentID →
    ∃ row', db'.certs.find fp = some row' ∧ row'.agentId = agentID ∧ (row.status = .revoked → row'.status = .revoked)

theorem KeepsCerts.of_certs {db db' : Db} (hc : db'.certs = db.certs) (agentID : Bytes) : KeepsCerts agentID db db' :=
  fun fp row hrow hid => ⟨row, by rw [hc, hrow], hid, id⟩

theorem KeepsCerts.trans {agentID : Bytes} {db₁ db₂ db₃ : Db} (h₁ : KeepsCerts agentID db₁ db₂)
    (h₂ : KeepsCerts agentID db₂ db₃) : KeepsCerts agentID db₁ db₃ := by
  intro fp row hrow hid
  obtain ⟨row₂, hrow₂, hid₂, hs₂⟩ := h₁ fp row hrow hid
  obtain ⟨row₃, hrow₃, hid₃, hs₃⟩ := h₂ fp row₂ hrow₂ hid₂
  exact ⟨row₃, hrow₃, hid₃, hs₃ ∘ hs₂⟩

theorem KeepsCerts.revoked {agentID fp : Bytes} {db db' : Db} (hk : KeepsCerts agentID db db')
    (h : Revoked db agentID fp) : Revoked db' agentID fp := by
  obtain ⟨row, hrow, hs, hid⟩ := h
  obtain ⟨row', hrow', hid', hs'⟩ := hk fp row hrow hid
  exact ⟨row', hrow', hs' hs, hid'⟩

/-! ## What the calls leave of the certificates -/

theorem keepsCerts_insertCert {db db' : Db} {row : CertRow} (hins : db.insertCert row = some db') (agentID : Bytes) :
    KeepsCerts agentID db db' := by
  intro fp r hr hid
  obtain ⟨hfree, hfind⟩ := find_insertCert hins
  refine ⟨r, ?_, hid, id⟩
  rw [hfind, if_neg, hr]
  rintro rfl
  rw [hfree] at hr
  cases hr

theorem find_revokeActive (db : Db) (agentID : Bytes) (now : Time) (fp : Bytes) :
    (db.revokeActive agentID now).certs.find fp = (db.certs.find fp).map fun r =>
      if r.agentId = agentID ∧ r.status = .active then { r with status := .revoked, revokedAt := some now } else r := by
  unfold Db.revokeActive
  rw [UniqueTable.find_update]
  simp only [decide_eq_true_eq]

theorem keepsCerts_revokeActive (db : Db) (agentID' : Bytes) (now : Time) (agentID : Bytes) :
    KeepsCerts agentID db (db.revokeActive agentID' now) := by
  intro fp r hr hid
  rw [find_revokeActive, hr, Option.map_some]
  by_cases hcond : r.agentId = agentID' ∧ r.status = .active
  · rw [if_pos hcond]
    exact ⟨_, rfl, hid, fun _ => rfl⟩
  · rw [if_neg hcond]
    exact ⟨r, rfl, hid, id⟩

theorem keepsCerts_rotate {io : Io} {db db' : Db} {agentID' : Bytes} {cert : AgentCertificate}
    (hr : rotateActiveCertificateTx io db agentID' cert = .ok db') (agentID : Bytes) : KeepsCerts agentID db db' := by
  rcases rotate_ok hr with ⟨_, _, _, rfl⟩ | ⟨_, _, hins⟩ | ⟨_, hins⟩
  · exact .of_certs rfl agentID
  · exact (keepsCerts_revokeActive db agentID' io.clock agentID).trans (keepsCerts_insertCert hins agentID)
  · exact keepsCerts_insertCert hins agentID

theorem updateEnrollment_certs (db : Db) (id : Bytes) (cond : EnrollmentRow → Bool) (f : EnrollmentRow → EnrollmentRow)
    (hf : ∀ r, (f r).enrollmentId = r.enrollmentId) : (db.updateEnrollment id cond f hf).1.certs = db.certs := rfl

/-- The certificates after a finalize: as before, or as its rotation leaves them. -/
theorem finalize_certs (r : Rotation) (db : Db) :
    (r.run db).2.certs = db.certs ∨
      ∃ db₁ db₂, db₁.certs = db.certs ∧ rotateActiveCertificateTx r.io db₁ r.agentID r.cert = .ok db₂ ∧
        (r.run db).2.certs = db₂.certs := by
  unfold Rotation.run finalizeEnrollmentIssue
  rcases runTx_db r.io db (finalizeBody r.io db r.enrollmentID r.agentID r.payload r.cert r.now) with h | ⟨a, hbody⟩
  · rw [h]; exact .inl rfl
  · right
    obtain ⟨db₁, h1, hbody⟩ := bind_eq_ok.1 hbody
    obtain ⟨db₂, h2, hbody⟩ := bind_eq_ok.1 hbody
    obtain ⟨⟨db₃, n⟩, h3, hbody⟩ := bind_eq_ok.1 hbody
    obtain ⟨-, h1⟩ := stmt_eq_ok.1 h1
    obtain ⟨-, h3⟩ := stmt_eq_ok.1 h3
    have hissue : db₂.issueRow r.enrollmentID r.agentID r.now = (db₃, n) := by injection h3
    refine ⟨db₁, db₂, ?_, h2, ?_⟩
    · cases h1
      exact upsertAgent_certs _ _ _ _
    · simp only at hbody
      split at hbody
      · cases hbody
      -- the last statement only writes the enrollment
      · injection hbody with hpair
        have hcerts : (db₂.issueRow r.enrollmentID r.agentID r.now).1.certs = db₂.certs :=
          updateEnrollment_certs _ _ _ _ _
        rw [hissue] at hcerts
        exact (congrArg (fun x : Unit × Db => x.2.certs) hpair).symm.trans hcerts

/-- The certificates after a register: as before, or as the check of the presented one leaves them. -/
theorem register_certs (r : Registration) (db : Db) :
    (r.run db).2 = db ∨
      ∃ db₁, db₁.certs = db.certs ∧ ensureMatchingCertificateTx r.io db₁ r.agentID r.cert = .ok (r.run db).2 := by
  unfold Registration.run registerAgentWithCertificate
  rcases runTx_db r.io db (registerBody r.io db r.agentID r.payload r.cert) with hdb | ⟨a, hbody⟩
  · exact .inl hdb
  · exact .inr ⟨_, upsertAgent_certs _ _ _ _, registerBody_ok hbody⟩

theorem keepsCerts_register (r : Registration) (db : Db) (agentID : Bytes) : KeepsCerts agentID db (r.run db).2 := by
  rcases register_certs r db with hdb | ⟨db₁, hc, hbody⟩
  · exact .of_certs (by rw [hdb]) agentID
  · refine (KeepsCerts.of_certs hc agentID).trans ?_
    rcases ensureMatching_ok hbody with ⟨_, _, _, _, _, hdb⟩ | ⟨_, _, hins⟩
    · exact .of_certs (by rw [hdb]) agentID
    · exact keepsCerts_insertCert hins agentID

theorem keepsCerts_finalize (r : Rotation) (db : Db) (agentID : Bytes) : KeepsCerts agentID db (r.run db).2 := by
  rcases finalize_certs r db with hc | ⟨db₁, db₂, hc1, hrot, hc⟩
  · exact .of_certs hc agentID
  · exact ((KeepsCerts.of_certs hc1 agentID).trans (keepsCerts_rotate hrot agentID)).trans (.of_certs hc agentID)

theorem keepsCerts_deleteAgent (db : Db) {agentID agentID' : Bytes} (hne : agentID' ≠ agentID) :
    KeepsCerts agentID db (db.deleteAgent agentID') := by
  intro fp r hr hid
  refine ⟨r, ?_, hid, id⟩
  unfold Db.deleteAgent
  rw [UniqueTable.find_delete, hr]
  simp [hid, hne.symm]

theorem createEnrollment_certs (o : Outcome) (clock : Time) (db : Db) (e : Enrollment) :
    (createEnrollment o clock db e).2.certs = db.certs := by
  unfold createEnrollment
  split
  · rename_i db' hins
    obtain ⟨t, -, rfl⟩ := Option.map_eq_some_iff.1 hins
    cases o <;> rfl
  · rfl

/-- Every call that does not delete the agent keeps its certificates. -/
theorem keepsCerts_apply {agentID : Bytes} {op : StoreOp} (hop : ¬ op.Deletes agentID) (db : Db) :
    KeepsCerts agentID db (op.apply db) := by
  cases op with
  | register r => exact keepsCerts_register r db agentID
  | finalize r => exact keepsCerts_finalize r db agentID
  | deleteAgent o agentID' =>
    cases o with
    | failed => exact .of_certs rfl agentID
    | ok => exact keepsCerts_deleteAgent db fun hid => hop ⟨nofun, hid⟩
    | unknown => exact keepsCerts_deleteAgent db fun hid => hop ⟨nofun, hid⟩
  | createEnrollment o clock e => exact .of_certs (createEnrollment_certs o clock db e) agentID
  | claimEnrollment o enrollmentID agentID' now =>
    refine .of_certs ?_ agentID
    cases o with
    | ok => rfl
    | failed => rfl
    | unknown => rfl

theorem keepsCerts_runOps {agentID : Bytes} : ∀ (ops : List StoreOp) (db : Db),
    (∀ op ∈ ops, ¬ op.Deletes agentID) → KeepsCerts agentID db (runOps db ops)
  | [], _, _ => .of_certs rfl agentID
  | op :: ops, db, hops =>
    (keepsCerts_apply (hops op List.mem_cons_self) db).trans <| keepsCerts_runOps ops _ fun op' hop' =>
      hops op' (List.mem_cons_of_mem _ hop')

/-- What a rotation revokes belonged to its agent. -/
theorem Rotation.Revokes.revoked {r : Rotation} {db : Db} {fp : Bytes} (h : r.Revokes db fp) :
    Revoked (r.run db).2 r.agentID fp := by
  obtain ⟨⟨row, hrow, hactive⟩, row', hrow', hrevoked⟩ := h
  have hsame : ∀ {x : CertRow}, x.status = .revoked → x ≠ row := fun hx hxr => by
    rw [hxr, hactive] at hx
    cases hx
  rcases finalize_certs r db with hc | ⟨db₁, db₂, hc1, hrot, hc⟩
  -- the finalize changed no certificate
  · rw [hc, hrow] at hrow'
    cases hrow'
    exact absurd rfl (hsame hrevoked)
  · have hrow1 : db₁.certs.find fp = some row := by rw [hc1]; exact hrow
    have hrow2 : db₂.certs.find fp = some row' := by rw [← hc]; exact hrow'
    refine ⟨row', hrow', hrevoked, ?_⟩
    rcases rotate_ok hrot with ⟨_, _, _, rfl⟩ | ⟨_, _, hins⟩ | ⟨_, hins⟩
    -- the certificate presented was the active one already
    · rw [hrow1] at hrow2
      cases hrow2
      exact absurd rfl (hsame hrevoked)
    -- the row is the new certificate, which is active, or one the rotation may have revoked
    · obtain ⟨-, hfind⟩ := find_insertCert hins
      rw [hfind, find_revokeActive, hrow1] at hrow2
      split at hrow2
      · cases hrow2; cases hrevoked
      · simp only [Option.map_some, Option.some.injEq] at hrow2
        split at hrow2
        · rename_i hcond
          rw [← hrow2]
          exact hcond.1
        · exact absurd hrow2.symm (hsame hrevoked)
    · obtain ⟨-, hfind⟩ := find_insertCert hins
      rw [hfind, hrow1] at hrow2
      split at hrow2
      · cases hrow2; cases hrevoked
      · cases hrow2
        exact absurd rfl (hsame hrevoked)

/-- A registration that presents a revoked certificate is refused. -/
theorem register_revoked {db : Db} {agentID fp : Bytes} (h : Revoked db agentID fp) {r : Registration}
    (hfp : r.cert.certFingerprint = fp) : (r.run db).1 ≠ .ok () := by
  intro hok
  obtain ⟨row, hrow, hs, -⟩ := h
  have hbody : registerBody r.io db r.agentID r.payload r.cert = .ok ((), (r.run db).2) :=
    runTx_ok (Prod.ext hok rfl)
  have hcerts : (upsertAgentOnline db r.agentID r.payload r.io.clock).certs = db.certs := upsertAgent_certs _ _ _ _
  rcases ensureMatching_ok (registerBody_ok hbody) with ⟨row', hrow', hactive, _⟩ | ⟨hnone, _⟩
  · rw [hcerts, hfp, hrow] at hrow'
    cases hrow'
    rw [hs] at hactive
    cases hactive
  · rw [hcerts, hfp, hrow] at hnone
    cases hnone

/-! ## Every sequence of calls -/

/-- After `before`, the rotation revokes the certificate that the registration presents after `between`:
then it is refused. -/
def RefusedAfterRotation (before : List StoreOp) (rotation : Rotation) (between : List StoreOp) (reg : Registration) :
    Prop :=
  rotation.Revokes (runOps Db.empty before) reg.cert.certFingerprint →
    (reg.run (runOps (rotation.run (runOps Db.empty before)).2 between)).1 ≠ .ok ()

/-- A revoked certificate is refused as long as the agent it belonged to is not deleted. -/
theorem refusedAfterRotation {before between : List StoreOp} {rotation : Rotation} {reg : Registration}
    (h : ∀ op ∈ between, ¬ op.Deletes rotation.agentID) : RefusedAfterRotation before rotation between reg :=
  fun hrev => register_revoked ((keepsCerts_runOps between _ h).revoked hrev.revoked) rfl

def hostPayload : RegisterPayload := ⟨ascii "web", ascii "10.0.0.1", ascii "Linux", ascii "lkm"⟩

def firstCert : AgentCertificate := ⟨ascii "7", ascii "s", ascii "fA", none, none⟩
def secondCert : AgentCertificate := ⟨ascii "7", ascii "s", ascii "fB", none, none⟩

/-- Agent 7 registers with its first certificate. -/
def firstRegistration : Registration := ⟨.sound 1, ascii "7", hostPayload, firstCert⟩

/-- Agent 7 has registered and is enrolled again. -/
def enrolledAgain : List StoreOp :=
  [.register firstRegistration, .createEnrollment .ok 2 ⟨ascii "e1", [], ascii "h", [], [], .pending, 100, 0⟩,
    .claimEnrollment .ok (ascii "e1") (ascii "7") 3]

/-- The enrollment issues the second certificate. -/
def secondIssue : Rotation := ⟨.sound 4, ascii "e1", ascii "7", hostPayload, secondCert, 4⟩

theorem secondIssue_revokes : secondIssue.Revokes (runOps Db.empty enrolledAgain) (ascii "fA") :=
  ⟨⟨firstCert.row (ascii "7") 1, by decide +kernel, rfl⟩,
    ⟨{ firstCert.row (ascii "7") 1 with status := .revoked, revokedAt := some 4 }, by decide +kernel, rfl⟩⟩

/-- Another agent is deleted after the rotation, and the first certificate stays refused. -/
theorem refusedAfterRotation_otherDeleted :
    RefusedAfterRotation enrolledAgain secondIssue [.deleteAgent .ok (ascii "8")] firstRegistration ∧
      secondIssue.Revokes (runOps Db.empty enrolledAgain) (ascii "fA") :=
  ⟨refusedAfterRotation fun op hop => by
    rw [List.mem_singleton.1 hop]
    rintro ⟨-, hid⟩
    exact absurd hid (by decide), secondIssue_revokes⟩

/-- Once agent 7 is deleted, its revoked certificate registers again. -/
theorem refusedAfterRotation_deleted_fails :
    ¬ RefusedAfterRotation enrolledAgain secondIssue [.deleteAgent .ok (ascii "7")] firstRegistration :=
  fun h => h secondIssue_revokes (by decide +kernel)

end KnIg.Backend
