/-
The binding of agents to certificates, over every sequence of store calls: an agent has at most one
active certificate, a fingerprint stays with its agent, a registration passes only with the active
certificate or as the first binding, and a call that fails leaves the tables alone unless the database
carried out its commit all the same.
-/
import KnIg.Backend.Store.Revocation

namespace KnIg.Backend

open Lib

/-! ## Active certificates -/

/-- No two active certificates belong to one agent. -/
def OneActive (db : Db) : Prop :=
  ∀ r ∈ db.certs.rows, ∀ r' ∈ db.certs.rows, r.status = .active → r'.status = .active → r.agentId = r'.agentId → r = r'

def NoActive (db : Db) (agentID : Bytes) : Prop :=
  ∀ r ∈ db.certs.rows, r.agentId = agentID → r.status ≠ .active

theorem newestActive_eq_none {db : Db} {agentID : Bytes} : newestActive db agentID = none ↔ NoActive db agentID := by
  unfold newestActive NoActive
  rw [← Option.not_isSome_iff_eq_none, List.isSome_maxOn?_iff, ne_eq, not_not, List.filter_eq_nil_iff]
  simp only [decide_eq_true_eq, not_and]

theorem NoActive.of_certs {db db' : Db} {agentID : Bytes} (h : NoActive db agentID) (hc : db'.certs = db.certs) :
    NoActive db' agentID := by
  unfold NoActive
  rw [hc]
  exact h

theorem OneActive.of_certs {db db' : Db} (h : OneActive db) (hc : db'.certs = db.certs) : OneActive db' := by
  unfold OneActive
  rw [hc]
  exact h

theorem insertCert_rows {db db' : Db} {row : CertRow} (h : db.insertCert row = some db') :
    db'.certs.rows = db.certs.rows ++ [row] := by
  unfold Db.insertCert at h
  split at h
  · split at h
    · rename_i certs hins
      cases h
      unfold UniqueTable.insert at hins
      split at hins
      · cases hins
      · cases hins; rfl
    · cases h
  · cases h

/-- The first active certificate of an agent is its only one. -/
theorem OneActive.insertCert {db db' : Db} {row : CertRow} (h : OneActive db) (hno : NoActive db row.agentId)
    (hins : db.insertCert row = some db') : OneActive db' := by
  intro r hr r' hr' hs hs' hid
  rw [insertCert_rows hins, List.mem_append, List.mem_singleton] at hr hr'
  rcases hr with hr | rfl
  · rcases hr' with hr' | rfl
    · exact h r hr r' hr' hs hs' hid
    · exact absurd hs (hno r hr hid)
  · rcases hr' with hr' | rfl
    · exact absurd hs' (hno r' hr' hid.symm)
    · rfl

/-- A certificate that is active after a revocation was left as it is. -/
theorem active_of_revokeActive {db : Db} {agentID : Bytes} {now : Time} {r : CertRow}
    (hr : r ∈ (db.revokeActive agentID now).certs.rows) (hs : r.status = .active) :
    r ∈ db.certs.rows ∧ r.agentId ≠ agentID := by
  obtain ⟨r₀, hr₀, rfl⟩ := List.mem_map.1 hr
  by_cases hcond : r₀.agentId = agentID ∧ r₀.status = .active
  · rw [if_pos (decide_eq_true hcond)] at hs
    cases hs
  · rw [if_neg (by simpa using hcond)] at hs ⊢
    exact ⟨hr₀, fun hid => hcond ⟨hid, hs⟩⟩

theorem noActive_revokeActive (db : Db) (agentID : Bytes) (now : Time) :
    NoActive (db.revokeActive agentID now) agentID :=
  fun _ hr hid hs => (active_of_revokeActive hr hs).2 hid

theorem OneActive.revokeActive {db : Db} (h : OneActive db) (agentID : Bytes) (now : Time) :
    OneActive (db.revokeActive agentID now) := fun _ hr _ hr' hs hs' hid =>
  h _ (active_of_revokeActive hr hs).1 _ (active_of_revokeActive hr' hs').1 hs hs' hid

/-! ## Every call keeps one active certificate -/

theorem OneActive.rotate {io : Io} {db db' : Db} {agentID : Bytes} {cert : AgentCertificate} (h : OneActive db)
    (hr : rotateActiveCertificateTx io db agentID cert = .ok db') : OneActive db' := by
  rcases rotate_ok hr with ⟨_, _, _, rfl⟩ | ⟨_, _, hins⟩ | ⟨hnone, hins⟩
  · exact h
  · exact (h.revokeActive agentID io.clock).insertCert (noActive_revokeActive db agentID io.clock) hins
  · exact h.insertCert (newestActive_eq_none.1 hnone) hins

theorem OneActive.register {db : Db} (h : OneActive db) (r : Registration) : OneActive (r.run db).2 := by
  rcases register_certs r db with hdb | ⟨db₁, hc, hbody⟩
  · rw [hdb]; exact h
  · rcases ensureMatching_ok hbody with ⟨_, _, _, _, _, hdb⟩ | ⟨_, hnone, hins⟩
    · rw [hdb]; exact h.of_certs hc
    · exact (h.of_certs hc).insertCert (newestActive_eq_none.1 hnone) hins

theorem OneActive.finalize {db : Db} (h : OneActive db) (r : Rotation) : OneActive (r.run db).2 := by
  rcases finalize_certs r db with hc | ⟨db₁, db₂, hc1, hrot, hc⟩
  · exact h.of_certs hc
  · exact ((h.of_certs hc1).rotate hrot).of_certs hc

theorem OneActive.deleteAgent {db : Db} (h : OneActive db) (agentID : Bytes) : OneActive (db.deleteAgent agentID) :=
  fun r hr r' hr' => h r (List.mem_of_mem_filter hr) r' (List.mem_of_mem_filter hr')

theorem OneActive.apply {db : Db} (h : OneActive db) (op : StoreOp) : OneActive (op.apply db) := by
  cases op with
  | register r => exact h.register r
  | finalize r => exact h.finalize r
  | deleteAgent o agentID =>
    cases o with
    | failed => exact h
    | ok => exact h.deleteAgent agentID
    | unknown => exact h.deleteAgent agentID
  | createEnrollment o clock e => exact h.of_certs (createEnrollment_certs o clock db e)
  | claimEnrollment o enrollmentID agentID now =>
    cases o with
    | ok => exact h.of_certs rfl
    | failed => exact h
    | unknown => exact h.of_certs rfl

theorem OneActive.runOps {db : Db} (h : OneActive db) (ops : List StoreOp) : OneActive (runOps db ops) := by
  induction ops generalizing db with
  | nil => exact h
  | cons op ops ih => exact ih (h.apply op)

/-! ## What a registration does -/

/-- A registration that passes presents the active certificate of the agent, or is its first binding. -/
theorem register_passes {r : Registration} {db : Db} (hok : (r.run db).1 = .ok ()) :
    (∃ row ∈ db.certs.rows, row.agentId = r.agentID ∧ row.status = .active ∧
        row.certFingerprint = r.cert.certFingerprint ∧ row.certSubjectHash = r.cert.certSubjectHash ∧
        (r.run db).2.certs = db.certs) ∨
      (NoActive db r.agentID ∧ db.certs.find r.cert.certFingerprint = none ∧
        (r.run db).2.certs.rows = db.certs.rows ++ [r.cert.row r.agentID r.io.clock]) := by
  have hbody : registerBody r.io db r.agentID r.payload r.cert = .ok ((), (r.run db).2) :=
    runTx_ok (Prod.ext hok rfl)
  have hcerts : (upsertAgentOnline db r.agentID r.payload r.io.clock).certs = db.certs := upsertAgent_certs _ _ _ _
  rcases ensureMatching_ok (registerBody_ok hbody) with ⟨row, hrow, hactive, hid, hhash, hdb⟩ | ⟨hfree, hnone, hins⟩
  · rw [hcerts] at hrow
    obtain ⟨hmem, hfp⟩ := UniqueTable.find_eq_some.1 hrow
    exact .inl ⟨row, hmem, hid, hactive, hfp, hhash, by rw [hdb, hcerts]⟩
  · have hno := (newestActive_eq_none.1 hnone).of_certs hcerts.symm
    exact .inr ⟨hno, by rwa [hcerts] at hfree, by rw [insertCert_rows hins, hcerts]⟩

/-! ## Every sequence of calls -/

/-- Agents and certificates are as they were. -/
def SameBindings (db db' : Db) : Prop := db'.agents = db.agents ∧ db'.certs = db.certs

/-- The rules of binding after any sequence of calls. -/
theorem certificates_bound (ops : List StoreOp) :
    OneActive (runOps Db.empty ops) ∧
      (∀ later, (∀ op ∈ later, ∀ agentID, ¬ op.Deletes agentID) →
        ∀ row ∈ (runOps Db.empty ops).certs.rows, ∀ row' ∈ (runOps Db.empty (ops ++ later)).certs.rows,
          row.certFingerprint = row'.certFingerprint → row'.agentId = row.agentId) ∧
      (∀ r : Registration, (r.run (runOps Db.empty ops)).1 = .ok () →
        (∃ row ∈ (runOps Db.empty ops).certs.rows, row.agentId = r.agentID ∧ row.status = .active ∧
            row.certFingerprint = r.cert.certFingerprint ∧ row.certSubjectHash = r.cert.certSubjectHash ∧
            (r.run (runOps Db.empty ops)).2.certs = (runOps Db.empty ops).certs) ∨
          (NoActive (runOps Db.empty ops) r.agentID ∧
            (runOps Db.empty ops).certs.find r.cert.certFingerprint = none ∧
            (r.run (runOps Db.empty ops)).2.certs.rows =
              (runOps Db.empty ops).certs.rows ++ [r.cert.row r.agentID r.io.clock])) ∧
      (∀ (r : Registration) err, (r.run (runOps Db.empty ops)).1 = .error err → r.io.commit ≠ .unknown →
        SameBindings (runOps Db.empty ops) (r.run (runOps Db.empty ops)).2) ∧
      ∀ (r : Rotation) err, (r.run (runOps Db.empty ops)).1 = .error err → r.io.commit ≠ .unknown →
        SameBindings (runOps Db.empty ops) (r.run (runOps Db.empty ops)).2 := by
  have hempty : OneActive Db.empty := fun r hr => absurd hr List.not_mem_nil
  refine ⟨hempty.runOps ops, ?_, fun r hok => register_passes hok, ?_, ?_⟩
  · intro later hlater row hrow row' hrow' hfp
    have hrun : runOps Db.empty (ops ++ later) = runOps (runOps Db.empty ops) later := List.foldl_append
    have hfind := UniqueTable.find_eq_some.2 ⟨hrow, rfl⟩
    obtain ⟨kept, hkept, hid, -⟩ := keepsCerts_runOps later (runOps Db.empty ops)
      (fun op hop => hlater op hop row.agentId) row.certFingerprint row hfind rfl
    rw [← hrun, hfp, UniqueTable.find_eq_some.2 ⟨hrow', rfl⟩] at hkept
    cases hkept
    exact hid
  · intro r err herr hcommit
    have hdb : (r.run (runOps Db.empty ops)).2 = runOps Db.empty ops := runTx_error herr hcommit
    exact ⟨by rw [hdb], by rw [hdb]⟩
  · intro r err herr hcommit
    have hdb : (r.run (runOps Db.empty ops)).2 = runOps Db.empty ops := runTx_error herr hcommit
    exact ⟨by rw [hdb], by rw [hdb]⟩

/-- The connection breaks during the commit of agent 7's first registration. -/
def unansweredRegistration : Registration := { firstRegistration with io := ⟨fun _ => false, .unknown, 1⟩ }

/-- The caller gets an error although agent and certificate are stored. -/
theorem certificates_bound_unanswered_fails :
    ¬ ∀ (ops : List StoreOp) (r : Registration) (err : StoreError),
      (r.run (runOps Db.empty ops)).1 = .error err →
        SameBindings (runOps Db.empty ops) (r.run (runOps Db.empty ops)).2 := by
  intro h
  obtain ⟨-, hcerts⟩ := h [] unansweredRegistration .driver rfl
  exact absurd (congrArg (fun t => t.rows.length) hcerts) (by decide +kernel)

end KnIg.Backend
