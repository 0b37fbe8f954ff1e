/-
The MySQL store of agents and their certificates: registration with the certificate of the
connection, the rotation of the active certificate, deletion, and the writes each can make to the
certificate table.
-/
import KnIg.Backend.Store.Schema

namespace KnIg.Backend

open Lib

structure RegisterPayload where
  hostname : Bytes
  ip : Bytes
  os : Bytes
  monitorType : Bytes
deriving DecidableEq

/-- `AgentCertificate`; a missing time is the zero `time.Time`, which `nullTime` stores as NULL. -/
structure AgentCertificate where
  agentID : Bytes
  certSubjectHash : Bytes
  certFingerprint : Bytes
  issuedAt : Option Time
  expiresAt : Option Time
deriving DecidableEq

def statusOnline : Bytes := ascii "online"
def statusOffline : Bytes := ascii "offline"

/-- What a duplicate agent id makes of the stored row in both upserts. -/
def AgentRow.setPayload (r : AgentRow) (p : RegisterPayload) : AgentRow :=
  { r with hostname := p.hostname, ip := p.ip, os := p.os, monitorType := p.monitorType }

/-- The upsert of `RegisterAgentWithCertificate`. -/
def upsertAgentOnline (db : Db) (agentID : Bytes) (p : RegisterPayload) (now : Time) : Db :=
  db.upsertAgent ⟨agentID, p.hostname, p.ip, [], p.os, p.monitorType, statusOnline, now, some now⟩
    (fun r => { r.setPayload p with lastSeen := some now, status := statusOnline }) fun _ => rfl

def lockAgentTx (io : Io) (k : Nat) (db : Db) (agentID : Bytes) : Except StoreError Unit :=
  stmt io k (if (db.agents.find agentID).isSome then .ok () else .error .driver)

/-- The row of the query for the agent's newest active certificate. -/
def newestActive (db : Db) (agentID : Bytes) : Option CertRow :=
  (db.certs.rows.filter fun r => r.agentId = agentID ∧ r.status = .active).maxOn? CertRow.boundAt

/-- The row that binds a certificate to an agent. -/
def AgentCertificate.row (cert : AgentCertificate) (agentID : Bytes) (now : Time) : CertRow :=
  ⟨agentID, cert.certSubjectHash, cert.certFingerprint, .active, cert.issuedAt, cert.expiresAt, now, none⟩

def bindCertificate (db : Db) (agentID : Bytes) (cert : AgentCertificate) (now : Time) : Except StoreError Db :=
  match db.insertCert (cert.row agentID now) with
  | some db => .ok db
  | none => .error .driver

def ensureMatchingCertificateTx (io : Io) (db : Db) (agentID : Bytes) (cert : AgentCertificate) :
    Except StoreError Db := do
  lockAgentTx io 2 db agentID
  match ← stmt io 3 (.ok (db.certs.find cert.certFingerprint)) with
  | some row =>
    if row.status ≠ .active then .error .agentCertificateRevoked
    else if row.agentId ≠ agentID ∨ row.certSubjectHash ≠ cert.certSubjectHash then
      .error .agentCertificateMismatch
    else .ok db
  -- first use: the agent has no other active certificate
  | none =>
    match ← stmt io 4 (.ok (newestActive db agentID)) with
    | some _ => .error .agentCertificateMismatch
    | none => stmt io 5 (bindCertificate db agentID cert io.clock)

/-- The statements of `RegisterAgentWithCertificate` between `BeginTx` and `Commit`. -/
def registerBody (io : Io) (db : Db) (agentID : Bytes) (p : RegisterPayload) (cert : AgentCertificate) :
    Except StoreError (Unit × Db) := do
  let db ← stmt io 1 (.ok (upsertAgentOnline db agentID p io.clock))
  let db ← ensureMatchingCertificateTx io db agentID cert
  return ((), db)

def registerAgentWithCertificate (io : Io) (db : Db) (agentID : Bytes) (p : RegisterPayload)
    (cert : AgentCertificate) : Except StoreError Unit × Db :=
  runTx io db (registerBody io db agentID p cert)

/-- `ensureAgentOfflineTx`, the first statement of its transaction. -/
def ensureAgentOfflineTx (io : Io) (db : Db) (agentID : Bytes) (p : RegisterPayload) : Except StoreError Db :=
  stmt io 1 (.ok (db.upsertAgent
    ⟨agentID, p.hostname, p.ip, [], p.os, p.monitorType, statusOffline, io.clock, none⟩ (·.setPayload p) fun _ => rfl))

def rotateActiveCertificateTx (io : Io) (db : Db) (agentID : Bytes) (cert : AgentCertificate) :
    Except StoreError Db := do
  lockAgentTx io 2 db agentID
  match ← stmt io 3 (.ok (newestActive db agentID)) with
  | some row =>
    if row.certSubjectHash = cert.certSubjectHash ∧ row.certFingerprint = cert.certFingerprint then .ok db
    else
      let db ← stmt io 4 (.ok (db.revokeActive agentID io.clock))
      stmt io 5 (bindCertificate db agentID cert io.clock)
  | none => stmt io 5 (bindCertificate db agentID cert io.clock)

/-- `DeleteAgent`: the agent's certificates go with it. -/
def deleteAgent (o : Outcome) (db : Db) (agentID : Bytes) : Except StoreError Unit × Db :=
  settle o db (db.deleteAgent agentID) (.ok ())

/-- `SetOffline`. -/
def setOffline (o : Outcome) (db : Db) (agentID : Bytes) : Except StoreError Unit × Db :=
  settle o db
    { db with
      agents := db.agents.update (·.agentId = agentID) (fun r => { r with status := statusOffline }) fun _ => rfl
      fk := fun c hc => by
        rw [UniqueTable.find_update, Option.isSome_map]
        exact db.fk c hc } (.ok ())

/-- The agent's stored status is online. -/
def Online (db : Db) (agentID : Bytes) : Prop :=
  ∃ row, db.agents.find agentID = some row ∧ row.status = statusOnline

/-! ## Writes to the certificate table -/

@[simp] theorem upsertAgent_certs (db : Db) (row : AgentRow) (f : AgentRow → AgentRow)
    (hf : ∀ a, (f a).agentId = a.agentId) : (db.upsertAgent row f hf).certs = db.certs := by
  unfold Db.upsertAgent
  split <;> rfl

@[simp] theorem upsertAgent_enrollments (db : Db) (row : AgentRow) (f : AgentRow → AgentRow)
    (hf : ∀ a, (f a).agentId = a.agentId) : (db.upsertAgent row f hf).enrollments = db.enrollments := by
  unfold Db.upsertAgent
  split <;> rfl

theorem find_insertCert {db db' : Db} {row : CertRow} (h : db.insertCert row = some db') :
    db.certs.find row.certFingerprint = none ∧
      ∀ fp, db'.certs.find fp = if row.certFingerprint = fp then some row else db.certs.find fp := by
  unfold Db.insertCert at h
  split at h
  · split at h
    · rename_i certs hins
      cases h
      exact ⟨UniqueTable.find_of_insert hins, UniqueTable.find_insert hins⟩
    · cases h
  · cases h

theorem insertCert_enrollments {db db' : Db} {row : CertRow} (h : db.insertCert row = some db') :
    db'.enrollments = db.enrollments := by
  unfold Db.insertCert at h
  split at h
  · split at h
    · cases h; rfl
    · cases h
  · cases h

theorem bindCertificate_ok {db db' : Db} {agentID : Bytes} {cert : AgentCertificate} {now : Time}
    (h : bindCertificate db agentID cert now = .ok db') : db.insertCert (cert.row agentID now) = some db' := by
  unfold bindCertificate at h
  split at h
  · rename_i hins
    cases h; exact hins
  · cases h

/-- A registration that passes found the presented certificate active for the agent, or bound it as the
first one. -/
theorem ensureMatching_ok {io : Io} {db db' : Db} {agentID : Bytes} {cert : AgentCertificate}
    (h : ensureMatchingCertificateTx io db agentID cert = .ok db') :
    (∃ row, db.certs.find cert.certFingerprint = some row ∧ row.status = .active ∧ row.agentId = agentID ∧
        row.certSubjectHash = cert.certSubjectHash ∧ db' = db) ∨
      (db.certs.find cert.certFingerprint = none ∧ newestActive db agentID = none ∧
        db.insertCert (cert.row agentID io.clock) = some db') := by
  unfold ensureMatchingCertificateTx at h
  obtain ⟨-, -, h⟩ := bind_eq_ok.1 h
  obtain ⟨found, hfound, h⟩ := bind_eq_ok.1 h
  obtain ⟨-, hfound⟩ := stmt_eq_ok.1 hfound
  cases hfound
  split at h
  · rename_i row hrow
    split at h
    · cases h
    · rename_i hactive
      split at h
      · cases h
      · rename_i hmatch
        cases h
        simp only [not_or, not_not] at hmatch
        exact .inl ⟨row, hrow, not_not.1 hactive, hmatch.1, hmatch.2, rfl⟩
  · rename_i hnone
    obtain ⟨active, hactive, h⟩ := bind_eq_ok.1 h
    obtain ⟨-, hactive⟩ := stmt_eq_ok.1 hactive
    cases hactive
    split at h
    · cases h
    · rename_i hactive
      exact .inr ⟨hnone, hactive, bindCertificate_ok (stmt_eq_ok.1 h).2⟩

theorem registerBody_ok {io : Io} {db db' : Db} {agentID : Bytes} {p : RegisterPayload} {cert : AgentCertificate}
    (h : registerBody io db agentID p cert = .ok ((), db')) :
    ensureMatchingCertificateTx io (upsertAgentOnline db agentID p io.clock) agentID cert = .ok db' := by
  obtain ⟨db₁, h1, h⟩ := bind_eq_ok.1 h
  obtain ⟨-, h1⟩ := stmt_eq_ok.1 h1
  cases h1
  obtain ⟨db₂, h2, h⟩ := bind_eq_ok.1 h
  cases h
  exact h2

/-! ## The status of an agent -/

/-- The row of an upsert is the one inserted, or the changed one. -/
theorem find_upsertAgent (db : Db) (row : AgentRow) (f : AgentRow → AgentRow) (hf : ∀ a, (f a).agentId = a.agentId) :
    (db.upsertAgent row f hf).agents.find row.agentId = some row ∨
      ∃ r, (db.upsertAgent row f hf).agents.find row.agentId = some (f r) := by
  unfold Db.upsertAgent
  split
  · next h =>
    left
    rw [UniqueTable.find_insert h, if_pos rfl]
  · next h =>
    right
    -- the key is taken, so there is a row to change
    have htaken : row.agentId ∈ db.agents.rows.map AgentRow.agentId := by
      by_contra hfree
      simp [UniqueTable.insert, hfree] at h
    obtain ⟨r, hr, hk⟩ := List.mem_map.1 htaken
    refine ⟨r, ?_⟩
    rw [UniqueTable.find_update, UniqueTable.find_eq_some.2 ⟨hr, hk⟩]
    simp [hk]

theorem online_upsertAgentOnline (db : Db) (agentID : Bytes) (p : RegisterPayload) (now : Time) :
    Online (upsertAgentOnline db agentID p now) agentID := by
  obtain h | ⟨r, h⟩ := find_upsertAgent db
    ⟨agentID, p.hostname, p.ip, [], p.os, p.monitorType, statusOnline, now, some now⟩
    (fun r => { r.setPayload p with lastSeen := some now, status := statusOnline }) (fun _ => rfl)
  · exact ⟨_, h, rfl⟩
  · exact ⟨_, h, rfl⟩

theorem ensureMatching_agents {io : Io} {db db' : Db} {agentID : Bytes} {cert : AgentCertificate}
    (h : ensureMatchingCertificateTx io db agentID cert = .ok db') : db'.agents = db.agents := by
  rcases ensureMatching_ok h with ⟨-, -, -, -, -, rfl⟩ | ⟨-, -, hins⟩
  · rfl
  · unfold Db.insertCert at hins
    split at hins
    · split at hins
      · cases hins
        rfl
      · cases hins
    · cases hins

/-- A registration that passes leaves the agent online. -/
theorem online_register {io : Io} {db db' : Db} {agentID : Bytes} {p : RegisterPayload} {cert : AgentCertificate}
    (h : registerAgentWithCertificate io db agentID p cert = (.ok (), db')) : Online db' agentID := by
  have hag := ensureMatching_agents (registerBody_ok (runTx_ok h))
  obtain ⟨row, hrow, hs⟩ := online_upsertAgentOnline db agentID p io.clock
  exact ⟨row, by rw [hag]; exact hrow, hs⟩

/-- A SetOffline that the database carries out, whether or not it says so, leaves the agent offline. -/
theorem not_online_setOffline {o : Outcome} (ho : o ≠ .failed) (db : Db) (agentID : Bytes) :
    ¬ Online (setOffline o db agentID).2 agentID := by
  rintro ⟨row, hrow, hs⟩
  have hfind : (setOffline o db agentID).2.agents.find agentID =
      (db.agents.find agentID).map fun r => if r.agentId = agentID then { r with status := statusOffline } else r := by
    cases o with
    | failed => exact absurd rfl ho
    | ok | unknown => simp [setOffline, settle, UniqueTable.find_update]
  rw [hfind] at hrow
  obtain ⟨r, hr, rfl⟩ := Option.map_eq_some_iff.1 hrow
  rw [if_pos (UniqueTable.find_eq_some.1 hr).2] at hs
  have hne : statusOffline ≠ statusOnline := by decide
  exact hne hs

theorem setOffline_failed (db : Db) (agentID : Bytes) : (setOffline .failed db agentID).2 = db := rfl

/-- A rotation that passes found the certificate already active, or bound it after revoking the active
ones, if there were any. -/
theorem rotate_ok {io : Io} {db db' : Db} {agentID : Bytes} {cert : AgentCertificate}
    (h : rotateActiveCertificateTx io db agentID cert = .ok db') :
    (∃ row, newestActive db agentID = some row ∧ row.certFingerprint = cert.certFingerprint ∧ db' = db) ∨
      (∃ row, newestActive db agentID = some row ∧
        (db.revokeActive agentID io.clock).insertCert (cert.row agentID io.clock) = some db') ∨
      (newestActive db agentID = none ∧ db.insertCert (cert.row agentID io.clock) = some db') := by
  unfold rotateActiveCertificateTx at h
  obtain ⟨-, -, h⟩ := bind_eq_ok.1 h
  obtain ⟨active, hactive, h⟩ := bind_eq_ok.1 h
  obtain ⟨-, hactive⟩ := stmt_eq_ok.1 hactive
  cases hactive
  split at h
  · rename_i row hrow
    split at h
    · rename_i hsame
      cases h
      exact .inl ⟨row, hrow, hsame.2, rfl⟩
    · obtain ⟨db₁, hrev, h⟩ := bind_eq_ok.1 h
      obtain ⟨-, hrev⟩ := stmt_eq_ok.1 hrev
      cases hrev
      exact .inr (.inl ⟨row, hrow, bindCertificate_ok (stmt_eq_ok.1 h).2⟩)
  · rename_i hnone
    exact .inr (.inr ⟨hnone, bindCertificate_ok (stmt_eq_ok.1 h).2⟩)

end KnIg.Backend
