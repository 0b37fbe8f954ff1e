/-
The tables of the server's database that hold agents, their certificates and their enrollments, with
the keys and the foreign key that `schema.sql` declares, the statements the stores run on them, and
how a transaction or a single statement ends.
-/
import KnIg.Lib.Bytes
import KnIg.Lib.Fallible
import KnIg.Lib.UniqueTable

namespace KnIg.Backend

open Lib

/-- A `DATETIME` or a `time.Time`. -/
abbrev Time := Int

/-! ## Rows -/

/-- A row of `agents`. -/
structure AgentRow where
  agentId : Bytes
  hostname : Bytes
  ip : Bytes
  version : Bytes
  os : Bytes
  monitorType : Bytes
  status : Bytes
  registeredAt : Time
  lastSeen : Option Time
deriving DecidableEq

inductive CertStatus where
  | active | revoked
deriving DecidableEq

/-- A row of `agent_certificates`. -/
structure CertRow where
  agentId : Bytes
  certSubjectHash : Bytes
  certFingerprint : Bytes
  status : CertStatus
  issuedAt : Option Time
  expiresAt : Option Time
  boundAt : Time
  revokedAt : Option Time
deriving DecidableEq

/-- The texts of `agent_enrollments.status`; `other` is any that no code path knows. -/
inductive EnrollmentStatus where
  | pending | issuing | issued | used | revoked | other
deriving DecidableEq

/-- A row of `agent_enrollments`. -/
structure EnrollmentRow where
  enrollmentId : Bytes
  agentId : Option Bytes
  secretHash : Bytes
  keyCiphertext : Bytes
  keyNonce : Bytes
  status : EnrollmentStatus
  expiresAt : Time
  issuedAt : Option Time
  usedAt : Option Time
  createdAt : Time
  attemptCount : Nat
  lastAttemptAt : Option Time
deriving DecidableEq

/-- The three tables. `agent_certificates.agent_id` references `agents`. -/
structure Db where
  agents : UniqueTable AgentRow.agentId
  certs : UniqueTable CertRow.certFingerprint
  enrollments : UniqueTable EnrollmentRow.enrollmentId
  fk : ∀ c ∈ certs.rows, (agents.find c.agentId).isSome

namespace Db

def empty : Db := ⟨.empty, .empty, .empty, by simp [UniqueTable.empty]⟩

/-! ## Statements -/

/-- `INSERT INTO agents … ON DUPLICATE KEY UPDATE …`. -/
def upsertAgent (db : Db) (row : AgentRow) (onDuplicate : AgentRow → AgentRow)
    (hdup : ∀ a, (onDuplicate a).agentId = a.agentId) : Db :=
  match h : db.agents.insert row with
  | some agents =>
    { db with
      agents
      fk := fun c hc => by
        rw [UniqueTable.find_insert h]
        split
        · rfl
        · exact db.fk c hc }
  | none =>
    { db with
      agents := db.agents.update (·.agentId = row.agentId) onDuplicate hdup
      fk := fun c hc => by
        rw [UniqueTable.find_update, Option.isSome_map]
        exact db.fk c hc }

/-- `INSERT INTO agent_certificates …`; none where a key refuses the row. -/
def insertCert (db : Db) (row : CertRow) : Option Db :=
  if hfk : (db.agents.find row.agentId).isSome then
    match h : db.certs.insert row with
    | some certs =>
      some
        { db with
          certs
          fk := fun c hc => by
            have hfind :=
              (UniqueTable.find_insert h c.certFingerprint).symm.trans (UniqueTable.find_eq_some.2 ⟨hc, rfl⟩)
            split at hfind
            · cases hfind; exact hfk
            · exact db.fk c (UniqueTable.find_eq_some.1 hfind).1 }
    | none => none
  else none

/-- `UPDATE agent_certificates SET status = 'revoked' … WHERE agent_id = ? AND status = 'active'`. -/
def revokeActive (db : Db) (agentID : Bytes) (now : Time) : Db :=
  { db with
    certs :=
      db.certs.update (fun r => r.agentId = agentID ∧ r.status = .active)
        (fun r => { r with status := .revoked, revokedAt := some now }) fun _ => rfl
    fk := fun c hc => by
      obtain ⟨r, hr, rfl⟩ := List.mem_map.1 hc
      have := db.fk r hr
      split <;> exact this }

/-- `DELETE FROM agents WHERE agent_id = ?`, which deletes the agent's certificates with it. -/
def deleteAgent (db : Db) (agentID : Bytes) : Db :=
  { db with
    agents := db.agents.delete (·.agentId = agentID)
    certs := db.certs.delete (·.agentId = agentID)
    fk := fun c hc => by
      obtain ⟨hc, hne⟩ := List.mem_filter.1 hc
      obtain ⟨a, ha⟩ := Option.isSome_iff_exists.1 (db.fk c hc)
      have hid := (UniqueTable.find_eq_some.1 ha).2
      rw [UniqueTable.find_delete, ha]
      simpa [hid] using hne }

/-- `UPDATE agent_enrollments SET … WHERE enrollment_id = ? AND …`: the table and `RowsAffected`. -/
def updateEnrollment (db : Db) (enrollmentID : Bytes) (cond : EnrollmentRow → Bool) (f : EnrollmentRow → EnrollmentRow)
    (hf : ∀ r, (f r).enrollmentId = r.enrollmentId) : Db × Nat :=
  ({ db with enrollments := db.enrollments.update (fun r => r.enrollmentId = enrollmentID && cond r) f hf },
    db.enrollments.count fun r => r.enrollmentId = enrollmentID && cond r)

/-- `INSERT INTO agent_enrollments …`; none where the id is taken. -/
def insertEnrollment (db : Db) (row : EnrollmentRow) : Option Db :=
  (db.enrollments.insert row).map fun enrollments => { db with enrollments }

end Db

/-! ## How calls end -/

/-- The errors the stores return; `driver` is any error of `database/sql` or MySQL. -/
inductive StoreError where
  | driver
  | agentCertificateMismatch
  | agentCertificateRevoked
  | invalidInput
  | enrollmentNotFound
  | enrollmentExpired
  | enrollmentUsed
  | enrollmentAgentMismatch
  | enrollmentRevoked
deriving DecidableEq

/-- How a commit or a statement of its own ends: carried out, refused, or carried out although the
caller gets an error. -/
inductive Outcome where
  | ok | failed | unknown
deriving DecidableEq

/-- What goes wrong in one call of a store: which of its statements fail, how its commit ends, and
what `NOW()` is. -/
structure Io where
  fails : Nat → Bool
  commit : Outcome
  clock : Time

def Io.sound (clock : Time) : Io := ⟨fun _ => false, .ok, clock⟩

/-- The `k`-th statement of a call. -/
def stmt {α : Type} (io : Io) (k : Nat) (r : Except StoreError α) : Except StoreError α :=
  if io.fails k then .error .driver else r

/-- Carry out a change whose result is known only when no error is reported. -/
def settle {α : Type} (o : Outcome) (db db' : Db) (a : Except StoreError α) : Except StoreError α × Db :=
  match o with
  | .ok => (a, db')
  | .failed => (.error .driver, db)
  | .unknown => (.error .driver, db')

/-- `BeginTx`, the body, and `Commit`; the deferred `Rollback` undoes a body that fails. -/
def runTx {α : Type} (io : Io) (db : Db) (body : Except StoreError (α × Db)) : Except StoreError α × Db :=
  match stmt io 0 body with
  | .error e => (.error e, db)
  | .ok (a, db') => settle io.commit db db' (.ok a)

theorem stmt_eq_ok {α : Type} {io : Io} {k : Nat} {r : Except StoreError α} {a : α} :
    stmt io k r = .ok a ↔ io.fails k = false ∧ r = .ok a := by
  unfold stmt
  cases io.fails k with
  | true => simp
  | false => simp

/-- A transaction that returns nil has committed its body. -/
theorem runTx_ok {α : Type} {io : Io} {db db' : Db} {body : Except StoreError (α × Db)} {a : α}
    (h : runTx io db body = (.ok a, db')) : body = .ok (a, db') := by
  unfold runTx at h
  split at h
  · cases h
  · rename_i a₁ db₁ hb
    unfold settle at h
    split at h
    · cases h; exact (stmt_eq_ok.1 hb).2
    · cases h
    · cases h

/-- A transaction leaves the database, or the one its body leaves. -/
theorem runTx_db {α : Type} (io : Io) (db : Db) (body : Except StoreError (α × Db)) :
    (runTx io db body).2 = db ∨ ∃ a, body = .ok (a, (runTx io db body).2) := by
  unfold runTx
  split
  · exact .inl rfl
  · rename_i a₁ db₁ hb
    have hbody := (stmt_eq_ok.1 hb).2
    unfold settle
    split
    · exact .inr ⟨a₁, hbody⟩
    · exact .inl rfl
    · exact .inr ⟨a₁, hbody⟩

/-- A transaction that fails leaves the database, unless its commit was carried out without an answer. -/
theorem runTx_error {α : Type} {io : Io} {db : Db} {body : Except StoreError (α × Db)} {err : StoreError}
    (h : (runTx io db body).1 = .error err) (hcommit : io.commit ≠ .unknown) : (runTx io db body).2 = db := by
  unfold runTx at h ⊢
  cases hbody : stmt io 0 body with
  | error e => rfl
  | ok r =>
    cases hc : io.commit with
    | ok =>
      rw [hbody, hc] at h
      cases h
    | failed => rfl
    | unknown => exact absurd hc hcommit

/-- A statement of its own leaves the database, or the one it makes. -/
theorem settle_db {α : Type} (o : Outcome) (db db' : Db) (a : Except StoreError α) :
    (settle o db db' a).2 = db ∨ (settle o db db' a).2 = db' := by
  cases o with
  | ok => exact .inr rfl
  | failed => exact .inl rfl
  | unknown => exact .inr rfl

end KnIg.Backend
