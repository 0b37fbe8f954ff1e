/-
The enrollment server: what one connection does from its hello to its acknowledgement, and any number
of connections whose store calls interleave on one database with the calls of the rest of the server.
`net.ParseIP` is the standard library's and stays a parameter; the XOR-protected frames only decide
whether a connection goes on.
-/
import KnIg.Backend.Collector.Identity
import KnIg.Backend.Store.EnrollmentStore
import KnIg.Lib.Run
import Mathlib.Logic.Function.Basic

namespace KnIg.Backend

open Lib

/-! ## One connection -/

/-- The decoded protected request. -/
structure Request where
  hostname : Bytes
  ip : Bytes
  monitorType : UInt8
  os : Bytes

/-- What the issuer returns, without the PEM texts the store never sees. -/
structure IssuedCertificate where
  certSubjectHash : Bytes
  certFingerprint : Bytes
  issuedAt : Option Time
  expiresAt : Option Time

/-- An `Enroll` past its checks: the agent id of the request is the expected one, if one is expected. -/
structure Enrolling where
  expectedAgentID : Bytes
  agentID : Bytes
  payload : RegisterPayload
  agrees : expectedAgentID ≠ [] → expectedAgentID = agentID

def IssuedCertificate.toAgentCertificate (c : IssuedCertificate) (agentID : Bytes) : AgentCertificate :=
  ⟨agentID, c.certSubjectHash, c.certFingerprint, c.issuedAt, c.expiresAt⟩

section Enroll

variable (parseIP : Bytes → Option Bytes)

/-- `Enroll` up to its claim. -/
def checkRequest (enrollmentID expectedAgentID : Bytes) (req : Request) : Except StoreError Enrolling :=
  if enrollmentID = [] ∨ req.hostname = [] ∨ req.ip = [] then .error .invalidInput
  else
    match parseIP req.ip with
    | none => .error .invalidInput
    | some ip =>
      let agentID := formatUint (generateAgentID req.hostname ip)
      if h : expectedAgentID ≠ [] ∧ expectedAgentID ≠ agentID then .error .enrollmentAgentMismatch
      else
        .ok
          { expectedAgentID
            agentID
            payload := ⟨req.hostname, req.ip, req.os, monitorTypeName req.monitorType⟩
            agrees := fun hne => by_contra fun hna => h ⟨hne, hna⟩ }

/-- Where a connection stands in `handleConn` and in the `Enroll` it calls. -/
inductive Phase where
  | hello
  | handshake (row : Enrollment)
  | ready (e : Enrolling)
  | claimed (e : Enrolling)
  | issued (e : Enrolling) (cert : AgentCertificate)
  | releasing (e : Enrolling)
  | acking (agentID : Bytes)
  | closed

/-- What a connection does next. `close` is any step that ends it outside `Enroll`: a frame that
fails, an error reply, an acknowledgement that never comes. -/
inductive ConnStep where
  | getPending (now : Time) (io : Io)
  | request (req : Request)
  | claim (now : Time) (o : Outcome)
  | issue (cert : Option IssuedCertificate)
  | finalize (now : Time) (io : Io)
  | release (o : Outcome)
  | ack (now : Time) (o : Outcome)
  | close

/-- A `FinalizeEnrollmentIssue` that committed. -/
structure Commit where
  enrollmentID : Bytes
  agentID : Bytes
  now : Time
deriving DecidableEq

/-- One step of a connection for an enrollment id: where it then stands, the database and the commits
made. A step that is not the next one of the phase does nothing. -/
def connStep (id : Bytes) (db : Db) : Phase → ConnStep → Phase × Db × List Commit
  | .hello, .getPending now io =>
    match getPendingEnrollment io db id now with
    | (.ok row, db) => (.handshake row, db, [])
    | (.error _, db) => (.closed, db, [])
  | .hello, .close => (.closed, db, [])
  | .handshake row, .request req =>
    match checkRequest parseIP id row.agentID req with
    | .ok e => (.ready e, db, [])
    | .error _ => (.closed, db, [])
  | .handshake _, .close => (.closed, db, [])
  | .ready e, .claim now o =>
    match claimEnrollment o db id e.agentID now with
    | (.ok (), db) => (.claimed e, db, [])
    | (.error _, db) => (.closed, db, [])
  | .claimed e, .issue none => (.releasing e, db, [])
  | .claimed e, .issue (some cert) => (.issued e (cert.toAgentCertificate e.agentID), db, [])
  | .issued e cert, .finalize now io =>
    let commits := if finalizeCommits io db id e.agentID e.payload cert now then [⟨id, e.agentID, now⟩] else []
    match finalizeEnrollmentIssue io db id e.agentID e.payload cert now with
    | (.ok (), db) => (.acking e.agentID, db, commits)
    | (.error _, db) => (.releasing e, db, commits)
  | .releasing e, .release o =>
    (.closed, (releaseEnrollmentClaim o db id e.agentID (e.expectedAgentID ≠ [])).2, [])
  | .acking agentID, .ack now o => (.closed, (markEnrollmentUsed o db id agentID now).2, [])
  | .acking _, .close => (.closed, db, [])
  | phase, _ => (phase, db, [])

end Enroll

/-! ## The server -/

structure Conn where
  enrollmentID : Bytes
  phase : Phase

/-- The database, the connections, and every commit made so far. -/
structure Server where
  db : Db
  conns : Nat → Conn
  commits : List Commit

/-- A call of the rest of the server on the same database. -/
inductive OtherCall where
  | register (io : Io) (agentID : Bytes) (p : RegisterPayload) (cert : AgentCertificate)
  | deleteAgent (o : Outcome) (agentID : Bytes)
  | create (o : Outcome) (clock : Time) (e : Enrollment)

def OtherCall.run (db : Db) : OtherCall → Db
  | register io agentID p cert => (registerAgentWithCertificate io db agentID p cert).2
  | deleteAgent o agentID => (KnIg.Backend.deleteAgent o db agentID).2
  | create o clock e => (createEnrollment o clock db e).2

inductive Event where
  | conn (i : Nat) (step : ConnStep)
  | other (call : OtherCall)

def Server.step (parseIP : Bytes → Option Bytes) (s : Server) : Event → Server
  | .conn i step =>
    let (phase, db, commits) := connStep parseIP (s.conns i).enrollmentID s.db (s.conns i).phase step
    { db, conns := Function.update s.conns i { s.conns i with phase }, commits := s.commits ++ commits }
  | .other call => { s with db := call.run s.db }

/-- The server before its connections do anything; each is for the enrollment id of its hello. -/
def Server.start (db : Db) (ids : Nat → Bytes) : Server := ⟨db, fun i => ⟨ids i, .hello⟩, []⟩

/-- The server after a run. -/
def Server.run (parseIP : Bytes → Option Bytes) (s : Server) (evs : List Event) : Server :=
  evs.foldl (Server.step parseIP) s

/-- The commits for one enrollment. -/
def Server.commitsFor (s : Server) (id : Bytes) : List Commit := s.commits.filter (·.enrollmentID = id)

end KnIg.Backend
