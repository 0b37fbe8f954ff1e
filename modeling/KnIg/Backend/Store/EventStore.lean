/-
The rows that `SaveEvent` inserts, and the columns of `schema.sql` that take them. The database refuses a text that
is not UTF-8 or has more characters than its column, and a number out of its column's range; the widths of the
columns are those of the agent's arrays, so what is left to refuse is text that is not UTF-8 and a negative id.
-/
import KnIg.Backend.Collector.AgentSession

namespace KnIg.Backend

open Lib

/-! ## Columns -/

inductive ColumnType where
  | varchar (n : Nat)
  | text
  | int
  | intUnsigned
  | bigint
  | bigintUnsigned
  | tinyint
  | tinyintUnsigned
  | datetime

inductive SqlValue where
  | text (s : Bytes)
  | int (n : Int)
  | time (t : Time)

/-- No byte of the first `n` positions is ill-formed. -/
def validFrom : Nat → Bytes → Bool
  | 0, _ => true
  | n + 1, s =>
    match s with
    | [] => true
    | b :: t => decodeRune (b :: t) ≠ (runeError, 1) ∧ validFrom n ((b :: t).drop (decodeRune (b :: t)).2)

/-- The string is UTF-8. -/
def validString (s : Bytes) : Bool := validFrom s.length s

/-- The first second of the year 1000 and the last one of the year 9999. -/
def minDatetime : Time := -30610224000
def maxDatetime : Time := 253402300799

/-- What a column takes in strict mode. -/
def ColumnType.takes : ColumnType → SqlValue → Bool
  | .varchar n, .text s => validString s ∧ (runes s).length ≤ n
  | .text, .text s => validString s ∧ s.length < 2 ^ 16
  | .int, .int v => -2 ^ 31 ≤ v ∧ v < 2 ^ 31
  | .intUnsigned, .int v => 0 ≤ v ∧ v < 2 ^ 32
  | .bigint, .int v => -2 ^ 63 ≤ v ∧ v < 2 ^ 63
  | .bigintUnsigned, .int v => 0 ≤ v ∧ v < 2 ^ 64
  | .tinyint, .int v => -2 ^ 7 ≤ v ∧ v < 2 ^ 7
  | .tinyintUnsigned, .int v => 0 ≤ v ∧ v < 2 ^ 8
  | .datetime, .time t => minDatetime ≤ t ∧ t ≤ maxDatetime
  | _, _ => false

/-- A value and the column it is for. -/
structure Cell where
  column : ColumnType
  value : SqlValue

def Cell.taken (c : Cell) : Bool := c.column.takes c.value

def sqlBool (b : Bool) : SqlValue := .int (if b then 1 else 0)

/-! ## Rows -/

/-- The values of the INSERT into `file_events`, in its order. -/
def fileEventRow (p : FileEventPayload) : List Cell :=
  [⟨.varchar 36, .text p.agentID⟩, ⟨.varchar 10, .text p.eventType⟩, ⟨.text, .text p.filePath⟩,
    ⟨.varchar 255, .text p.fileName⟩, ⟨.varchar 10, .text p.filePermission⟩, ⟨.varchar 20, .text p.detectedBy⟩,
    ⟨.int, .int p.pid⟩, ⟨.bigintUnsigned, .int p.targetDev.toNat⟩, ⟨.bigintUnsigned, .int p.targetIno.toNat⟩,
    ⟨.tinyint, sqlBool p.blocked⟩, ⟨.int, .int p.actor.pid⟩, ⟨.int, .int p.actor.ppid⟩,
    ⟨.intUnsigned, .int p.actor.uid.toNat⟩, ⟨.intUnsigned, .int p.actor.euid.toNat⟩, ⟨.int, .int p.actor.sid⟩,
    ⟨.varchar 32, .text p.actor.tty⟩, ⟨.varchar 16, .text p.actor.comm⟩, ⟨.varchar 256, .text p.actor.exe⟩,
    ⟨.text, .text p.actor.cmdline⟩, ⟨.bigintUnsigned, .int p.actor.startTimeNS.toNat⟩,
    ⟨.tinyintUnsigned, .int p.chainDepth⟩, ⟨.tinyint, sqlBool p.chainTruncated⟩, ⟨.datetime, .time p.timestamp⟩]

/-- The values of the INSERT into `file_event_process_chain`. -/
def chainRow (eventID : Int64) (i : Nat) (entry : ProcessInfo) : List Cell :=
  [⟨.bigint, .int eventID.toInt⟩, ⟨.tinyintUnsigned, .int i⟩, ⟨.int, .int entry.pid⟩, ⟨.int, .int entry.ppid⟩,
    ⟨.intUnsigned, .int entry.uid.toNat⟩, ⟨.intUnsigned, .int entry.euid.toNat⟩, ⟨.int, .int entry.sid⟩,
    ⟨.varchar 32, .text entry.tty⟩, ⟨.varchar 16, .text entry.comm⟩, ⟨.varchar 256, .text entry.exe⟩,
    ⟨.text, .text entry.cmdline⟩, ⟨.bigintUnsigned, .int entry.startTimeNS.toNat⟩]

/-- A row with a value that its column does not take is refused. -/
def insertRow (row : List Cell) : Except StoreError Unit := if row.all Cell.taken then .ok () else .error .driver

/-- The entries from number `i` on. The unique key takes them: the event is new and their numbers are distinct. -/
def insertChain (eventID : Int64) : Nat → List ProcessInfo → Except StoreError Unit
  | _, [] => .ok ()
  | i, entry :: entries =>
    match insertRow (chainRow eventID i entry) with
    | .error err => .error err
    | .ok () => insertChain eventID (i + 1) entries

/-- `SaveEvent` on a database that answers, and gives the event a number: what it refuses is refused by a
constraint. -/
def saveEvent (db : Db) (eventID : Int64) (p : FileEventPayload) : Except StoreError Unit :=
  match insertRow (fileEventRow p) with
  | .error err => .error err
  | .ok () =>
    -- the foreign key of `agent_id`
    if (db.agents.find p.agentID).isNone then .error .driver
    else insertChain eventID 0 p.chain

/-! ## What the columns take -/

theorem runesFrom_length_le (n : Nat) (s : Bytes) : (runesFrom n s).length ≤ n := by
  induction n generalizing s with
  | zero => exact Nat.le_refl 0
  | succ n ih =>
    cases s with
    | nil => exact Nat.zero_le _
    | cons b t => exact Nat.succ_le_succ (ih _)

/-- A string has no more characters than bytes. -/
theorem runes_length_le (s : Bytes) : (runes s).length ≤ s.length := runesFrom_length_le s.length s

theorem takes_varchar {n : Nat} {s : Bytes} (h : s.length ≤ n) :
    ColumnType.takes (.varchar n) (.text s) = validString s := by
  simp [ColumnType.takes, (runes_length_le s).trans h]

theorem takes_text {s : Bytes} (h : s.length < 2 ^ 16) : ColumnType.takes .text (.text s) = validString s := by
  have hlt : s.length < 65536 := h
  simp [ColumnType.takes, hlt]

/-- An unsigned id fits a signed column if its high bit is not set. -/
theorem takes_int (v : UInt32) : ColumnType.takes .int (.int v.toNat) = decide (v.toNat < 2 ^ 31) := by
  simp only [ColumnType.takes]
  refine decide_eq_decide.2 ?_
  omega

theorem takes_intUnsigned (v : UInt32) : ColumnType.takes .intUnsigned (.int v.toNat) = true := by
  have hv := v.toNat_lt
  simp only [ColumnType.takes, decide_eq_true_eq]
  omega

theorem takes_bigintUnsigned (v : UInt64) : ColumnType.takes .bigintUnsigned (.int v.toNat) = true := by
  have hv := v.toNat_lt
  simp only [ColumnType.takes, decide_eq_true_eq]
  omega

theorem takes_bigint (v : Int64) : ColumnType.takes .bigint (.int v.toInt) = true := by
  have hlo := v.le_toInt
  have hhi := v.toInt_lt
  simp only [ColumnType.takes, decide_eq_true_eq]
  omega

theorem takes_sqlBool (b : Bool) : ColumnType.takes .tinyint (sqlBool b) = true := by
  cases b <;> decide

theorem takes_tinyintUnsigned {n : Nat} (h : n < 2 ^ 8) : ColumnType.takes .tinyintUnsigned (.int n) = true := by
  simp only [ColumnType.takes, decide_eq_true_eq]
  omega

/-- The seconds of 32 bits lie within the years of a `DATETIME`. -/
theorem takes_datetime (v : UInt32) : ColumnType.takes .datetime (.time v.toNat) = true := by
  have hv := v.toNat_lt
  have hmin : (-30610224000 : Int) ≤ v.toNat := by omega
  have hmax : (v.toNat : Int) ≤ 253402300799 := by omega
  exact decide_eq_true ⟨hmin, hmax⟩

/-! ## ASCII text -/

theorem validFrom_of_ascii {s : Bytes} (h : ∀ b ∈ s, b < 0x80) (n : Nat) : validFrom n s = true := by
  induction n generalizing s with
  | zero => rfl
  | succ n ih =>
    cases s with
    | nil => rfl
    | cons b t =>
      have hb : decodeRune (b :: t) = (b.toUInt32, 1) := if_pos (h b List.mem_cons_self)
      have hrune : b.toUInt32 ≠ runeError := by
        intro heq
        have hlt : b.toNat < 128 := h b List.mem_cons_self
        have hnat : b.toNat = 0xFFFD := by simpa [runeError] using congrArg UInt32.toNat heq
        omega
      have ht := ih fun c hc => h c (List.mem_cons_of_mem b hc)
      simp [validFrom, hb, hrune, ht]

theorem decimal_ascii (n : Nat) : ∀ b ∈ decimal n, b < 0x80 := by
  intro b hb
  obtain ⟨c, hc, rfl⟩ := List.mem_map.1 hb
  have hdigit := Nat.isDigit_of_mem_toDigits (by decide) (by decide) hc
  simp only [Char.isDigit, Bool.and_eq_true, decide_eq_true_eq] at hdigit
  have hle : c.toNat ≤ 57 := hdigit.2
  rw [UInt8.lt_iff_toNat_lt]
  simp
  omega

theorem formatUint_length_le (n : UInt64) : (formatUint n).length ≤ 20 := by
  rw [formatUint, decimal, List.length_map]
  exact (Nat.length_toDigits_le_iff (by decide) (by decide)).2 (n.toNat_lt.trans (by decide))

theorem takes_formatUint (n : UInt64) : ColumnType.takes (.varchar 36) (.text (formatUint n)) = true := by
  rw [takes_varchar ((formatUint_length_le n).trans (by decide))]
  exact validFrom_of_ascii (decimal_ascii n.toNat) _

/-! ## What is saved -/

theorem insertRow_eq_ok {row : List Cell} : insertRow row = .ok () ↔ row.all Cell.taken = true := by
  unfold insertRow
  split <;> simp_all

theorem insertChain_eq_ok {eventID : Int64} {i : Nat} {entries : List ProcessInfo} :
    insertChain eventID i entries = .ok () ↔
      ∀ k e, entries[k]? = some e → (chainRow eventID (i + k) e).all Cell.taken = true := by
  induction entries generalizing i with
  | nil => simp [insertChain]
  | cons e es ih =>
    have hhead : insertChain eventID i (e :: es) = .ok () ↔
        (chainRow eventID i e).all Cell.taken = true ∧ insertChain eventID (i + 1) es = .ok () := by
      rw [← insertRow_eq_ok, insertChain]
      cases insertRow (chainRow eventID i e) <;> simp
    rw [hhead, ih]
    constructor
    · rintro ⟨he, hes⟩ k e' hk
      cases k with
      | zero =>
        cases hk
        exact he
      | succ k =>
        rw [show i + (k + 1) = i + 1 + k by omega]
        exact hes k e' hk
    · intro h
      refine ⟨h 0 e rfl, fun k e' hk => ?_⟩
      rw [show i + 1 + k = i + (k + 1) by omega]
      exact h (k + 1) e' hk

theorem saveEvent_eq_ok {db : Db} {eventID : Int64} {p : FileEventPayload} :
    saveEvent db eventID p = .ok () ↔
      (fileEventRow p).all Cell.taken = true ∧ (db.agents.find p.agentID).isSome ∧
        insertChain eventID 0 p.chain = .ok () := by
  rw [← insertRow_eq_ok, saveEvent]
  cases insertRow (fileEventRow p) with
  | error err => simp
  | ok => cases db.agents.find p.agentID <;> simp

end KnIg.Backend
