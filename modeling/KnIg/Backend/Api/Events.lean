/-
The events that a client pages through: the query that the handler's filter becomes, as a text and its arguments, what
the database takes that text for, and what it may answer. The rows are ordered by the second they occurred in, which is
no total order, and each page is a query of its own; and the text of an offset without a limit is not a statement.
-/
import KnIg.Backend.Api.Report
import KnIg.Lib.Paging

namespace KnIg.Backend

open Lib

/-! ## The query -/

/-- An argument of a query. -/
inductive SqlArg where
  | text (s : Bytes)
  | time (t : Int)
  | int (n : Int)

structure SqlQuery where
  text : Bytes
  args : List SqlArg

/-- Append a clause with its argument, if it is asked for. -/
def SqlQuery.clause (q : SqlQuery) (asked : Prop) [Decidable asked] (text : Bytes) (arg : SqlArg) : SqlQuery :=
  if asked then ⟨q.text ++ text, q.args ++ [arg]⟩ else q

def selectEvents : Bytes :=
  ascii "
		SELECT id, agent_id, event_type, file_path, file_name, file_permission, detected_by, pid,
		       target_dev, target_ino, blocked,
		       actor_pid, actor_ppid, actor_uid, actor_euid, actor_sid, actor_tty,
		       actor_comm, actor_exe, actor_cmdline, actor_start_time_ns,
		       chain_depth, chain_truncated, occurred_at, received_at
		FROM file_events WHERE 1=1"

/-- The text and the arguments that `QueryEvents` appends to. -/
def eventQuery (f : EventFilter) : SqlQuery :=
  let query : SqlQuery := ⟨selectEvents, []⟩
  let query := query.clause (f.agentID ≠ []) (ascii " AND agent_id = ?") (.text f.agentID)
  let query := query.clause (f.eventType ≠ []) (ascii " AND event_type = ?") (.text f.eventType)
  let query := query.clause (f.fromTime ≠ 0) (ascii " AND occurred_at >= ?") (.time f.fromTime)
  let query := query.clause (f.toTime ≠ 0) (ascii " AND occurred_at <= ?") (.time f.toTime)
  let query := { query with text := query.text ++ ascii " ORDER BY occurred_at DESC" }
  let query := query.clause (f.limit > 0) (ascii " LIMIT ?") (.int f.limit)
  query.clause (f.offset > 0) (ascii " OFFSET ?") (.int f.offset)

/-! ## The statement -/

inductive Condition where
  | agentIs (agentID : Bytes)
  | typeIs (eventType : Bytes)
  | notBefore (t : Int)
  | notAfter (t : Int)

/-- A statement on `file_events` with its arguments bound: the rows it selects, the latest first, and which of them it
returns. -/
structure EventSelect where
  conditions : List Condition
  limit : Option Int
  offset : Int

def isBlank (b : UInt8) : Bool := b = 32 ∨ b = 9 ∨ b = 10

/-- The words of a statement. -/
def words (text : Bytes) : List Bytes := (text.splitOnP isBlank).filter (· ≠ [])

/-- The columns of `file_events`. -/
def fileEventColumns : List Bytes :=
  ["id", "agent_id", "event_type", "file_path", "file_name", "file_permission", "detected_by", "pid", "target_dev",
    "target_ino", "blocked", "actor_pid", "actor_ppid", "actor_uid", "actor_euid", "actor_sid", "actor_tty",
    "actor_comm", "actor_exe", "actor_cmdline", "actor_start_time_ns", "chain_depth", "chain_truncated",
    "occurred_at", "received_at"].map ascii

/-- The words behind a list of columns. Each but the last has a comma. -/
def afterColumns : List Bytes → Option (List Bytes)
  | [] => none
  | w :: ws =>
    if w ∈ fileEventColumns then some ws
    else if w.getLast? = some 44 ∧ w.dropLast ∈ fileEventColumns then afterColumns ws
    else none

/-- What a comparison with an argument asks for. -/
def comparison (column op : Bytes) : SqlArg → Option Condition
  | .text s =>
    if column = ascii "agent_id" ∧ op = ascii "=" then some (.agentIs s)
    else if column = ascii "event_type" ∧ op = ascii "=" then some (.typeIs s)
    else none
  | .time t =>
    if column = ascii "occurred_at" ∧ op = ascii ">=" then some (.notBefore t)
    else if column = ascii "occurred_at" ∧ op = ascii "<=" then some (.notAfter t)
    else none
  | .int _ => none

/-- The conditions that follow, and the words and arguments behind them. -/
def parseConditions : List Bytes → List SqlArg → Option (List Condition × List Bytes × List SqlArg)
  | conj :: column :: op :: mark :: ws, arg :: args =>
    if conj = ascii "AND" then
      if mark = ascii "?" then do
        let c ← comparison column op arg
        let (cs, rest) ← parseConditions ws args
        some (c :: cs, rest)
      else none
    else some ([], conj :: column :: op :: mark :: ws, arg :: args)
  | ws, args => some ([], ws, args)

/-- What may follow the order: nothing, a limit, or a limit and an offset. No word and no argument is left over. -/
def parseLimit (ws : List Bytes) (args : List SqlArg) : Option (Option Int × Int) :=
  if ws = [] then
    match args with
    | [] => some (none, 0)
    | _ => none
  else if ws = words (ascii "LIMIT ?") then
    match args with
    | [.int limit] => if 0 ≤ limit then some (some limit, 0) else none
    | _ => none
  else if ws = words (ascii "LIMIT ? OFFSET ?") then
    match args with
    | [.int limit, .int offset] => if 0 ≤ limit ∧ 0 ≤ offset then some (some limit, offset) else none
    | _ => none
  else none

/-- The words behind those that must come next. -/
def expect (expected ws : List Bytes) : Option (List Bytes) :=
  if expected.isPrefixOf ws then some (ws.drop expected.length) else none

/-- The statement that the database takes a query for, if it is one. -/
def prepare (q : SqlQuery) : Option EventSelect := do
  let ws ← expect (words (ascii "SELECT")) (words q.text)
  let ws ← afterColumns ws
  let ws ← expect (words (ascii "FROM file_events WHERE 1=1")) ws
  let (conditions, ws, args) ← parseConditions ws q.args
  let ws ← expect (words (ascii "ORDER BY occurred_at DESC")) ws
  let (limit, offset) ← parseLimit ws args
  some ⟨conditions, limit, offset⟩

/-- The database takes the query. -/
def SqlQuery.Valid (q : SqlQuery) : Prop := (prepare q).isSome

instance (q : SqlQuery) : Decidable q.Valid := inferInstanceAs (Decidable (_ = true))

/-! ## What the database answers -/

def Condition.holds (r : EventRow) : Condition → Bool
  | .agentIs agentID => r.payload.agentID = agentID
  | .typeIs eventType => r.payload.eventType = eventType
  | .notBefore t => t ≤ r.occurredAt
  | .notAfter t => r.occurredAt ≤ t

/-- The rows that a statement returns of those it selects, once they are in order. -/
def EventSelect.window (s : EventSelect) (order : List EventRow) : List EventRow :=
  match s.limit with
  | some limit => (order.drop s.offset.toNat).take limit.toNat
  | none => order

/-- The database may answer with these rows: it picks an order of those that occurred in the same second. -/
def EventSelect.Answers (s : EventSelect) (db : ReportDb) (rows : List EventRow) : Prop :=
  ∃ order, Ordering EventRow.occurredAt
      ((db.fileEvents.rows.filter fun r => s.conditions.all (·.holds r)).map EventRow.bare) order ∧
    rows = s.window order

/-- `QueryEvents` may return these rows. -/
def QueryEventsReturns (db : ReportDb) (f : EventFilter) (rows : List EventRow) : Prop :=
  ∃ s, prepare (eventQuery f) = some s ∧ s.Answers db rows

/-! ## The handler -/

/-- A query parameter: absent or empty, not what `strconv.Atoi` takes, or a number. -/
inductive IntParam where
  | absent
  | invalid
  | is (n : Int64)

/-- The parameter is a number above 0. -/
def IntParam.positive : IntParam → Bool
  | .is n => 0 < n.toInt
  | _ => false

/-- The parameters of GET /api/events. -/
structure EventsRequest where
  agentID : Bytes
  eventType : Bytes
  fromTime : TimeParam
  toTime : TimeParam
  limit : IntParam
  offset : IntParam

/-- A number, or 0 where there is none. -/
def parseIntParam (error : Bytes) : IntParam → Except ReportError Int
  | .absent => .ok 0
  | .invalid => .error (.badRequest error)
  | .is n => .ok n.toInt

/-- The filter that `handleQueryEvents` makes of a request. -/
def eventsFilter (r : EventsRequest) : Except ReportError EventFilter := do
  let fromTime ← parseParam 0 (ascii "invalid from format, use RFC3339") r.fromTime
  let toTime ← parseParam 0 (ascii "invalid to format, use RFC3339") r.toTime
  let limit ← parseIntParam (ascii "invalid limit") r.limit
  let offset ← parseIntParam (ascii "invalid offset") r.offset
  return { agentID := r.agentID, eventType := r.eventType, fromTime, toTime, limit, offset }

theorem parseIntParam_pos {error : Bytes} {p : IntParam} {n : Int} (h : parseIntParam error p = .ok n) :
    0 < n ↔ p.positive := by
  cases p with
  | absent => cases h; simp [IntParam.positive]
  | invalid => cases h
  | is m => cases h; simp [IntParam.positive]

/-- The filter has a limit and an offset where the request does. -/
theorem eventsFilter_ok {r : EventsRequest} {f : EventFilter} (h : eventsFilter r = .ok f) :
    (0 < f.limit ↔ r.limit.positive) ∧ (0 < f.offset ↔ r.offset.positive) := by
  unfold eventsFilter at h
  obtain ⟨fromTime, -, h⟩ := bind_eq_ok.1 h
  obtain ⟨toTime, -, h⟩ := bind_eq_ok.1 h
  obtain ⟨limit, hlimit, h⟩ := bind_eq_ok.1 h
  obtain ⟨offset, hoffset, h⟩ := bind_eq_ok.1 h
  cases h
  exact ⟨parseIntParam_pos hlimit, parseIntParam_pos hoffset⟩

/-! ## What a filter's query is taken for -/

theorem words_append {text clause : Bytes} (h : clause.head? = some 32) :
    words (text ++ clause) = words text ++ words clause := by
  obtain ⟨rest, rfl⟩ : ∃ rest, clause = 32 :: rest := List.head?_eq_some_iff.1 h
  have hsplit : (text ++ 32 :: rest).splitOnP isBlank = text.splitOnP isBlank ++ rest.splitOnP isBlank :=
    List.splitOnP_append_cons text rest rfl
  have hclause : (32 :: rest).splitOnP isBlank = [] :: rest.splitOnP isBlank :=
    List.splitOnP_append_cons [] rest rfl
  unfold words
  rw [hsplit, hclause, List.filter_append]
  rfl

/-- A clause that may be left out. -/
def optional {α : Type} (asked : Prop) [Decidable asked] (as : List α) : List α := if asked then as else []

theorem SqlQuery.clause_args (q : SqlQuery) (asked : Prop) [Decidable asked] (text : Bytes) (arg : SqlArg) :
    (q.clause asked text arg).args = q.args ++ optional asked [arg] := by
  unfold SqlQuery.clause optional
  split <;> simp

theorem SqlQuery.words_clause (q : SqlQuery) (asked : Prop) [Decidable asked] {text : Bytes} (arg : SqlArg)
    (h : text.head? = some 32) :
    words (q.clause asked text arg).text = words q.text ++ optional asked (words text) := by
  unfold SqlQuery.clause optional
  split
  · exact words_append h
  · exact (List.append_nil _).symm

/-- A comparison that may be left out becomes a condition that may be left out. -/
theorem parseConditions_optional (asked : Prop) [Decidable asked] {clause : Bytes} {arg : SqlArg} (c : Condition)
    (column op : Bytes) (hwords : words clause = [ascii "AND", column, op, ascii "?"])
    (hc : comparison column op arg = some c) (ws : List Bytes) (args : List SqlArg) :
    parseConditions (optional asked (words clause) ++ ws) (optional asked [arg] ++ args) =
      (parseConditions ws args).map fun p => (optional asked [c] ++ p.1, p.2) := by
  by_cases h : asked
  · simp only [optional, if_pos h, hwords, List.cons_append, List.nil_append, parseConditions, if_true, hc,
      Option.bind_eq_bind, Option.bind_some]
    cases parseConditions ws args <;> rfl
  · simp only [optional, if_neg h, List.nil_append]
    cases parseConditions ws args <;> rfl

/-- The conditions that a filter sets. -/
def EventFilter.conditions (f : EventFilter) : List Condition :=
  optional (f.agentID ≠ []) [.agentIs f.agentID] ++ (optional (f.eventType ≠ []) [.typeIs f.eventType] ++
    (optional (f.fromTime ≠ 0) [.notBefore f.fromTime] ++ optional (f.toTime ≠ 0) [.notAfter f.toTime]))

theorem all_optional (asked : Prop) [Decidable asked] (c : Condition) (p : Condition → Bool) :
    (optional asked [c]).all p = true ↔ ¬ asked ∨ p c = true := by
  unfold optional
  split
  · rename_i h
    simp [h]
  · rename_i h
    simp [h]

/-- The conditions select what the filter asks for. -/
theorem all_conditions (f : EventFilter) (r : EventRow) : f.conditions.all (·.holds r) = f.selects r := by
  rw [Bool.eq_iff_iff]
  unfold EventFilter.conditions EventFilter.selects within
  simp only [List.all_append, Bool.and_eq_true, all_optional, Condition.holds, decide_eq_true_eq, not_not, ne_eq]

theorem words_eventQuery (f : EventFilter) : words (eventQuery f).text =
    words selectEvents ++ (optional (f.agentID ≠ []) (words (ascii " AND agent_id = ?")) ++
      (optional (f.eventType ≠ []) (words (ascii " AND event_type = ?")) ++
        (optional (f.fromTime ≠ 0) (words (ascii " AND occurred_at >= ?")) ++
          (optional (f.toTime ≠ 0) (words (ascii " AND occurred_at <= ?")) ++
            (words (ascii " ORDER BY occurred_at DESC") ++ (optional (f.limit > 0) (words (ascii " LIMIT ?")) ++
              optional (f.offset > 0) (words (ascii " OFFSET ?")))))))) := by
  unfold eventQuery
  rw [SqlQuery.words_clause _ _ _ rfl, SqlQuery.words_clause _ _ _ rfl, words_append rfl,
    SqlQuery.words_clause _ _ _ rfl, SqlQuery.words_clause _ _ _ rfl, SqlQuery.words_clause _ _ _ rfl,
    SqlQuery.words_clause _ _ _ rfl]
  simp only [List.append_assoc]

theorem args_eventQuery (f : EventFilter) : (eventQuery f).args =
    optional (f.agentID ≠ []) [.text f.agentID] ++ (optional (f.eventType ≠ []) [.text f.eventType] ++
      (optional (f.fromTime ≠ 0) [.time f.fromTime] ++ (optional (f.toTime ≠ 0) [.time f.toTime] ++
        (optional (f.limit > 0) [.int f.limit] ++ optional (f.offset > 0) [.int f.offset])))) := by
  unfold eventQuery
  simp only [SqlQuery.clause_args, List.nil_append, List.append_assoc]

theorem expect_append (expected ws : List Bytes) : expect expected (expected ++ ws) = some ws := by
  unfold expect
  rw [if_pos (List.isPrefixOf_iff_prefix.2 (List.prefix_append expected ws)), List.drop_left]

theorem afterColumns_append {cols : List Bytes} (h : afterColumns cols = some []) (ws : List Bytes) :
    afterColumns (cols ++ ws) = some ws := by
  induction cols with
  | nil => simp [afterColumns] at h
  | cons w cols ih =>
    unfold afterColumns at h
    rw [List.cons_append, afterColumns]
    split at h
    · rename_i hw
      cases h
      exact if_pos hw
    · rename_i hw
      rw [if_neg hw]
      split at h
      · rename_i hcomma
        rw [if_pos hcomma]
        exact ih h
      · cases h

/-- The words between `SELECT` and `FROM`. -/
def selectedColumns : List Bytes := ((words selectEvents).drop 1).take 25

theorem words_selectEvents : words selectEvents =
    words (ascii "SELECT") ++ (selectedColumns ++ words (ascii "FROM file_events WHERE 1=1")) := by
  rw [selectedColumns, selectEvents, ascii_ofList]
  decide +kernel

theorem afterColumns_selectedColumns : afterColumns selectedColumns = some [] := by
  rw [selectedColumns, selectEvents, ascii_ofList]
  decide +kernel

theorem parseConditions_order (ws : List Bytes) (args : List SqlArg) :
    parseConditions (words (ascii "ORDER BY occurred_at DESC") ++ ws) args =
      some ([], words (ascii "ORDER BY occurred_at DESC") ++ ws, args) := by
  have hwords : words (ascii "ORDER BY occurred_at DESC") = ["ORDER", "BY", "occurred_at", "DESC"].map ascii := by
    decide
  rw [hwords]
  cases args with
  | nil => rfl
  | cons arg args => exact if_neg (by decide)

theorem parseLimit_optional (limit offset : Int) :
    parseLimit (optional (limit > 0) (words (ascii " LIMIT ?")) ++ optional (offset > 0) (words (ascii " OFFSET ?")))
        (optional (limit > 0) [.int limit] ++ optional (offset > 0) [.int offset]) =
      if limit ≤ 0 ∧ 0 < offset then none
      else some (if 0 < limit then some limit else none, if 0 < offset then offset else 0) := by
  have hlimit : words (ascii " LIMIT ?") = [ascii "LIMIT", ascii "?"] := by decide
  have hoffset : words (ascii " OFFSET ?") = [ascii "OFFSET", ascii "?"] := by decide
  have hboth : words (ascii "LIMIT ? OFFSET ?") = [ascii "LIMIT", ascii "?", ascii "OFFSET", ascii "?"] := by decide
  have hone : words (ascii "LIMIT ?") = [ascii "LIMIT", ascii "?"] := by decide
  have hne : ascii "OFFSET" ≠ ascii "LIMIT" := by decide
  unfold optional parseLimit
  rw [hlimit, hoffset, hboth, hone]
  by_cases hl : 0 < limit
  · have hl' : ¬ limit ≤ 0 := not_le.2 hl
    by_cases ho : 0 < offset
    · simp [hl, hl', ho, hl.le, ho.le]
    · simp [hl, hl', ho, hl.le]
  · by_cases ho : 0 < offset
    · simp [hl, ho, hne, not_lt.1 hl]
    · simp [hl, ho]

/-- Of a query for columns of the table, what stands behind `WHERE 1=1` decides. -/
theorem prepare_columns {q : SqlQuery} {cols ws : List Bytes} (hcols : afterColumns cols = some [])
    (h : words q.text = words (ascii "SELECT") ++ (cols ++ words (ascii "FROM file_events WHERE 1=1")) ++ ws) :
    prepare q = (do
      let (conditions, ws, args) ← parseConditions ws q.args
      let ws ← expect (words (ascii "ORDER BY occurred_at DESC")) ws
      let (limit, offset) ← parseLimit ws args
      some ⟨conditions, limit, offset⟩) := by
  unfold prepare
  rw [h]
  simp only [List.append_assoc, expect_append, Option.bind_eq_bind, Option.bind_some, afterColumns_append hcols]

/-- A filter's query is a statement unless it asks for an offset only. -/
theorem prepare_eventQuery (f : EventFilter) : prepare (eventQuery f) =
    if f.limit ≤ 0 ∧ 0 < f.offset then none
    else some ⟨f.conditions, if 0 < f.limit then some f.limit else none, if 0 < f.offset then f.offset else 0⟩ := by
  have horder : words (ascii " ORDER BY occurred_at DESC") = words (ascii "ORDER BY occurred_at DESC") := by decide
  have hwords := words_eventQuery f
  rw [words_selectEvents] at hwords
  rw [prepare_columns afterColumns_selectedColumns hwords, args_eventQuery]
  simp only [Option.bind_eq_bind]
  rw [parseConditions_optional _ (.agentIs f.agentID) (ascii "agent_id") (ascii "=") (by decide) rfl,
    parseConditions_optional _ (.typeIs f.eventType) (ascii "event_type") (ascii "=") (by decide) rfl,
    parseConditions_optional _ (.notBefore f.fromTime) (ascii "occurred_at") (ascii ">=") (by decide) rfl,
    parseConditions_optional _ (.notAfter f.toTime) (ascii "occurred_at") (ascii "<=") (by decide) rfl,
    horder, parseConditions_order]
  simp only [Option.map_some, Option.bind_some, expect_append, parseLimit_optional, List.append_nil]
  split <;> rfl

/-! ## Pages -/

section Pages

variable (db : ReportDb) (f : EventFilter)

/-- The rows that a filter selects, without their chains. -/
def matchingEvents : List EventRow := (db.fileEvents.rows.filter f.selects).map EventRow.bare

/-- The filter for page `k`, of `n` events. -/
def EventFilter.pageOf (n k : Nat) : EventFilter := { f with limit := n, offset := k * n }

/-- Whatever `QueryEvents` returns for the offsets 0, `n`, `2 * n` and so on, until all events are asked for, together
it is every matching event once. -/
def PagesReturned (n : Nat) : Prop :=
  ∀ pages : Nat → List EventRow, (∀ k, QueryEventsReturns db (f.pageOf n k) (pages k)) →
    ∀ K, (matchingEvents db f).length ≤ K * n → ((List.range K).flatMap pages).Perm (matchingEvents db f)

variable {db f}

/-- The statement of a filter answers with the rows that the filter selects. -/
theorem queryEventsReturns_iff (rows : List EventRow) : QueryEventsReturns db f rows ↔
    ¬ (f.limit ≤ 0 ∧ 0 < f.offset) ∧ ∃ order, Ordering EventRow.occurredAt (matchingEvents db f) order ∧
      rows = if 0 < f.limit then (order.drop f.offset.toNat).take f.limit.toNat else order := by
  have hselect : (db.fileEvents.rows.filter fun r => f.conditions.all (·.holds r)) =
      db.fileEvents.rows.filter f.selects := List.filter_congr fun r _ => all_conditions f r
  have hoffset : (if 0 < f.offset then f.offset else 0).toNat = f.offset.toNat := by
    split <;> omega
  unfold QueryEventsReturns
  rw [prepare_eventQuery]
  split
  · rename_i hbad
    simp [hbad]
  · rename_i hok
    simp only [Option.some.injEq, exists_eq_left', EventSelect.Answers, hselect, hok, not_false_eq_true, true_and]
    refine exists_congr fun order => and_congr_right fun _ => ?_
    unfold EventSelect.window
    by_cases hl : 0 < f.limit
    · simp only [if_pos hl, hoffset]
    · simp only [if_neg hl]

theorem queryEventsReturns_pageOf {n : Nat} (hn : 0 < n) (k : Nat) (rows : List EventRow) :
    QueryEventsReturns db (f.pageOf n k) rows ↔
      ∃ order, Ordering EventRow.occurredAt (matchingEvents db f) order ∧ rows = pageAt n k order := by
  have hlimit : 0 < (f.pageOf n k).limit := Int.natCast_pos.2 hn
  have hoffset : (f.pageOf n k).offset.toNat = k * n := by
    have hcast : (f.pageOf n k).offset = ((k * n : Nat) : Int) := by
      rw [Nat.cast_mul]
      rfl
    rw [hcast, Int.toNat_natCast]
  rw [queryEventsReturns_iff, and_iff_right fun h => absurd hlimit (not_lt.2 h.1), hoffset]
  simp only [if_pos hlimit]
  rfl

theorem pagesReturned_iff {n : Nat} (hn : 0 < n) :
    PagesReturned db f n ↔ PagesComplete EventRow.occurredAt (matchingEvents db f) n := by
  unfold PagesReturned PagesComplete
  constructor
  · intro h orders horders K hK
    refine h (fun k => pageAt n k (orders k)) (fun k => ?_) K hK
    exact (queryEventsReturns_pageOf hn k _).2 ⟨orders k, horders k, rfl⟩
  · intro h pages hpages K hK
    choose orders horders hrows using fun k => (queryEventsReturns_pageOf hn k _).1 (hpages k)
    rw [funext hrows]
    exact h orders horders K hK

/-- The order in which the rows are kept is one that the database may pick. -/
theorem queryEvents_returns {rows : List EventRow} (h : queryEvents false db f = .ok rows) :
    QueryEventsReturns db f rows := by
  have horder : Ordering EventRow.occurredAt (matchingEvents db f)
      ((sortDown EventRow.occurredAt (db.fileEvents.rows.filter f.selects)).map EventRow.bare) :=
    ⟨(sortDown_perm _ _).map _, List.pairwise_map.2 (pairwise_sortDown EventRow.occurredAt _)⟩
  unfold queryEvents page at h
  rw [if_neg Bool.false_ne_true] at h
  rw [queryEventsReturns_iff]
  split at h
  · rename_i hl
    cases h
    exact ⟨fun hbad => absurd hl (not_lt.2 hbad.1), _, horder, (if_pos hl).symm⟩
  · rename_i hl
    split at h
    · cases h
    · rename_i ho
      cases h
      exact ⟨fun hbad => ho hbad.2, _, horder, (if_neg hl).symm⟩

theorem nodup_matchingEvents : (matchingEvents db f).Nodup := by
  have hids : ((matchingEvents db f).map EventRow.id).Nodup := by
    unfold matchingEvents
    rw [List.map_map]
    exact db.fileEvents.nodup_map_filter f.selects
  exact List.Nodup.of_map _ hids

/-- An event is on one page and no other, whatever the database does with events of the same second, if and only if no
such events are on both sides of the end of a page. A request builds a query that the database takes if and only if it
does not ask for an offset above 0 without a limit above 0. -/
theorem pages_and_queries_iff {n : Nat} (hn : 0 < n) {r : EventsRequest} {g : EventFilter}
    (hg : eventsFilter r = .ok g) :
    (PagesReturned db f n ↔ ∀ k, ¬ TieAcross EventRow.occurredAt (matchingEvents db f) (k * n)) ∧
      ((eventQuery g).Valid ↔ (r.offset.positive → r.limit.positive)) := by
  obtain ⟨hlimit, hoffset⟩ := eventsFilter_ok hg
  refine ⟨(pagesReturned_iff hn).trans (pagesComplete_iff nodup_matchingEvents hn), ?_⟩
  unfold SqlQuery.Valid
  rw [prepare_eventQuery, ← hlimit, ← hoffset]
  split
  · rename_i hbad
    simpa using hbad.symm
  · rename_i hok
    simpa [imp_iff_not_or, or_comm] using hok

end Pages

/-! ## Two events of one second -/

section TwoEvents

theorem seenAt_datetime : ColumnType.datetime.takes (.time (seenAt 100).timestamp) = true := rfl

def twoEvents : ReportDb where
  toDb := .empty
  fileEvents := ⟨[⟨1, seenAt 100, 100, seenAt_datetime⟩, ⟨2, seenAt 100, 100, seenAt_datetime⟩], by decide⟩
  alerts := .empty

def anyEvent : EventFilter := { fromTime := 0, toTime := 0, limit := 0 }

/-- A request with no parameters but a limit and an offset. -/
def pageRequest (limit offset : IntParam) : EventsRequest := ⟨[], [], .absent, .absent, limit, offset⟩

theorem pages_and_queries_twoEvents :
    PagesReturned twoEvents anyEvent 2 ∧ (eventQuery { anyEvent with limit := 2, offset := 2 }).Valid := by
  have hiff := @pages_and_queries_iff twoEvents anyEvent 2 (by decide) (pageRequest (.is 2) (.is 2))
    { anyEvent with limit := 2, offset := 2 } rfl
  refine ⟨hiff.1.2 fun k htie => ?_, hiff.2.2 (by decide)⟩
  -- the one page ends where the events do
  obtain ⟨t, habove, hat⟩ := htie
  have hle : atLeast EventRow.occurredAt t (matchingEvents twoEvents anyEvent) ≤ 2 := List.countP_le_length
  omega

theorem pages_and_queries_fails : ¬ PagesReturned twoEvents anyEvent 1 ∧
    eventsFilter (pageRequest .absent (.is 1)) = .ok { anyEvent with offset := 1 } ∧
      ¬ (eventQuery { anyEvent with offset := 1 }).Valid := by
  refine ⟨fun h => ?_, rfl, by simp [SqlQuery.Valid, prepare_eventQuery, anyEvent]⟩
  have htie : TieAcross EventRow.occurredAt (matchingEvents twoEvents anyEvent) (1 * 1) :=
    ⟨timeUnix 100, by decide, by decide⟩
  exact htie.not_pagesComplete nodup_matchingEvents (by decide) ((pagesReturned_iff (by decide)).1 h)

end TwoEvents

end KnIg.Backend
