/-
The report assembled: a skeleton, the fields a language model's patch may write in it, and the
techniques it adds carried into the matrix and the glossary. When a patch raises.
-/
import KnIg.Report.Aggregate
import KnIg.Report.Schemas

namespace KnIg.Report

open Lib Lib.Text Classify

/-- The characters `str.strip` removes. -/
def isSpace (c : Nat) : Bool :=
  (9 ≤ c && c ≤ 13) || (28 ≤ c && c ≤ 32) || c = 133 || c = 160 || c = 5760 || (8192 ≤ c && c ≤ 8202) || c = 8232 ||
    c = 8233 || c = 8239 || c = 8287 || c = 12288

def strip (s : Str) : Str := ((s.dropWhile isSpace).reverse.dropWhile isSpace).reverse

/-- `int` of a value, or the default where it raises a type or value error. It raises an overflow for
an infinity, which nothing catches. -/
def asInt (rt : Runtime) (v : PyVal) : Except PyError Int :=
  match v with
  | .int n => .ok n
  | .bool b => .ok b.toNat
  | .float (.fin q) => .ok (Int.tdiv q.num q.den)
  | .float .nan => .ok (-1)
  | .float (.inf _) => .error .overflowError
  | .str s => .ok ((rt.int s).getD (-1))
  | .none | .list _ | .dict _ => .ok (-1)

/-- A change of the item an entry's index names; entries of another kind or index change nothing. -/
def onEntry {α : Type} (rt : Runtime) (change : List (Str × PyVal) → α → α) (items : List α) (entry : PyVal) :
    Except PyError (List α) :=
  match entry with
  | .dict kvs => do
    let i ← asInt rt (pyGet kvs "index")
    -- an entry without an index has the index -1
    return if 0 ≤ i ∧ i < items.length then items.modify i.toNat (change kvs) else items
  | _ => .ok items

/-- The changes of a patch's entries one after another, if the patch is a list. -/
def onEntries {α : Type} (rt : Runtime) (change : List (Str × PyVal) → α → α) (items : List α) (patch : PyVal) :
    Except PyError (List α) :=
  match patch with
  | .list entries => entries.foldlM (onEntry rt change) items
  | _ => .ok items

/-- The fields an entry has text for. -/
def writeFields {α : Type} (fields : List (String × (Str → α → α))) (kvs : List (Str × PyVal)) (item : α) : α :=
  fields.foldl (fun item (f, write) =>
    match pyGet kvs f with
    | .str val => if strip val ≠ [] then write (strip val) item else item
    | _ => item) item

def overlay {α : Type} (rt : Runtime) (fields : List (String × (Str → α → α))) (items : List α) (patch : PyVal) :
    Except PyError (List α) := onEntries rt (writeFields fields) items patch

def findingFields : List (String × (Str → Finding → Finding)) :=
  [("tag", fun s x => { x with tag := s }), ("title", fun s x => { x with title := s }),
    ("body", fun s x => { x with body := s })]

def recFields : List (String × (Str → Rec → Rec)) :=
  [("title", fun s x => { x with title := s }), ("body", fun s x => { x with body := s }),
    ("link", fun s x => { x with link := s })]

def incidentFields : List (String × (Str → Incident → Incident)) :=
  [("desc", fun s x => { x with desc := s }), ("detail", fun s x => { x with detail := s }),
    ("finding", fun s x => { x with finding := s })]

def sevOk : List Str := [txt "Critical", txt "High", txt "Medium", txt "Low"]

/-- The proposed techniques the glossary knows, themselves or by their base. -/
def validMitre (ids : PyVal) : List Str :=
  match ids with
  | .list vs => vs.filterMap fun v =>
    match v with
    | .str t => if strip t ≠ [] ∧ (glossaryMeta (strip t)).isSome = true then some (strip t) else none
    | _ => none
  | _ => []

/-- What an entry changes of an incident's techniques and severity. -/
def classifyIncident (kvs : List (Str × PyVal)) (inc : Incident) : Incident :=
  let mitre := validMitre (pyGet kvs "mitre")
  let inc :=
    if mitre ≠ [] then
      { inc with mitre := dedupe (inc.mitre ++ mitre), kill := killFor (dedupe (inc.mitre ++ mitre)) }
    else inc
  match pyGet kvs "sev" with
  | .str sev => if sev ∈ sevOk then { inc with sev } else inc
  | _ => inc

def applyIncidentClassification (rt : Runtime) (incidents : List Incident) (patch : PyVal) :
    Except PyError (List Incident) := onEntries rt classifyIncident incidents patch

/-! ## Matrix and glossary -/

/-- The techniques of the incidents, counted. -/
def incTech (incidents : List Incident) : Dict Str Nat :=
  Dict.tally ((incidents.flatMap (·.mitre)).filter fun t => t ≠ [])

/-- A technique's row, if the glossary of the report has none. -/
def addGlossary (rows : List (Str × Str × Str)) (t : Str) : List (Str × Str × Str) :=
  if t ∈ rows.map Prod.fst then rows else
  match glossaryMeta t with
  | some (title, desc) => rows ++ [(t, title, desc)]
  | none => rows

/-- The techniques in the matrix. -/
def matrixIds (cols : List MatrixColumn) : List Str := cols.flatMap fun col => col.tech.map Tech.id

/-- A technique and its count in its tactic's column, if the matrix lacks it. -/
def addTech (cols : List MatrixColumn) (r : Str × Nat) : List MatrixColumn :=
  if r.1 ∈ matrixIds cols then cols else
  let tac := tacticOf r.1
  let new : Tech := ⟨r.1, techName r.1, r.2⟩
  if tac.ko ∈ cols.map MatrixColumn.tactic then
    cols.map fun col => if col.tactic = tac.ko then { col with tech := col.tech ++ [new] } else col
  else cols ++ [⟨tac.ko, tac.en, [new]⟩]

/-- A tactic's place in the order of the columns. -/
def orderIdx (ko : Str) : Nat := ((tacticOrder.map Prod.fst).idxOf? ko).getD 999

/-- Columns in the order of the tactics, techniques by falling count. -/
def sortMatrix (cols : List MatrixColumn) : List MatrixColumn :=
  (sortOn (fun col => orderIdx col.tactic) cols).map fun col => { col with tech := sortDown Tech.n col.tech }

def reconcileMitre (sk : Skeleton) : Skeleton :=
  let techs := incTech sk.incidents
  if techs.rows = [] then sk else
  { sk with
    mitreGlossary := sortOn Prod.fst (techs.keys.foldl addGlossary sk.mitreGlossary)
    attackMatrix := sortMatrix (techs.rows.foldl addTech sk.attackMatrix) }

def applyPatch (rt : Runtime) (sk : Skeleton) (patch : Option (List (Str × PyVal))) : Except PyError Skeleton :=
  match patch with
  -- no patch and an empty one are both false
  | none | some [] => .ok sk
  | some kvs => do
    let findings ← overlay rt findingFields sk.findings (pyGet kvs "findings")
    let recs ← overlay rt recFields sk.recs (pyGet kvs "recs")
    let incidents ← overlay rt incidentFields sk.incidents (pyGet kvs "incidents")
    -- the entries of the incidents are read a second time
    let incidents ← applyIncidentClassification rt incidents (pyGet kvs "incidents")
    let sk := reconcileMitre { sk with findings, recs, incidents }
    return match pyGet kvs "executiveSummary" with
      | .str es => if strip es ≠ [] then { sk with executiveSummary := strip es } else sk
      | _ => sk

/-- The report, its patch as the language model returned it. A report that fails the check of the
schema raises a value error. -/
def buildReport (rt : Runtime) (req : ReportRequest) (patch : Option (List (Str × PyVal))) : Except PyError PyVal := do
  let sk ← buildSkeleton rt req
  let sk ← applyPatch rt sk patch
  if reportData sk.toPy = true then return sk.toPy else throw .valueError

end KnIg.Report
