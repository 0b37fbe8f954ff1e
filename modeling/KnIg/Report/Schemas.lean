/-
Python values, the checks of the report's schema on them, and the skeleton as such a value, which
passes the check.
-/
import KnIg.Report.Skeleton
import Mathlib.Data.Rat.Defs

namespace KnIg.Report

open Lib.Text

/-- A float: an infinity, not a number, or a rational. -/
inductive PyFloat
  | nan
  | inf (negative : Bool)
  | fin (q : Rat)

/-- A value as the JSON parser makes it. A dictionary's keys are different. -/
inductive PyVal
  | none
  | bool (b : Bool)
  | int (n : Int)
  | float (x : PyFloat)
  | str (s : Str)
  | list (vs : List PyVal)
  | dict (kvs : List (Str × PyVal))

/-- `dict.get` -/
def pyGet (kvs : List (Str × PyVal)) (key : String) : PyVal := (kvs.lookup (txt key)).getD .none

/-! ## Checks -/

/-- What a model's field accepts. Only values of a field's own type are, which every mode accepts. -/
abbrev Check := PyVal → Bool

namespace Check

def str : Check
  | .str _ => true
  | _ => false

def int : Check
  | .int _ => true
  | _ => false

def bool : Check
  | .bool _ => true
  | _ => false

def list (c : Check) : Check
  | .list vs => vs.all c
  | _ => false

/-- A tuple's values one by one; a list is taken for a tuple. -/
def tuple (cs : List Check) : Check
  | .list vs => vs.length == cs.length && (List.zipWith (fun c v => c v) cs vs).all id
  | _ => false

/-- A dictionary's value for a field: its name, whether it has a default, and its check. -/
def field (kvs : List (Str × PyVal)) (f : String × Bool × Check) : Bool :=
  match kvs.lookup (txt f.1) with
  | some v => f.2.2 v
  | none => f.2.1

/-- A dictionary with the fields of a model. -/
def model (fields : List (String × Bool × Check)) : Check
  | .dict kvs => fields.all (field kvs)
  | _ => false

end Check

def finding : Check := .model [("sev", false, .str), ("stat", false, .str), ("tag", false, .str),
  ("title", false, .str), ("body", false, .str)]

def kpi : Check := .model [("label", false, .str), ("num", false, .int), ("delta", false, .str),
  ("tone", false, .str), ("sub", false, .str), ("color", false, .str), ("icon", false, .str),
  ("spark", false, .list .int)]

def tech : Check := .model [("id", false, .str), ("nm", false, .str), ("n", false, .int)]

def matrixColumn : Check := .model [("tactic", false, .str), ("en", false, .str), ("tech", false, .list tech)]

def campaignPoint : Check := .model [("host", false, .str), ("t", false, .int), ("sev", false, .str),
  ("label", false, .str)]

def chainNode : Check := .model [("step", true, .int), ("name", true, .str), ("pid", true, .int),
  ("ppid", true, .int), ("exe", true, .str), ("cmd", true, .str), ("user", true, .str), ("tty", true, .str),
  ("note", true, .str), ("esc", true, .bool), ("blocked", true, .bool), ("tech", true, .str)]

def incidentCheck : Check := .model [("sev", false, .str), ("path", false, .str), ("host", false, .str),
  ("time", false, .str), ("type", false, .str), ("action", false, .str), ("desc", false, .str),
  ("mitre", false, .list .str), ("kill", false, .list .int), ("detail", false, .str), ("finding", false, .str),
  ("chain", false, .list chainNode)]

def recCheck : Check := .model [("p", false, .int), ("sev", false, .str), ("title", false, .str),
  ("when", false, .str), ("body", false, .str), ("link", false, .str)]

/-- The four severities' fields. -/
def bySevCheck (c : Check) : Check := .model [("Critical", false, c), ("High", false, c), ("Medium", false, c),
  ("Low", false, c)]

def reportData : Check := .model [("days", false, .list .str), ("blockedBySev", false, bySevCheck (.list .int)),
  ("prevPeriodDaily", false, .list .int), ("severity", false, bySevCheck .int),
  ("category", false, .list (.tuple [.str, .int, .bool])), ("hosts", false, .list (.tuple [.str, .int, .int])),
  ("findings", false, .list finding), ("kpis", false, .list kpi), ("attackMatrix", false, .list matrixColumn),
  ("killPhases", false, .list .str), ("campaign", false, .list campaignPoint),
  ("campaignHosts", false, .list .str), ("incidents", false, .list incidentCheck), ("recs", false, .list recCheck),
  ("mitreGlossary", false, .list (.tuple [.str, .str, .str])), ("executiveSummary", true, .str)]

/-! ## The skeleton as a dictionary -/

def pyStrs (ss : List Str) : PyVal := .list (ss.map .str)

def pyNat (n : Nat) : PyVal := .int n

def pyNats (ns : List Nat) : PyVal := .list (ns.map pyNat)

/-- A dictionary with the fields that are there. -/
def pyDict (fields : List (String × Option PyVal)) : PyVal :=
  .dict (fields.filterMap fun (name, v) => v.map (txt name, ·))

def BySev.toPy {α : Type} (f : α → PyVal) (m : BySev α) : PyVal :=
  pyDict [("Critical", f m.critical), ("High", f m.high), ("Medium", f m.medium), ("Low", f m.low)]

def Finding.toPy (x : Finding) : PyVal :=
  pyDict [("sev", PyVal.str x.sev), ("stat", PyVal.str x.stat), ("tag", PyVal.str x.tag), ("title", PyVal.str x.title),
    ("body", PyVal.str x.body)]

def Kpi.toPy (x : Kpi) : PyVal :=
  pyDict [("label", PyVal.str x.label), ("num", pyNat x.num), ("delta", PyVal.str x.delta), ("tone", PyVal.str x.tone),
    ("sub", PyVal.str x.sub), ("color", PyVal.str x.color), ("icon", PyVal.str x.icon), ("spark", pyNats x.spark)]

def Tech.toPy (x : Tech) : PyVal := pyDict [("id", PyVal.str x.id), ("nm", PyVal.str x.nm), ("n", pyNat x.n)]

def MatrixColumn.toPy (x : MatrixColumn) : PyVal :=
  pyDict [("tactic", PyVal.str x.tactic), ("en", PyVal.str x.en), ("tech", PyVal.list (x.tech.map Tech.toPy))]

def CampaignPoint.toPy (x : CampaignPoint) : PyVal :=
  pyDict [("host", PyVal.str x.host), ("t", pyNat x.t), ("sev", PyVal.str x.sev), ("label", PyVal.str x.label)]

def ChainNode.toPy (x : ChainNode) : PyVal :=
  pyDict [("step", pyNat x.step), ("name", PyVal.str x.name), ("pid", PyVal.int x.pid), ("ppid", PyVal.int x.ppid),
    ("exe", PyVal.str x.exe), ("user", PyVal.str x.user), ("tty", x.tty.map .str), ("note", PyVal.str x.note),
    ("esc", x.esc.map .bool), ("cmd", x.cmd.map .str), ("blocked", x.blocked.map .bool), ("tech", x.tech.map .str)]

def Incident.toPy (x : Incident) : PyVal :=
  pyDict [("sev", PyVal.str x.sev), ("path", PyVal.str x.path), ("host", PyVal.str x.host), ("time", PyVal.str x.time),
    ("type", PyVal.str x.type), ("action", PyVal.str x.action), ("desc", PyVal.str x.desc), ("mitre", pyStrs x.mitre),
    ("kill", pyNats x.kill), ("detail", PyVal.str x.detail), ("finding", PyVal.str x.finding),
    ("chain", PyVal.list (x.chain.map ChainNode.toPy))]

def Rec.toPy (x : Rec) : PyVal :=
  pyDict [("p", pyNat x.p), ("sev", PyVal.str x.sev), ("title", PyVal.str x.title), ("when", PyVal.str x.when),
    ("body", PyVal.str x.body), ("link", PyVal.str x.link)]

def Skeleton.toPy (sk : Skeleton) : PyVal :=
  pyDict [("days", pyStrs sk.days), ("blockedBySev", sk.blockedBySev.toPy pyNats),
    ("prevPeriodDaily", pyNats sk.prevPeriodDaily), ("severity", sk.severity.toPy pyNat),
    ("category", PyVal.list (sk.category.map fun r => .list [.str r.1, pyNat r.2.1, .bool r.2.2])),
    ("hosts", PyVal.list (sk.hosts.map fun r => .list [.str r.1, pyNat r.2.1, pyNat r.2.2])),
    ("findings", PyVal.list (sk.findings.map Finding.toPy)), ("kpis", PyVal.list (sk.kpis.map Kpi.toPy)),
    ("attackMatrix", PyVal.list (sk.attackMatrix.map MatrixColumn.toPy)), ("killPhases", pyStrs sk.killPhases),
    ("campaign", PyVal.list (sk.campaign.map CampaignPoint.toPy)), ("campaignHosts", pyStrs sk.campaignHosts),
    ("incidents", PyVal.list (sk.incidents.map Incident.toPy)), ("recs", PyVal.list (sk.recs.map Rec.toPy)),
    ("mitreGlossary", PyVal.list (sk.mitreGlossary.map fun r => .list [.str r.1, .str r.2.1, .str r.2.2])),
    ("executiveSummary", PyVal.str sk.executiveSummary)]

/-! ## What passes -/

namespace Check

@[simp] theorem str_str (s : Str) : str (.str s) = true := rfl

@[simp] theorem int_int (n : Int) : int (.int n) = true := rfl

@[simp] theorem int_nat (n : Nat) : int (pyNat n) = true := rfl

@[simp] theorem bool_bool (b : Bool) : bool (.bool b) = true := rfl

theorem list_map {α : Type} {c : Check} {f : α → PyVal} (h : ∀ a, c (f a) = true) (l : List α) :
    list c (.list (l.map f)) = true := by
  rw [list, List.all_map, List.all_eq_true]
  intro a _
  exact h a

@[simp] theorem list_strs (ss : List Str) : list str (pyStrs ss) = true := list_map str_str ss

@[simp] theorem list_nats (ns : List Nat) : list int (pyNats ns) = true := list_map int_nat ns

/-- A model's check of a dictionary looks each of its fields up. -/
@[simp] theorem model_pyDict (fs : List (String × Bool × Check)) (vs : List (String × Option PyVal)) :
    model fs (pyDict vs) = fs.all (field (vs.filterMap fun (name, v) => v.map (txt name, ·))) := rfl

@[simp] theorem field_cons (k : String) (v : PyVal) (kvs : List (Str × PyVal)) (name : String) (hasDefault : Bool)
    (c : Check) : field ((txt k, v) :: kvs) (name, hasDefault, c) =
      if name = k then c v else field kvs (name, hasDefault, c) := by
  rw [field, field, List.lookup_cons, txt_beq]
  by_cases h : name = k
  · simp [h]
  · have hb : (name == k) = false := beq_false_of_ne h
    simp [h, hb]

@[simp] theorem field_nil (name : String) (hasDefault : Bool) (c : Check) :
    field [] (name, hasDefault, c) = hasDefault := rfl

end Check

open Check

theorem finding_toPy (x : Finding) : finding x.toPy = true := by
  simp [finding, Finding.toPy]

theorem tech_toPy (x : Tech) : tech x.toPy = true := by
  simp [tech, Tech.toPy]

theorem campaignPoint_toPy (x : CampaignPoint) : campaignPoint x.toPy = true := by
  simp [campaignPoint, CampaignPoint.toPy]

theorem recCheck_toPy (x : Rec) : recCheck x.toPy = true := by
  simp [recCheck, Rec.toPy]

theorem kpi_toPy (x : Kpi) : kpi x.toPy = true := by
  simp [kpi, Kpi.toPy]

theorem matrixColumn_toPy (x : MatrixColumn) : matrixColumn x.toPy = true := by
  simp [matrixColumn, MatrixColumn.toPy, list_map tech_toPy]

/-- A node passes with and without each of the fields it may lack. -/
theorem chainNode_toPy (x : ChainNode) : chainNode x.toPy = true := by
  obtain ⟨step, name, pid, ppid, exe, cmd, user, tty, note, esc, blocked, tech⟩ := x
  cases cmd <;> cases tty <;> cases esc <;> cases blocked <;> cases tech <;> simp [chainNode, ChainNode.toPy]

theorem incidentCheck_toPy (x : Incident) : incidentCheck x.toPy = true := by
  simp [incidentCheck, Incident.toPy, list_map chainNode_toPy]

theorem bySevCheck_toPy {α : Type} {c : Check} {f : α → PyVal} (h : ∀ a, c (f a) = true) (m : BySev α) :
    bySevCheck c (m.toPy f) = true := by
  simp [bySevCheck, BySev.toPy, h]

/-- Every skeleton passes the check of the report's schema. -/
theorem reportData_toPy (sk : Skeleton) : reportData sk.toPy = true := by
  have hcategory := list_map (c := tuple [str, int, bool])
    (f := fun r : Str × Nat × Bool => .list [.str r.1, pyNat r.2.1, .bool r.2.2]) (fun _ => rfl) sk.category
  have hhosts := list_map (c := tuple [str, int, int])
    (f := fun r : Str × Nat × Nat => .list [.str r.1, pyNat r.2.1, pyNat r.2.2]) (fun _ => rfl) sk.hosts
  have hglossary := list_map (c := tuple [str, str, str])
    (f := fun r : Str × Str × Str => .list [.str r.1, .str r.2.1, .str r.2.2]) (fun _ => rfl) sk.mitreGlossary
  simp [reportData, Skeleton.toPy, bySevCheck_toPy list_nats, bySevCheck_toPy int_nat, list_map finding_toPy,
    list_map kpi_toPy, list_map matrixColumn_toPy, list_map campaignPoint_toPy, list_map incidentCheck_toPy,
    list_map recCheck_toPy, hcategory, hhosts, hglossary]

end KnIg.Report
