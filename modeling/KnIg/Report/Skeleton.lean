/-
The fields of a report, as the aggregation fills them and the console renders them.
-/
import KnIg.Report.Classify

namespace KnIg.Report

open Lib.Text

/-- One value for each severity. -/
structure BySev (α : Type) where
  critical : α
  high : α
  medium : α
  low : α
  deriving DecidableEq

namespace BySev

variable {α : Type}

def modify (m : BySev α) (s : Severity) (f : α → α) : BySev α :=
  match s with
  | .critical => { m with critical := f m.critical }
  | .high => { m with high := f m.high }
  | .medium => { m with medium := f m.medium }
  | .low => { m with low := f m.low }

def toList (m : BySev α) : List α := [m.critical, m.high, m.medium, m.low]

end BySev

structure Finding where
  sev : Str
  stat : Str
  tag : Str
  title : Str
  body : Str

structure Kpi where
  label : Str
  num : Nat
  delta : Str
  tone : Str
  sub : Str
  color : Str
  icon : Str
  spark : List Nat

structure Tech where
  id : Str
  nm : Str
  n : Nat

structure MatrixColumn where
  tactic : Str
  en : Str
  tech : List Tech

structure CampaignPoint where
  host : Str
  t : Nat
  sev : Str
  label : Str

/-- A node of an incident's chain. The fields a node's dictionary may lack are optional. -/
structure ChainNode where
  step : Nat
  name : Str
  pid : Int
  ppid : Int
  exe : Str
  cmd : Option Str
  user : Str
  tty : Option Str
  note : Str
  esc : Option Bool
  blocked : Option Bool
  tech : Option Str

structure Incident where
  sev : Str
  path : Str
  host : Str
  time : Str
  type : Str
  action : Str
  desc : Str
  mitre : List Str
  kill : List Nat
  detail : Str
  finding : Str
  chain : List ChainNode

structure Rec where
  p : Nat
  sev : Str
  title : Str
  when : Str
  body : Str
  link : Str

structure Skeleton where
  days : List Str
  blockedBySev : BySev (List Nat)
  prevPeriodDaily : List Nat
  severity : BySev Nat
  category : List (Str × Nat × Bool)
  hosts : List (Str × Nat × Nat)
  findings : List Finding
  kpis : List Kpi
  attackMatrix : List MatrixColumn
  killPhases : List Str
  campaign : List CampaignPoint
  campaignHosts : List Str
  incidents : List Incident
  recs : List Rec
  mitreGlossary : List (Str × Str × Str)
  executiveSummary : Str

end KnIg.Report
