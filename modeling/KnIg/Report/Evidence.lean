/-
The techniques an event is evidence of: those of its path's profile, and those its process chain
shows. Each of them has a row of its own in the glossary and a tactic with a column.
-/
import KnIg.Report.Classify
import KnIg.Report.Request
import Mathlib.Data.List.Nodup

namespace KnIg.Report

open Lib.Text Classify

def keepNew (out : List Str) (item : Str) : List Str := if item ≠ [] ∧ item ∉ out then out ++ [item] else out

/-- The items that are not empty, each where it first stands. -/
def dedupe (items : List Str) : List Str := items.foldl keepNew []

theorem mem_foldl_keepNew (items out : List Str) (x : Str) :
    x ∈ items.foldl keepNew out ↔ x ∈ out ∨ x ∈ items ∧ x ≠ [] := by
  induction items generalizing out with
  | nil => simp
  | cons a items ih =>
    have hk : x ∈ keepNew out a ↔ x ∈ out ∨ x = a ∧ x ≠ [] := by
      unfold keepNew
      split
      · rename_i h
        rw [List.mem_append, List.mem_singleton]
        exact or_congr_right ⟨fun he => ⟨he, he ▸ h.1⟩, And.left⟩
      · rename_i h
        refine ⟨Or.inl, ?_⟩
        rintro (hx | ⟨rfl, hx⟩)
        · exact hx
        · exact of_not_not fun hn => h ⟨hx, hn⟩
    rw [List.foldl_cons, ih, hk, List.mem_cons, or_assoc, or_and_right]

theorem mem_dedupe (items : List Str) (x : Str) : x ∈ dedupe items ↔ x ∈ items ∧ x ≠ [] := by
  rw [dedupe, mem_foldl_keepNew]
  simp

/-- What a process shows of itself. -/
structure ProcessFacts where
  comm : Str
  exe : Str
  cmdline : Str
  uid : Int
  euid : Int
  tty : Str

def EventIn.hasActor (ev : EventIn) : Bool :=
  ev.actorPid ≠ 0 || ev.actorComm ≠ [] || ev.actorExe ≠ [] || ev.actorCmdline ≠ []

/-- The processes of an event's chain, or else its actor alone. -/
def EventIn.facts (ev : EventIn) : List ProcessFacts :=
  if ev.chain = [] ∧ ev.hasActor = true then
    [⟨ev.actorComm, ev.actorExe, ev.actorCmdline, ev.actorUid, ev.actorEuid, ev.actorTty⟩]
  else ev.chain.map fun n => ⟨n.comm, n.exe, n.cmdline, n.uid, n.euid, n.tty⟩

variable (rt : Runtime)

/-- A process's fields in one text. -/
def procText (n : ProcessFacts) : Str := rt.lower (n.comm ++ txt " " ++ n.exe ++ txt " " ++ n.cmdline)

def nodeTechniques (n : ProcessFacts) : List Str :=
  let text := procText rt n
  let comm := rt.lower n.comm
  let exe := rt.lower n.exe
  (if n.uid ≠ n.euid ∨ contains comm "sudo" = true ∨ endsWith exe "/sudo" = true ∨
      contains (txt " " ++ text ++ txt " ") " sudo " = true then [txt "T1548.003"] else []) ++
  (if comm ∈ [txt "sh", txt "bash", txt "dash", txt "zsh", txt "ksh"] ∨
      ["/sh", "/bash", "/dash", "/zsh", "/ksh"].any (endsWith exe) = true then [txt "T1059.004"] else []) ++
  (if contains comm "python" = true ∨ contains exe "/python" = true ∨ contains text "python" = true then
    [txt "T1059.006"] else []) ++
  (if contains comm "sshd" = true ∨ contains exe "/sshd" = true ∨ startsWith n.tty "pts" = true then
    [txt "T1078"] else [])

def processTechniques (ev : EventIn) : List Str := dedupe (ev.facts.flatMap (nodeTechniques rt))

def eventMitre (ev : EventIn) (prof : Profile) : List Str := dedupe (prof.mitre ++ processTechniques rt ev)

/-- The techniques that processes show. -/
def processIds : List Str := [txt "T1548.003", txt "T1059.004", txt "T1059.006", txt "T1078"]

theorem nodeTechniques_subset (n : ProcessFacts) : nodeTechniques rt n ⊆ processIds := by
  intro t ht
  simp only [nodeTechniques, List.mem_append] at ht
  rcases ht with ((ht | ht) | ht) | ht
  all_goals
    split at ht
    · rw [List.mem_singleton] at ht
      subst ht
      decide
    · cases ht

theorem classify_mem (p : Str) : classify p ∈ defaultProfile :: profiles := by
  rcases firstMatch_cases (·.matchPath p) defaultProfile profiles with h | ⟨h, -⟩
  · rw [classify, h]
    exact List.mem_cons_self
  · exact List.mem_cons_of_mem _ h

/-- A technique an event is evidence of comes from a profile or a process. -/
theorem mem_eventMitre {ev : EventIn} {p t : Str} (h : t ∈ eventMitre rt ev (classify p)) :
    (∃ r ∈ defaultProfile :: profiles, t ∈ r.mitre) ∨ t ∈ processIds := by
  rw [eventMitre, mem_dedupe, List.mem_append] at h
  rcases h.1 with ht | ht
  · exact Or.inl ⟨_, classify_mem p, ht⟩
  · rw [processTechniques, mem_dedupe, List.mem_flatMap] at ht
    obtain ⟨⟨n, -, hn⟩, -⟩ := ht
    exact Or.inr (nodeTechniques_subset rt n hn)

/-- Every technique that the evidence yields has its own row in the glossary. -/
theorem glossaryGet_eventMitre {ev : EventIn} {p t : Str} (h : t ∈ eventMitre rt ev (classify p)) :
    (glossaryGet t).isSome = true := by
  have hprof : ∀ r ∈ defaultProfile :: profiles, ∀ t ∈ r.mitre, (glossaryGet t).isSome = true := by decide
  have hproc : ∀ t ∈ processIds, (glossaryGet t).isSome = true := by decide
  rcases mem_eventMitre rt h with ⟨r, hr, ht⟩ | ht
  · exact hprof r hr t ht
  · exact hproc t ht

/-- Every technique's tactic has a column. -/
theorem tacticOf_mem_order (t : Str) : ((tacticOf t).ko, (tacticOf t).en) ∈ tacticOrder := by
  have htab : ∀ r ∈ techTactic, (r.2.ko, r.2.en) ∈ tacticOrder := by decide
  unfold tacticOf
  rcases h : techTactic.lookup (baseId t) with _ | tac
  · decide
  · obtain ⟨l, l', hl, -⟩ := List.lookup_eq_some_iff.1 h
    exact htab (baseId t, tac) (by rw [hl]; simp)

end KnIg.Report
