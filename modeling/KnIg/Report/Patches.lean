/-
Which patches a report survives: a patch raises exactly if one of the entries it is read for has an
infinity as its index, and what it does not raise for passes the report's schema.
-/
import KnIg.Report.Assemble
import KnIg.Report.Conservation

namespace KnIg.Report

open Lib Lib.Text

/-- An entry whose index, if it has one, is no infinity. -/
def FiniteIndex (entry : PyVal) : Prop :=
  ∀ kvs, entry = .dict kvs → ∀ negative, pyGet kvs "index" ≠ .float (.inf negative)

/-- All entries of a list. -/
def FiniteIndices (v : PyVal) : Prop := ∀ entries, v = .list entries → ∀ entry ∈ entries, FiniteIndex entry

/-- The entries of the three lists a patch is read for. -/
def FinitePatch (patch : List (Str × PyVal)) : Prop :=
  ∀ key ∈ ["findings", "recs", "incidents"], FiniteIndices (pyGet patch key)

variable {rt : Runtime}

theorem asInt_ok_iff {v : PyVal} : (∃ i, asInt rt v = .ok i) ↔ ∀ negative, v ≠ .float (.inf negative) := by
  rcases v with _ | _ | _ | x | _ | _ | _
  case float =>
    -- of the values only an infinity raises what nothing catches
    cases x with
    | inf b => exact ⟨fun ⟨i, hi⟩ => (by cases hi), fun h => absurd rfl (h b)⟩
    | nan => simp [asInt]
    | fin q => simp [asInt]
  all_goals simp [asInt]

theorem onEntry_ok_iff {α : Type} {change : List (Str × PyVal) → α → α} (items : List α) (entry : PyVal) :
    (∃ items', onEntry rt change items entry = .ok items') ↔ FiniteIndex entry := by
  unfold FiniteIndex
  cases entry with
  | dict kvs =>
    have : (∃ items', onEntry rt change items (.dict kvs) = .ok items') ↔ ∃ i, asInt rt (pyGet kvs "index") = .ok i := by
      constructor
      · rintro ⟨items', h⟩
        obtain ⟨i, hi, -⟩ := bind_eq_ok.1 h
        exact ⟨i, hi⟩
      · rintro ⟨i, hi⟩
        exact ⟨_, bind_eq_ok.2 ⟨i, hi, rfl⟩⟩
    rw [this, asInt_ok_iff]
    simp
  | _ => simp [onEntry]

theorem onEntries_ok_iff {α : Type} {change : List (Str × PyVal) → α → α} (items : List α) (v : PyVal) :
    (∃ items', onEntries rt change items v = .ok items') ↔ FiniteIndices v := by
  unfold FiniteIndices
  cases v with
  | list entries =>
    rw [show onEntries rt change items (.list entries) = entries.foldlM (onEntry rt change) items from rfl,
      foldlM_ok_iff onEntry_ok_iff]
    simp
  | _ => simp [onEntries]

/-- What a patch that returns has computed. -/
theorem applyPatch_ok {sk sk' : Skeleton} {kv : Str × PyVal} {kvs : List (Str × PyVal)}
    (h : applyPatch rt sk (some (kv :: kvs)) = .ok sk') : ∃ findings recs incidents incidents',
      overlay rt findingFields sk.findings (pyGet (kv :: kvs) "findings") = .ok findings ∧
      overlay rt recFields sk.recs (pyGet (kv :: kvs) "recs") = .ok recs ∧
      overlay rt incidentFields sk.incidents (pyGet (kv :: kvs) "incidents") = .ok incidents ∧
      applyIncidentClassification rt incidents (pyGet (kv :: kvs) "incidents") = .ok incidents' ∧
      ∃ summary, sk' = { reconcileMitre { sk with findings, recs, incidents := incidents' } with
        executiveSummary := summary } := by
  obtain ⟨findings, hf, h⟩ := bind_eq_ok.1 h
  obtain ⟨recs, hr, h⟩ := bind_eq_ok.1 h
  obtain ⟨incidents, hi, h⟩ := bind_eq_ok.1 h
  obtain ⟨incidents', hi', h⟩ := bind_eq_ok.1 h
  refine ⟨findings, recs, incidents, incidents', hf, hr, hi, hi', ?_⟩
  cases h
  dsimp only
  split
  · split
    · exact ⟨_, rfl⟩
    · exact ⟨_, rfl⟩
  · exact ⟨_, rfl⟩

/-- A patch raises nothing exactly if it has no infinite index where it is read for one. -/
theorem applyPatch_ok_iff (rt : Runtime) (sk : Skeleton) (patch : List (Str × PyVal)) :
    (∃ sk', applyPatch rt sk (some patch) = .ok sk') ↔ FinitePatch patch := by
  unfold FinitePatch
  simp only [List.forall_mem_cons, List.not_mem_nil, false_implies, implies_true, and_true]
  cases patch with
  | nil => simp [applyPatch, FiniteIndices, pyGet]
  | cons kv kvs =>
    constructor
    · rintro ⟨sk', h⟩
      obtain ⟨findings, recs, incidents, -, hf, hr, hi, -⟩ := applyPatch_ok h
      exact ⟨(onEntries_ok_iff _ _).1 ⟨findings, hf⟩, (onEntries_ok_iff _ _).1 ⟨recs, hr⟩,
        (onEntries_ok_iff _ _).1 ⟨incidents, hi⟩⟩
    · rintro ⟨hf, hr, hi⟩
      obtain ⟨findings, hf⟩ := (onEntries_ok_iff sk.findings _).2 hf
      obtain ⟨recs, hr⟩ := (onEntries_ok_iff sk.recs _).2 hr
      obtain ⟨incidents, hinc⟩ := (onEntries_ok_iff sk.incidents _).2 hi
      obtain ⟨incidents', hi'⟩ := (onEntries_ok_iff incidents _).2 hi
      exact ⟨_, bind_eq_ok.2 ⟨findings, hf, bind_eq_ok.2 ⟨recs, hr, bind_eq_ok.2 ⟨incidents, hinc,
        bind_eq_ok.2 ⟨incidents', hi', rfl⟩⟩⟩⟩⟩

theorem buildReport_ok_iff {req : ReportRequest} {sk : Skeleton} (h : buildSkeleton rt req = .ok sk)
    (patch : Option (List (Str × PyVal))) :
    (∃ data, buildReport rt req patch = .ok data) ↔ ∃ sk', applyPatch rt sk patch = .ok sk' := by
  constructor
  · rintro ⟨data, hd⟩
    obtain ⟨sk₀, hsk, hd⟩ := bind_eq_ok.1 hd
    rw [h] at hsk
    cases hsk
    obtain ⟨sk', hsk', -⟩ := bind_eq_ok.1 hd
    exact ⟨sk', hsk'⟩
  · rintro ⟨sk', hsk'⟩
    exact ⟨_, bind_eq_ok.2 ⟨sk, h, bind_eq_ok.2 ⟨sk', hsk', if_pos (reportData_toPy sk')⟩⟩⟩

/-- A built skeleton survives a patch, as valid data and as a report, exactly if no entry of the
patch's three lists has an infinite index. -/
theorem patched_valid_iff (req : ReportRequest) (sk : Skeleton) (h : buildSkeleton rt req = .ok sk)
    (patch : List (Str × PyVal)) :
    ((∃ sk', applyPatch rt sk (some patch) = .ok sk' ∧ reportData sk'.toPy = true) ↔ FinitePatch patch) ∧
      ((∃ data, buildReport rt req (some patch) = .ok data) ↔ FinitePatch patch) := by
  constructor
  · rw [← applyPatch_ok_iff rt sk patch]
    exact exists_congr fun sk' => and_iff_left (reportData_toPy sk')
  · rw [buildReport_ok_iff h, applyPatch_ok_iff]

/-- A request of the example's range builds a skeleton. -/
theorem kstRequest_builds : ∃ sk, buildSkeleton asciiRuntime kstRequest = .ok sk :=
  (buildSkeleton_ok_iff_prevInCalendar asciiRuntime kstRequest_ranged).2 (by
    unfold ReportRequest.PrevInCalendar
    decide)

/-- `{"incidents": [{"index": 1e999, "sev": "High"}]}` -/
def hugeIndex : List (Str × PyVal) :=
  [(txt "incidents", .list [.dict [(txt "index", .float (.inf false)), (txt "sev", .str (txt "High"))]])]

theorem patched_valid_hugeIndex : ∃ sk, buildSkeleton asciiRuntime kstRequest = .ok sk ∧
    ((∃ sk', applyPatch asciiRuntime sk (some hugeIndex) = .ok sk' ∧ reportData sk'.toPy = true) ↔
      FinitePatch hugeIndex) ∧
    ((∃ data, buildReport asciiRuntime kstRequest (some hugeIndex) = .ok data) ↔ FinitePatch hugeIndex) := by
  obtain ⟨sk, h⟩ := kstRequest_builds
  exact ⟨sk, h, patched_valid_iff kstRequest sk h hugeIndex⟩

/-- The huge index raises an overflow, and there is no report. -/
theorem patched_hugeIndex_fails : ∃ sk, buildSkeleton asciiRuntime kstRequest = .ok sk ∧
    applyPatch asciiRuntime sk (some hugeIndex) = .error .overflowError ∧
    ¬ ∃ data, buildReport asciiRuntime kstRequest (some hugeIndex) = .ok data := by
  obtain ⟨sk, h⟩ := kstRequest_builds
  have hraise : applyPatch asciiRuntime sk (some hugeIndex) = .error .overflowError := rfl
  refine ⟨sk, h, hraise, ?_⟩
  rw [buildReport_ok_iff h, hraise]
  rintro ⟨sk', hsk'⟩
  cases hsk'

end KnIg.Report
