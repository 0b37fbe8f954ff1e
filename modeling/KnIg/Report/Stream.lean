/-
The report as a stream of events. The skeleton is sent first, then the tokens of the narrative as they come, then the
report with the patch in it, and an end. A patch that raises half way has been written as far as it went and the stream
goes on, where the plain report fails; a report that is made plainly is the one of the stream, up to the summary that
the tokens are. What the backend passes on, in whatever pieces, is read as the events that were sent, as far as it came.
-/
import KnIg.Report.Patches
import KnIg.Report.Provider
import KnIg.Report.Wire

namespace KnIg.Report

open Lib Lib.Text

/-! ## The patch in place -/

/-- What a step has written and what it has raised, if it has. -/
abbrev Written (α : Type) := α × Option PyError

/-- The step as one that returns nothing where it raises. -/
def Written.outcome {α : Type} : Written α → Except PyError α
  | (a, none) => .ok a
  | (_, some e) => .error e

section InPlace

variable {α : Type} (rt : Runtime) (change : List (Str × PyVal) → α → α)

/-- The changes of the entries up to the first that raises. -/
def onEntriesInPlace (items : List α) : List PyVal → Written (List α)
  | [] => (items, none)
  | entry :: entries =>
    match onEntry rt change items entry with
    | .ok items => onEntriesInPlace items entries
    | .error e => (items, some e)

def onPatchInPlace (items : List α) (patch : PyVal) : Written (List α) :=
  match patch with
  | .list entries => onEntriesInPlace rt change items entries
  | _ => (items, none)

theorem onEntriesInPlace_outcome (entries : List PyVal) : ∀ items,
    (onEntriesInPlace rt change items entries).outcome = entries.foldlM (onEntry rt change) items := by
  induction entries with
  | nil => exact fun _ => rfl
  | cons entry entries ih =>
    intro items
    rw [onEntriesInPlace, List.foldlM_cons]
    cases onEntry rt change items entry with
    | ok items => exact ih items
    | error e => rfl

theorem onPatchInPlace_outcome (items : List α) (patch : PyVal) :
    (onPatchInPlace rt change items patch).outcome = onEntries rt change items patch := by
  cases patch with
  | list entries => exact onEntriesInPlace_outcome rt change entries items
  | _ => rfl

end InPlace

/-- `apply_patch` of a patch that is not empty, as it writes the skeleton. -/
def applyPatchInPlace (rt : Runtime) (sk : Skeleton) (kvs : List (Str × PyVal)) : Written Skeleton :=
  match onPatchInPlace rt (writeFields findingFields) sk.findings (pyGet kvs "findings") with
  | (findings, some e) => ({ sk with findings }, some e)
  | (findings, none) =>
  match onPatchInPlace rt (writeFields recFields) sk.recs (pyGet kvs "recs") with
  | (recs, some e) => ({ sk with findings, recs }, some e)
  | (recs, none) =>
  match onPatchInPlace rt (writeFields incidentFields) sk.incidents (pyGet kvs "incidents") with
  | (incidents, some e) => ({ sk with findings, recs, incidents }, some e)
  | (incidents, none) =>
  match onPatchInPlace rt classifyIncident incidents (pyGet kvs "incidents") with
  | (incidents, some e) => ({ sk with findings, recs, incidents }, some e)
  | (incidents, none) =>
    let sk := reconcileMitre { sk with findings, recs, incidents }
    match pyGet kvs "executiveSummary" with
    | .str es => if strip es ≠ [] then ({ sk with executiveSummary := strip es }, none) else (sk, none)
    | _ => (sk, none)

/-- What is written without raising is what the patch makes. -/
theorem applyPatchInPlace_outcome (rt : Runtime) (sk : Skeleton) (kv : Str × PyVal) (kvs : List (Str × PyVal)) :
    (applyPatchInPlace rt sk (kv :: kvs)).outcome = applyPatch rt sk (some (kv :: kvs)) := by
  unfold applyPatchInPlace applyPatch overlay applyIncidentClassification
  dsimp only
  rw [← onPatchInPlace_outcome, ← onPatchInPlace_outcome, ← onPatchInPlace_outcome]
  rcases onPatchInPlace rt (writeFields findingFields) sk.findings (pyGet (kv :: kvs) "findings") with
    ⟨findings, _ | e⟩
  · rcases onPatchInPlace rt (writeFields recFields) sk.recs (pyGet (kv :: kvs) "recs") with ⟨recs, _ | e⟩
    · rcases onPatchInPlace rt (writeFields incidentFields) sk.incidents (pyGet (kv :: kvs) "incidents") with
        ⟨incidents, _ | e⟩
      · show Written.outcome (match onPatchInPlace rt classifyIncident incidents (pyGet (kv :: kvs) "incidents") with
          | (incidents, some e) => _
          | (incidents, none) => _) = onEntries rt classifyIncident incidents (pyGet (kv :: kvs) "incidents") >>= _
        rw [← onPatchInPlace_outcome]
        rcases onPatchInPlace rt classifyIncident incidents (pyGet (kv :: kvs) "incidents") with ⟨incidents, _ | e⟩
        · dsimp only
          cases pyGet (kv :: kvs) "executiveSummary" with
          | str es =>
            dsimp only
            show (ite (strip es ≠ []) _ _ : Written Skeleton).outcome = Except.ok (ite (strip es ≠ []) _ _)
            split <;> rfl
          | _ => rfl
        · rfl
      · rfl
    · rfl
  · rfl

/-! ## The report and the stream -/

/-- What the providers do while a report is made, and how a text is read as JSON. -/
structure Providers where
  env : ProviderEnv
  replies : Replies
  streamReplies : Nat → StreamReply
  loads : Str → Except LoadError PyVal

namespace Providers

variable (p : Providers) (rt : Runtime)

/-- The patch; an exception is caught. -/
def patch : Option (List (Str × PyVal)) :=
  match narrate rt p.env p.replies p.loads with
  | .ok patch => patch
  | .error _ => none

/-- The tokens up to an exception, which is caught. -/
def tokens : List Str := (generateStream rt p.env p.streamReplies).1

end Providers

/-- `generate_summary` -/
def generateSummary (rt : Runtime) (p : Providers) (req : ReportRequest) : Except PyError PyVal :=
  buildReport rt req (p.patch rt)

/-- The skeleton that a patch has been applied to, an exception caught. -/
def patchSkeleton (rt : Runtime) (sk : Skeleton) : Option (List (Str × PyVal)) → Skeleton
  | none | some [] => sk
  | some kvs => (applyPatchInPlace rt sk kvs).1

/-- The tokens are the summary, if there are any. -/
def summarize (tokens : List Str) (sk : Skeleton) : Skeleton :=
  if tokens ≠ [] then { sk with executiveSummary := strip tokens.flatten } else sk

/-- `generate_summary_stream`: its events, or what it raises before the first of them. -/
def generateSummaryStream (rt : Runtime) (p : Providers) (req : ReportRequest) : Except PyError (List StreamEvent) := do
  let sk ← buildSkeleton rt req
  let final := summarize (p.tokens rt) (patchSkeleton rt sk (p.patch rt))
  return .skeleton sk.toPy :: ((p.tokens rt).map .token ++
    ((if reportData final.toPy = true then [.patch final.toPy] else []) ++ [.done]))

/-- A patch that raises nothing is the one of the plain report. -/
theorem patchSkeleton_of_ok {rt : Runtime} {sk sk' : Skeleton} {patch : Option (List (Str × PyVal))}
    (h : applyPatch rt sk patch = .ok sk') : patchSkeleton rt sk patch = sk' := by
  match patch, h with
  | none, h | some [], h =>
    cases h
    rfl
  | some (kv :: kvs), h =>
    rw [← applyPatchInPlace_outcome] at h
    show (applyPatchInPlace rt sk (kv :: kvs)).1 = sk'
    generalize applyPatchInPlace rt sk (kv :: kvs) = w at h ⊢
    obtain ⟨sk₁, _ | e⟩ := w
    · cases h
      rfl
    · cases h

/-- Whatever the providers and their texts do, a request that has a skeleton has a stream of the skeleton, the tokens, a
report that passes its check, and the end. The report is the plain one where that is made, with the tokens for its
summary if there are tokens; it is there also where the plain one is not. -/
theorem stream_completes (rt : Runtime) (p : Providers) (req : ReportRequest) (sk : Skeleton)
    (h : buildSkeleton rt req = .ok sk) : ∃ report : Skeleton, reportData report.toPy = true ∧
      generateSummaryStream rt p req =
        .ok (.skeleton sk.toPy :: ((p.tokens rt).map .token ++ [.patch report.toPy, .done])) ∧
      ∀ data, generateSummary rt p req = .ok data →
        ∃ plain : Skeleton, data = plain.toPy ∧ report = summarize (p.tokens rt) plain := by
  refine ⟨summarize (p.tokens rt) (patchSkeleton rt sk (p.patch rt)), reportData_toPy _, ?_, fun data hdata => ?_⟩
  · rw [generateSummaryStream, h]
    show Except.ok _ = _
    rw [if_pos (reportData_toPy _)]
    rfl
  · obtain ⟨sk₀, hsk, hdata⟩ := bind_eq_ok.1 hdata
    rw [h] at hsk
    cases hsk
    obtain ⟨plain, hplain, hdata⟩ := bind_eq_ok.1 hdata
    rw [if_pos (reportData_toPy plain)] at hdata
    cases hdata
    exact ⟨plain, rfl, by rw [patchSkeleton_of_ok hplain]⟩

/-- A provider whose patch has a huge index, and which streams a token and then fails. -/
def hugeProviders : Providers where
  env := ⟨none, some (txt "key"), none⟩
  replies _ _ := .text (some (txt "\x7b\x7d"))
  streamReplies _ := .chunks [[], txt " 요약 "] true
  loads _ := .ok (.dict hugeIndex)

/-- There is no plain report, and the stream has one. -/
theorem stream_completes_hugeIndex : ∃ sk, buildSkeleton asciiRuntime kstRequest = .ok sk ∧
    ∃ report : Skeleton, reportData report.toPy = true ∧
      generateSummaryStream asciiRuntime hugeProviders kstRequest =
        .ok (.skeleton sk.toPy :: ((hugeProviders.tokens asciiRuntime).map .token ++ [.patch report.toPy, .done])) ∧
      ∀ data, generateSummary asciiRuntime hugeProviders kstRequest = .ok data →
        ∃ plain : Skeleton, data = plain.toPy ∧ report = summarize (hugeProviders.tokens asciiRuntime) plain := by
  obtain ⟨sk, h⟩ := kstRequest_builds
  exact ⟨sk, h, stream_completes asciiRuntime hugeProviders kstRequest sk h⟩

example : hugeProviders.tokens asciiRuntime = [txt " 요약 "] := by decide

/-! ## The stream on its way -/

section Wire

variable (floatText : PyFloat → Str)

/-- The events up to the first whose text cannot be encoded, which ends the response. -/
def sent (events : List StreamEvent) : List StreamEvent := events.takeWhile fun e => encodable (e.frame floatText)

/-- The events as bytes, a blank line behind each. -/
def eventBytes (events : List StreamEvent) : Bytes :=
  (events.map fun e => utf8 (e.frame floatText)).flatMap (framed [0x0A, 0x0A])

/-- The body of the response. -/
def body (events : List StreamEvent) : Bytes := eventBytes floatText (sent floatText events)

end Wire

/-- A round of the loop that passes the body on: what was read, whether that was the last, and how much of it was
written where the write fails. -/
structure RelayRound where
  piece : Bytes
  ended : Bool
  writeFails : Option Nat

/-- `handleGenerateSummaryReportStream`: what is written. -/
def relay : List RelayRound → List Bytes
  | [] => []
  | r :: rounds =>
    if r.piece ≠ [] then
      match r.writeFails with
      | some n => [r.piece.take n]
      | none => r.piece :: if r.ended then [] else relay rounds
    else if r.ended then [] else relay rounds

theorem relay_isPrefix (rounds : List RelayRound) :
    (relay rounds).flatten <+: (rounds.map RelayRound.piece).flatten := by
  induction rounds with
  | nil => exact List.prefix_rfl
  | cons r rounds ih =>
    rw [List.map_cons, List.flatten_cons, relay]
    split
    · split
      · rw [List.flatten_cons, List.flatten_nil, List.append_nil]
        exact (List.take_prefix _ _).trans (List.prefix_append _ _)
      · rw [List.flatten_cons]
        refine (List.prefix_append_right_inj _).2 ?_
        split
        · exact List.nil_prefix
        · exact ih
    · rename_i hpiece
      rw [not_not.1 hpiece, List.nil_append]
      split
      · exact List.nil_prefix
      · exact ih

/-- What comes of the events through the backend, in whatever rounds and pieces and wherever it breaks off, is read as
the events that came whole, each as it was sent; that is all of them if all has come. -/
theorem stream_relayed (floatText : PyFloat → Str) (hfloat : ∀ x, 10 ∉ floatText x) (events : List StreamEvent)
    (rounds : List RelayRound) (hbody : (rounds.map RelayRound.piece).flatten <+: body floatText events)
    (pieces : List Bytes) (hpieces : pieces.flatten <+: (relay rounds).flatten) :
    ∃ k, (pieces.foldl (feed [0x0A, 0x0A]) ([], [])).1 =
        ((sent floatText events).take k).map (fun e => utf8 (e.frame floatText)) ∧
      eventBytes floatText ((sent floatText events).take k) <+: pieces.flatten ∧
      (k < (sent floatText events).length →
        ¬ eventBytes floatText ((sent floatText events).take (k + 1)) <+: pieces.flatten) := by
  have hclean : ∀ w ∈ (sent floatText events).map fun e => utf8 (e.frame floatText), Clean [0x0A, 0x0A] w := by
    intro w hw
    obtain ⟨e, -, rfl⟩ := List.mem_map.1 hw
    exact clean_frame hfloat e
  have hprefix : pieces.flatten <+: body floatText events := (hpieces.trans (relay_isPrefix rounds)).trans hbody
  obtain ⟨k, hframes, hcame, hnext⟩ := frames_prefix (by simp) hclean hprefix
  refine ⟨k, ?_, ?_, fun hk => ?_⟩
  · rw [foldl_feed_eq (by simp), hframes, List.map_take]
  · rw [eventBytes, List.map_take]
    exact hcame
  · rw [eventBytes, List.map_take]
    exact hnext (by rw [List.length_map]; exact hk)

def twoEvents : List StreamEvent := [.token (txt "a\nb"), .done]

theorem stream_relayed_twoEvents : ∃ k,
    ([(body (fun _ => []) twoEvents).take 7, (body (fun _ => []) twoEvents).drop 7].foldl
      (feed [0x0A, 0x0A]) ([], [])).1 =
        ((sent (fun _ => []) twoEvents).take k).map (fun e => utf8 (e.frame fun _ => [])) ∧
      eventBytes (fun _ => []) ((sent (fun _ => []) twoEvents).take k) <+:
        [(body (fun _ => []) twoEvents).take 7, (body (fun _ => []) twoEvents).drop 7].flatten ∧
      (k < (sent (fun _ => []) twoEvents).length →
        ¬ eventBytes (fun _ => []) ((sent (fun _ => []) twoEvents).take (k + 1)) <+:
          [(body (fun _ => []) twoEvents).take 7, (body (fun _ => []) twoEvents).drop 7].flatten) := by
  refine stream_relayed (fun _ => []) (by simp) twoEvents [⟨body (fun _ => []) twoEvents, true, none⟩] (by simp) _ ?_
  rw [List.flatten_cons, List.flatten_cons, List.flatten_nil, List.append_nil, List.take_append_drop, relay]
  split
  · simp
  · rename_i hpiece
    rw [show body (fun _ => []) twoEvents = [] from not_not.1 hpiece]
    exact List.nil_prefix

end KnIg.Report
