/-
Incident cards, matrix and glossary of a report agree with each other, whatever patch was applied:
the techniques of the evidence stay, added ones have their place, and the numbers are left alone.
-/
import KnIg.Report.Matrix
import KnIg.Report.Patches
import Mathlib.Data.List.Dedup

namespace KnIg.Report

open Lib Lib.Text Classify

/-! ## The glossary -/

/-- A technique's id that the glossary knows, itself or by its base. -/
def Known (t : Str) : Prop := t ≠ [] ∧ (glossaryMeta t).isSome = true

theorem addGlossary_nodup {rows : List (Str × Str × Str)} (h : (rows.map Prod.fst).Nodup) (t : Str) :
    ((addGlossary rows t).map Prod.fst).Nodup := by
  unfold addGlossary
  split
  · exact h
  · rename_i hnew
    split
    · rw [List.map_append, List.map_singleton]
      refine List.Nodup.append h (List.nodup_singleton _) ?_
      intro x hx hx'
      rw [List.mem_singleton.1 hx'] at hx
      exact hnew hx
    · exact h

theorem mem_addGlossary {rows : List (Str × Str × Str)} {t x : Str}
    (h : x ∈ rows.map Prod.fst ∨ x = t ∧ (glossaryMeta t).isSome = true) : x ∈ (addGlossary rows t).map Prod.fst := by
  unfold addGlossary
  split
  · rename_i hin
    rcases h with h | ⟨rfl, -⟩
    · exact h
    · exact hin
  · rcases hm : glossaryMeta t with _ | ⟨title, desc⟩
    · rw [hm] at h
      exact h.elim id fun hx => by cases hx.2
    · rw [List.map_append, List.mem_append]
      exact h.imp_right fun hx => List.mem_singleton.2 hx.1

/-- Adding rows keeps them unique and gives every known technique one. -/
theorem foldl_addGlossary (ts : List Str) {rows : List (Str × Str × Str)} (h : (rows.map Prod.fst).Nodup) :
    ((ts.foldl addGlossary rows).map Prod.fst).Nodup ∧
      ∀ x, (x ∈ rows.map Prod.fst ∨ x ∈ ts ∧ (glossaryMeta x).isSome = true) →
        x ∈ (ts.foldl addGlossary rows).map Prod.fst := by
  induction ts generalizing rows with
  | nil => exact ⟨h, fun x hx => hx.elim id fun hx => by cases hx.1⟩
  | cons t ts ih =>
    obtain ⟨hnd, hmem⟩ := ih (addGlossary_nodup h t)
    refine ⟨hnd, fun x hx => hmem x ?_⟩
    rcases hx with hx | ⟨hx, hk⟩
    · exact Or.inl (mem_addGlossary (Or.inl hx))
    · rcases List.mem_cons.1 hx with rfl | hx
      · exact Or.inl (mem_addGlossary (Or.inr ⟨rfl, hk⟩))
      · exact Or.inr ⟨hx, hk⟩

theorem glossaryRows_nodup (seen : List Str) : ((glossaryRows seen).map Prod.fst).Nodup := by
  have hnd : (sortOn id seen.dedup).Nodup := (sortOn_perm id seen.dedup).nodup_iff.2 (List.nodup_dedup seen)
  refine hnd.sublist ?_
  rw [glossaryRows]
  induction sortOn id seen.dedup with
  | nil => exact List.Sublist.slnil
  | cons t ts ih =>
    rw [List.filterMap_cons]
    -- a technique without a row of its own is left out
    rcases glossaryGet t with _ | m
    · exact ih.cons t
    · exact ih.cons_cons t

theorem mem_glossaryRows {seen : List Str} {t : Str} (h : t ∈ seen) (hg : (glossaryGet t).isSome = true) :
    t ∈ (glossaryRows seen).map Prod.fst := by
  obtain ⟨m, hm⟩ := Option.isSome_iff_exists.1 hg
  refine List.mem_map.2 ⟨(t, m), List.mem_filterMap.2 ⟨t, ?_, by rw [hm]; rfl⟩, rfl⟩
  exact (sortOn_perm id seen.dedup).mem_iff.2 (List.mem_dedup.2 h)

/-! ## The incidents -/

/-- What a patch leaves of an incident: its path, its techniques, and no others but known ones. -/
structure Kept (i i' : Incident) : Prop where
  path : i'.path = i.path
  stay : ∀ t ∈ i.mitre, t ≠ [] → t ∈ i'.mitre
  added : ∀ t ∈ i'.mitre, t ∈ i.mitre ∨ Known t

theorem Kept.refl (i : Incident) : Kept i i := ⟨rfl, fun _ ht _ => ht, fun _ ht => Or.inl ht⟩

theorem forall₂_modify {α β : Type} {R : β → α → Prop} {f : α → α} (h : ∀ x y, R x y → R x (f y)) {l : List β}
    {s : List α} (hl : List.Forall₂ R l s) (i : Nat) : List.Forall₂ R l (s.modify i f) := by
  induction hl generalizing i with
  | nil => simp
  | cons hxy hl ih =>
    cases i with
    | zero => exact List.Forall₂.cons (h _ _ hxy) hl
    | succ i => exact List.Forall₂.cons hxy (ih i)

/-- A relation to the items that every change keeps holds of the changed ones. -/
theorem onEntries_forall₂ {α β : Type} {R : β → α → Prop} {rt : Runtime} {change : List (Str × PyVal) → α → α}
    (h : ∀ kvs x y, R x y → R x (change kvs y)) {base : List β} {items items' : List α} {v : PyVal}
    (hb : List.Forall₂ R base items) (hv : onEntries rt change items v = .ok items') : List.Forall₂ R base items' := by
  cases v with
  | list entries =>
    refine foldlM_ok_invariant (I := fun s => List.Forall₂ R base s) ?_ entries hv hb
    intro s entry s' hs hi
    cases entry with
    | dict kvs =>
      obtain ⟨i, -, hs⟩ := bind_eq_ok.1 hs
      cases hs
      split
      · exact forall₂_modify (h kvs) hi i.toNat
      · exact hi
    | _ => cases hs; exact hi
  | _ => cases hv; exact hb

theorem writeFields_invariant {α : Type} {I : α → Prop} {fields : List (String × (Str → α → α))}
    (h : ∀ f ∈ fields, ∀ s x, I x → I (f.2 s x)) (kvs : List (Str × PyVal)) {x : α} (hx : I x) :
    I (writeFields fields kvs x) := by
  unfold writeFields
  induction fields generalizing x with
  | nil => exact hx
  | cons f fields ih =>
    rw [List.forall_mem_cons] at h
    refine ih h.2 ?_
    dsimp only
    split
    · split
      · exact h.1 _ x hx
      · exact hx
    · exact hx

/-- Texts written in an incident are none of its techniques. -/
theorem kept_writeFields (i : Incident) (kvs : List (Str × PyVal)) : Kept i (writeFields incidentFields kvs i) := by
  refine writeFields_invariant (I := Kept i) ?_ kvs (Kept.refl i)
  simp only [incidentFields, List.forall_mem_cons]
  exact ⟨fun _ _ hx => ⟨hx.path, hx.stay, hx.added⟩, fun _ _ hx => ⟨hx.path, hx.stay, hx.added⟩,
    fun _ _ hx => ⟨hx.path, hx.stay, hx.added⟩, by simp⟩

theorem known_validMitre {ids : PyVal} {t : Str} (h : t ∈ validMitre ids) : Known t := by
  cases ids with
  | list vs =>
    obtain ⟨v, -, hv⟩ := List.mem_filterMap.1 h
    split at hv
    · split at hv
      · rename_i hk
        cases hv
        exact hk
      · cases hv
    · cases hv
  | _ => cases h

/-- A proposed classification adds known techniques and takes none away. -/
theorem kept_classifyIncident (i : Incident) (kvs : List (Str × PyVal)) : Kept i (classifyIncident kvs i) := by
  have hm : Kept i (if validMitre (pyGet kvs "mitre") ≠ [] then
      { i with mitre := dedupe (i.mitre ++ validMitre (pyGet kvs "mitre")),
               kill := killFor (dedupe (i.mitre ++ validMitre (pyGet kvs "mitre"))) } else i) := by
    split
    · refine ⟨rfl, fun t ht hne => ?_, fun t ht => ?_⟩
      · exact (mem_dedupe _ t).2 ⟨List.mem_append_left _ ht, hne⟩
      · exact (List.mem_append.1 ((mem_dedupe _ t).1 ht).1).imp_right known_validMitre
    · exact Kept.refl i
  unfold classifyIncident
  dsimp only
  split
  · split
    · exact ⟨hm.path, hm.stay, hm.added⟩
    · exact hm
  · exact hm

/-- What a patch keeps of every incident, it keeps of the list of them. -/
theorem patched_incidents {β : Type} {R : β → Incident → Prop} (hR : ∀ b i i', R b i → Kept i i' → R b i')
    {rt : Runtime} {base : List β} {items items' items'' : List Incident} {v : PyVal} (hb : List.Forall₂ R base items)
    (ho : overlay rt incidentFields items v = .ok items')
    (hc : applyIncidentClassification rt items' v = .ok items'') : List.Forall₂ R base items'' := by
  refine onEntries_forall₂ (fun kvs b i h => hR b i _ h (kept_classifyIncident i kvs)) ?_ hc
  exact onEntries_forall₂ (fun kvs b i h => hR b i _ h (kept_writeFields i kvs)) hb ho

/-! ## The skeleton as built -/

theorem techCount_add (rt : Runtime) (agents : List AgentIn) (dayDates : List Int) (c : Counts) (ev : EventIn) :
    (c.add rt agents dayDates ev).techCount = (seenTechniques rt [ev]).foldl Dict.incr c.techCount := by
  unfold Counts.add seenTechniques
  by_cases hp : ev.filePath = []
  · simp [hp]
  · rw [if_neg hp, List.filter_cons_of_pos (by simpa using hp)]
    split <;> simp [Counts.addDay, Counts.addTotals]

/-- The techniques counted are those seen in the events. -/
theorem techCount_countEvents (rt : Runtime) (req : ReportRequest) (dayDates : List Int) :
    (countEvents rt req dayDates).techCount = Dict.tally (seenTechniques rt req.events) := by
  unfold countEvents Dict.tally
  induction req.events using List.reverseRecOn with
  | nil => rfl
  | append_singleton evs ev ih =>
    rw [List.foldl_append, List.foldl_cons, List.foldl_nil, techCount_add, ih, ← List.foldl_append]
    simp [seenTechniques]

/-- The card of an event shows what the event is evidence of. -/
def Shows (rt : Runtime) (ev : EventIn) (inc : Incident) : Prop :=
  inc.path = ev.filePath ∧ ∀ t ∈ eventMitre rt ev (classify ev.filePath), t ∈ inc.mitre

theorem incident_mitre (rt : Runtime) (agents : List AgentIn) (ev : EventIn) (t : DateTime) :
    (incident rt agents ev t).mitre = eventMitre rt ev (classify ev.filePath) := rfl

theorem mem_timed {events : List EventIn} {e : EventIn × DateTime} (h : e ∈ timed events) :
    e.1 ∈ events ∧ e.1.filePath ≠ [] := by
  obtain ⟨ev, hev, he⟩ := List.mem_filterMap.1 h
  split at he
  · cases he
  · rename_i hp
    obtain ⟨t, -, rfl⟩ := Option.map_eq_some_iff.1 he
    exact ⟨hev, hp⟩

/-- What a built skeleton has: a card for each of some events of the request, whose techniques are seen,
and matrix and glossary of the techniques seen. -/
structure Built (rt : Runtime) (req : ReportRequest) (sk : Skeleton) : Prop where
  cards : ∃ evs : List EventIn, (∀ ev ∈ evs, ev ∈ req.events) ∧ List.Forall₂ (Shows rt) evs sk.incidents
  seen : ∀ inc ∈ sk.incidents, ∀ t ∈ inc.mitre, t ≠ [] ∧ (glossaryGet t).isSome = true ∧
    t ∈ seenTechniques rt req.events
  matrix : sk.attackMatrix = attackMatrix (Dict.tally (seenTechniques rt req.events))
  glossary : sk.mitreGlossary = glossaryRows (seenTechniques rt req.events)

theorem built_of_ok {rt : Runtime} {req : ReportRequest} {sk : Skeleton} (h : buildSkeleton rt req = .ok sk) :
    Built rt req sk := by
  obtain ⟨prev, ranked, campaign, -, hranked, -, rfl⟩ := buildSkeleton_ok_iff.1 h
  have hmem : ∀ e ∈ ranked.take 4, e.1 ∈ req.events ∧ e.1.filePath ≠ [] := fun e he =>
    mem_timed ((rankEvents_perm hranked).mem_iff.1 (List.mem_of_mem_take he))
  refine ⟨⟨(ranked.take 4).map Prod.fst, ?_, ?_⟩, ?_, ?_, rfl⟩
  · intro ev hev
    obtain ⟨e, he, rfl⟩ := List.mem_map.1 hev
    exact (hmem e he).1
  · refine List.forall₂_map_left_iff.2 (List.forall₂_map_right_iff.2 (List.forall₂_same.2 ?_))
    intro e _
    exact ⟨rfl, fun t ht => ht⟩
  · intro inc hinc t ht
    obtain ⟨e, he, rfl⟩ := List.mem_map.1 hinc
    rw [incident_mitre] at ht
    refine ⟨((mem_dedupe _ t).1 ht).2, glossaryGet_eventMitre rt ht, ?_⟩
    exact List.mem_flatMap.2 ⟨e.1, List.mem_filter.2 ⟨(hmem e he).1, by simpa using (hmem e he).2⟩, ht⟩
  · show attackMatrix _ = _
    rw [techCount_countEvents]

theorem Built.wellPlaced {rt : Runtime} {req : ReportRequest} {sk : Skeleton} (h : Built rt req sk) :
    WellPlaced sk.attackMatrix ∧ Arranged sk.attackMatrix := by
  rw [h.matrix]
  exact wellPlaced_attackMatrix _

theorem Built.nodup_glossary {rt : Runtime} {req : ReportRequest} {sk : Skeleton} (h : Built rt req sk) :
    (sk.mitreGlossary.map Prod.fst).Nodup := by
  rw [h.glossary]
  exact glossaryRows_nodup _

theorem Built.known {rt : Runtime} {req : ReportRequest} {sk : Skeleton} (h : Built rt req sk) :
    ∀ inc ∈ sk.incidents, ∀ t ∈ inc.mitre, Known t := by
  intro inc hinc t ht
  obtain ⟨hne, hg, -⟩ := h.seen inc hinc t ht
  obtain ⟨m, hm⟩ := Option.isSome_iff_exists.1 hg
  exact ⟨hne, by rw [glossaryMeta, hm]; rfl⟩

/-! ## Patched -/

/-- Cards, matrix and glossary of a report after a patch, against the skeleton before it. -/
structure Consistent (rt : Runtime) (req : ReportRequest) (sk sk' : Skeleton) : Prop where
  /-- A technique of a card stands once in the matrix. -/
  matrix : ∀ inc ∈ sk'.incidents, ∀ t ∈ inc.mitre, (matrixIds sk'.attackMatrix).count t = 1
  /-- A technique in the matrix stands in the column of its tactic. -/
  column : ∀ col ∈ sk'.attackMatrix, ∀ x ∈ col.tech, col.tactic = (tacticOf x.id).ko
  /-- A technique of a card stands once in the glossary. -/
  glossary : ∀ inc ∈ sk'.incidents, ∀ t ∈ inc.mitre, (sk'.mitreGlossary.map Prod.fst).count t = 1
  /-- No card loses a technique. -/
  stay : List.Forall₂ (fun inc inc' => ∀ t ∈ inc.mitre, t ∈ inc'.mitre) sk.incidents sk'.incidents
  /-- The cards show what their events are evidence of. -/
  cards : ∃ evs : List EventIn, (∀ ev ∈ evs, ev ∈ req.events) ∧ List.Forall₂ (Shows rt) evs sk'.incidents
  /-- The columns are tactics with a place, in the order of their places. -/
  known : ∀ col ∈ sk'.attackMatrix, (col.tactic, col.en) ∈ tacticOrder
  order : sk'.attackMatrix.Pairwise fun c c' => orderIdx c.tactic < orderIdx c'.tactic
  falling : ∀ col ∈ sk'.attackMatrix, col.tech.Pairwise fun x y => y.n ≤ x.n
  /-- The counts of the matrix stay, and no technique gets a second one. -/
  counts : CountsKept sk.attackMatrix sk'.attackMatrix
  once : (matrixIds sk'.attackMatrix).Nodup
  /-- The numbers of the report stay. -/
  numbers : sk'.days = sk.days ∧ sk'.blockedBySev = sk.blockedBySev ∧ sk'.prevPeriodDaily = sk.prevPeriodDaily ∧
    sk'.severity = sk.severity ∧ sk'.category = sk.category ∧ sk'.hosts = sk.hosts ∧ sk'.kpis = sk.kpis ∧
    sk'.campaign = sk.campaign ∧ sk'.campaignHosts = sk.campaignHosts

theorem Built.consistent {rt : Runtime} {req : ReportRequest} {sk : Skeleton} (h : Built rt req sk) :
    Consistent rt req sk sk := by
  obtain ⟨hw, ha⟩ := h.wellPlaced
  have hmatrix : ∀ inc ∈ sk.incidents, ∀ t ∈ inc.mitre, t ∈ matrixIds sk.attackMatrix := by
    intro inc hinc t ht
    rw [h.matrix]
    exact mem_matrixIds_attackMatrix ((Dict.mem_keys_tally _ t).2 (h.seen inc hinc t ht).2.2)
  have hglossary : ∀ inc ∈ sk.incidents, ∀ t ∈ inc.mitre, t ∈ sk.mitreGlossary.map Prod.fst := by
    intro inc hinc t ht
    obtain ⟨-, hg, hs⟩ := h.seen inc hinc t ht
    rw [h.glossary]
    exact mem_glossaryRows hs hg
  exact {
    matrix := fun inc hinc t ht => List.count_eq_one_of_mem hw.nodup_matrixIds (hmatrix inc hinc t ht)
    column := fun col hcol x hx => (hw.placed col hcol x hx).symm
    glossary := fun inc hinc t ht => List.count_eq_one_of_mem h.nodup_glossary (hglossary inc hinc t ht)
    stay := List.forall₂_same.2 fun _ _ _ ht => ht
    cards := h.cards
    known := hw.known
    order := ha.order
    falling := ha.falling
    counts := CountsKept.refl _
    once := hw.nodup_matrixIds
    numbers := ⟨rfl, rfl, rfl, rfl, rfl, rfl, rfl, rfl, rfl⟩ }

theorem mem_incTech {incidents : List Incident} {t : Str} :
    t ∈ (incTech incidents).keys ↔ ∃ inc ∈ incidents, t ∈ inc.mitre ∧ t ≠ [] := by
  rw [incTech, Dict.mem_keys_tally, List.mem_filter, List.mem_flatMap]
  simp only [decide_eq_true_eq, ← exists_and_right, and_assoc]

/-- Matrix and glossary after the techniques of known incidents are carried into them. -/
theorem reconcileMitre_spec (sk : Skeleton) (hw : WellPlaced sk.attackMatrix) (ha : Arranged sk.attackMatrix)
    (hg : (sk.mitreGlossary.map Prod.fst).Nodup) (hk : ∀ inc ∈ sk.incidents, ∀ t ∈ inc.mitre, Known t) :
    (WellPlaced (reconcileMitre sk).attackMatrix ∧ Arranged (reconcileMitre sk).attackMatrix ∧
      CountsKept sk.attackMatrix (reconcileMitre sk).attackMatrix ∧
      ((reconcileMitre sk).mitreGlossary.map Prod.fst).Nodup) ∧
    ∀ inc ∈ sk.incidents, ∀ t ∈ inc.mitre, t ∈ matrixIds (reconcileMitre sk).attackMatrix ∧
      t ∈ (reconcileMitre sk).mitreGlossary.map Prod.fst := by
  have hmem : ∀ inc ∈ sk.incidents, ∀ t ∈ inc.mitre, t ∈ (incTech sk.incidents).keys := fun inc hinc t ht =>
    mem_incTech.2 ⟨inc, hinc, ht, (hk inc hinc t ht).1⟩
  unfold reconcileMitre
  dsimp only
  split
  · rename_i hnone
    refine ⟨⟨hw, ha, CountsKept.refl _, hg⟩, fun inc hinc t ht => ?_⟩
    have := hmem inc hinc t ht
    rw [Dict.keys, hnone] at this
    cases this
  · obtain ⟨hw', hck, hids⟩ := foldl_addTech (incTech sk.incidents).rows hw
    obtain ⟨hg', hrows⟩ := foldl_addGlossary (incTech sk.incidents).keys hg
    have hperm := (sortOn_perm Prod.fst ((incTech sk.incidents).keys.foldl addGlossary sk.mitreGlossary)).map Prod.fst
    refine ⟨⟨hw'.sortMatrix, hw'.arranged_sortMatrix, hck.trans (countsKept_sortMatrix _), hperm.nodup_iff.2 hg'⟩, ?_⟩
    intro inc hinc t ht
    have hkey := hmem inc hinc t ht
    exact ⟨(mem_matrixIds_sortMatrix _ t).2 ((hids t).2 (Or.inr hkey)),
      hperm.mem_iff.2 (hrows t (Or.inr ⟨hkey, (hk inc hinc t ht).2⟩))⟩

theorem reconcileMitre_frame (sk : Skeleton) : ∃ matrix glossary,
    reconcileMitre sk = { sk with attackMatrix := matrix, mitreGlossary := glossary } := by
  unfold reconcileMitre
  dsimp only
  split
  · exact ⟨_, _, rfl⟩
  · exact ⟨_, _, rfl⟩

/-- No card of a patched skeleton has lost a technique. -/
theorem Built.stay_patched {rt : Runtime} {req : ReportRequest} {sk : Skeleton} (h : Built rt req sk)
    {incidents incidents' : List Incident} {v : PyVal} (ho : overlay rt incidentFields sk.incidents v = .ok incidents)
    (hc : applyIncidentClassification rt incidents v = .ok incidents') :
    List.Forall₂ (fun inc inc' : Incident => ∀ t ∈ inc.mitre, t ∈ inc'.mitre) sk.incidents incidents' := by
  have hstay : List.Forall₂ (fun inc inc' : Incident => (∀ t ∈ inc.mitre, t ≠ []) ∧ ∀ t ∈ inc.mitre, t ∈ inc'.mitre)
      sk.incidents incidents' := by
    refine patched_incidents ?_ (List.forall₂_same.2 fun inc hinc => ?_) ho hc
    · rintro inc i i' ⟨hne, hi⟩ hkept
      exact ⟨hne, fun t ht => hkept.stay t (hi t ht) (hne t ht)⟩
    · exact ⟨fun t ht => (h.seen inc hinc t ht).1, fun t ht => ht⟩
  exact hstay.imp fun _ _ hi => hi.2

/-- The cards of a patched skeleton show known techniques, and all that their events are evidence of. -/
theorem Built.shows_patched {rt : Runtime} {req : ReportRequest} {sk : Skeleton} (h : Built rt req sk)
    {incidents incidents' : List Incident} {v : PyVal} (ho : overlay rt incidentFields sk.incidents v = .ok incidents)
    (hc : applyIncidentClassification rt incidents v = .ok incidents') :
    (∀ inc ∈ incidents', ∀ t ∈ inc.mitre, Known t) ∧
      ∃ evs : List EventIn, (∀ ev ∈ evs, ev ∈ req.events) ∧ List.Forall₂ (Shows rt) evs incidents' := by
  obtain ⟨evs, hevs, hshows⟩ := h.cards
  have hcards : List.Forall₂ (fun ev inc => (∀ t ∈ inc.mitre, Known t) ∧ Shows rt ev inc) evs incidents' := by
    refine patched_incidents ?_ ((List.forall₂_and_left _ _).2 ⟨h.known, hshows.flip⟩).flip ho hc
    rintro ev i i' ⟨hk, hpath, hi⟩ hkept
    refine ⟨fun t ht => (hkept.added t ht).elim (hk t) id, hkept.path.trans hpath, fun t ht => ?_⟩
    exact hkept.stay t (hi t ht) ((mem_dedupe _ t).1 ht).2
  obtain ⟨hknown, hshows'⟩ := (List.forall₂_and_left _ _).1 hcards.flip
  exact ⟨hknown, evs, hevs, hshows'.flip⟩

/-- Whatever a patch holds, if it raises nothing the report stays consistent and its numbers stay. -/
theorem applyPatch_consistent (rt : Runtime) (req : ReportRequest) (sk sk' : Skeleton)
    (patch : Option (List (Str × PyVal))) (h : buildSkeleton rt req = .ok sk) (h' : applyPatch rt sk patch = .ok sk') :
    Consistent rt req sk sk' := by
  have hb := built_of_ok h
  rcases patch with _ | _ | ⟨kv, kvs⟩
  · cases h'
    exact hb.consistent
  · cases h'
    exact hb.consistent
  obtain ⟨findings, recs, incidents, incidents', -, -, ho, hc, summary, rfl⟩ := applyPatch_ok h'
  obtain ⟨hknown, hcards⟩ := hb.shows_patched ho hc
  obtain ⟨hw, ha⟩ := hb.wellPlaced
  -- what the patch left is reconciled
  obtain ⟨⟨hw', ha', hck, hg'⟩, hin⟩ := reconcileMitre_spec { sk with findings, recs, incidents := incidents' }
    hw ha hb.nodup_glossary hknown
  obtain ⟨matrix, glossary, hframe⟩ := reconcileMitre_frame { sk with findings, recs, incidents := incidents' }
  rw [hframe] at hw' ha' hck hg' hin ⊢
  exact {
    matrix := fun inc hinc t ht => List.count_eq_one_of_mem hw'.nodup_matrixIds (hin inc hinc t ht).1
    column := fun col hcol x hx => (hw'.placed col hcol x hx).symm
    glossary := fun inc hinc t ht => List.count_eq_one_of_mem hg' (hin inc hinc t ht).2
    stay := hb.stay_patched ho hc
    cards := hcards
    known := hw'.known
    order := ha'.order
    falling := ha'.falling
    counts := hck
    once := hw'.nodup_matrixIds
    numbers := ⟨rfl, rfl, rfl, rfl, rfl, rfl, rfl, rfl, rfl⟩ }

/-- `{"incidents": [{"index": 0, "mitre": ["T1003.999"]}]}`, a sub-technique the glossary knows by its base. -/
def unlistedSub : List (Str × PyVal) :=
  [(txt "incidents", .list [.dict [(txt "index", .int 0), (txt "mitre", .list [.str (txt "T1003.999")])]])]

theorem applyPatch_consistent_unlistedSub : ∃ sk sk', buildSkeleton asciiRuntime kstRequest = .ok sk ∧
    applyPatch asciiRuntime sk (some unlistedSub) = .ok sk' ∧ Consistent asciiRuntime kstRequest sk sk' := by
  obtain ⟨sk, h⟩ := kstRequest_builds
  obtain ⟨sk', h'⟩ : ∃ sk', applyPatch asciiRuntime sk (some unlistedSub) = .ok sk' := ⟨_, rfl⟩
  exact ⟨sk, sk', h, h', applyPatch_consistent asciiRuntime kstRequest sk sk' (some unlistedSub) h h'⟩

end KnIg.Report
