/-
The comparison with the period before: when its events are those of the range moved back by the range's length, the
report shows no change, as long as the range has no more days than labels and every event has a path.
-/
import KnIg.Lib.Run
import KnIg.Report.Conservation

namespace KnIg.Report

open Lib Lib.Text Classify

/-! ## Requests that repeat themselves -/

/-- The event moved back by a number of microseconds. -/
structure EventIn.MovedBack (d : Int) (ev ev' : EventIn) : Prop where
  same : ev' = { ev with occurredAt := ev'.occurredAt }
  time : ∀ t, ev.occurredAt = some t → ∃ t', t.minus d = .ok t' ∧ ev'.occurredAt = some t'
  none : ev.occurredAt = none → ev'.occurredAt = none

/-- The range is a number of days, and the events before it are those of the range moved back by as much, in any
order. -/
def ReportRequest.Repeats (req : ReportRequest) (days : Int) : Prop :=
  req.range.toTime.sub req.range.fromTime = .ok (days * dayMicros) ∧
    ∃ moved, List.Forall₂ (EventIn.MovedBack (days * dayMicros)) req.events moved ∧ moved.Perm req.prevEvents

/-- A label of a change that is none. -/
def noChange (delta : Str) : Prop := delta = txt "—" ∨ delta = txt "± 0%"

def Skeleton.kpiDelta (sk : Skeleton) (i : Nat) : Str := (sk.kpis.map (·.delta)).getD i []

/-- The period before has the same series of days, and the totals compared with it show no change. -/
structure Neutral (rt : Runtime) (req : ReportRequest) (sk : Skeleton) : Prop where
  daily : sk.prevPeriodDaily = (countEvents rt req req.labels).dailyTotal
  total : noChange (sk.kpiDelta 0)
  unblocked : noChange (sk.kpiDelta 2)
  crit : noChange (sk.kpiDelta 3)

/-- The day of an event with a path and a time. -/
def EventIn.dayOf (ev : EventIn) : Option Int := if ev.filePath = [] then none else ev.occurredAt.map (·.day)

/-- How many events with a path are on a day. -/
def dayCount (events : List EventIn) (day : Int) : Nat := bucketCount EventIn.dayOf events day

/-- No more than 31 days have dates in the range, or the last 31 have as many events as the first 31. -/
def ReportRequest.DaysRepeat (req : ReportRequest) : Prop :=
  req.range.toTime.day ≤ req.range.fromTime.day + 30 ∨
    ∀ i ∈ List.range 31, dayCount req.events (req.range.toTime.day - 30 + (i : Nat)) =
      dayCount req.events (req.range.fromTime.day + (i : Nat))

/-- So few events lack a path that the share of the others, in percent, rounds to all of them. -/
def ReportRequest.FewPathless (rt : Runtime) (req : ReportRequest) : Prop :=
  req.events = [] ∨ rt.pct (req.events.countP EventIn.hasPath) req.events.length = 0

/-! ## Days -/

/-- The days of the labels, counted from the first of them. -/
theorem dayLabels_eq (first last : Int) :
    dayLabels first last = (List.range (min ((last - first).toNat + 1) 31)).map fun i : Nat =>
      first + ((last - first).toNat - 30 : Nat) + i := by
  unfold dayLabels
  dsimp only
  rw [List.length_map, List.length_range, ← List.map_drop]
  refine List.ext_getElem (by simp; omega) fun i hi hi' => ?_
  simp
  omega

/-- The series that a loop over events fills: a bucket for each day. -/
theorem bucketAdd_dayOf (dayDates : List Int) (series : List Nat) {ev : EventIn} (hp : ev.filePath ≠ []) :
    bucketAdd dayDates EventIn.dayOf series ev =
      match ev.occurredAt.bind fun t => dayDates.idxOf? t.day with
      | some idx => Counts.bump idx series
      | none => series := by
  have hday : (EventIn.dayOf ev).bind (fun k => dayDates.idxOf? k) =
      ev.occurredAt.bind fun t => dayDates.idxOf? t.day := by
    rw [EventIn.dayOf, if_neg hp]
    cases ev.occurredAt <;> rfl
  rw [bucketAdd, hday]
  rfl

theorem bucketAdd_of_pathless (dayDates : List Int) (series : List Nat) {ev : EventIn} (hp : ev.filePath = []) :
    bucketAdd dayDates EventIn.dayOf series ev = series := by
  have hday : EventIn.dayOf ev = none := if_pos hp
  rw [bucketAdd, hday]
  rfl

theorem dailyTotal_countEvents (rt : Runtime) (req : ReportRequest) {dayDates : List Int} (h : dayDates.Nodup) :
    (countEvents rt req dayDates).dailyTotal = dayDates.map (dayCount req.events) := by
  have hstep : ∀ (c : Counts) ev, bucketAdd dayDates EventIn.dayOf c.dailyTotal ev =
      (c.add rt req.agents dayDates ev).dailyTotal := by
    intro c ev
    unfold Counts.add
    by_cases hp : ev.filePath = []
    · rw [bucketAdd_of_pathless dayDates c.dailyTotal hp, if_pos hp]
    · rw [bucketAdd_dayOf dayDates c.dailyTotal hp, if_neg hp]
      cases ev.occurredAt.bind fun t => dayDates.idxOf? t.day <;> rfl
  unfold countEvents
  rw [← List.foldl_hom Counts.dailyTotal hstep]
  exact foldl_bucketAdd_zero h EventIn.dayOf req.events

theorem daily_foldl_prev (events : List EventIn) {prevDates : List Int} (h : prevDates.Nodup) :
    (events.foldl (PrevCounts.add prevDates) ⟨.replicate prevDates.length 0, 0, 0⟩).daily =
      prevDates.map (dayCount events) := by
  have hstep : ∀ (c : PrevCounts) ev, bucketAdd prevDates EventIn.dayOf c.daily ev =
      (c.add prevDates ev).daily := by
    intro c ev
    unfold PrevCounts.add
    by_cases hp : ev.filePath = []
    · rw [bucketAdd_of_pathless prevDates c.daily hp, if_pos hp]
    · rw [if_neg hp]
      exact bucketAdd_dayOf prevDates c.daily hp
  rw [← List.foldl_hom PrevCounts.daily hstep]
  exact foldl_bucketAdd_zero h EventIn.dayOf events

/-! ## Totals -/

def EventIn.isCritical (ev : EventIn) : Bool := ev.hasPath && decide ((classify ev.filePath).severity = .critical)

def EventIn.isUnblocked (ev : EventIn) : Bool := ev.hasPath && !ev.blocked

theorem BySev.critical_modify (m : BySev Nat) (s : Severity) :
    (m.modify s (· + 1)).critical = m.critical + if s = .critical then 1 else 0 := by
  cases s <;> rfl

theorem critical_countEvents (rt : Runtime) (req : ReportRequest) (dayDates : List Int) :
    (countEvents rt req dayDates).sevTotal.critical = req.events.countP EventIn.isCritical := by
  have hstep : ∀ (c : Counts) ev, (c.add rt req.agents dayDates ev).sevTotal.critical =
      c.sevTotal.critical + if EventIn.isCritical ev = true then 1 else 0 := by
    intro c ev
    unfold Counts.add
    by_cases hp : ev.filePath = []
    · simp [hp, EventIn.isCritical, EventIn.hasPath]
    · have hsev : (c.addTotals rt req.agents ev).sevTotal.critical =
          c.sevTotal.critical + if EventIn.isCritical ev = true then 1 else 0 := by
        rw [Counts.addTotals, BySev.critical_modify]
        simp [EventIn.isCritical, EventIn.hasPath, hp]
      rw [if_neg hp]
      cases ev.occurredAt.bind fun t => dayDates.idxOf? t.day <;> exact hsev
  have hrun := foldl_counts (fun c : Counts => c.sevTotal.critical) hstep req.events (Counts.init dayDates.length)
  rwa [show (Counts.init dayDates.length).sevTotal.critical = 0 from rfl, Nat.zero_add] at hrun

theorem crit_foldl_prev (events : List EventIn) (prevDates : List Int) (daily : List Nat) :
    (events.foldl (PrevCounts.add prevDates) ⟨daily, 0, 0⟩).crit = events.countP EventIn.isCritical := by
  have hstep : ∀ (c : PrevCounts) ev, (c.add prevDates ev).crit =
      c.crit + if EventIn.isCritical ev = true then 1 else 0 := by
    intro c ev
    unfold PrevCounts.add
    by_cases hp : ev.filePath = []
    · simp [hp, EventIn.isCritical, EventIn.hasPath]
    · rw [if_neg hp]
      by_cases hc : (classify ev.filePath).severity = .critical <;> simp [EventIn.isCritical, EventIn.hasPath, hp, hc]
  have hrun := foldl_counts PrevCounts.crit hstep events ⟨daily, 0, 0⟩
  rwa [Nat.zero_add] at hrun

theorem unblocked_foldl_prev (events : List EventIn) (prevDates : List Int) (daily : List Nat) :
    (events.foldl (PrevCounts.add prevDates) ⟨daily, 0, 0⟩).unblocked = events.countP EventIn.isUnblocked := by
  have hstep : ∀ (c : PrevCounts) ev, (c.add prevDates ev).unblocked =
      c.unblocked + if EventIn.isUnblocked ev = true then 1 else 0 := by
    intro c ev
    unfold PrevCounts.add
    by_cases hp : ev.filePath = []
    · simp [hp, EventIn.isUnblocked, EventIn.hasPath]
    · rw [if_neg hp]
      cases hb : ev.blocked <;> simp [EventIn.isUnblocked, EventIn.hasPath, hp, hb]
  have hrun := foldl_counts PrevCounts.unblocked hstep events ⟨daily, 0, 0⟩
  rwa [Nat.zero_add] at hrun

/-! ## Events moved back -/

theorem EventIn.MovedBack.filePath {d : Int} {ev ev' : EventIn} (h : ev.MovedBack d ev') :
    ev'.filePath = ev.filePath := by rw [h.same]

theorem EventIn.MovedBack.blocked {d : Int} {ev ev' : EventIn} (h : ev.MovedBack d ev') :
    ev'.blocked = ev.blocked := by rw [h.same]

/-- Whole days back, an event lies as many days earlier. -/
theorem EventIn.MovedBack.dayOf {days : Int} {ev ev' : EventIn} (h : ev.MovedBack (days * dayMicros) ev') (day : Int) :
    ev.dayOf = some day ↔ ev'.dayOf = some (day - days) := by
  unfold EventIn.dayOf
  rw [h.filePath]
  split
  · simp
  · cases hocc : ev.occurredAt with
    | none => simp [h.none hocc]
    | some t =>
      obtain ⟨t', hminus, hocc'⟩ := h.time t hocc
      have hday := DateTime.day_of_minus hminus
      have hwall := t.day_eq
      unfold dayMicros at hday hwall
      rw [hocc', Option.map_some, Option.map_some, Option.some_inj, Option.some_inj]
      omega

/-- A count of events that are moved back, with what moves with them. -/
theorem countP_moved {d : Int} {p q : EventIn → Bool} (hpq : ∀ ev ev', ev.MovedBack d ev' → p ev = q ev')
    {events moved prev : List EventIn} (h : List.Forall₂ (EventIn.MovedBack d) events moved) (hperm : moved.Perm prev) :
    prev.countP q = events.countP p := by
  rw [← hperm.countP_eq]
  clear hperm
  induction h with
  | nil => rfl
  | cons hev _ ih => rw [List.countP_cons, List.countP_cons, ih, hpq _ _ hev]

namespace ReportRequest

variable {req : ReportRequest} {days : Int}

theorem Repeats.dayCount_prev (h : req.Repeats days) (day : Int) :
    dayCount req.prevEvents (day - days) = dayCount req.events day := by
  obtain ⟨-, moved, hmoved, hperm⟩ := h
  exact countP_moved (fun ev ev' hev => decide_eq_decide.2 (hev.dayOf day)) hmoved hperm

theorem Repeats.length_prev (h : req.Repeats days) : req.prevEvents.length = req.events.length := by
  obtain ⟨-, moved, hmoved, hperm⟩ := h
  rw [← hperm.length_eq, hmoved.length_eq]

theorem Repeats.critical_prev (h : req.Repeats days) :
    req.prevEvents.countP EventIn.isCritical = req.events.countP EventIn.isCritical := by
  obtain ⟨-, moved, hmoved, hperm⟩ := h
  refine countP_moved (fun ev ev' hev => ?_) hmoved hperm
  rw [EventIn.isCritical, EventIn.isCritical, EventIn.hasPath, EventIn.hasPath, hev.filePath]

theorem Repeats.unblocked_prev (h : req.Repeats days) :
    req.prevEvents.countP EventIn.isUnblocked = req.events.countP EventIn.isUnblocked := by
  obtain ⟨-, moved, hmoved, hperm⟩ := h
  refine countP_moved (fun ev ev' hev => ?_) hmoved hperm
  rw [EventIn.isUnblocked, EventIn.isUnblocked, EventIn.hasPath, EventIn.hasPath, hev.filePath, hev.blocked]

/-- What the counts of the period before are: its days begin as much earlier as the range is long. -/
theorem Repeats.prevCounts_eq (h : req.Repeats days) {n : Nat} {prev : PrevCounts}
    (hprev : prevCounts req n = .ok prev) :
    prev.daily = (List.range n).map (fun i : Nat => dayCount req.events (req.range.fromTime.day + i)) ∧
      prev.crit = req.events.countP EventIn.isCritical ∧ prev.unblocked = req.events.countP EventIn.isUnblocked := by
  unfold prevCounts at hprev
  obtain ⟨dur, hdur, hrest⟩ := bind_eq_ok.1 hprev
  rw [h.1] at hdur
  cases hdur
  obtain ⟨start, hstart, hrest⟩ := bind_eq_ok.1 hrest
  obtain ⟨prevDates, hdates, hrest⟩ := bind_eq_ok.1 hrest
  cases hrest
  have hday : start.day = req.range.fromTime.day - days := by
    have hday := DateTime.day_of_minus hstart
    have hwall := req.range.fromTime.day_eq
    unfold dayMicros at hday hwall
    omega
  have hdates : prevDates = (List.range n).map fun i : Nat => start.day + i := by
    refine eq_map_of_mapM_eq_ok (fun i b hb => ?_) hdates
    unfold addDays at hb
    split at hb
    · cases hb
      rfl
    · cases hb
  have hnodup : prevDates.Nodup := by
    rw [hdates]
    refine List.nodup_range.map fun i j hij => ?_
    exact Int.ofNat_inj.1 (Int.add_left_cancel hij)
  have hlen : n = prevDates.length := by simp [hdates]
  refine ⟨?_, (crit_foldl_prev _ _ _).trans h.critical_prev, (unblocked_foldl_prev _ _ _).trans h.unblocked_prev⟩
  rw [hlen, daily_foldl_prev _ hnodup, ← hlen, hdates, List.map_map]
  refine List.map_congr_left fun i _ => ?_
  rw [← h.dayCount_prev, Function.comp, hday]
  congr 1
  omega

end ReportRequest

/-! ## Labels of change -/

/-- A label of a change begins with a mark that no label of no change begins with. -/
theorem not_noChange_append {mark : Str} {c : Nat} (hmark : mark.head? = some c) (hc : c ≠ 8212 ∧ c ≠ 177) (s : Str) :
    ¬ noChange (mark ++ s) := by
  have hhead : (mark ++ s).head? = some c := by
    rw [List.head?_append, hmark]
    rfl
  rintro (h | h)
  · rw [h] at hhead
    exact hc.1 (Option.some_inj.1 hhead).symm
  · rw [h] at hhead
    exact hc.2 (Option.some_inj.1 hhead).symm

theorem noChange_deltaPct (rt : Runtime) (cur prev : Nat) :
    noChange (deltaPct rt cur prev).1 ↔ if prev = 0 then cur = 0 else rt.pct cur prev = 0 := by
  unfold deltaPct
  by_cases hprev : prev = 0
  · rw [if_pos hprev, if_pos hprev]
    by_cases hcur : 0 < cur
    · rw [if_pos hcur]
      have hnew : ¬ noChange (txt "신규" ++ []) := not_noChange_append rfl (by decide) []
      exact iff_of_false hnew (by omega)
    · rw [if_neg hcur]
      exact iff_of_true (.inl rfl) (by omega)
  · rw [if_neg hprev, if_neg hprev]
    dsimp only
    split_ifs with hup hdown
    · refine iff_of_false ?_ (by omega)
      rw [List.append_assoc]
      exact not_noChange_append rfl (by decide) _
    · refine iff_of_false ?_ (by omega)
      rw [List.append_assoc]
      exact not_noChange_append rfl (by decide) _
    · exact iff_of_true (.inr rfl) (by omega)

/-! ## The comparison -/

/-- The events with a path that are not blocked, as the report counts them. -/
theorem sub_blocked (events : List EventIn) :
    events.countP EventIn.hasPath - (events.countP fun ev => ev.filePath ≠ [] && ev.blocked) =
      events.countP EventIn.isUnblocked := by
  have hsplit : events.countP EventIn.hasPath =
      (events.countP fun ev => ev.filePath ≠ [] && ev.blocked) + events.countP EventIn.isUnblocked := by
    induction events with
    | nil => rfl
    | cons ev events ih =>
      rw [List.countP_cons, List.countP_cons, List.countP_cons, ih]
      cases hb : ev.blocked <;> by_cases hp : ev.filePath = [] <;>
        simp [EventIn.isUnblocked, EventIn.hasPath, hb, hp] <;> omega
  omega

/-- What is read off the report of a request that repeats itself. -/
theorem neutral_iff_parts (rt : Runtime) {req : ReportRequest} {days : Int} (h : req.Repeats days) {sk : Skeleton}
    (hsk : buildSkeleton rt req = .ok sk) :
    Neutral rt req sk ↔
      ((List.range req.labels.length).map (fun i : Nat => dayCount req.events (req.range.fromTime.day + i)) =
          req.labels.map (dayCount req.events)) ∧
        noChange (deltaPct rt (req.events.countP EventIn.hasPath) req.events.length).1 ∧
        noChange (deltaPct rt (req.events.countP EventIn.isUnblocked) (req.events.countP EventIn.isUnblocked)).1 ∧
        noChange (deltaPct rt (req.events.countP EventIn.isCritical) (req.events.countP EventIn.isCritical)).1 := by
  obtain ⟨prev, ranked, campaign, hprev, -, -, rfl⟩ := buildSkeleton_ok_iff.1 hsk
  change prevCounts req req.labels.length = .ok prev at hprev
  obtain ⟨hdaily, hcrit, hunblocked⟩ := h.prevCounts_eq hprev
  have hsev := (booked_countEvents rt req req.labels).sev
  have htotal : (skeletonOf rt req (countEvents rt req req.labels) prev ranked campaign).kpiDelta 0 =
      (deltaPct rt (req.events.countP EventIn.hasPath) req.events.length).1 := by
    show (deltaPct rt (countEvents rt req req.labels).sevTotal.toList.sum req.prevEvents.length).1 = _
    rw [hsev, h.length_prev]
  have hun : (skeletonOf rt req (countEvents rt req req.labels) prev ranked campaign).kpiDelta 2 =
      (deltaPct rt (req.events.countP EventIn.isUnblocked) (req.events.countP EventIn.isUnblocked)).1 := by
    show (deltaPct rt ((countEvents rt req req.labels).sevTotal.toList.sum -
      (req.events.countP fun ev => ev.filePath ≠ [] && ev.blocked)) prev.unblocked).1 = _
    rw [hsev, sub_blocked, hunblocked]
  have hcr : (skeletonOf rt req (countEvents rt req req.labels) prev ranked campaign).kpiDelta 3 =
      (deltaPct rt (req.events.countP EventIn.isCritical) (req.events.countP EventIn.isCritical)).1 := by
    show (deltaPct rt (countEvents rt req req.labels).sevTotal.critical prev.crit).1 = _
    rw [critical_countEvents, hcrit]
  have hlabels := dailyTotal_countEvents rt req (nodup_dayLabels req.range.fromTime.day req.range.toTime.day)
  change (countEvents rt req req.labels).dailyTotal = req.labels.map _ at hlabels
  rw [← htotal, ← hun, ← hcr, ← hdaily, ← hlabels]
  exact ⟨fun hn => ⟨hn.daily, hn.total, hn.unblocked, hn.crit⟩, fun hn => ⟨hn.1, hn.2.1, hn.2.2.1, hn.2.2.2⟩⟩

/-- The first days and the labelled ones have the same counts. -/
theorem daysRepeat_iff (req : ReportRequest) :
    ((List.range req.labels.length).map (fun i : Nat => dayCount req.events (req.range.fromTime.day + i)) =
        req.labels.map (dayCount req.events)) ↔ req.DaysRepeat := by
  unfold ReportRequest.DaysRepeat ReportRequest.labels
  rw [dayLabels_eq, List.map_map, List.length_map, List.length_range, List.map_inj_left]
  simp only [List.mem_range, Function.comp]
  by_cases hshort : req.range.toTime.day ≤ req.range.fromTime.day + 30
  · -- every day has a label
    refine iff_of_true (fun i _ => ?_) (.inl hshort)
    congr 1
    omega
  · have hn : min ((req.range.toTime.day - req.range.fromTime.day).toNat + 1) 31 = 31 := by omega
    rw [hn, or_iff_right hshort]
    refine forall₂_congr fun i _ => ?_
    have hlast : req.range.fromTime.day + ((req.range.toTime.day - req.range.fromTime.day).toNat - 30 : Nat) +
        (i : Nat) = req.range.toTime.day - 30 + (i : Nat) := by omega
    rw [hlast]
    exact eq_comm

/-- On a request that repeats itself the comparison shows no change exactly if its first days have as many events as
its last and few events lack a path. -/
theorem neutral_iff (rt : Runtime) (hpct : ∀ n : Nat, 0 < n → rt.pct n n = 0) {req : ReportRequest} {days : Int}
    (h : req.Repeats days) {sk : Skeleton} (hsk : buildSkeleton rt req = .ok sk) :
    Neutral rt req sk ↔ req.DaysRepeat ∧ req.FewPathless rt := by
  have hsame : ∀ n, noChange (deltaPct rt n n).1 := by
    intro n
    rw [noChange_deltaPct]
    split
    · assumption
    · exact hpct n (by omega)
  have htotal : noChange (deltaPct rt (req.events.countP EventIn.hasPath) req.events.length).1 ↔
      req.FewPathless rt := by
    rw [noChange_deltaPct, ReportRequest.FewPathless]
    by_cases hev : req.events = []
    · simp [hev]
    · rw [if_neg (by simpa using hev), or_iff_right hev]
  rw [neutral_iff_parts rt h hsk, daysRepeat_iff, htotal]
  exact ⟨fun hn => ⟨hn.1, hn.2.1⟩, fun hn => ⟨hn.1, hn.2, hsame _, hsame _⟩⟩

/-! ## Days that repeat -/

section Example

/-- The event with this path a day before it. -/
def dayBefore (path : Str) : EventIn :=
  { shadowWrite with
    filePath := path
    occurredAt := some { utcAfternoon with day := 739752, day_range := by decide } }

/-- The day of a range nine hours ahead of UTC, with one event and the same event a day before. -/
def repeated (path : Str) : ReportRequest :=
  { kstRequest with events := [{ shadowWrite with filePath := path }], prevEvents := [dayBefore path] }

theorem repeats_repeated (path : Str) : (repeated path).Repeats 1 := by
  refine ⟨rfl, [dayBefore path], .cons ⟨rfl, ?_, nofun⟩ .nil, .refl _⟩
  rintro t ⟨⟩
  exact ⟨_, rfl, rfl⟩

theorem pct_self (n : Nat) (hn : 0 < n) : asciiRuntime.pct n n = 0 := by
  simp [asciiRuntime, roundQuot, hn]

theorem neutral_shadowWrite :
    ∃ sk, buildSkeleton asciiRuntime (repeated (txt "/etc/shadow")) = .ok sk ∧
      Neutral asciiRuntime (repeated (txt "/etc/shadow")) sk := by
  have hsk : ∃ sk, buildSkeleton asciiRuntime (repeated (txt "/etc/shadow")) = .ok sk := ⟨_, rfl⟩
  obtain ⟨sk, hsk⟩ := hsk
  exact ⟨sk, hsk, (neutral_iff asciiRuntime pct_self (repeats_repeated _) hsk).2 ⟨.inl (by decide), .inr (by decide)⟩⟩

/-- An event without a path counts in the period before and not in the range. -/
theorem neutral_pathless_fails : (repeated []).Repeats 1 ∧
    ∃ sk, buildSkeleton asciiRuntime (repeated []) = .ok sk ∧ ¬ Neutral asciiRuntime (repeated []) sk := by
  have hsk : ∃ sk, buildSkeleton asciiRuntime (repeated []) = .ok sk := ⟨_, rfl⟩
  obtain ⟨sk, hsk⟩ := hsk
  refine ⟨repeats_repeated [], sk, hsk, fun hn => ?_⟩
  obtain ⟨-, htotal, -⟩ := (neutral_iff_parts asciiRuntime (repeats_repeated []) hsk).1 hn
  exact absurd ((noChange_deltaPct _ _ _).1 htotal) (by decide)

end Example

end KnIg.Report
