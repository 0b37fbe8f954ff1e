/-
The day series against the totals: what the loop over the events books into each of them, when a
report is built, and on which requests the series of days add up to the totals.
-/
import KnIg.Report.Aggregate

namespace KnIg.Report

open Lib Lib.Text Classify

def EventIn.hasPath (ev : EventIn) : Bool := ev.filePath ≠ []

/-- An event with a path whose date, on its own clock, is among the days. -/
def onDay (dayDates : List Int) (ev : EventIn) : Bool :=
  ev.hasPath && (ev.occurredAt.bind fun t => dayDates.idxOf? t.day).isSome

theorem BySev.sum_modify {α : Type} (g : α → Nat) (m : BySev α) (s : Severity) {f : α → α}
    (hf : ∀ x ∈ m.toList, g (f x) = g x + 1) : ((m.modify s f).toList.map g).sum = (m.toList.map g).sum + 1 := by
  simp only [BySev.toList, List.forall_mem_cons] at hf
  obtain ⟨h1, h2, h3, h4, -⟩ := hf
  cases s <;> simp only [BySev.modify, BySev.toList, List.map_cons, List.map_nil, List.sum_cons, List.sum_nil] <;> omega

namespace Counts

@[simp] theorem length_bump (idx : Nat) (series : List Nat) : (bump idx series).length = series.length :=
  List.length_modify ..

theorem sum_bump {idx : Nat} {series : List Nat} (h : idx < series.length) : (bump idx series).sum = series.sum + 1 := by
  unfold bump
  induction series generalizing idx with
  | nil => simp at h
  | cons x series ih =>
    cases idx with
    | zero =>
      simp only [List.modify_zero_cons, List.sum_cons]
      omega
    | succ idx =>
      rw [List.modify_succ_cons, List.sum_cons, List.sum_cons, ih (by simpa using h)]
      omega

/-- Every series has an entry for each day. -/
def Sized (n : Nat) (c : Counts) : Prop :=
  (∀ series ∈ c.blocked.toList, series.length = n) ∧ c.dailyTotal.length = n ∧ c.dailyBlocked.length = n ∧
    c.dailyUnblocked.length = n

/-- What the events so far add up to. -/
structure Booked (dayDates : List Int) (evs : List EventIn) (c : Counts) : Prop where
  sized : c.Sized dayDates.length
  sev : c.sevTotal.toList.sum = evs.countP EventIn.hasPath
  total : c.dailyTotal.sum = evs.countP (onDay dayDates)
  blocked : c.dailyBlocked.sum = evs.countP fun ev => onDay dayDates ev && ev.blocked
  unblocked : c.dailyUnblocked.sum = evs.countP fun ev => onDay dayDates ev && !ev.blocked
  bySev : (c.blocked.toList.map List.sum).sum = evs.countP fun ev => onDay dayDates ev && ev.blocked

theorem booked_init (dayDates : List Int) : Booked dayDates [] (init dayDates.length) where
  sized := by simp [Sized, init, BySev.toList]
  sev := rfl
  total := by simp [init]
  blocked := by simp [init]
  unblocked := by simp [init]
  bySev := by simp [init, BySev.toList]

variable (rt : Runtime) (agents : List AgentIn)

theorem Sized.addTotals {n : Nat} {c : Counts} (h : c.Sized n) (ev : EventIn) : (c.addTotals rt agents ev).Sized n := h

/-- The totals of an event count it once among the severities and leave the days alone. -/
theorem sev_addTotals (c : Counts) (ev : EventIn) :
    (c.addTotals rt agents ev).sevTotal.toList.sum = c.sevTotal.toList.sum + 1 := by
  have := BySev.sum_modify id c.sevTotal (classify ev.filePath).severity (f := (· + 1)) fun _ _ => rfl
  rw [List.map_id, List.map_id] at this
  exact this

theorem length_modify_bump {n : Nat} {m : BySev (List Nat)} (h : ∀ series ∈ m.toList, series.length = n)
    (s : Severity) (idx : Nat) : ∀ series ∈ (m.modify s (bump idx)).toList, series.length = n := by
  simp only [BySev.toList, List.forall_mem_cons] at h
  obtain ⟨h1, h2, h3, h4, -⟩ := h
  cases s <;> simp [BySev.modify, BySev.toList, h1, h2, h3, h4]

theorem Sized.addDay {n : Nat} {c : Counts} (h : c.Sized n) (idx : Nat) (sev : Severity) (b : Bool) :
    (c.addDay idx sev b).Sized n := by
  obtain ⟨hs, ht, hb, hu⟩ := h
  unfold Counts.addDay Sized
  cases b
  · exact ⟨hs, by simpa using ht, hb, by simpa using hu⟩
  · exact ⟨length_modify_bump hs sev idx, by simpa using ht, by simpa using hb, hu⟩

/-- An event booked on a day is one more of the day's total, and of its blocked ones in one severity or
of those not blocked. -/
theorem sums_addDay {n idx : Nat} {c : Counts} (h : c.Sized n) (hi : idx < n) (sev : Severity) (b : Bool) :
    (c.addDay idx sev b).dailyTotal.sum = c.dailyTotal.sum + 1 ∧
    (c.addDay idx sev b).dailyBlocked.sum = c.dailyBlocked.sum + b.toNat ∧
    (c.addDay idx sev b).dailyUnblocked.sum = c.dailyUnblocked.sum + (!b).toNat ∧
    ((c.addDay idx sev b).blocked.toList.map List.sum).sum = (c.blocked.toList.map List.sum).sum + b.toNat := by
  obtain ⟨hs, ht, hb, hu⟩ := h
  refine ⟨sum_bump (by omega), ?_, ?_, ?_⟩
  · cases b
    · rfl
    · exact sum_bump (by omega)
  · cases b
    · exact sum_bump (by omega)
    · rfl
  · cases b
    · rfl
    · exact BySev.sum_modify List.sum c.blocked sev fun series hm => sum_bump (by rw [hs series hm]; exact hi)

/-- One turn of the loop books one more event. -/
theorem Booked.add {dayDates : List Int} {evs : List EventIn} {c : Counts} (h : Booked dayDates evs c) (ev : EventIn) :
    Booked dayDates (evs ++ [ev]) (c.add rt agents dayDates ev) := by
  unfold Counts.add
  by_cases hp : ev.filePath = []
  -- an event without a path is passed over
  · have hno : ev.hasPath = false := by simp [EventIn.hasPath, hp]
    have hday : onDay dayDates ev = false := by simp [onDay, hno]
    rw [if_pos hp]
    refine ⟨h.sized, ?_, ?_, ?_, ?_, ?_⟩ <;> simp only [List.countP_append, List.countP_singleton, hno, hday,
      Bool.false_and, Bool.false_eq_true, if_false, Nat.add_zero]
    exacts [h.sev, h.total, h.blocked, h.unblocked, h.bySev]
  · have hyes : ev.hasPath = true := by simp [EventIn.hasPath, hp]
    rw [if_neg hp]
    rcases hidx : (ev.occurredAt.bind fun t => dayDates.idxOf? t.day) with _ | idx
    -- no label for its day: of the sums only that of the severities grows
    · have hday : onDay dayDates ev = false := by simp [onDay, hidx]
      refine ⟨h.sized, ?_, ?_, ?_, ?_, ?_⟩ <;> simp only [List.countP_append, List.countP_singleton, hyes, hday,
        Bool.false_and, Bool.false_eq_true, if_false, if_true, Nat.add_zero]
      · rw [sev_addTotals, h.sev]
      exacts [h.total, h.blocked, h.unblocked, h.bySev]
    · have hday : onDay dayDates ev = true := by simp [onDay, hidx, hyes]
      have hlt : idx < dayDates.length := by
        obtain ⟨t, -, ht⟩ := Option.bind_eq_some_iff.1 hidx
        exact (List.idxOf?_eq_some_iff.1 ht).1
      obtain ⟨ht, hb, hu, hs⟩ := sums_addDay (h.sized.addTotals rt agents ev) hlt (classify ev.filePath).severity ev.blocked
      refine ⟨(h.sized.addTotals rt agents ev).addDay _ _ _, ?_, ?_, ?_, ?_, ?_⟩ <;>
        simp only [List.countP_append, List.countP_singleton, hyes, hday, Bool.true_and, if_true]
      · show (c.addTotals rt agents ev).sevTotal.toList.sum = _
        rw [sev_addTotals, h.sev]
      · rw [ht, ← h.total]
        rfl
      · rw [hb, ← h.blocked]
        cases ev.blocked <;> rfl
      · rw [hu, ← h.unblocked]
        cases ev.blocked <;> rfl
      · rw [hs, ← h.bySev]
        cases ev.blocked <;> rfl

end Counts

/-- What the whole loop has booked. -/
theorem booked_countEvents (rt : Runtime) (req : ReportRequest) (dayDates : List Int) :
    Counts.Booked dayDates req.events (countEvents rt req dayDates) := by
  unfold countEvents
  induction req.events using List.reverseRecOn with
  | nil => exact Counts.booked_init dayDates
  | append_singleton evs ev ih =>
    rw [List.foldl_append]
    exact ih.add rt req.agents ev

/-! ## The days of the labels -/

theorem mem_dayLabels {first last d : Int} :
    d ∈ dayLabels first last ↔ max first (max first last - 30) ≤ d ∧ d ≤ max first last := by
  unfold dayLabels
  dsimp only
  rw [List.length_map, List.length_range, ← List.map_drop, List.range_eq_range', List.drop_range']
  simp only [List.mem_map, List.mem_range'_1]
  constructor
  · rintro ⟨i, hi, rfl⟩
    omega
  · rintro ⟨hlo, hhi⟩
    exact ⟨(d - first).toNat, by omega, by omega⟩

theorem nodup_dayLabels (first last : Int) : (dayLabels first last).Nodup := by
  unfold dayLabels
  refine List.Nodup.sublist (List.drop_sublist _ _) (List.Nodup.map ?_ List.nodup_range)
  intro i j h
  simp only at h
  omega

theorem length_dayLabels_le (first last : Int) : ((dayLabels first last).length : Int) ≤ max first last - first + 1 := by
  unfold dayLabels
  rw [List.length_drop, List.length_map, List.length_range]
  omega

theorem onDay_iff {dayDates : List Int} {ev : EventIn} :
    onDay dayDates ev = true ↔ ev.filePath ≠ [] ∧ ∃ t, ev.occurredAt = some t ∧ t.day ∈ dayDates := by
  rw [onDay, EventIn.hasPath, Bool.and_eq_true, decide_eq_true_eq, Option.isSome_iff_exists]
  refine and_congr_right fun _ => ⟨?_, ?_⟩
  · rintro ⟨idx, h⟩
    obtain ⟨t, ht, hidx⟩ := Option.bind_eq_some_iff.1 h
    exact ⟨t, ht, List.isSome_idxOf?.1 (by rw [hidx]; rfl)⟩
  · rintro ⟨t, ht, hmem⟩
    obtain ⟨idx, hidx⟩ := Option.isSome_iff_exists.1 (List.isSome_idxOf?.2 hmem)
    exact ⟨idx, Option.bind_eq_some_iff.2 ⟨t, ht, hidx⟩⟩

/-! ## Requests -/

/-- A time as microseconds of UTC. -/
def DateTime.instant (t : DateTime) : Int := t.wall - t.offset.getD 0

/-- An event with a path, at a moment within the range. -/
structure EventIn.Within (ev : EventIn) (range : TimeRange) : Prop where
  path : ev.filePath ≠ []
  time : ∃ t, ev.occurredAt = some t ∧ t.offset.isSome = true ∧ range.fromTime.instant ≤ t.instant ∧
    t.instant ≤ range.toTime.instant

/-- A range of at most thirty days, and every event within it. The offsets are as they come. -/
structure ReportRequest.Ranged (req : ReportRequest) : Prop where
  fromOffset : req.range.fromTime.offset.isSome = true
  toOffset : req.range.toTime.offset.isSome = true
  ordered : req.range.fromTime.instant ≤ req.range.toTime.instant
  span : req.range.toTime.instant - req.range.fromTime.instant ≤ 30 * dayMicros
  events : ∀ ev ∈ req.events, ev.Within req.range

/-- The days the report has labels for. -/
def ReportRequest.labels (req : ReportRequest) : List Int :=
  dayLabels req.range.fromTime.day req.range.toTime.day

def Skeleton.kpiNum (sk : Skeleton) (i : Nat) : Nat := (sk.kpis.map (·.num)).getD i 0

/-- Every event in one day's bucket, and the series of days and the severities add up to the totals. -/
structure Conserved (rt : Runtime) (req : ReportRequest) (sk : Skeleton) : Prop where
  bucket : ∀ ev ∈ req.events, ∀ t, ev.occurredAt = some t → req.labels.count t.day = 1
  blockedBySev : (sk.blockedBySev.toList.map List.sum).sum = sk.kpiNum 1
  dailyTotal : (countEvents rt req req.labels).dailyTotal.sum = sk.kpiNum 0
  dailyBlocked : (countEvents rt req req.labels).dailyBlocked.sum = sk.kpiNum 1
  dailyUnblocked : (countEvents rt req req.labels).dailyUnblocked.sum = sk.kpiNum 2
  severity : sk.severity.toList.sum = sk.kpiNum 0

/-- The previous period begins in the calendar's first year or later. -/
def ReportRequest.PrevInCalendar (req : ReportRequest) : Prop :=
  dayMicros ≤ req.range.fromTime.wall - (req.range.toTime.instant - req.range.fromTime.instant)

/-- Every event's date, on its own clock, lies between the dates of the range's ends on theirs, and
among the last 31. -/
def ReportRequest.DatesInRange (req : ReportRequest) : Prop :=
  ∀ ev ∈ req.events, ∀ t, ev.occurredAt = some t →
    max req.range.fromTime.day (max req.range.fromTime.day req.range.toTime.day - 30) ≤ t.day ∧
      t.day ≤ max req.range.fromTime.day req.range.toTime.day

theorem sub_of_offset {a b : DateTime} (ha : a.offset.isSome = true) (hb : b.offset.isSome = true) :
    a.sub b = .ok (a.instant - b.instant) := by
  obtain ⟨o, ho⟩ := Option.isSome_iff_exists.1 ha
  obtain ⟨o', ho'⟩ := Option.isSome_iff_exists.1 hb
  simp [DateTime.sub, DateTime.instant, ho, ho']

theorem DateTime.day_eq (t : DateTime) : t.wall / dayMicros = t.day := by
  have := t.micros_range
  unfold DateTime.wall dayMicros at *
  omega

/-- A time less a duration falls on the day that its clock shows then. -/
theorem DateTime.day_of_minus {t t' : DateTime} {d : Int} (h : t.minus d = .ok t') :
    t'.day = (t.wall - d) / dayMicros := by
  unfold DateTime.minus at h
  dsimp only at h
  split at h
  · cases h
    rfl
  · cases h

/-- A time less a duration is a time if that day is in the calendar. -/
theorem DateTime.minus_ok {t : DateTime} {d : Int} (h : 1 ≤ (t.wall - d) / dayMicros ∧ (t.wall - d) / dayMicros ≤ maxDay) :
    ∃ t', t.minus d = .ok t' := ⟨_, dif_pos h⟩

/-- The counts of the previous period are made exactly if the period lies in the calendar. -/
theorem prevCounts_ok_iff {req : ReportRequest} (h : req.Ranged) :
    (∃ prev, prevCounts req req.labels.length = .ok prev) ↔ req.PrevInCalendar := by
  have hdur := h.ordered
  unfold prevCounts ReportRequest.PrevInCalendar
  rw [sub_of_offset h.toOffset h.fromOffset]
  constructor
  · rintro ⟨prev, hprev⟩
    obtain ⟨dur, hd, hprev⟩ := bind_eq_ok.1 hprev
    cases hd
    obtain ⟨start, hstart, -⟩ := bind_eq_ok.1 hprev
    have hday := DateTime.day_of_minus hstart
    have hrange := start.day_range
    unfold dayMicros at *
    omega
  · intro hcal
    have hfrom := req.range.fromTime.day_eq
    have hmax := req.range.fromTime.day_range
    have hmax' := req.range.toTime.day_range
    have hlen := length_dayLabels_le req.range.fromTime.day req.range.toTime.day
    -- the period before the range begins no later than the range, so its days end in the calendar, too
    obtain ⟨start, hstart⟩ : ∃ start, req.range.fromTime.minus
        (req.range.toTime.instant - req.range.fromTime.instant) = .ok start := by
      apply DateTime.minus_ok
      unfold dayMicros at *
      omega
    have hle : start.day ≤ req.range.fromTime.day := by
      have hday := DateTime.day_of_minus hstart
      unfold dayMicros at *
      omega
    obtain ⟨dates, hdates⟩ : ∃ dates, (List.range req.labels.length).mapM (addDays start.day) = .ok dates := by
      apply mapM_ok
      intro i hi
      rw [List.mem_range, ReportRequest.labels] at hi
      unfold addDays
      rw [if_pos (by omega)]
      exact ⟨_, rfl⟩
    exact ⟨_, bind_eq_ok.2 ⟨_, rfl, bind_eq_ok.2 ⟨start, hstart, bind_eq_ok.2 ⟨dates, hdates, rfl⟩⟩⟩⟩

theorem timed_within {req : ReportRequest} (h : req.Ranged) : ∀ e ∈ timed req.events, e.2.offset.isSome = true := by
  intro e he
  obtain ⟨ev, hev, he⟩ := List.mem_filterMap.1 he
  obtain ⟨t, ht, hoff, -⟩ := (h.events ev hev).time
  rw [if_neg (h.events ev hev).path, ht] at he
  cases he
  exact hoff

theorem rankEvents_ok (rt : Runtime) {events : List (EventIn × DateTime)}
    (h : ∀ e ∈ events, e.2.offset.isSome = true) : ∃ ranked, rankEvents rt events = .ok ranked := by
  obtain ⟨keyed, hkeyed⟩ : ∃ keyed, (events.mapM fun e => do
      let ts ← e.2.timestamp rt
      return (toLex (sevRank (classify e.1.filePath).severity, -ts), e)) = .ok keyed := by
    apply mapM_ok
    intro e he
    obtain ⟨o, ho⟩ := Option.isSome_iff_exists.1 (h e he)
    have hts : e.2.timestamp rt = .ok (rt.seconds (e.2.wall - o - 719163 * dayMicros)) := by
      unfold DateTime.timestamp
      rw [ho]
    exact ⟨_, bind_eq_ok.2 ⟨_, hts, rfl⟩⟩
  exact ⟨_, bind_eq_ok.2 ⟨keyed, hkeyed, rfl⟩⟩

/-- On a request whose times all have offsets, only the calendar can keep a report from being built. -/
theorem buildSkeleton_ok_iff_prevInCalendar (rt : Runtime) {req : ReportRequest} (h : req.Ranged) :
    (∃ sk, buildSkeleton rt req = .ok sk) ↔ req.PrevInCalendar := by
  rw [← prevCounts_ok_iff h]
  constructor
  · rintro ⟨sk, hsk⟩
    obtain ⟨prev, -, -, hprev, -⟩ := buildSkeleton_ok_iff.1 hsk
    exact ⟨prev, hprev⟩
  · rintro ⟨prev, hprev⟩
    obtain ⟨ranked, hranked⟩ := rankEvents_ok rt (timed_within h)
    have hcmp : comparable ((ranked.take 6).map Prod.snd) = true := by
      rw [comparable, Bool.or_eq_true, List.all_eq_true]
      left
      intro t ht
      obtain ⟨e, he, rfl⟩ := List.mem_map.1 ht
      exact timed_within h e ((rankEvents_perm hranked).mem_iff.1 (List.mem_of_mem_take he))
    exact ⟨_, buildSkeleton_ok_iff.2 ⟨prev, ranked, _, hprev, hranked, if_pos hcmp, rfl⟩⟩

/-! ## Conservation -/

theorem datesInRange_iff {req : ReportRequest} (h : req.Ranged) :
    req.DatesInRange ↔ ∀ ev ∈ req.events, onDay req.labels ev = true := by
  constructor
  · intro hd ev hev
    obtain ⟨t, ht, -⟩ := (h.events ev hev).time
    exact onDay_iff.2 ⟨(h.events ev hev).path, t, ht, mem_dayLabels.2 (hd ev hev t ht)⟩
  · intro hd ev hev t ht
    obtain ⟨-, t', ht', hmem⟩ := onDay_iff.1 (hd ev hev)
    rw [ht] at ht'
    cases ht'
    exact mem_dayLabels.1 hmem

/-- The numbers of the report's totals, from the events alone. -/
theorem kpiNums (rt : Runtime) {req : ReportRequest} (h : req.Ranged) (prev : PrevCounts)
    (ranked : List (EventIn × DateTime)) (campaign : List CampaignPoint × List Str) :
    let sk := skeletonOf rt req (countEvents rt req req.labels) prev ranked campaign
    sk.kpiNum 0 = req.events.length ∧ sk.kpiNum 1 = req.events.countP (·.blocked) ∧
      sk.kpiNum 2 = req.events.countP fun ev => !ev.blocked := by
  have hsev := (booked_countEvents rt req req.labels).sev
  have hpath : ∀ ev ∈ req.events, ev.hasPath = true := fun ev hev => by
    simpa [EventIn.hasPath] using (h.events ev hev).path
  have htotal : (countEvents rt req req.labels).sevTotal.toList.sum = req.events.length := by
    rw [hsev, List.countP_eq_length.2 hpath]
  have hblocked : (req.events.countP fun ev => ev.filePath ≠ [] && ev.blocked) = req.events.countP (·.blocked) := by
    apply List.countP_congr
    intro ev hev
    simp [(h.events ev hev).path]
  have hsplit := List.length_eq_countP_add_countP (l := req.events) (·.blocked)
  have hneg : (req.events.countP fun ev => decide ¬ev.blocked = true) = req.events.countP fun ev => !ev.blocked :=
    List.countP_congr fun ev _ => by simp
  refine ⟨htotal, hblocked, ?_⟩
  show (countEvents rt req req.labels).sevTotal.toList.sum -
    (req.events.countP fun ev => ev.filePath ≠ [] && ev.blocked) = _
  rw [htotal, hblocked]
  omega

theorem conserved_of_datesInRange {rt : Runtime} {req : ReportRequest} (h : req.Ranged) (hd : req.DatesInRange)
    {sk : Skeleton} (hsk : buildSkeleton rt req = .ok sk) : Conserved rt req sk := by
  obtain ⟨prev, ranked, campaign, -, -, -, rfl⟩ := buildSkeleton_ok_iff.1 hsk
  obtain ⟨h0, h1, h2⟩ := kpiNums rt h prev ranked campaign
  obtain ⟨-, hsev, htotal, hblocked, hunblocked, hbySev⟩ := booked_countEvents rt req req.labels
  have hday := (datesInRange_iff h).1 hd
  have hpath : ∀ ev ∈ req.events, ev.hasPath = true := fun ev hev => by
    simpa [EventIn.hasPath] using (h.events ev hev).path
  -- with every event on a day, what is booked on days is all of them
  have hb : (req.events.countP fun ev => onDay req.labels ev && ev.blocked) = req.events.countP (·.blocked) :=
    List.countP_congr fun ev hev => by rw [hday ev hev, Bool.true_and]
  have hu : (req.events.countP fun ev => onDay req.labels ev && !ev.blocked) = req.events.countP fun ev => !ev.blocked :=
    List.countP_congr fun ev hev => by rw [hday ev hev, Bool.true_and]
  constructor
  · intro ev hev t ht
    exact List.count_eq_one_of_mem (nodup_dayLabels _ _) (mem_dayLabels.2 (hd ev hev t ht))
  · exact (hbySev.trans hb).trans h1.symm
  · rw [htotal, List.countP_eq_length.2 hday]
    exact h0.symm
  · exact (hblocked.trans hb).trans h1.symm
  · exact (hunblocked.trans hu).trans h2.symm
  · refine hsev.trans (Eq.trans ?_ h0.symm)
    exact List.countP_eq_length.2 hpath

/-- A series of days that adds up to the total has lost no event. -/
theorem datesInRange_of_total {rt : Runtime} {req : ReportRequest} (h : req.Ranged) {sk : Skeleton}
    (hsk : buildSkeleton rt req = .ok sk) (ht : (countEvents rt req req.labels).dailyTotal.sum = sk.kpiNum 0) :
    req.DatesInRange := by
  obtain ⟨prev, ranked, campaign, -, -, -, rfl⟩ := buildSkeleton_ok_iff.1 hsk
  rw [datesInRange_iff h]
  have h0 := (kpiNums rt h prev ranked campaign).1
  rw [(booked_countEvents rt req req.labels).total] at ht
  exact List.countP_eq_length.1 (ht.trans h0)

/-- A report is built and its days add up exactly if the previous period lies in the calendar and no
event's date, on its own clock, lies outside the dates of the range. -/
theorem conserved_iff (rt : Runtime) (req : ReportRequest) (h : req.Ranged) :
    (∃ sk, buildSkeleton rt req = .ok sk ∧ Conserved rt req sk) ↔ req.PrevInCalendar ∧ req.DatesInRange := by
  constructor
  · rintro ⟨sk, hsk, hc⟩
    exact ⟨(buildSkeleton_ok_iff_prevInCalendar rt h).1 ⟨sk, hsk⟩, datesInRange_of_total h hsk hc.dailyTotal⟩
  · rintro ⟨hcal, hd⟩
    obtain ⟨sk, hsk⟩ := (buildSkeleton_ok_iff_prevInCalendar rt h).2 hcal
    exact ⟨sk, hsk, conserved_of_datesInRange h hd hsk⟩

/-! ## A range nine hours ahead of UTC -/

/-- Midnight of a day's ordinal nine hours ahead of UTC. -/
def kstMidnight (day : Int) (h : 1 ≤ day ∧ day ≤ maxDay) : DateTime where
  day := day
  micros := 0
  offset := some 32400000000
  day_range := h
  micros_range := by decide
  offset_range := by decide

/-- 2026-05-17T16:00Z, an hour into 2026-05-18 nine hours ahead of UTC. -/
def utcAfternoon : DateTime where
  day := 739753
  micros := 57600000000
  offset := some 0
  day_range := by decide
  micros_range := by decide
  offset_range := by decide

/-- A write to `/etc/shadow` that was blocked. -/
def shadowWrite : EventIn where
  agentId := txt "agent-1"
  eventType := txt "MODIFY"
  filePath := txt "/etc/shadow"
  pid := 4211
  blocked := true
  actorPid := 0
  actorPpid := 0
  actorUid := 0
  actorEuid := 0
  actorTty := []
  actorComm := []
  actorExe := []
  actorCmdline := []
  chainTruncated := false
  occurredAt := some utcAfternoon
  chain := []

/-- The two days from 2026-05-18 on, nine hours ahead of UTC, with one event whose time is UTC. -/
def kstRequest : ReportRequest where
  range := ⟨kstMidnight 739754 (by decide), kstMidnight 739755 (by decide)⟩
  agents := []
  events := [shadowWrite]
  prevEvents := []
  alerts := []

theorem kstRequest_ranged : kstRequest.Ranged where
  fromOffset := rfl
  toOffset := rfl
  ordered := by decide
  span := by decide
  events ev hev := by
    cases List.mem_singleton.1 hev
    exact ⟨by decide, utcAfternoon, rfl, rfl, by decide, by decide⟩

theorem conserved_kstRequest : (∃ sk, buildSkeleton asciiRuntime kstRequest = .ok sk ∧
    Conserved asciiRuntime kstRequest sk) ↔ kstRequest.PrevInCalendar ∧ kstRequest.DatesInRange :=
  conserved_iff asciiRuntime kstRequest kstRequest_ranged

/-- The event is within the range, but in no day of the report. -/
theorem conserved_utcEvent_fails : kstRequest.Ranged ∧ ¬ ∃ sk, buildSkeleton asciiRuntime kstRequest = .ok sk ∧
    Conserved asciiRuntime kstRequest sk := by
  refine ⟨kstRequest_ranged, ?_⟩
  rintro ⟨sk, hsk, hc⟩
  have hd := datesInRange_of_total kstRequest_ranged hsk hc.dailyTotal
  exact absurd (hd shadowWrite (List.mem_singleton.2 rfl) utcAfternoon rfl) (by decide)

end KnIg.Report
