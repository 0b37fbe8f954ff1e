/-
The burst detection of the event processor. For each agent the times of its calls are kept in a slice, which a call
first filters into its own array; so the slices of two agents must lie in different arrays, and what is filtered out
must not count again. With a clock that does not run back both hold over every sequence of calls, and the slice's
length is the number of the agent's calls in the last minute.
-/
import KnIg.Lib.Bytes
import KnIg.Lib.Slice

namespace KnIg.Backend

open Lib

/-! ## The processor -/

/-- `time.Minute`; times are in nanoseconds. -/
def minute : Int := 60000000000

/-- How many events in a minute make a burst. -/
def burstThreshold : Nat := 100

/-- `EventProcessor`: the arrays that its slices lie in, and the slice of each agent; an agent that is not in the map
has the nil slice. -/
structure EventProcessor where
  heap : Heap Int
  burstCount : Bytes → Slice

def newEventProcessor : EventProcessor := ⟨Heap.empty, fun _ => Slice.nil⟩

/-- The locked section, at a reading of the clock. -/
def detectBurst (g : Growth) (p : EventProcessor) (agentID : Bytes) (now : Int) : Bool × EventProcessor :=
  let cutoff := now - minute
  let times := p.burstCount agentID
  let valid := p.heap.filterInPlace g (fun t => cutoff < t) times
  let valid := valid.2.append g valid.1 now
  (burstThreshold ≤ valid.1.len, ⟨valid.2, Function.update p.burstCount agentID valid.1⟩)

structure BurstCall where
  agentID : Bytes
  now : Int

/-- The processor after a sequence of calls. -/
def burstAfter (g : Growth) (calls : List BurstCall) : EventProcessor :=
  calls.foldl (fun p c => (detectBurst g p c.agentID c.now).2) newEventProcessor

/-- The clock does not run back. -/
def ClockForward (calls : List BurstCall) : Prop := calls.Pairwise fun c d => c.now ≤ d.now

/-- The times of an agent's calls that are later than a minute before `t`. -/
def recent (calls : List BurstCall) (agentID : Bytes) (t : Int) : List Int :=
  ((calls.filter (·.agentID = agentID)).map (·.now)).filter fun u => t - minute < u

/-- The calls for an agent in the minute up to `t`, its beginning left out. -/
def inLastMinute (calls : List BurstCall) (agentID : Bytes) (t : Int) : Nat :=
  calls.countP fun c => c.agentID = agentID ∧ t - minute < c.now ∧ c.now ≤ t

/-! ## The slices -/

namespace EventProcessor

/-- The slices lie in arrays of the heap, no two in one. -/
structure WF (p : EventProcessor) : Prop where
  holds : ∀ a, p.heap.Holds (p.burstCount a)
  apart : ∀ a b, a ≠ b → Heap.Apart (p.burstCount a) (p.burstCount b)

/-- The times kept of an agent's calls. -/
def times (p : EventProcessor) (agentID : Bytes) : List Int := p.heap.contents (p.burstCount agentID)

variable {g : Growth} {p : EventProcessor} {a b : Bytes} {now : Int}

theorem wf_new : newEventProcessor.WF := ⟨fun _ => Heap.holds_nil, fun _ _ _ => .inl rfl⟩

/-- The agent's times that are too old go, and the call's is added. -/
theorem times_detectBurst_self (h : p.WF) :
    (detectBurst g p a now).2.times a = (p.times a).filter (fun t => now - minute < t) ++ [now] := by
  simp only [detectBurst, times, Function.update_self]
  rw [Heap.contents_append, (h.holds a).contents_filterInPlace]

theorem times_detectBurst_of_ne (h : p.WF) (hb : b ≠ a) : (detectBurst g p a now).2.times b = p.times b := by
  simp only [detectBurst, times, Function.update_of_ne hb]
  obtain ⟨hheld, hapart, hsame⟩ :=
    (h.holds a).filterInPlace_of_apart g (fun t => now - minute < t) (h.holds b) (h.apart a b hb.symm)
  rw [hheld.contents_append_of_apart hapart, hsame]

theorem WF.step (h : p.WF) : (detectBurst g p a now).2.WF := by
  -- the slice of the call against those of the other agents
  have hself : (detectBurst g p a now).2.heap.Holds ((detectBurst g p a now).2.burstCount a) := by
    simp only [detectBurst, Function.update_self]
    exact (h.holds a).filterInPlace.append now
  have hother : ∀ b, b ≠ a → (detectBurst g p a now).2.heap.Holds ((detectBurst g p a now).2.burstCount b) ∧
      Heap.Apart ((detectBurst g p a now).2.burstCount a) ((detectBurst g p a now).2.burstCount b) := by
    intro b hb
    simp only [detectBurst, Function.update_self, Function.update_of_ne hb]
    obtain ⟨hheld, hapart, -⟩ :=
      (h.holds a).filterInPlace_of_apart g (fun t => now - minute < t) (h.holds b) (h.apart a b hb.symm)
    exact ⟨hheld.append_of_apart _ now, hapart.append hheld now⟩
  constructor
  · intro b
    by_cases hb : b = a
    · rw [hb]
      exact hself
    · exact (hother b hb).1
  · intro b c hbc
    by_cases hb : b = a
    · rw [hb]
      exact (hother c fun hc => hbc (hb.trans hc.symm)).2
    by_cases hc : c = a
    · rw [hc]
      exact (hother b hb).2.symm
    · simp only [detectBurst, Function.update_of_ne hb, Function.update_of_ne hc]
      exact h.apart b c hbc

end EventProcessor

/-! ## Sequences of calls -/

variable {g : Growth} {calls : List BurstCall}

theorem burstAfter_snoc (c : BurstCall) :
    burstAfter g (calls ++ [c]) = (detectBurst g (burstAfter g calls) c.agentID c.now).2 := by
  unfold burstAfter
  rw [List.foldl_append, List.foldl_cons, List.foldl_nil]

theorem wf_burstAfter (g : Growth) (calls : List BurstCall) : (burstAfter g calls).WF := by
  induction calls using List.reverseRecOn with
  | nil => exact EventProcessor.wf_new
  | append_singleton calls c ih =>
    rw [burstAfter_snoc]
    exact ih.step

theorem recent_snoc_self (a : Bytes) (t : Int) :
    recent (calls ++ [⟨a, t⟩]) a t = recent calls a t ++ [t] := by
  have ht : t - minute < t := by unfold minute; omega
  simp [recent, List.filter_append, ht]

theorem recent_snoc_of_ne {c : BurstCall} {a : Bytes} (ha : a ≠ c.agentID) (t : Int) :
    recent (calls ++ [c]) a t = recent calls a t := by
  simp [recent, List.filter_append, Ne.symm ha]

/-- What is recent at a later time was so before. -/
theorem filter_recent {a : Bytes} {t u : Int} (h : t ≤ u) :
    (recent calls a t).filter (fun v => u - minute < v) = recent calls a u := by
  unfold recent
  rw [List.filter_filter]
  refine List.filter_congr fun v _ => ?_
  rw [Bool.and_eq_left_iff_imp, decide_eq_true_eq, decide_eq_true_eq]
  omega

/-- At no time from the last call on do the times kept of an agent lack a recent call. -/
theorem filter_times_burstAfter (g : Growth) (hclock : ClockForward calls) (a : Bytes) :
    ∀ t, (∀ c ∈ calls, c.now ≤ t) →
      ((burstAfter g calls).times a).filter (fun u => t - minute < u) = recent calls a t := by
  induction calls using List.reverseRecOn with
  | nil => exact fun t _ => rfl
  | append_singleton calls c ih =>
    intro t ht
    obtain ⟨hbefore, -, hlast⟩ := List.pairwise_append.1 hclock
    have hnow : c.now ≤ t := ht c (by simp)
    rw [burstAfter_snoc]
    by_cases ha : a = c.agentID
    · have hkept : (detectBurst g (burstAfter g calls) c.agentID c.now).2.times a = recent (calls ++ [c]) a c.now := by
        rw [ha, EventProcessor.times_detectBurst_self (wf_burstAfter g calls), ← ha,
          ih hbefore c.now fun d hd => hlast d hd c (by simp)]
        subst ha
        exact (recent_snoc_self c.agentID c.now).symm
      rw [hkept, filter_recent hnow]
    · rw [EventProcessor.times_detectBurst_of_ne (wf_burstAfter g calls) ha, recent_snoc_of_ne ha]
      exact ih hbefore t fun d hd => ht d (List.mem_append_left _ hd)

theorem recent_length_eq (a : Bytes) {t : Int} (ht : ∀ c ∈ calls, c.now ≤ t) :
    (recent calls a t).length = inLastMinute calls a t := by
  unfold recent inLastMinute
  rw [← List.countP_eq_length_filter, List.countP_map, List.countP_filter]
  refine List.countP_congr fun c hc => ?_
  have hnow := ht c hc
  simp only [Function.comp_apply, Bool.and_eq_true, decide_eq_true_eq]
  tauto

/-- With a clock that does not run back, a call finds a burst exactly when the calls for its agent in the last minute,
itself among them, are a hundred or more. -/
theorem detectBurst_iff (g : Growth) (calls : List BurstCall) (c : BurstCall) (hclock : ClockForward (calls ++ [c])) :
    (detectBurst g (burstAfter g calls) c.agentID c.now).1 = true ↔
      100 ≤ inLastMinute (calls ++ [c]) c.agentID c.now := by
  obtain ⟨hbefore, -, hlast⟩ := List.pairwise_append.1 hclock
  have hle : ∀ d ∈ calls, d.now ≤ c.now := fun d hd => hlast d hd c (by simp)
  have hle' : ∀ d ∈ calls ++ [c], d.now ≤ c.now := by
    intro d hd
    rcases List.mem_append.1 hd with hd | hd
    · exact hle d hd
    · rw [List.mem_singleton.1 hd]
  have hlen : ((detectBurst g (burstAfter g calls) c.agentID c.now).2.times c.agentID).length =
      inLastMinute (calls ++ [c]) c.agentID c.now := by
    rw [EventProcessor.times_detectBurst_self (wf_burstAfter g calls), filter_times_burstAfter g hbefore _ _ hle,
      ← recent_snoc_self, recent_length_eq c.agentID hle']
  have hresult : (detectBurst g (burstAfter g calls) c.agentID c.now).1 =
      decide (burstThreshold ≤ ((detectBurst g (burstAfter g calls) c.agentID c.now).2.times c.agentID).length) := by
    rw [EventProcessor.times, Heap.contents_length]
    simp only [detectBurst, Function.update_self]
  rw [hresult, hlen, decide_eq_true_eq]
  rfl

/-- Arrays that double, as those of short slices do. -/
def doubling : Growth := ⟨fun n => 2 * n + 1, fun n => by omega⟩

/-- The hundredth call of an agent within a minute finds a burst, whatever other agents call. -/
theorem detectBurst_hundredth :
    (detectBurst doubling (burstAfter doubling (List.replicate 99 ⟨ascii "web", 5⟩ ++ [⟨ascii "db", 6⟩]))
      (ascii "web") 7).1 = true :=
  (detectBurst_iff doubling _ ⟨ascii "web", 7⟩
    (by simp [ClockForward, List.pairwise_append, -List.reduceReplicate])).2
    (by
      rw [inLastMinute, List.countP_append, List.countP_append, List.countP_replicate]
      decide)

end KnIg.Backend
