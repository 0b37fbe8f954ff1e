/-
The queue between the backends' threads and the one that handles their events. Its lock makes every section of
a push or a pop one step, so a run is any list of sections. The books note what is pushed and how events leave:
the queue keeps every event it was given, in order, until it is popped or discarded as the oldest of a full queue.
-/
import KnIg.Agent.Event
import KnIg.Lib.RingBuffer
import KnIg.Lib.Run

namespace KnIg.Agent

open Lib

/-! ## The queue -/

/-- `IG_EVENT_QUEUE_SIZE`. -/
def igEventQueueSize : Nat := 512

/-- `ig_event_queue_t` without its lock; the slots are its `events`. -/
structure IgEventQueue extends RingBuffer IgEvent where
  dropped : UInt64

theorem zeroes_length (n : Nat) : (List.replicate n (0 : UInt8)).length = n := List.length_replicate

def CharArr.zero (n : Nat) : CharArr n := ⟨List.replicate n 0, zeroes_length n⟩

def ProcInfo.zero : ProcInfo := ⟨0, 0, 0, 0, 0, .zero 32, .zero 16, .zero 256, .zero 512, 0, 0⟩

/-- An event as `memset` leaves it. -/
def IgEvent.zero : IgEvent :=
  { type := .unknown, source := .inotify, path := ⟨⟨[], zero_notMem_nil⟩, by decide⟩,
    filename := ⟨⟨[], zero_notMem_nil⟩, by decide⟩, timestamp := 0, dev := 0, ino := 0, blocked := 0, pid := 0,
    uid := 0, sid := 0, comm := .zero 16, chain := ⟨0, 0, fun _ => ProcInfo.zero⟩ }

namespace IgEventQueue

/-- `ig_queue_init`. -/
def init : IgEventQueue := ⟨⟨fun _ => IgEvent.zero, 0, 0, 0⟩, 0⟩

variable (q : IgEventQueue)

def full : Bool := q.count ≥ igEventQueueSize

/-- `ig_queue_push`. -/
def push (ev : IgEvent) : IgEventQueue :=
  -- the oldest event of a full queue makes room
  let q := if q.full then ⟨q.dropFront igEventQueueSize, q.dropped + 1⟩ else q
  { q with toRingBuffer := q.pushBack igEventQueueSize ev }

/-- What `ig_queue_pop` does once it holds the lock: on an empty queue it waits or gives up, else it takes an event. -/
def pop : Option (IgEvent × IgEventQueue) :=
  if q.count = 0 then none else some (q.front, { q with toRingBuffer := q.dropFront igEventQueueSize })

/-- The queued events, oldest first. -/
def queued : List IgEvent := q.contents igEventQueueSize

end IgEventQueue

/-! ## Runs -/

/-- The sections of the lock. -/
inductive QueueOp where
  | push (ev : IgEvent)
  | pop
  /-- the wait of a pop runs out -/
  | giveUp
  /-- `ig_queue_dropped` -/
  | dropped

/-- How an event leaves the queue. -/
inductive Fate where
  | popped | discarded
deriving DecidableEq

/-- The queue, what was pushed, and what left it in the order in which it did. -/
structure QueueBooks where
  q : IgEventQueue
  pushed : List IgEvent
  left : List (Fate × IgEvent)

namespace QueueBooks

def init : QueueBooks := ⟨.init, [], []⟩

variable (b : QueueBooks)

/-- The events with a fate, in the order in which they met it. -/
def met (fate : Fate) : List IgEvent := (b.left.filter (·.1 = fate)).map (·.2)

def step : QueueOp → QueueBooks
  | .push ev =>
    { q := b.q.push ev
      pushed := b.pushed ++ [ev]
      left := if b.q.full then b.left ++ [(.discarded, b.q.front)] else b.left }
  | .pop =>
    match b.q.pop with
    | none => b
    | some (ev, q) => { b with q, left := b.left ++ [(.popped, ev)] }
  | .giveUp => b
  | .dropped => b

def run (ops : List QueueOp) : QueueBooks := ops.foldl step b

end QueueBooks

/-! ## A queue that drops its oldest event -/

namespace IgEventQueue

variable {q : IgEventQueue}

/-- A queue whose indices fit together. -/
abbrev Sound (q : IgEventQueue) : Prop := q.WF igEventQueueSize

/-- The events that a push discards. -/
def overflow (q : IgEventQueue) : List IgEvent := q.queued.take (q.queued.length + 1 - igEventQueueSize)

theorem full_iff (h : q.Sound) : q.full = true ↔ q.count = igEventQueueSize := by
  have hle := h.count_le
  simp only [full, decide_eq_true_eq]
  omega

theorem queued_length (q : IgEventQueue) : q.queued.length = q.count := q.contents_length igEventQueueSize

/-- The oldest event of a full queue, before the others. -/
theorem queued_of_full (h : q.Sound) (hf : q.full) :
    q.queued = q.front :: (q.dropFront igEventQueueSize).contents igEventQueueSize := by
  refine RingBuffer.contents_dropFront h ?_
  rw [(full_iff h).1 hf]
  decide

theorem overflow_of_full (h : q.Sound) (hf : q.full) : q.overflow = [q.front] := by
  rw [overflow, queued_length, (full_iff h).1 hf, Nat.add_sub_cancel_left, queued_of_full h hf]
  rfl

theorem overflow_of_not_full (hf : ¬ q.full) : q.overflow = [] := by
  rw [full, decide_eq_true_eq] at hf
  rw [overflow, queued_length, Nat.sub_eq_zero_of_le (by omega), List.take_zero]

theorem dropFront_room (h : q.Sound) (hf : q.full) :
    (q.dropFront igEventQueueSize).count < igEventQueueSize := by
  show q.count - 1 < igEventQueueSize
  rw [(full_iff h).1 hf]
  decide

theorem dropFront_sound (h : q.Sound) (hf : q.full) : (q.dropFront igEventQueueSize).WF igEventQueueSize := by
  refine RingBuffer.WF.dropFront h ?_
  rw [(full_iff h).1 hf]
  decide

theorem Sound.push (h : q.Sound) (ev : IgEvent) : (q.push ev).Sound := by
  unfold IgEventQueue.push
  by_cases hf : q.full
  · simp only [if_pos hf]
    exact (dropFront_sound h hf).pushBack (dropFront_room h hf) ev
  · simp only [if_neg hf]
    exact RingBuffer.WF.pushBack h (by simpa [full] using hf) ev

/-- A push discards the overflow and adds its event behind the others. -/
theorem queued_push (h : q.Sound) (ev : IgEvent) : q.queued ++ [ev] = q.overflow ++ (q.push ev).queued := by
  by_cases hf : q.full
  · have hpush : (q.push ev).queued = (q.dropFront igEventQueueSize).contents igEventQueueSize ++ [ev] := by
      rw [← RingBuffer.contents_pushBack (dropFront_sound h hf) (dropFront_room h hf) ev, IgEventQueue.push, if_pos hf]
      rfl
    rw [overflow_of_full h hf, queued_of_full h hf, hpush]
    rfl
  · rw [overflow_of_not_full hf, List.nil_append, IgEventQueue.push, if_neg hf]
    exact (RingBuffer.contents_pushBack h (by simpa [full] using hf) ev).symm

theorem dropped_push (h : q.Sound) (ev : IgEvent) :
    (q.push ev).dropped = q.dropped + UInt64.ofNat q.overflow.length := by
  unfold IgEventQueue.push
  by_cases hf : q.full
  · simp [hf, overflow_of_full h hf]
  · simp [hf, overflow_of_not_full hf]

/-- A pop finds an empty queue or takes the oldest event. -/
theorem pop_spec (h : q.Sound) :
    q.pop = none ∧ q.queued = [] ∨
      ∃ ev q', q.pop = some (ev, q') ∧ q'.Sound ∧ q.queued = ev :: q'.queued ∧ q'.dropped = q.dropped := by
  unfold IgEventQueue.pop
  by_cases h0 : q.count = 0
  · exact Or.inl ⟨if_pos h0, RingBuffer.contents_eq_nil h0⟩
  · have hpos : 0 < q.count := Nat.pos_of_ne_zero h0
    exact Or.inr ⟨_, _, if_neg h0, RingBuffer.WF.dropFront h hpos, RingBuffer.contents_dropFront h hpos, rfl⟩

end IgEventQueue

/-! ## The books -/

namespace QueueBooks

/-- The events that left and the queued ones are those pushed, in that order; the counter wraps at 64 bits. -/
structure Balanced (b : QueueBooks) : Prop where
  sound : b.q.Sound
  order : b.left.map (·.2) ++ b.q.queued = b.pushed
  dropped : b.q.dropped = UInt64.ofNat (b.met .discarded).length

variable {b : QueueBooks}

theorem discards_eq (h : b.q.Sound) (ev : IgEvent) :
    (b.step (.push ev)).left = b.left ++ b.q.overflow.map (Fate.discarded, ·) := by
  by_cases hf : b.q.full
  · simp [step, hf, IgEventQueue.overflow_of_full h hf]
  · simp [step, hf, IgEventQueue.overflow_of_not_full hf]

theorem met_discarded_push (h : b.q.Sound) (ev : IgEvent) :
    (b.step (.push ev)).met .discarded = b.met .discarded ++ b.q.overflow := by
  simp [met, discards_eq h, List.filter_append, List.filter_map, Function.comp_def]

theorem Balanced.push (h : b.Balanced) (ev : IgEvent) : (b.step (.push ev)).Balanced where
  sound := IgEventQueue.Sound.push h.sound ev
  order := by
    have hqueued := IgEventQueue.queued_push h.sound ev
    rw [discards_eq h.sound, List.map_append, List.map_map, List.append_assoc]
    show b.left.map (·.2) ++ (b.q.overflow.map id ++ (b.q.push ev).queued) = b.pushed ++ [ev]
    rw [List.map_id, ← hqueued, ← List.append_assoc, h.order]
  dropped := by
    show (b.q.push ev).dropped = _
    rw [IgEventQueue.dropped_push h.sound, met_discarded_push h.sound, List.length_append, UInt64.ofNat_add, h.dropped]

theorem Balanced.pop (h : b.Balanced) : (b.step .pop).Balanced := by
  rcases IgEventQueue.pop_spec h.sound with ⟨hnone, -⟩ | ⟨ev, q', hsome, hsound, hqueued, hdropped⟩
  · rw [step, hnone]
    exact h
  · rw [step, hsome]
    refine ⟨hsound, ?_, ?_⟩
    · simp [← h.order, hqueued]
    · simp [met, List.filter_append, hdropped, h.dropped]

theorem Balanced.step (h : b.Balanced) (op : QueueOp) : (b.step op).Balanced := by
  cases op with
  | push ev => exact h.push ev
  | pop => exact h.pop
  | giveUp => exact h
  | dropped => exact h

theorem balanced_init : init.Balanced where
  sound := ⟨by decide, by decide, rfl⟩
  order := rfl
  dropped := rfl

theorem balanced_run (ops : List QueueOp) : ∀ {b : QueueBooks}, b.Balanced → (b.run ops).Balanced := by
  induction ops with
  | nil => exact fun h => h
  | cons op ops ih => exact fun h => ih (h.step op)

/-! ## Any interleaving -/

theorem met_popped_pop (h : b.q.Sound) : (b.step .pop).met .popped = b.met .popped ++ b.q.queued.take 1 := by
  rcases IgEventQueue.pop_spec h with ⟨hnone, hqueued⟩ | ⟨ev, q', hsome, -, hqueued, -⟩
  · simp [step, hnone, hqueued]
  · simp [step, hsome, hqueued, met, List.filter_append]

/-- Every event that left was popped or discarded. -/
theorem perm_met (b : QueueBooks) : (b.met .popped ++ b.met .discarded).Perm (b.left.map (·.2)) := by
  have hfate : ∀ e : Fate × IgEvent, decide (e.1 = .discarded) = !decide (e.1 = .popped) := by
    rintro ⟨fate, ev⟩
    cases fate <;> rfl
  have hperm := List.filter_append_perm (fun e : Fate × IgEvent => decide (e.1 = .popped)) b.left
  simp only [← hfate] at hperm
  rw [met, met, ← List.map_append]
  exact hperm.map _

/-- What a queue should do: it pops the pushed events in their order and none twice, loses none but the ones
it discards, discards only the oldest of a full queue, and its indices fit together. -/
structure Orderly (b : QueueBooks) : Prop where
  popped_in_order : (b.met .popped).Sublist b.pushed
  all_accounted : (b.met .popped ++ b.met .discarded ++ b.q.queued).Perm b.pushed
  left_in_order : b.left.map (·.2) ++ b.q.queued = b.pushed
  pop_oldest : (b.step .pop).met .popped = b.met .popped ++ b.q.queued.take 1
  discard_oldest : ∀ ev, (b.step (.push ev)).met .discarded =
    b.met .discarded ++ b.q.queued.take (b.q.queued.length + 1 - igEventQueueSize)
  indices : b.q.Sound

theorem Balanced.orderly (h : b.Balanced) : b.Orderly where
  popped_in_order := by
    rw [← h.order]
    exact (List.filter_sublist.map _).trans (List.sublist_append_left _ _)
  all_accounted := h.order ▸ (perm_met b).append_right b.q.queued
  left_in_order := h.order
  pop_oldest := met_popped_pop h.sound
  discard_oldest := met_discarded_push h.sound
  indices := h.sound

/-- In every interleaving the queue is orderly, and its counter is the number of events it discarded, modulo 2^64. -/
theorem orderly_run (ops : List QueueOp) :
    (init.run ops).Orderly ∧
      (init.run ops).q.dropped.toNat = ((init.run ops).met .discarded).length % 2 ^ 64 := by
  have h := balanced_run ops balanced_init
  refine ⟨h.orderly, ?_⟩
  rw [h.dropped, UInt64.toNat_ofNat']

/-! ## The counter wraps -/

theorem run_append (b : QueueBooks) (ops ops' : List QueueOp) : b.run (ops ++ ops') = (b.run ops).run ops' :=
  List.foldl_append

/-- Pushes alone: the first ones stay, each further one discards an event. -/
theorem counts_pushes (ev : IgEvent) (n : Nat) :
    (init.run (List.replicate n (.push ev))).q.queued.length = min n igEventQueueSize ∧
      ((init.run (List.replicate n (.push ev))).met .discarded).length = n - igEventQueueSize := by
  induction n with
  | zero => exact ⟨rfl, rfl⟩
  | succ n ih =>
    have hb := balanced_run (List.replicate n (.push ev)) balanced_init
    rw [List.replicate_succ', run_append]
    generalize init.run (List.replicate n (.push ev)) = b at ih hb
    obtain ⟨hqueued, hdiscarded⟩ := ih
    have hsize : 0 < igEventQueueSize := by decide
    -- one event overflows from the first push on that finds 512 events
    have hover : b.q.overflow.length = n + 1 - igEventQueueSize - (n - igEventQueueSize) := by
      rw [IgEventQueue.overflow, List.length_take, hqueued]
      omega
    have hlen := congrArg List.length (IgEventQueue.queued_push hb.sound ev)
    rw [List.length_append, List.length_append, hover, hqueued, List.length_singleton] at hlen
    constructor
    · show (b.q.push ev).queued.length = min (n + 1) igEventQueueSize
      omega
    · show ((b.step (.push ev)).met .discarded).length = n + 1 - igEventQueueSize
      rw [met_discarded_push hb.sound, List.length_append, hdiscarded, hover]
      omega

/-- So many pushes that 2^64 events are discarded. -/
def manyPushes : List QueueOp := List.replicate (2 ^ 64 + igEventQueueSize) (.push .zero)

/-- The counter is back at 0. -/
theorem dropped_manyPushes_fails : ¬ ((init.run manyPushes).Orderly ∧
    (init.run manyPushes).q.dropped.toNat = ((init.run manyPushes).met .discarded).length) := by
  rintro ⟨-, hcount⟩
  have hb := balanced_run manyPushes balanced_init
  have hdiscarded : ((init.run manyPushes).met .discarded).length = 2 ^ 64 := by
    rw [manyPushes, (counts_pushes _ _).2, Nat.add_sub_cancel]
  rw [hb.dropped, UInt64.toNat_ofNat', hdiscarded, Nat.mod_self] at hcount
  exact absurd hcount (by decide)

end QueueBooks

end KnIg.Agent
