/-
The way of an event from a kernel hook to the agent's main loop. Processes raise events in their hooks, a piece of work
wakes the readers of the device, the agent's thread reads and converts the events, and the main loop takes them from
the agent's queue; all of this in any order of steps, beside any other readers of the device. Every event is accounted
for: it is where it was put last, or it was lost where memory or room was missing, and the rest stay in their order.
No reader sleeps on a kfifo that holds an event, unless its wake-up is under way.
-/
import KnIg.Lib.WaitQueue
import KnIg.Lkm.EventPath

namespace KnIg.Lkm

open Lib KnIg.Agent

/-! ## The parties -/

/-- `IG_EVENT_LKM_QUEUE_SIZE`. -/
def igEventLkmQueueSize : Nat := 64

/-- What became of an event in `ig_event_enqueue`. -/
inductive Raised where
  | entered
  /-- the kfifo was full -/
  | full
  /-- no memory for the event -/
  | noMemory
deriving DecidableEq

/-- Where a process stands in its call on the device. -/
inductive DeviceCall where
  | none
  /-- it waits in `ig_poll` -/
  | select
  /-- it waits in `ig_read` -/
  | read
  /-- `ig_read` has seen an event -/
  | allocating
  | popping
  | copying (lev : IgLkmEvent)

/-- Why the receiving thread has ended; with the event that was lost by it. -/
inductive ThreadEnd where
  | stopped | interrupted | noMemory
  /-- `ig_read` returned 0, which `lkm_read_event` takes for `-EIO` -/
  | noEvent
  | fault (lev : IgLkmEvent)

/-- Where `lkm_event_thread` stands. -/
inductive ThreadAt where
  | loop | selecting | reading
  | pushing (lev : IgLkmEvent)
  | ended (why : ThreadEnd)

/-- How a call on the device returns. -/
inductive CallResult where
  | ready | timeout
  | data (lev : IgLkmEvent)
  | error (why : ThreadEnd)

/-- The number of the agent's thread among the readers. -/
def agentReader : Nat := 0

/-- Where the events are: the kfifo, the agent's queue, and the books on what was raised, what was taken from the kfifo
by whom, and what the agent pushed, with what it found in `/proc`. -/
structure FlowEvents where
  fifo : List IgLkmEvent
  queue : QueueBooks
  raised : List (Raised × IgLkmEvent)
  taken : List (Nat × IgLkmEvent)
  pushed : List (ProcFs × IgLkmEvent)

/-- The events, the readers of the device and the work that wakes them, and the agent's thread. -/
structure EventFlow extends FlowEvents where
  wait : WaitQueue Nat Nat
  call : Nat → DeviceCall
  thread : ThreadAt

inductive FlowAct where
  /-- a hook of process `k` in `ig_event_enqueue`, up to the kfifo -/
  | enqueue (k : Nat) (kmalloc : Bool) (lev : IgLkmEvent)
  /-- its `schedule_work` -/
  | scheduleWork (k : Nat)
  /-- the next step of `ig_event_flush_work` -/
  | flushWork
  /-- another process calls `select` or `read` -/
  | enter (r : Nat) (read : Bool)
  /-- the thread at the head of its loop -/
  | loop (running : Bool)
  /-- a reader looks whether the kfifo is empty, or takes another step of its wait -/
  | look (r : Nat)
  | move (r : Nat)
  | timeout (r : Nat)
  | signal (r : Nat)
  | alloc (r : Nat) (kmalloc : Bool)
  | pop (r : Nat)
  | copy (r : Nat) (ok : Bool)
  /-- the thread converts its event and pushes it -/
  | push (proc : ProcFs)
  | mainPop

/-! ## The steps -/

def ThreadAt.after : ThreadAt → CallResult → ThreadAt
  | .selecting, .ready => .reading
  | .selecting, .timeout => .loop
  | _, .data lev => .pushing lev
  | _, .error why => .ended why
  | t, _ => t

namespace FlowEvents

def init : FlowEvents := ⟨[], .init, [], [], []⟩

variable (e : FlowEvents)

/-- `!ig_event_empty()`. -/
def holds : Bool := !e.fifo.isEmpty

/-- An event that does not get into the kfifo. -/
def refuse (why : Raised) (lev : IgLkmEvent) : FlowEvents := { e with raised := e.raised ++ [(why, lev)] }

/-- `kfifo_in` where there is room. -/
def enter (lev : IgLkmEvent) : FlowEvents :=
  { e with fifo := e.fifo ++ [lev], raised := e.raised ++ [(.entered, lev)] }

/-- `kfifo_out` of the oldest event. -/
def take (r : Nat) (lev : IgLkmEvent) (rest : List IgLkmEvent) : FlowEvents :=
  { e with fifo := rest, taken := e.taken ++ [(r, lev)] }

/-- The agent's thread pushes what it makes of an event. -/
def push (proc : ProcFs) (lev : IgLkmEvent) : FlowEvents :=
  { e with pushed := e.pushed ++ [(proc, lev)], queue := e.queue.step (.push (lkmEventThread proc lev)) }

def mainPop : FlowEvents := { e with queue := e.queue.step .pop }

end FlowEvents

namespace EventFlow

def init : EventFlow := ⟨.init, .init, fun _ => .none, .loop⟩

variable (s : EventFlow)

/-- A reader begins a call on the device; only `ig_read` looks before it queues. -/
def begin (r : Nat) (read : Bool) : EventFlow :=
  { s with
    call := Function.update s.call r (if read then .read else .select)
    wait := s.wait.set r (if read then .fresh else .top) }

/-- The call of a reader returns; the agent's thread reads once an event is there. -/
def finish (r : Nat) (result : CallResult) : EventFlow :=
  let s := { s with call := Function.update s.call r .none, wait := s.wait.set r .out }
  if r = agentReader then
    let s := { s with thread := s.thread.after result }
    match s.thread with
    | .reading => s.begin r true
    | _ => s
  else s

/-- The wait of a reader is over: there is an event. -/
def proceed (r : Nat) : EventFlow :=
  match s.call r with
  | .select => s.finish r .ready
  | .read => { s with call := Function.update s.call r .allocating, wait := s.wait.set r .out }
  | _ => s

def step : FlowAct → EventFlow
  | .enqueue k kmalloc lev =>
    if s.wait.raising k then s
    else if !kmalloc then { s with toFlowEvents := s.refuse .noMemory lev }
    else if s.fifo.length < igEventLkmQueueSize then
      { s with toFlowEvents := s.toFlowEvents.enter lev, wait := s.wait.raise k }
    else { s with toFlowEvents := s.refuse .full lev, wait := s.wait.raise k }
  | .scheduleWork k => { s with wait := s.wait.schedule k }
  | .flushWork => { s with wait := s.wait.work s.holds }
  | .enter r read =>
    match s.call r with
    | .none => if r = agentReader then s else s.begin r read
    | _ => s
  | .loop running =>
    match s.thread with
    | .loop =>
      if running then { s with thread := .selecting }.begin agentReader false else { s with thread := .ended .stopped }
    | _ => s
  | .look r =>
    if (s.wait.waiter r).Ends s.holds then s.proceed r
    else { s with wait := s.wait.set r ((s.wait.waiter r).look s.holds) }
  | .move r => { s with wait := s.wait.set r (s.wait.waiter r).move }
  | .timeout r =>
    match s.call r with
    | .select => s.finish r .timeout
    | _ => s
  | .signal r =>
    match s.call r with
    | .select | .read => s.finish r (.error .interrupted)
    | _ => s
  | .alloc r kmalloc =>
    match s.call r with
    | .allocating =>
      if kmalloc then { s with call := Function.update s.call r .popping } else s.finish r (.error .noMemory)
    | _ => s
  | .pop r =>
    match s.call r, s.fifo with
    | .popping, [] => s.finish r (.error .noEvent)
    | .popping, lev :: rest =>
      { s with toFlowEvents := s.take r lev rest, call := Function.update s.call r (.copying lev) }
    | _, _ => s
  | .copy r ok =>
    match s.call r with
    | .copying lev => s.finish r (if ok then .data lev else .error (.fault lev))
    | _ => s
  | .push proc =>
    match s.thread with
    | .pushing lev => { s with toFlowEvents := s.toFlowEvents.push proc lev, thread := .loop }
    | _ => s
  | .mainPop => { s with toFlowEvents := s.toFlowEvents.mainPop }

def run (acts : List FlowAct) : EventFlow := acts.foldl step init

end EventFlow

/-! ## Where the events are -/

namespace FlowEvents

variable (e : FlowEvents)

/-- The events that met a fate in `ig_event_enqueue`, in their order. -/
def met (what : Raised) : List IgLkmEvent := (e.raised.filter (·.1 = what)).map (·.2)

def takenBy (r : Nat) : List IgLkmEvent := (e.taken.filter (·.1 = r)).map (·.2)

/-- What the agent's queue was given. -/
def images : List IgEvent := e.pushed.map fun p => lkmEventThread p.1 p.2

theorem takenBy_take (e : FlowEvents) (r r' : Nat) (lev : IgLkmEvent) (rest : List IgLkmEvent) :
    (e.take r lev rest).takenBy r' = e.takenBy r' ++ if r = r' then [lev] else [] := by
  unfold takenBy take
  by_cases hr : r = r' <;> simp [List.filter_append, hr]

/-- The kfifo holds what entered and was not taken yet, and the agent's queue was given what the thread pushed. -/
structure Sound : Prop where
  room : e.fifo.length ≤ igEventLkmQueueSize
  order : e.taken.map (·.2) ++ e.fifo = e.met .entered
  balanced : e.queue.Balanced
  images : e.queue.pushed = e.images

variable {e}

theorem sound_init : init.Sound := ⟨by decide, rfl, QueueBooks.balanced_init, rfl⟩

theorem Sound.refuse (h : e.Sound) {why : Raised} (hwhy : why ≠ .entered) (lev : IgLkmEvent) :
    (e.refuse why lev).Sound := by
  refine ⟨h.room, ?_, h.balanced, h.images⟩
  show e.taken.map (·.2) ++ e.fifo = _
  simp [met, FlowEvents.refuse, List.filter_append, hwhy, h.order]

theorem Sound.enter (h : e.Sound) (hroom : e.fifo.length < igEventLkmQueueSize) (lev : IgLkmEvent) :
    (e.enter lev).Sound := by
  refine ⟨?_, ?_, h.balanced, h.images⟩
  · show (e.fifo ++ [lev]).length ≤ igEventLkmQueueSize
    rw [List.length_append]
    exact hroom
  · show e.taken.map (·.2) ++ (e.fifo ++ [lev]) = _
    rw [← List.append_assoc, h.order]
    simp [met, FlowEvents.enter, List.filter_append]

theorem Sound.take (h : e.Sound) {r : Nat} {lev : IgLkmEvent} {rest : List IgLkmEvent} (hfifo : e.fifo = lev :: rest) :
    (e.take r lev rest).Sound := by
  have hroom := h.room
  have horder := h.order
  rw [hfifo] at hroom horder
  refine ⟨Nat.le_of_succ_le hroom, ?_, h.balanced, h.images⟩
  show (e.taken ++ [(r, lev)]).map (·.2) ++ rest = e.met .entered
  rw [← horder, List.map_append, List.append_assoc]
  rfl

theorem Sound.push (h : e.Sound) (proc : ProcFs) (lev : IgLkmEvent) : (e.push proc lev).Sound := by
  refine ⟨h.room, h.order, h.balanced.push _, ?_⟩
  show e.queue.pushed ++ [lkmEventThread proc lev] = _
  rw [h.images]
  simp [FlowEvents.images, FlowEvents.push]

theorem Sound.mainPop (h : e.Sound) : e.mainPop.Sound := by
  refine ⟨h.room, h.order, h.balanced.pop, ?_⟩
  show (e.queue.step .pop).pushed = e.images
  rw [← h.images, QueueBooks.step]
  split <;> rfl

end FlowEvents

/-! ## The readers -/

/-- The call of the agent's thread is the one it stands at. -/
def ThreadAt.Fits (t : ThreadAt) : DeviceCall → Prop
  | .none => t ≠ .selecting ∧ t ≠ .reading
  | .select => t = .selecting
  | _ => t = .reading

/-- The event that the thread holds, or was left with. -/
def ThreadAt.hand : ThreadAt → List IgLkmEvent
  | .pushing lev | .ended (.fault lev) => [lev]
  | _ => []

def DeviceCall.hand : DeviceCall → List IgLkmEvent
  | .copying lev => [lev]
  | _ => []

namespace EventFlow

variable (s : EventFlow)

/-- The thread's events are those it pushed and the one in its hands, and whoever sleeps on an event is about to be
woken. -/
structure Sound : Prop where
  events : s.toFlowEvents.Sound
  roused : s.wait.Roused s.holds
  fits : s.thread.Fits (s.call agentReader)
  hands : s.takenBy agentReader = s.pushed.map (·.2) ++ (s.thread.hand ++ (s.call agentReader).hand)

variable {s}

theorem sound_init : init.Sound := ⟨FlowEvents.sound_init, WaitQueue.roused_init _, by simp [init, ThreadAt.Fits], rfl⟩

theorem call_self (call : Nat → DeviceCall) (r : Nat) (c : DeviceCall) : Function.update call r c r = c :=
  Function.update_self ..

theorem call_begin (s : EventFlow) (r : Nat) (read : Bool) :
    (s.begin r read).call r = if read then .read else .select := call_self ..

/-- The thread's call is `call`. -/
theorem Sound.of_call (call : DeviceCall) (hcall : s.call agentReader = call) (events : s.toFlowEvents.Sound)
    (roused : s.wait.Roused s.holds) (fits : s.thread.Fits call)
    (hands : s.takenBy agentReader = s.pushed.map (·.2) ++ (s.thread.hand ++ call.hand)) : s.Sound := by
  subst hcall
  exact ⟨events, roused, fits, hands⟩

/-- A reader takes a step of its wait. -/
theorem Sound.wait_set (h : s.Sound) {r : Nat} {w : Waiter} (hw : w.Down → (s.wait.waiter r).Down ∨ s.holds = false) :
    Sound { s with wait := s.wait.set r w } :=
  ⟨h.events, h.roused.set hw, h.fits, h.hands⟩

/-- A call of another reader is none of the thread's. -/
theorem Sound.other (h : s.Sound) {r : Nat} (hr : r ≠ agentReader) (call : DeviceCall) :
    Sound { s with call := Function.update s.call r call } :=
  .of_call _ (Function.update_of_ne hr.symm _ _) h.events h.roused h.fits h.hands

/-- A call that leaves the thread's event in its hands may return. -/
theorem Sound.finish (h : s.Sound) {r : Nat} {result : CallResult}
    (hr : r = agentReader → s.thread.after result ≠ .selecting ∧
      s.thread.hand ++ (s.call r).hand = (s.thread.after result).hand) : (s.finish r result).Sound := by
  unfold EventFlow.finish
  dsimp only
  by_cases hagent : r = agentReader
  · subst hagent
    obtain ⟨hselect, hhand⟩ := hr rfl
    have hands := h.hands
    rw [hhand] at hands
    have hwait : (s.wait.set agentReader .out).Roused s.holds := h.roused.set fun hd => absurd hd Waiter.not_down_out
    rw [if_pos rfl]
    split
    · rename_i hreading
      have hnone : (s.thread.after result).hand = [] := by rw [hreading]; rfl
      rw [hnone] at hands
      exact .of_call .read (call_begin ..) h.events
        (hwait.set fun hd => absurd hd Waiter.not_down_fresh) hreading
        (hands.trans (by rw [← hnone]; exact congrArg _ (List.append_nil _).symm))
    · rename_i hreading
      exact .of_call .none (call_self s.call agentReader _) h.events hwait ⟨hselect, hreading⟩
        (hands.trans (congrArg _ (List.append_nil _).symm))
  · rw [if_neg hagent]
    exact (h.other hagent .none).wait_set fun hd => absurd hd Waiter.not_down_out

/-- The thread goes from a state of its call to another. -/
theorem Sound.goOn (h : s.Sound) {r : Nat} {call : DeviceCall} (hfits : s.thread.Fits (s.call r) → s.thread.Fits call)
    (hhand : (s.call r).hand = call.hand) : Sound { s with call := Function.update s.call r call } := by
  by_cases hagent : r = agentReader
  · subst hagent
    have hands := h.hands
    rw [hhand] at hands
    exact .of_call call (call_self s.call agentReader _) h.events h.roused (hfits h.fits) hands
  · exact h.other hagent call

theorem Sound.proceed (h : s.Sound) (r : Nat) : (s.proceed r).Sound := by
  unfold EventFlow.proceed
  split
  · rename_i hcall
    refine h.finish ?_
    rintro rfl
    have hfits := h.fits
    rw [hcall] at hfits
    rw [hfits, hcall]
    exact ⟨by simp [ThreadAt.after], rfl⟩
  · rename_i hcall
    exact (h.goOn (fun hfits => by rw [hcall] at hfits; exact hfits) (by rw [hcall]; rfl)).wait_set fun hd =>
      absurd hd Waiter.not_down_out
  · exact h

theorem Sound.look (h : s.Sound) (r : Nat) : (s.step (.look r)).Sound := by
  unfold EventFlow.step
  dsimp only
  split
  · exact h.proceed r
  · exact h.wait_set Waiter.down_look

theorem Sound.enqueue (h : s.Sound) (k : Nat) (kmalloc : Bool) (lev : IgLkmEvent) :
    (s.step (.enqueue k kmalloc lev)).Sound := by
  unfold EventFlow.step
  dsimp only
  split
  · exact h
  split
  · exact ⟨h.events.refuse (by simp) lev, h.roused, h.fits, h.hands⟩
  split
  · rename_i hroom
    exact ⟨h.events.enter hroom lev, .raise _ k _, h.fits, h.hands⟩
  · exact ⟨h.events.refuse (by simp) lev, .raise _ k _, h.fits, h.hands⟩

/-- Out of its calls the thread has none under way. -/
theorem Sound.call_eq_none (h : s.Sound) (hselecting : s.thread ≠ .selecting) (hreading : s.thread ≠ .reading) :
    s.call agentReader = .none := by
  have hfits := h.fits
  cases hcall : s.call agentReader <;> rw [hcall] at hfits
  case select => exact absurd hfits hselecting
  all_goals first | rfl | exact absurd hfits hreading

theorem Sound.loop (h : s.Sound) (running : Bool) : (s.step (.loop running)).Sound := by
  unfold EventFlow.step
  dsimp only
  split
  · rename_i hloop
    have hcall := h.call_eq_none (by rw [hloop]; simp) (by rw [hloop]; simp)
    have hands := h.hands
    rw [hloop, hcall] at hands
    cases running with
    | true =>
      exact .of_call .select (call_begin ..) h.events
        (h.roused.set fun hd => absurd hd Waiter.not_down_top) rfl hands
    | false => exact .of_call .none hcall h.events h.roused (by simp [ThreadAt.Fits]) hands
  · exact h

theorem Sound.pop (h : s.Sound) (r : Nat) : (s.step (.pop r)).Sound := by
  unfold EventFlow.step
  dsimp only
  split
  · rename_i hcall hfifo
    refine h.finish ?_
    rintro rfl
    have hfits := h.fits
    rw [hcall] at hfits
    rw [show s.thread = .reading from hfits, hcall]
    exact ⟨by simp [ThreadAt.after], rfl⟩
  · rename_i lev rest hcall hfifo
    have hlower : s.wait.Roused (s.take r lev rest).holds :=
      h.roused.lower fun _ => by simp [FlowEvents.holds, hfifo]
    have htaken := FlowEvents.takenBy_take s.toFlowEvents r agentReader lev rest
    by_cases hagent : r = agentReader
    · subst hagent
      have hfits := h.fits
      have hands := h.hands
      rw [hcall] at hfits hands
      refine .of_call (.copying lev) (call_self s.call agentReader _) (h.events.take hfifo) hlower hfits ?_
      rw [htaken, if_pos rfl, hands, List.append_assoc, List.append_assoc]
      rfl
    · refine .of_call _ (Function.update_of_ne (Ne.symm hagent) _ _) (h.events.take hfifo) hlower h.fits ?_
      rw [htaken, if_neg hagent, List.append_nil]
      exact h.hands
  · exact h

theorem Sound.push (h : s.Sound) (proc : ProcFs) : (s.step (.push proc)).Sound := by
  unfold EventFlow.step
  dsimp only
  split
  · rename_i lev hpushing
    have hcall := h.call_eq_none (by rw [hpushing]; simp) (by rw [hpushing]; simp)
    have hands := h.hands
    rw [hpushing, hcall] at hands
    refine .of_call .none hcall (h.events.push proc lev) h.roused (by simp [ThreadAt.Fits]) ?_
    show s.takenBy agentReader = (s.pushed ++ [(proc, lev)]).map (·.2) ++ []
    rw [List.append_nil, List.map_append]
    exact hands
  · exact h

/-- A call that is none of the thread's, or the one it stands at, ends with an error. -/
theorem Sound.fail (h : s.Sound) {r : Nat} {why : ThreadEnd} (hnone : s.call r ≠ .none)
    (hhand : (s.call r).hand = (ThreadAt.ended why).hand) : (s.finish r (.error why)).Sound := by
  refine h.finish ?_
  rintro rfl
  have hfits := h.fits
  cases hcall : s.call agentReader <;> rw [hcall] at hfits hnone hhand
  case none => exact absurd rfl hnone
  all_goals
    rw [show s.thread = _ from hfits]
    exact ⟨by simp [ThreadAt.after], hhand⟩

theorem Sound.copy (h : s.Sound) (r : Nat) (ok : Bool) : (s.step (.copy r ok)).Sound := by
  unfold EventFlow.step
  dsimp only
  split
  · rename_i lev hcall
    cases ok with
    | false => exact h.fail (by rw [hcall]; simp) (by rw [hcall]; rfl)
    | true =>
      refine h.finish ?_
      rintro rfl
      have hfits := h.fits
      rw [hcall] at hfits
      rw [show s.thread = .reading from hfits, hcall]
      exact ⟨by simp [ThreadAt.after], rfl⟩
  · exact h

theorem sound_step (h : s.Sound) (a : FlowAct) : (s.step a).Sound := by
  cases a with
  | enqueue k kmalloc lev => exact h.enqueue k kmalloc lev
  | scheduleWork k => exact ⟨h.events, h.roused.schedule k, h.fits, h.hands⟩
  | flushWork => exact ⟨h.events, h.roused.work, h.fits, h.hands⟩
  | enter r read =>
    unfold EventFlow.step
    dsimp only
    split
    · split
      · exact h
      · rename_i hagent
        refine (h.other hagent _).wait_set fun hd => absurd hd ?_
        cases read
        · exact Waiter.not_down_top
        · exact Waiter.not_down_fresh
    · exact h
  | loop running => exact h.loop running
  | look r => exact h.look r
  | move r => exact h.wait_set fun hd => Or.inl (Waiter.down_move hd)
  | timeout r =>
    unfold EventFlow.step
    dsimp only
    split
    · rename_i hcall
      refine h.finish ?_
      rintro rfl
      have hfits := h.fits
      rw [hcall] at hfits
      rw [show s.thread = .selecting from hfits, hcall]
      exact ⟨by simp [ThreadAt.after], rfl⟩
    · exact h
  | signal r =>
    unfold EventFlow.step
    dsimp only
    split
    · rename_i hcall
      exact h.fail (by rw [hcall]; simp) (by rw [hcall]; rfl)
    · rename_i hcall
      exact h.fail (by rw [hcall]; simp) (by rw [hcall]; rfl)
    · exact h
  | alloc r kmalloc =>
    unfold EventFlow.step
    dsimp only
    split
    · rename_i hcall
      cases kmalloc with
      | false => exact h.fail (by rw [hcall]; simp) (by rw [hcall]; rfl)
      | true => exact h.goOn (fun hfits => by rw [hcall] at hfits; exact hfits) (by rw [hcall]; rfl)
    · exact h
  | pop r => exact h.pop r
  | copy r ok => exact h.copy r ok
  | push proc => exact h.push proc
  | mainPop => exact ⟨h.events.mainPop, h.roused, h.fits, h.hands⟩

theorem sound_run (acts : List FlowAct) : (run acts).Sound :=
  List.foldlRecOn acts step sound_init fun _ h a _ => sound_step h a

/-! ## Every event is accounted for -/

/-- The event between the kfifo and the agent's queue, or lost there when the thread ended. -/
def inHand (s : EventFlow) : List IgLkmEvent := s.thread.hand ++ (s.call agentReader).hand

/-- Nothing is lost but where memory or room is missing or another reader takes it, nothing is doubled, and what remains
is in the order in which it was raised. -/
structure Accounted (s : EventFlow) : Prop where
  room : s.fifo.length ≤ igEventLkmQueueSize
  fifo_order : s.taken.map (·.2) ++ s.fifo = s.met .entered
  thread_order : s.takenBy agentReader = s.pushed.map (·.2) ++ s.inHand
  queue_order : s.queue.left.map (·.2) ++ s.queue.q.queued = s.images
  handled : ∃ l : List (ProcFs × IgLkmEvent),
    l.map (fun p => lkmEventThread p.1 p.2) = s.queue.met .popped ∧ (l.map (·.2)).Sublist (s.met .entered)
  dropped : s.queue.q.dropped = UInt64.ofNat (s.queue.met .discarded).length
  count : s.raised.length =
    (s.met .noMemory).length + (s.met .full).length + (s.taken.filter (·.1 ≠ agentReader)).length + s.fifo.length +
      s.inHand.length + (s.queue.met .discarded).length + s.queue.q.queued.length + (s.queue.met .popped).length

theorem length_raised (e : FlowEvents) :
    e.raised.length = (e.met .entered).length + (e.met .full).length + (e.met .noMemory).length := by
  unfold FlowEvents.met
  simp only [List.length_map]
  induction e.raised with
  | nil => rfl
  | cons p l ih =>
    obtain ⟨what, lev⟩ := p
    cases what <;> simp [ih] <;> omega

theorem Sound.accounted (h : s.Sound) : s.Accounted := by
  have horder := h.events.order
  have hthread : s.takenBy agentReader = s.pushed.map (·.2) ++ s.inHand := h.hands
  have hqueue := h.events.balanced.order.trans h.events.images
  refine ⟨h.events.room, horder, hthread, hqueue, ?_, h.events.balanced.dropped, ?_⟩
  · have hpopped := h.events.balanced.orderly.popped_in_order
    rw [h.events.images] at hpopped
    obtain ⟨l, hl, hmap⟩ := List.sublist_map_iff.1 hpopped
    refine ⟨l, hmap.symm, (hl.map _).trans ?_⟩
    have hpushed : (s.pushed.map (·.2)).Sublist (s.takenBy agentReader) := by
      rw [hthread]
      exact List.sublist_append_left _ _
    rw [← horder]
    exact hpushed.trans ((List.filter_sublist.map _).trans (List.sublist_append_left _ _))
  · have hentered := congrArg List.length horder
    have htaken : s.taken.length = _ := List.length_eq_countP_add_countP fun p => decide (p.1 = agentReader)
    have hagent := congrArg List.length hthread
    have himages := congrArg List.length hqueue
    have hleft := (QueueBooks.perm_met s.queue).length_eq
    have hraised := length_raised s.toFlowEvents
    simp only [List.length_append, List.length_map, FlowEvents.takenBy, FlowEvents.images, List.countP_eq_length_filter,
      decide_not, ne_eq, Bool.not_eq_true, decide_eq_false_iff_not] at hentered htaken hagent himages hleft ⊢
    omega

/-- In every interleaving of the hooks, the work, the readers, the agent's thread and its main loop, every event is
accounted for. -/
theorem events_accounted (acts : List FlowAct) : (run acts).Accounted := (sound_run acts).accounted

/-! ## Nobody sleeps on an event -/

/-- While the kfifo holds an event, whoever sleeps is about to be woken; once the hooks have scheduled the work, its
next steps wake everybody. -/
def WakesAll (acts : List FlowAct) : Prop :=
  (run acts).fifo ≠ [] →
    (∀ r, ((run acts).wait.waiter r).Down → ¬ (run acts).wait.Quiet) ∧
      ((∀ k, (run acts).wait.raising k = false) →
        ∀ r, ¬ ((run (acts ++ List.replicate 5 .flushWork)).wait.waiter r).Down)

theorem foldl_flushWork (s : EventFlow) (n : Nat) :
    (List.replicate n FlowAct.flushWork).foldl step s = { s with wait := (WaitQueue.work s.holds)^[n] s.wait } := by
  induction n generalizing s with
  | zero => rfl
  | succ n ih =>
    rw [List.replicate_succ, List.foldl_cons, ih]
    rfl

/-- No wake-up is lost, whatever the interleaving. -/
theorem events_wake_all (acts : List FlowAct) : WakesAll acts := by
  intro hfifo
  have hholds : (run acts).holds = true := by simpa [FlowEvents.holds] using hfifo
  refine ⟨fun r hd => (sound_run acts).roused hholds r hd, fun hraising r => ?_⟩
  have hrun : run (acts ++ List.replicate 5 .flushWork) =
      { run acts with wait := (WaitQueue.work (run acts).holds)^[5] (run acts).wait } := by
    rw [run, List.foldl_append]
    exact foldl_flushWork (run acts) 5
  have hroused := (sound_run (acts ++ List.replicate 5 .flushWork)).roused
  rw [hrun] at hroused ⊢
  exact hroused.not_down hholds (WaitQueue.quiet_work hraising _) r

/-! ## The only reader -/

/-- Of the readers only the agent's thread reads; others may wait for an event. -/
structure Alone (s : EventFlow) : Prop where
  others : ∀ r ≠ agentReader, s.call r = .none ∨ s.call r = .select
  seen : s.call agentReader = .allocating ∨ s.call agentReader = .popping → s.fifo ≠ []
  goesOn : s.thread ≠ .ended .noEvent
  taken : ∀ p ∈ s.taken, p.1 = agentReader

theorem alone_init : init.Alone :=
  ⟨fun _ _ => Or.inl rfl, by simp [init], by simp [init], by simp [init, FlowEvents.init]⟩

/-- A call goes on, and the thread goes on in it. -/
theorem Alone.goOn (h : s.Alone) {r : Nat} (call : DeviceCall) (wait : WaitQueue Nat Nat) {thread : ThreadAt}
    (hother : r ≠ agentReader → call = .none ∨ call = .select)
    (hseen : r = agentReader → call = .allocating ∨ call = .popping → s.fifo ≠ [])
    (hthread : thread ≠ .ended .noEvent) :
    Alone { s with call := Function.update s.call r call, wait := wait, thread := thread } := by
  refine ⟨fun r' hr' => ?_, fun hc => ?_, hthread, h.taken⟩
  · show Function.update s.call r call r' = .none ∨ Function.update s.call r call r' = .select
    rw [Function.update_apply]
    split
    · rename_i heq
      exact hother (heq ▸ hr')
    · exact h.others r' hr'
  · dsimp only at hc
    rw [Function.update_apply] at hc
    split at hc
    · rename_i heq
      exact hseen heq.symm hc
    · exact h.seen hc

theorem Alone.finish (h : s.Alone) (r : Nat) {result : CallResult} (hresult : result ≠ .error .noEvent) :
    (s.finish r result).Alone := by
  have hthread : s.thread.after result ≠ .ended .noEvent := by
    have hold := h.goesOn
    cases hs : s.thread <;> cases result <;> simp_all [ThreadAt.after]
  unfold EventFlow.finish
  dsimp only
  split
  · have hnone : Alone
        { s with call := Function.update s.call r .none, wait := s.wait.set r .out, thread := s.thread.after result } :=
      h.goOn _ _ (fun _ => Or.inl rfl) (fun _ hc => by simp at hc) hthread
    split
    · rename_i hagent _ _
      exact hnone.goOn _ _ (fun hne => absurd hagent hne) (fun _ hc => by simp at hc) hthread
    · exact hnone
  · exact h.goOn _ _ (fun _ => Or.inl rfl) (fun _ hc => by simp at hc) h.goesOn

/-- The steps of the wait change none of it. -/
theorem Alone.wait (h : s.Alone) (wait : WaitQueue Nat Nat) : Alone { s with wait := wait } :=
  ⟨h.others, h.seen, h.goesOn, h.taken⟩

theorem alone_step (h : s.Alone) {a : FlowAct} (ha : ∀ r, a ≠ .enter r true) : (s.step a).Alone := by
  have hagent : ∀ {r : Nat}, s.call r ≠ .none → s.call r ≠ .select → r = agentReader := fun {r} hn hs =>
    Decidable.byContradiction fun hr => (h.others r hr).elim hn hs
  cases a with
  | enqueue k kmalloc lev =>
    unfold EventFlow.step
    dsimp only
    split
    · exact h
    split
    · exact ⟨h.others, h.seen, h.goesOn, h.taken⟩
    split
    · exact ⟨h.others, fun _ => by simp [FlowEvents.enter], h.goesOn, h.taken⟩
    · exact ⟨h.others, h.seen, h.goesOn, h.taken⟩
  | scheduleWork k => exact h.wait _
  | flushWork => exact h.wait _
  | enter r read =>
    unfold EventFlow.step
    dsimp only
    split
    · split
      · exact h
      · rename_i hr
        cases read with
        | true => exact absurd rfl (ha r)
        | false => exact h.goOn _ _ (fun _ => Or.inr rfl) (fun heq => absurd heq hr) h.goesOn
    · exact h
  | loop running =>
    unfold EventFlow.step
    dsimp only
    split
    · cases running with
      | true => exact h.goOn .select _ (fun _ => Or.inr rfl) (fun _ hc => by simp at hc) (by simp)
      | false => exact ⟨h.others, h.seen, by simp, h.taken⟩
    · exact h
  | look r =>
    unfold EventFlow.step
    dsimp only
    split
    · rename_i hends
      have hfifo : s.fifo ≠ [] := by simpa [FlowEvents.holds] using hends.2
      unfold EventFlow.proceed
      split
      · exact h.finish r (by simp)
      · rename_i hcall
        have hr := hagent (by rw [hcall]; simp) (by rw [hcall]; simp)
        exact h.goOn _ _ (fun hne => absurd hr hne) (fun _ _ => hfifo) h.goesOn
      · exact h
    · exact h.wait _
  | move r => exact h.wait _
  | timeout r =>
    unfold EventFlow.step
    dsimp only
    split
    · exact h.finish r (by simp)
    · exact h
  | signal r =>
    unfold EventFlow.step
    dsimp only
    split
    · exact h.finish r (by simp)
    · exact h.finish r (by simp)
    · exact h
  | alloc r kmalloc =>
    unfold EventFlow.step
    dsimp only
    split
    · rename_i hcall
      have hr := hagent (by rw [hcall]; simp) (by rw [hcall]; simp)
      cases kmalloc with
      | false => exact h.finish r (by simp)
      | true =>
        exact h.goOn _ s.wait (fun hne => absurd hr hne) (fun heq _ => h.seen (Or.inl (heq ▸ hcall))) h.goesOn
    · exact h
  | pop r =>
    unfold EventFlow.step
    dsimp only
    split
    · -- the thread has seen an event, and nobody else takes one
      rename_i hcall hfifo
      have hr := hagent (by rw [hcall]; simp) (by rw [hcall]; simp)
      exact absurd hfifo (h.seen (Or.inr (hr ▸ hcall)))
    · rename_i lev rest hcall hfifo
      have hr := hagent (by rw [hcall]; simp) (by rw [hcall]; simp)
      subst hr
      refine ⟨fun r hr => ?_, fun hc => ?_, h.goesOn, fun p hp => ?_⟩
      · dsimp only
        rw [Function.update_of_ne hr]
        exact h.others r hr
      · dsimp only at hc
        rw [Function.update_self] at hc
        simp at hc
      · rcases List.mem_append.1 hp with hp | hp
        · exact h.taken p hp
        · rw [List.mem_singleton.1 hp]
    · exact h
  | copy r ok =>
    unfold EventFlow.step
    dsimp only
    split
    · cases ok <;> exact h.finish r (by simp)
    · exact h
  | push proc =>
    unfold EventFlow.step
    dsimp only
    split
    · exact ⟨h.others, h.seen, by simp, h.taken⟩
    · exact h
  | mainPop => exact ⟨h.others, h.seen, h.goesOn, h.taken⟩

/-- Without another reader, `ig_read` never returns 0 to the thread, and all that enters the kfifo goes to the agent's
queue, but for the event in the thread's hand and those still in the kfifo. -/
theorem sole_reader_goes_on (acts : List FlowAct) (h : ∀ r, FlowAct.enter r true ∉ acts) :
    (run acts).thread ≠ .ended .noEvent ∧
      (run acts).pushed.map (·.2) ++ (run acts).inHand ++ (run acts).fifo = (run acts).met .entered := by
  have halone : (run acts).Alone :=
    List.foldlRecOn acts step alone_init fun _ hs a ha => alone_step hs fun r hr => h r (hr ▸ ha)
  have haccounted := events_accounted acts
  refine ⟨halone.goesOn, ?_⟩
  have htaken : (run acts).takenBy agentReader = (run acts).taken.map (·.2) := by
    rw [FlowEvents.takenBy, List.filter_eq_self.2 fun p hp => decide_eq_true (halone.taken p hp)]
  rw [← haccounted.thread_order, htaken, haccounted.fifo_order]

/-- A shell has written a file. -/
def written : IgLkmEvent :=
  ⟨⟨8388609, 131⟩, igOpWrite, igBlockAudit, 7, 0, ⟨ascii "sh", shell_noZero⟩, ⟨[], zero_notMem_nil⟩, 0, false, []⟩

/-- The thread waits, a hook raises an event, and the thread is woken and takes it. -/
def oneWritten : List FlowAct :=
  [.loop true, .move 0, .look 0, .move 0, .enqueue 7 true written, .scheduleWork 7, .flushWork, .flushWork, .flushWork,
    .move 0, .look 0, .look 0, .alloc 0 true, .pop 0, .copy 0 true]

theorem sole_reader_oneWritten : (run oneWritten).thread ≠ .ended .noEvent ∧
    (run oneWritten).pushed.map (·.2) ++ (run oneWritten).inHand ++ (run oneWritten).fifo =
      (run oneWritten).met .entered :=
  sole_reader_goes_on oneWritten (by simp [oneWritten])

/-- A second reader takes the event that the thread has seen: the thread ends. -/
example : (run [.enqueue 7 true written, .loop true, .move 0, .look 0, .look 0, .alloc 0 true,
    .enter 1 true, .look 1, .alloc 1 true, .pop 1, .pop 0]).thread = .ended .noEvent := rfl

end EventFlow

end KnIg.Lkm
