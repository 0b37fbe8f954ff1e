/-
Tasks that sleep until a condition holds, woken by deferred work. Whoever makes the condition true may not wake
anybody: it schedules a piece of work, and the work, when it runs and finds the condition true, wakes all that wait.
A task puts itself on the wait queue before it looks at the condition, and falls asleep only if it has not been woken
since. So no wake-up is lost: as long as a task sleeps on a true condition, somebody is still to schedule the work,
or the work is scheduled, or it runs.
-/
import Mathlib.Logic.Function.Iterate

namespace Lib

/-! ## The parties -/

/-- Where a task stands in its wait. -/
inductive Waiter where
  | out
  /-- it looks at the condition before it queues -/
  | fresh
  /-- it puts itself on the wait queue -/
  | top
  /-- on the wait queue; it looks at the condition -/
  | queued (woken : Bool)
  /-- it found the condition false and is about to sleep -/
  | looked (woken : Bool)
  | asleep
deriving DecidableEq

namespace Waiter

/-- Asleep, or about to be. -/
def Down (w : Waiter) : Prop := w = .looked false ∨ w = .asleep

def wake : Waiter → Waiter
  | .queued _ => .queued true
  | .looked _ => .looked true
  | .asleep => .top
  | w => w

/-- A look at the condition. -/
def look (cond : Bool) : Waiter → Waiter
  | .fresh => if cond then .out else .top
  | .queued woken => if cond then .out else .looked woken
  | w => w

/-- The next step of the wait other than a look. -/
def move : Waiter → Waiter
  | .top => .queued false
  | .looked woken => if woken then .top else .asleep
  | w => w

/-- The look at the condition that ends the wait. -/
def Ends (cond : Bool) (w : Waiter) : Prop := (w = .fresh ∨ ∃ woken, w = .queued woken) ∧ cond = true

instance (cond : Bool) : ∀ w : Waiter, Decidable (w.Ends cond)
  | .fresh => decidable_of_iff (cond = true) (by simp [Ends])
  | .queued _ => decidable_of_iff (cond = true) (by simp [Ends])
  | .out | .top | .looked _ | .asleep => .isFalse (by simp [Ends])

theorem not_down_wake (w : Waiter) : ¬ w.wake.Down := by
  cases w <;> simp [wake, Down]

/-- Only a look that finds the condition false brings a task near its sleep. -/
theorem down_look {cond : Bool} {w : Waiter} (h : (w.look cond).Down) : w.Down ∨ cond = false := by
  cases cond with
  | false => exact Or.inr rfl
  | true => cases w <;> simp_all [look, Down]

theorem down_move {w : Waiter} (h : w.move.Down) : w.Down := by
  cases w with
  | looked woken => cases woken <;> simp_all [move, Down]
  | _ => simp_all [move, Down]

theorem not_down_out : ¬ Waiter.out.Down := by simp [Down]

theorem not_down_fresh : ¬ Waiter.fresh.Down := by simp [Down]

theorem not_down_top : ¬ Waiter.top.Down := by simp [Down]

end Waiter

inductive Worker where
  | idle
  /-- the work runs and looks at the condition -/
  | started
  /-- it has found it true -/
  | found
deriving DecidableEq

/-- The tasks that wait, those that have the work to schedule still, and the work. -/
structure WaitQueue (ι κ : Type) where
  waiter : ι → Waiter
  raising : κ → Bool
  pending : Bool
  worker : Worker

namespace WaitQueue

variable {ι κ : Type}

def init : WaitQueue ι κ := ⟨fun _ => .out, fun _ => false, false, .idle⟩

def set [DecidableEq ι] (q : WaitQueue ι κ) (i : ι) (w : Waiter) : WaitQueue ι κ :=
  { q with waiter := Function.update q.waiter i w }

/-- A task has made the condition true, or may have. -/
def raise [DecidableEq κ] (q : WaitQueue ι κ) (k : κ) : WaitQueue ι κ :=
  { q with raising := Function.update q.raising k true }

/-- It schedules the work, which may be scheduled already. -/
def schedule [DecidableEq κ] (q : WaitQueue ι κ) (k : κ) : WaitQueue ι κ :=
  if q.raising k then { q with raising := Function.update q.raising k false, pending := true } else q

/-- The next step of the work; it may be scheduled again from its start on. -/
def work (cond : Bool) (q : WaitQueue ι κ) : WaitQueue ι κ :=
  match q.worker with
  | .idle => if q.pending then { q with pending := false, worker := .started } else q
  | .started => { q with worker := if cond then .found else .idle }
  | .found => { q with worker := .idle, waiter := fun i => (q.waiter i).wake }

/-! ## No wake-up is lost -/

/-- Nobody has the work to schedule, and it is neither scheduled nor does it run. -/
structure Quiet (q : WaitQueue ι κ) : Prop where
  raising : ∀ k, q.raising k = false
  pending : q.pending = false
  worker : q.worker = .idle

/-- While a task sleeps on a true condition, its wake-up is under way. -/
def Roused (cond : Bool) (q : WaitQueue ι κ) : Prop := cond = true → ∀ i, (q.waiter i).Down → ¬ q.Quiet

variable {cond cond' : Bool} {q : WaitQueue ι κ}

theorem roused_init (cond : Bool) : (init : WaitQueue ι κ).Roused cond := fun _ _ h => absurd h Waiter.not_down_out

/-- A condition that ends asks for no wake-up. -/
theorem Roused.lower (h : q.Roused cond) (hc : cond' = true → cond = true) : q.Roused cond' := fun hcond => h (hc hcond)

/-- A task that takes a step does not sleep on a true condition unless it did before. -/
theorem Roused.set [DecidableEq ι] (h : q.Roused cond) {i : ι} {w : Waiter}
    (hw : w.Down → (q.waiter i).Down ∨ cond = false) :
    (q.set i w).Roused cond := by
  intro hcond j hj hq
  have hquiet : q.Quiet := ⟨hq.raising, hq.pending, hq.worker⟩
  unfold WaitQueue.set at hj
  dsimp only at hj
  rw [Function.update_apply] at hj
  split at hj
  · rcases hw hj with hdown | hfalse
    · exact h hcond i hdown hquiet
    · rw [hcond] at hfalse
      cases hfalse
  · exact h hcond j hj hquiet

theorem Roused.raise [DecidableEq κ] (q : WaitQueue ι κ) (k : κ) (cond : Bool) : (q.raise k).Roused cond := by
  intro _ _ _ hq
  have hk := hq.raising k
  unfold WaitQueue.raise at hk
  dsimp only at hk
  rw [Function.update_self] at hk
  cases hk

theorem Roused.schedule [DecidableEq κ] (h : q.Roused cond) (k : κ) : (q.schedule k).Roused cond := by
  unfold WaitQueue.schedule
  split
  · exact fun _ _ _ hq => Bool.noConfusion hq.pending
  · exact h

theorem Roused.work (h : q.Roused cond) : (q.work cond).Roused cond := by
  intro hcond i hi hq
  unfold WaitQueue.work at hi hq
  split at hi
  · rename_i hidle
    rw [hidle] at hq
    dsimp only at hq
    split at hi
    · rename_i hpending
      rw [if_pos hpending] at hq
      cases hq.worker
    · rename_i hpending
      rw [if_neg hpending] at hq
      exact h hcond i hi hq
  · -- the condition is true, and the work finds it
    rename_i hstarted
    rw [hstarted, hcond] at hq
    cases hq.worker
  · exact Waiter.not_down_wake _ hi

/-- Once nobody has it to schedule, the work is done after five steps of its own, whatever it has found. -/
theorem quiet_work (hr : ∀ k, q.raising k = false) (cond : Bool) : ((work cond)^[5] q).Quiet := by
  obtain ⟨waiter, raising, pending, worker⟩ := q
  refine ⟨fun k => ?_, ?_, ?_⟩ <;>
    cases worker <;> cases pending <;> cases cond <;> first | rfl | exact hr k

/-- With the work done and nobody to schedule it, nobody sleeps on a true condition. -/
theorem Roused.not_down (h : q.Roused cond) (hcond : cond = true) (hq : q.Quiet) (i : ι) : ¬ (q.waiter i).Down :=
  fun hi => h hcond i hi hq

end WaitQueue

end Lib
