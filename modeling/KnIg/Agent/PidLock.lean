/-
The lock file that keeps a second agent from running. An agent opens the file, or makes it, takes the write lock of
its inode and writes its PID; when it stops it closes the file, which gives the lock back, and then removes the name.
Any number of agents take these steps one at a time and may be killed anywhere, which gives the lock back too. A lock
belongs to an inode and the agents meet at a name, so what keeps them apart is that the name is not removed while
another agent has the file open: then two agents never run at once, and otherwise they can be brought to.
-/
import KnIg.Lib.Run
import KnIg.Lib.Strtol
import Mathlib.Logic.Function.Basic

namespace KnIg.Agent

open Lib

/-! ## The agents and the file -/

/-- Where an agent stands in `pid_lock_acquire` and `pid_lock_release`. -/
inductive PidLockAt where
  | starting
  /-- before `fcntl` -/
  | opened (ino : Nat)
  /-- it has the lock, before `ftruncate` -/
  | locked (ino : Nat)
  /-- before `write` -/
  | truncated (ino : Nat)
  | running (ino : Nat)
  /-- another has the lock; before `read` -/
  | refused (ino : Nat)
  /-- `pid_lock_acquire` has returned -1, with what was read from the file -/
  | failed (told : Bytes)
  /-- in `pid_lock_release`, before `unlink` -/
  | closed
  | ended

namespace PidLockAt

/-- The inode that it has locked. -/
def holds : PidLockAt → Option Nat
  | locked ino | truncated ino | running ino => some ino
  | _ => none

/-- The inode that it has locked or is going to. -/
def claims : PidLockAt → Option Nat
  | opened ino => some ino
  | p => p.holds

end PidLockAt

/-- The lock file and the agents: the inode under the name, the inodes made so far with their texts and the process
that has the lock of each, and where each process stands. -/
structure PidLocks where
  path : Option Nat
  made : Nat
  text : Nat → Bytes
  owner : Nat → Option Nat
  agent : Nat → PidLockAt

/-- The calls of the agents, with their results where these are not the file's doing. -/
inductive PidLockAct where
  | openFile (pid : Nat) (ok : Bool)
  | setLk (pid : Nat) (ok : Bool)
  | ftruncate (pid : Nat) (ok : Bool)
  | write (pid : Nat) (ok : Bool)
  | read (pid : Nat)
  | close (pid : Nat)
  | unlink (pid : Nat)
  /-- it exits or is killed, anywhere -/
  | kill (pid : Nat)

/-- What an agent writes into the file. -/
def pidLine (pid : Nat) : Bytes := decimal pid ++ [0x0A]

namespace PidLocks

def init : PidLocks := ⟨none, 0, fun _ => [], fun _ => none, fun _ => .starting⟩

variable (s : PidLocks) (pid : Nat)

def stand (p : PidLockAt) : PidLocks := { s with agent := Function.update s.agent pid p }

/-- `open` with `O_CREAT`. -/
def openFile (ok : Bool) : PidLocks :=
  match s.agent pid with
  | .starting =>
    if ok then
      match s.path with
      | some ino => s.stand pid (.opened ino)
      | none =>
        { s.stand pid (.opened s.made) with
          path := some s.made, made := s.made + 1, text := Function.update s.text s.made [] }
    else s.stand pid (.failed [])
  | _ => s

/-- `fcntl` with `F_SETLK`, which fails when another process has the lock, and not only then. -/
def setLk (ok : Bool) : PidLocks :=
  match s.agent pid with
  | .opened ino =>
    if ok then
      match s.owner ino with
      | none => { s.stand pid (.locked ino) with owner := Function.update s.owner ino (some pid) }
      | some _ => s.stand pid (.refused ino)
    else s.stand pid (.failed [])
  | _ => s

def ftruncate (ok : Bool) : PidLocks :=
  match s.agent pid with
  | .locked ino =>
    { s.stand pid (.truncated ino) with text := if ok then Function.update s.text ino [] else s.text }
  | _ => s

/-- The first write of the file, at its start. -/
def write (ok : Bool) : PidLocks :=
  match s.agent pid with
  | .truncated ino =>
    { s.stand pid (.running ino) with
      text :=
        if ok then Function.update s.text ino (pidLine pid ++ (s.text ino).drop (pidLine pid).length) else s.text }
  | _ => s

/-- What is read goes to the log; the file is closed. -/
def read : PidLocks :=
  match s.agent pid with
  | .refused ino => s.stand pid (.failed ((s.text ino).take 15))
  | _ => s

/-- The lock of an inode that is given back. -/
def unlock : Option Nat → Nat → Option Nat
  | some ino => Function.update s.owner ino none
  | none => s.owner

/-- `pid_lock_release`, up to its `close`. -/
def close : PidLocks :=
  match s.agent pid with
  | .running ino => { s.stand pid .closed with owner := s.unlock (some ino) }
  | _ => s

def unlink : PidLocks :=
  match s.agent pid with
  | .closed => { s.stand pid .ended with path := none }
  | _ => s

def kill : PidLocks := { s.stand pid .ended with owner := s.unlock (s.agent pid).holds }

def step : PidLockAct → PidLocks
  | .openFile pid ok => s.openFile pid ok
  | .setLk pid ok => s.setLk pid ok
  | .ftruncate pid ok => s.ftruncate pid ok
  | .write pid ok => s.write pid ok
  | .read pid => s.read pid
  | .close pid => s.close pid
  | .unlink pid => s.unlink pid
  | .kill pid => s.kill pid

def run (acts : List PidLockAct) : PidLocks := acts.foldl step s

/-! ## What the steps do -/

/-- The name is removed only when no agent has locked the file or is going to. -/
def Quiet (s : PidLocks) : PidLockAct → Prop
  | .unlink pid => s.agent pid = .closed → ∀ q, (s.agent q).claims = none
  | _ => True

/-- The calls that write the PID do not fail. -/
def Writes (_ : PidLocks) : PidLockAct → Prop
  | .ftruncate _ ok | .write _ ok => ok = true
  | _ => True

/-- What a step does to the agent that takes it, to the name and to the locks; `quiet` and `writes` say that the step
keeps to the two conditions. -/
inductive Move (quiet writes : Prop) (s : PidLocks) : PidLocks → Prop where
  | none : Move quiet writes s s
  | openFile {pid ino : Nat} (hat : s.agent pid = .starting) (hpath : s.path = some ino) :
    Move quiet writes s (s.stand pid (.opened ino))
  | create {pid : Nat} (hat : s.agent pid = .starting) (hpath : s.path = Option.none) :
    Move quiet writes s { s.stand pid (.opened s.made) with
      path := some s.made, made := s.made + 1, text := Function.update s.text s.made [] }
  | lock {pid ino : Nat} (hat : s.agent pid = .opened ino) (hfree : s.owner ino = Option.none) :
    Move quiet writes s { s.stand pid (.locked ino) with owner := Function.update s.owner ino (some pid) }
  /-- without a lock, before and behind -/
  | leave {pid : Nat} {p : PidLockAt} (hat : (s.agent pid).holds = Option.none) (hp : p.claims = Option.none) :
    Move quiet writes s (s.stand pid p)
  | truncate {pid ino : Nat} (ok : Bool) (hat : s.agent pid = .locked ino) (hok : writes → ok = true) :
    Move quiet writes s
      { s.stand pid (.truncated ino) with text := if ok then Function.update s.text ino [] else s.text }
  | write {pid ino : Nat} (ok : Bool) (hat : s.agent pid = .truncated ino) (hok : writes → ok = true) :
    Move quiet writes s
      { s.stand pid (.running ino) with
        text :=
          if ok then Function.update s.text ino (pidLine pid ++ (s.text ino).drop (pidLine pid).length) else s.text }
  /-- the lock is given back -/
  | release {pid ino : Nat} {p : PidLockAt} (hat : (s.agent pid).holds = some ino) (hp : p.claims = Option.none) :
    Move quiet writes s { s.stand pid p with owner := Function.update s.owner ino Option.none }
  | unlink {pid : Nat} (hat : s.agent pid = .closed) (hquiet : quiet → ∀ q, (s.agent q).claims = Option.none) :
    Move quiet writes s { s.stand pid .ended with path := Option.none }

theorem move (s : PidLocks) (act : PidLockAct) : Move (Quiet s act) (Writes s act) s (s.step act) := by
  cases act with
  | openFile pid ok =>
    unfold step openFile
    dsimp only
    split
    · rename_i hat
      cases ok with
      | false => exact .leave (by rw [hat]; rfl) rfl
      | true =>
        rw [if_pos rfl]
        split
        · exact .openFile hat ‹_›
        · exact .create hat ‹_›
    · exact .none
  | setLk pid ok =>
    unfold step setLk
    dsimp only
    split
    · rename_i hat
      cases ok with
      | false => exact .leave (by rw [hat]; rfl) rfl
      | true =>
        rw [if_pos rfl]
        split
        · exact .lock hat ‹_›
        · exact .leave (by rw [hat]; rfl) rfl
    · exact .none
  | ftruncate pid ok =>
    unfold step ftruncate
    dsimp only
    split
    · exact .truncate ok ‹_› id
    · exact .none
  | write pid ok =>
    unfold step PidLocks.write
    dsimp only
    split
    · exact .write ok ‹_› id
    · exact .none
  | read pid =>
    unfold step PidLocks.read
    dsimp only
    split
    · exact .leave (by rw [‹s.agent pid = _›]; rfl) rfl
    · exact .none
  | close pid =>
    unfold step PidLocks.close
    dsimp only
    split
    · exact .release (by rw [‹s.agent pid = _›]; rfl) rfl
    · exact .none
  | unlink pid =>
    unfold step PidLocks.unlink
    dsimp only
    split
    · rename_i hat
      exact .unlink hat fun hquiet => hquiet hat
    · exact .none
  | kill pid =>
    unfold step PidLocks.kill
    dsimp only
    cases hat : (s.agent pid).holds with
    | none => exact .leave hat rfl
    | some ino => exact .release hat rfl

/-! ## The locks and their owners -/

variable {s}

@[simp] theorem stand_agent (p : PidLockAt) : (s.stand pid p).agent = Function.update s.agent pid p := rfl
@[simp] theorem stand_path (p : PidLockAt) : (s.stand pid p).path = s.path := rfl
@[simp] theorem stand_made (p : PidLockAt) : (s.stand pid p).made = s.made := rfl
@[simp] theorem stand_text (p : PidLockAt) : (s.stand pid p).text = s.text := rfl
@[simp] theorem stand_owner (p : PidLockAt) : (s.stand pid p).owner = s.owner := rfl

theorem claims_of_holds {p : PidLockAt} {ino : Nat} (h : p.holds = some ino) : p.claims = some ino := by
  cases p <;> first | exact h | cases h

theorem holds_of_claims {p : PidLockAt} (h : p.claims = none) : p.holds = none := by
  cases p <;> first | rfl | cases h

theorem opened_of_claims {p : PidLockAt} {ino : Nat} (h : p.claims = some ino) (hholds : p.holds = none) :
    p = .opened ino := by
  cases p with
  | opened i =>
    cases h
    rfl
  | locked | truncated | running => cases hholds
  | _ => cases h

/-- The locks are those that the agents hold. -/
def Locks (owner : Nat → Option Nat) (agent : Nat → PidLockAt) : Prop :=
  ∀ ino p, owner ino = some p ↔ (agent p).holds = some ino

section Locks

variable {owner : Nat → Option Nat} {agent : Nat → PidLockAt} {pid ino : Nat} {p : PidLockAt}

theorem Locks.stand (h : Locks owner agent) (hp : p.holds = (agent pid).holds) :
    Locks owner (Function.update agent pid p) := by
  intro i q
  by_cases hq : q = pid
  · rw [hq, Function.update_self, hp]
    exact h i pid
  · rw [Function.update_of_ne hq]
    exact h i q

theorem Locks.lock (h : Locks owner agent) (hat : (agent pid).holds = none) (hfree : owner ino = none)
    (hp : p.holds = some ino) : Locks (Function.update owner ino (some pid)) (Function.update agent pid p) := by
  intro i q
  by_cases hi : i = ino
  · rw [hi, Function.update_self]
    by_cases hq : q = pid
    · simp [hq, hp]
    · rw [Function.update_of_ne hq, ← h ino q, hfree]
      simp [Ne.symm hq]
  · rw [Function.update_of_ne hi, h i q]
    by_cases hq : q = pid
    · rw [hq, Function.update_self, hat, hp]
      simp [Ne.symm hi]
    · rw [Function.update_of_ne hq]

theorem Locks.release (h : Locks owner agent) (hat : (agent pid).holds = some ino) (hp : p.holds = none) :
    Locks (Function.update owner ino none) (Function.update agent pid p) := by
  intro i q
  by_cases hi : i = ino
  · rw [hi, Function.update_self]
    by_cases hq : q = pid
    · simp [hq, hp]
    · rw [Function.update_of_ne hq, ← h ino q, (h ino pid).2 hat]
      simp [Ne.symm hq]
  · rw [Function.update_of_ne hi, h i q]
    by_cases hq : q = pid
    · rw [hq, Function.update_self, hat, hp]
      simp [Ne.symm hi]
    · rw [Function.update_of_ne hq]

end Locks

/-- The locks are those of the agents, the inodes have been made, and there are agents to come. -/
structure Owned (s : PidLocks) : Prop where
  locks : Locks s.owner s.agent
  claimed : ∀ p ino, (s.agent p).claims = some ino → ino < s.made
  named : ∀ ino, s.path = some ino → ino < s.made
  waiting : ∃ n, ∀ p, n ≤ p → s.agent p = .starting

namespace Owned

theorem init : PidLocks.init.Owned where
  locks _ _ := by
    constructor <;>
    · intro h
      cases h
  claimed _ _ h := by cases h
  named _ h := by cases h
  waiting := ⟨0, fun _ _ => rfl⟩

theorem claimed_update (h : s.Owned) {pid made : Nat} {p : PidLockAt} (hmade : s.made ≤ made)
    (hp : ∀ ino, p.claims = some ino → ino < made) (q ino : Nat)
    (hq : (Function.update s.agent pid p q).claims = some ino) : ino < made := by
  by_cases heq : q = pid
  · rw [heq, Function.update_self] at hq
    exact hp ino hq
  · rw [Function.update_of_ne heq] at hq
    exact Nat.lt_of_lt_of_le (h.claimed q ino hq) hmade

theorem waiting_update (h : s.Owned) (pid : Nat) (p : PidLockAt) :
    ∃ n, ∀ q, n ≤ q → Function.update s.agent pid p q = .starting := by
  obtain ⟨n, hn⟩ := h.waiting
  refine ⟨n + (pid + 1), fun q hq => ?_⟩
  rw [Function.update_of_ne (by omega)]
  exact hn q (by omega)

/-- An agent that goes on with the lock that it has, or without one. -/
theorem stand (h : s.Owned) {pid : Nat} {p : PidLockAt} {text : Nat → Bytes} (hp : p.holds = (s.agent pid).holds)
    (hclaims : ∀ ino, p.claims = some ino → ino < s.made) : { s.stand pid p with text := text }.Owned where
  locks := h.locks.stand hp
  claimed := h.claimed_update (Nat.le_refl _) hclaims
  named := h.named
  waiting := h.waiting_update pid p

theorem move (h : s.Owned) {quiet writes : Prop} {s' : PidLocks} (hm : Move quiet writes s s') : s'.Owned := by
  cases hm with
  | none => exact h
  | openFile hat hpath =>
    refine h.stand (by rw [hat]; rfl) fun i hi => ?_
    cases hi
    exact h.named _ hpath
  | create hat hpath =>
    refine ⟨h.locks.stand (by rw [hat]; rfl), h.claimed_update (Nat.le_succ _) fun i hi => ?_, fun i hi => ?_,
      h.waiting_update _ _⟩
    · cases hi
      exact Nat.lt_succ_self _
    · cases hi
      exact Nat.lt_succ_self _
  | @lock pid ino hat hfree =>
    have hmade : ino < s.made := h.claimed pid ino (by rw [hat]; rfl)
    refine ⟨h.locks.lock (by rw [hat]; rfl) hfree rfl, h.claimed_update (Nat.le_refl _) fun i hi => ?_, h.named,
      h.waiting_update _ _⟩
    cases hi
    exact hmade
  | leave hat hp =>
    refine h.stand (by rw [hat, holds_of_claims hp]) fun i hi => ?_
    rw [hp] at hi
    cases hi
  | @truncate pid ino ok hat hok =>
    refine h.stand (by rw [hat]; rfl) fun i hi => h.claimed pid i ?_
    rw [hat]
    exact hi
  | @write pid ino ok hat hok =>
    refine h.stand (by rw [hat]; rfl) fun i hi => h.claimed pid i ?_
    rw [hat]
    exact hi
  | release hat hp =>
    refine ⟨h.locks.release hat (holds_of_claims hp), h.claimed_update (Nat.le_refl _) fun i hi => ?_, h.named,
      h.waiting_update _ _⟩
    rw [hp] at hi
    cases hi
  | unlink hat hquiet =>
    have hstand : (s.stand _ .ended).Owned := h.stand (by rw [hat]; rfl) fun i hi => by cases hi
    refine ⟨hstand.locks, hstand.claimed, fun i hi => ?_, hstand.waiting⟩
    cases hi

theorem run (acts : List PidLockAct) : (PidLocks.init.run acts).Owned := by
  unfold PidLocks.run
  induction acts using List.reverseRecOn with
  | nil => exact init
  | append_singleton acts act ih =>
    rw [List.foldl_append, List.foldl_cons, List.foldl_nil]
    exact ih.move (PidLocks.move _ act)

/-- The lock of an inode is one agent's. -/
theorem same (h : s.Owned) {p q ino : Nat} (hp : (s.agent p).holds = some ino) (hq : (s.agent q).holds = some ino) :
    p = q :=
  Option.some.inj (((h.locks ino p).2 hp).symm.trans ((h.locks ino q).2 hq))

end Owned

/-! ## One agent -/

/-- No two agents have a lock, of whatever inode. -/
def Sole (s : PidLocks) : Prop := ∀ p q, (s.agent p).holds.isSome → (s.agent q).holds.isSome → p = q

/-- The agents meet at the file that has the name now. -/
def Met (s : PidLocks) : Prop := ∀ p ino, (s.agent p).claims = some ino → s.path = some ino

namespace Met

theorem init : PidLocks.init.Met := fun _ _ h => by cases h

theorem sole (h : s.Met) (howned : s.Owned) : s.Sole := by
  intro p q hp hq
  obtain ⟨i, hi⟩ := Option.isSome_iff_exists.1 hp
  obtain ⟨j, hj⟩ := Option.isSome_iff_exists.1 hq
  have hij : i = j := Option.some.inj ((h p i (claims_of_holds hi)).symm.trans (h q j (claims_of_holds hj)))
  exact howned.same hi (hij ▸ hj)

theorem update (h : s.Met) {pid : Nat} {p : PidLockAt} (hp : ∀ ino, p.claims = some ino → s.path = some ino)
    (q ino : Nat) (hq : (Function.update s.agent pid p q).claims = some ino) : s.path = some ino := by
  by_cases heq : q = pid
  · rw [heq, Function.update_self] at hq
    exact hp ino hq
  · rw [Function.update_of_ne heq] at hq
    exact h q ino hq

/-- The name is not taken from the agents that have met. -/
theorem move (h : s.Met) {quiet writes : Prop} (hquiet : quiet) {s' : PidLocks} (hm : Move quiet writes s s') :
    s'.Met := by
  cases hm with
  | none => exact h
  | openFile hat hpath =>
    refine h.update fun i hi => ?_
    cases hi
    exact hpath
  | @create pid hat hpath =>
    intro q i hq
    by_cases heq : q = pid
    · simp only [heq, stand_agent, Function.update_self] at hq
      cases hq
      rfl
    · simp only [stand_agent, Function.update_of_ne heq] at hq
      have hnamed := h q i hq
      rw [hpath] at hnamed
      cases hnamed
  | @lock pid ino hat hfree =>
    refine h.update fun i hi => ?_
    cases hi
    exact h pid ino (by rw [hat]; rfl)
  | leave hat hp | release hat hp =>
    refine h.update fun i hi => ?_
    rw [hp] at hi
    cases hi
  | @truncate pid ino ok hat hok | @write pid ino ok hat hok =>
    refine h.update fun i hi => h pid i ?_
    rw [hat]
    exact hi
  | @unlink pid hat hall =>
    intro q i hq
    by_cases heq : q = pid
    · simp only [heq, stand_agent, Function.update_self] at hq
      cases hq
    · simp only [stand_agent, Function.update_of_ne heq] at hq
      rw [hall hquiet q] at hq
      cases hq

theorem run (h : s.Met) {acts : List PidLockAct} (hquiet : AllSteps step Quiet s acts) : (s.run acts).Met :=
  foldl_invariant (fun s act hs hq => hs.move hq (PidLocks.move s act)) acts s h hquiet

end Met

/-- When no name is removed that another agent has opened, at most one agent has a lock at any time. -/
theorem sole_agent (acts : List PidLockAct) (h : AllSteps step Quiet init acts) (p q : Nat)
    (hp : ((init.run acts).agent p).holds.isSome) (hq : ((init.run acts).agent q).holds.isSome) : p = q :=
  (Met.init.run h).sole (Owned.run acts) p q hp hq

/-- A stop and a start behind it. -/
def restart : List PidLockAct :=
  [.openFile 1 true, .setLk 1 true, .ftruncate 1 true, .write 1 true, .close 1, .unlink 1, .openFile 2 true,
    .setLk 2 true]

theorem sole_agent_restart :
    ((init.run restart).agent 2).holds = some 1 ∧ ∀ p, ((init.run restart).agent p).holds.isSome → p = 2 := by
  have hquiet : AllSteps step Quiet init restart := by
    refine ⟨trivial, trivial, trivial, trivial, trivial, fun _ q => ?_, trivial, trivial, trivial⟩
    by_cases hq : q = 1
    · rw [hq]
      rfl
    · simp [step, openFile, setLk, ftruncate, write, close, stand, init, Function.update_of_ne hq, PidLockAt.claims,
        PidLockAt.holds]
  exact ⟨by decide, fun p hp => sole_agent restart hquiet p 2 hp (by decide)⟩

/-! ## Two agents -/

theorem run_append (s : PidLocks) (as bs : List PidLockAct) : s.run (as ++ bs) = (s.run as).run bs :=
  List.foldl_append

/-- An agent whose file is not the one under the name can lock it, unless another has. -/
theorem exists_holder (h : s.Owned) {p ino : Nat} (hp : (s.agent p).claims = some ino) :
    ∃ acts q, AllSteps step Quiet s acts ∧ ((s.run acts).agent q).holds = some ino ∧ (s.run acts).path = s.path := by
  cases hholds : (s.agent p).holds with
  | some i =>
    have hi : i = ino := Option.some.inj ((claims_of_holds hholds).symm.trans hp)
    exact ⟨[], p, trivial, hi ▸ hholds, rfl⟩
  | none =>
    have hat : s.agent p = .opened ino := opened_of_claims hp hholds
    cases howner : s.owner ino with
    | some q => exact ⟨[], q, trivial, (h.locks ino q).1 howner, rfl⟩
    | none =>
      refine ⟨[.setLk p true], p, ⟨trivial, trivial⟩, ?_, ?_⟩
      · show ((s.setLk p true).agent p).holds = some ino
        simp [setLk, hat, howner, PidLockAt.holds]
      · show (s.setLk p true).path = s.path
        simp [setLk, hat, howner]

/-- An agent that starts has the file under the name, an old one or a new one. -/
theorem openFile_starting {pid : Nat} (hat : s.agent pid = .starting) : ∃ j,
    (s.step (.openFile pid true)).agent = Function.update s.agent pid (.opened j) ∧
      (s.step (.openFile pid true)).owner = s.owner ∧ (s.path = some j ∨ j = s.made) := by
  unfold step openFile
  dsimp only
  rw [hat]
  dsimp only
  rw [if_pos rfl]
  split
  · exact ⟨_, rfl, rfl, Or.inl ‹_›⟩
  · exact ⟨_, rfl, rfl, Or.inr rfl⟩

/-- An agent to come finds another file than the one that is locked, and locks it, unless a third has. -/
theorem exists_other (h : s.Owned) {q ino : Nat} (hq : (s.agent q).holds = some ino) (hpath : s.path ≠ some ino) :
    ∃ acts r, AllSteps step Quiet s acts ∧ r ≠ q ∧ ((s.run acts).agent r).holds.isSome ∧
      ((s.run acts).agent q).holds = some ino := by
  obtain ⟨r, hr⟩ := h.waiting
  have hat : s.agent r = .starting := hr r (Nat.le_refl r)
  have hne : r ≠ q := by
    rintro rfl
    rw [hat] at hq
    cases hq
  obtain ⟨j, hagent, howner, hj⟩ := openFile_starting hat
  have hji : j ≠ ino := by
    rcases hj with hj | rfl
    · rintro rfl
      exact hpath hj
    · exact Nat.ne_of_gt (h.claimed q ino (claims_of_holds hq))
  cases hown : s.owner j with
  | some r' =>
    have hholds : (s.agent r').holds = some j := (h.locks j r').1 hown
    refine ⟨[], r', trivial, ?_, by rw [run, List.foldl_nil, hholds]; rfl, hq⟩
    rintro rfl
    exact hji (Option.some.inj (hholds.symm.trans hq))
  | none =>
    have hrun : (s.run [.openFile r true, .setLk r true]).agent =
        Function.update (Function.update s.agent r (.opened j)) r (.locked j) := by
      show ((s.step (.openFile r true)).setLk r true).agent = _
      simp [setLk, hagent, howner, hown]
    refine ⟨[.openFile r true, .setLk r true], r, ⟨trivial, trivial, trivial⟩, hne, ?_, ?_⟩
    · rw [hrun, Function.update_self]
      rfl
    · rw [hrun, Function.update_of_ne hne.symm, Function.update_of_ne hne.symm, hq]

/-- Where the agents have met, they stay apart for as long as no name is removed that another agent has opened; where
one of them has a file that is no longer the one of the name, two agents can be brought to run at once without that. -/
theorem sole_agent_iff (acts : List PidLockAct) :
    (∀ more, AllSteps step Quiet (init.run acts) more → ((init.run acts).run more).Sole) ↔ (init.run acts).Met := by
  have howned : ∀ more, ((init.run acts).run more).Owned := by
    intro more
    rw [← run_append]
    exact Owned.run _
  constructor
  · intro hsole p ino hp
    by_contra hpath
    obtain ⟨lead, q, hquiet, hq, hsame⟩ := exists_holder (howned []) hp
    obtain ⟨more, r, hmore, hne, hr, hq'⟩ := exists_other (howned lead) hq (hsame ▸ hpath)
    refine hne (hsole (lead ++ more) (hquiet.append hmore) r q ?_ ?_)
    · rw [run_append]
      exact hr
    · rw [run_append, hq']
      rfl
  · intro hmet more hquiet
    exact (hmet.run hquiet).sole (howned more)

/-- The name goes away behind the back of an agent that has opened the file in time, and a third makes a new one. -/
example :
    let s := init.run [.openFile 1 true, .setLk 1 true, .ftruncate 1 true, .write 1 true, .openFile 2 true, .close 1,
      .setLk 2 true, .unlink 1, .openFile 3 true, .setLk 3 true]
    (s.agent 2).holds = some 0 ∧ (s.agent 3).holds = some 1 := by decide

/-! ## The PID in the file -/

/-- The agent that runs has written its PID. -/
structure Written (s : PidLocks) : Prop where
  truncated : ∀ p ino, s.agent p = .truncated ino → s.text ino = []
  running : ∀ p ino, s.agent p = .running ino → s.text ino = pidLine p

namespace Written

theorem init : PidLocks.init.Written := by
  constructor <;>
  · intro p ino h
    cases h

/-- An agent that goes on and changes the text of an inode that no other has locked. -/
theorem goes_on (h : s.Written) (pid ino : Nat) (p : PidLockAt) (t : Bytes)
    (hothers : ∀ q i, q ≠ pid → (s.agent q).holds = some i → i ≠ ino)
    (htrunc : ∀ i, p = .truncated i → i = ino ∧ t = []) (hrun : ∀ i, p = .running i → i = ino ∧ t = pidLine pid) :
    { s.stand pid p with text := Function.update s.text ino t }.Written := by
  constructor
  · intro q i hq
    have hat : Function.update s.agent pid p q = .truncated i := hq
    show Function.update s.text ino t i = []
    by_cases heq : q = pid
    · rw [heq, Function.update_self] at hat
      obtain ⟨rfl, ht⟩ := htrunc i hat
      rw [Function.update_self, ht]
    · rw [Function.update_of_ne heq] at hat
      rw [Function.update_of_ne (hothers q i heq (by rw [hat]; rfl))]
      exact h.truncated q i hat
  · intro q i hq
    have hat : Function.update s.agent pid p q = .running i := hq
    show Function.update s.text ino t i = pidLine q
    by_cases heq : q = pid
    · rw [heq, Function.update_self] at hat
      obtain ⟨rfl, ht⟩ := hrun i hat
      rw [Function.update_self, ht, heq]
    · rw [Function.update_of_ne heq] at hat
      rw [Function.update_of_ne (hothers q i heq (by rw [hat]; rfl))]
      exact h.running q i hat

/-- An agent that goes on where it need not have written. -/
theorem stand (h : s.Written) (pid : Nat) (p : PidLockAt) (htrunc : ∀ i, p ≠ .truncated i)
    (hrun : ∀ i, p ≠ .running i) : (s.stand pid p).Written := by
  constructor
  · intro q i hq
    by_cases heq : q = pid
    · rw [stand_agent, heq, Function.update_self] at hq
      exact absurd hq (htrunc i)
    · rw [stand_agent, Function.update_of_ne heq] at hq
      exact h.truncated q i hq
  · intro q i hq
    by_cases heq : q = pid
    · rw [stand_agent, heq, Function.update_self] at hq
      exact absurd hq (hrun i)
    · rw [stand_agent, Function.update_of_ne heq] at hq
      exact h.running q i hq

theorem claims_ne {p : PidLockAt} (h : p.claims = none) : (∀ i, p ≠ .truncated i) ∧ ∀ i, p ≠ .running i := by
  constructor <;>
  · rintro i rfl
    cases h

theorem move (h : s.Written) (howned : s.Owned) {quiet writes : Prop} (hwrites : writes) {s' : PidLocks}
    (hm : Move quiet writes s s') : s'.Written := by
  have hothers : ∀ {pid ino : Nat}, (s.agent pid).holds = some ino →
      ∀ q i, q ≠ pid → (s.agent q).holds = some i → i ≠ ino := by
    rintro pid ino hpid q i hne hq rfl
    exact hne (howned.same hq hpid)
  cases hm with
  | none => exact h
  | openFile hat hpath => exact h.stand _ _ (by simp) (by simp)
  | @create pid hat hpath =>
    have hgo := h.goes_on pid s.made (.opened s.made) []
      (fun q i _ hq => Nat.ne_of_lt (howned.claimed q i (claims_of_holds hq))) (by simp) (by simp)
    exact ⟨hgo.truncated, hgo.running⟩
  | @lock pid ino hat hfree =>
    have hstand := h.stand pid (.locked ino) (by simp) (by simp)
    exact ⟨hstand.truncated, hstand.running⟩
  | leave hat hp => exact h.stand _ _ (claims_ne hp).1 (claims_ne hp).2
  | truncate ok hat hok =>
    rw [hok hwrites, if_pos rfl]
    refine h.goes_on _ _ _ _ (hothers (by rw [hat]; rfl)) (fun i hi => ?_) (by simp)
    cases hi
    exact ⟨rfl, rfl⟩
  | @write pid ino ok hat hok =>
    rw [hok hwrites, if_pos rfl]
    refine h.goes_on _ _ _ _ (hothers (by rw [hat]; rfl)) (by simp) fun i hi => ?_
    cases hi
    rw [h.truncated pid ino hat, List.drop_nil, List.append_nil]
    exact ⟨rfl, rfl⟩
  | @release pid ino p hat hp =>
    have hstand := h.stand pid p (claims_ne hp).1 (claims_ne hp).2
    exact ⟨hstand.truncated, hstand.running⟩
  | @unlink pid hat hquiet =>
    have hstand := h.stand pid .ended (by simp) (by simp)
    exact ⟨hstand.truncated, hstand.running⟩

theorem run (acts : List PidLockAct) (h : AllSteps step Writes PidLocks.init acts) :
    (PidLocks.init.run acts).Written := by
  have hstep : ∀ s act, s.Owned ∧ s.Written → Writes s act → (s.step act).Owned ∧ (s.step act).Written :=
    fun s act hs hw => ⟨hs.1.move (PidLocks.move s act), hs.2.move hs.1 hw (PidLocks.move s act)⟩
  exact (foldl_invariant hstep acts _ ⟨Owned.init, init⟩ h).2

end Written

/-- Who is turned away while another runs is told its PID: a lock has one owner, and its file the owner's PID alone. -/
theorem refused_told (acts : List PidLockAct) (h : AllSteps step Writes init acts) {p q ino : Nat}
    (hp : (init.run acts).agent p = .refused ino) (hq : (init.run acts).agent q = .running ino) :
    (∀ r, ((init.run acts).agent r).holds = some ino → r = q) ∧
    (init.run (acts ++ [.read p])).agent p = .failed ((pidLine q).take 15) := by
  refine ⟨fun r hr => (Owned.run acts).same hr (by rw [hq]; rfl), ?_⟩
  rw [run_append]
  show ((init.run acts).read p).agent p = _
  unfold PidLocks.read
  rw [hp]
  dsimp only
  rw [stand_agent, Function.update_self, (Written.run acts h).running q ino hq]

theorem refused_told_running :
    (init.run [.openFile 1 true, .openFile 2 true, .setLk 1 true, .ftruncate 1 true, .write 1 true, .setLk 2 true,
      .read 2]).agent 2 = .failed (ascii "1\n") :=
  (refused_told [.openFile 1 true, .openFile 2 true, .setLk 1 true, .ftruncate 1 true, .write 1 true, .setLk 2 true]
    ⟨trivial, trivial, trivial, rfl, rfl, trivial, trivial⟩ (p := 2) (q := 1) rfl rfl).2

end PidLocks

end KnIg.Agent
