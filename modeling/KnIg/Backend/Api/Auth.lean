/-
The console's login with a PIN. A login checks the lock, compares the PIN and records the outcome in separate
steps, so other logins run in between: ten failing comparisons lock the login for five minutes as long as no
comparison fails while ten failures are recorded or under way, and no late success lifts a lock.
-/
import KnIg.Backend.Collector.Identity
import KnIg.Backend.Store.Schema
import KnIg.Lib.Run

namespace KnIg.Backend

open Lib

/-! ## The counter and the lock -/

def lockoutLimit : Nat := 10

/-- Five minutes in nanoseconds. -/
def lockoutWindow : Nat := 5 * 60 * 1000000000

/-- What `failMu` guards; times are nanoseconds since the zero `time.Time`. -/
structure Auth where
  failCount : Nat
  lockedUntil : Nat

namespace Auth

def isLocked (a : Auth) (now : Nat) : Bool := now < a.lockedUntil

def recordFailure (a : Auth) (now : Nat) : Auth :=
  let failCount := a.failCount + 1
  if failCount ≥ lockoutLimit then ⟨0, now + lockoutWindow⟩ else { a with failCount }

def resetFailures : Auth := ⟨0, 0⟩

end Auth

def validPin (p : Bytes) : Bool :=
  if p.length < 4 ∨ p.length > 8 then false else (runes p).all fun c => 0x30 ≤ c ∧ c ≤ 0x39

/-! ## Logins -/

/-- Where a login stands; an answered one has its HTTP status. -/
inductive LoginStage where
  | checked (pin : Bytes)
  | failed
  | matched
  | answered (status : Nat)
deriving DecidableEq

inductive LoginAct where
  | tick (ns : Nat)
  /-- a request: the check of the lock, then of the body, which may not parse -/
  | arrive (body : Option Bytes)
  /-- `GetPINHash` answers and the comparison ends -/
  | compare (i : Nat) (hash : Except StoreError Bytes)
  | record (i : Nat)
  | reset (i : Nat)

/-- The server's logins, with how many comparisons failed since a login last reset the counter or a lockout ran
out, and the end of the latest lockout. -/
structure Logins where
  auth : Auth
  now : Nat
  requests : List LoginStage
  failures : Nat
  lockEnd : Nat

namespace Logins

def init (now : Nat) : Logins := ⟨⟨0, 0⟩, now, [], 0, 0⟩

variable (bcrypt : Bytes → Bytes → Bool) (s : Logins)

def tick (ns : Nat) : Logins :=
  let elapsed := s.now < s.auth.lockedUntil ∧ s.auth.lockedUntil ≤ s.now + ns
  { s with now := s.now + ns, failures := if elapsed then 0 else s.failures }

def arrive (body : Option Bytes) : Logins :=
  let stage : LoginStage :=
    -- the lock is looked at here and not again
    if s.auth.isLocked s.now then .answered 423
    else
      match body with
      | none => .answered 400
      | some pin => if validPin pin then .checked pin else .answered 400
  { s with requests := s.requests ++ [stage] }

/-- What the comparison makes of a login with the PIN. -/
def compared (pin : Bytes) : Except StoreError Bytes → LoginStage
  | .error _ => .answered 500
  | .ok hash => if hash = [] then .answered 400 else if bcrypt hash pin then .matched else .failed

def compare (i : Nat) (hash : Except StoreError Bytes) : Logins :=
  match s.requests[i]? with
  | some (.checked pin) =>
    let stage := compared bcrypt pin hash
    { s with requests := s.requests.set i stage, failures := if stage = .failed then s.failures + 1 else s.failures }
  | _ => s

def record (i : Nat) : Logins :=
  if s.requests[i]? = some .failed then
    let auth := s.auth.recordFailure s.now
    { s with auth, requests := s.requests.set i (.answered 401),
             lockEnd := if s.auth.failCount + 1 ≥ lockoutLimit then auth.lockedUntil else s.lockEnd }
  else s

def reset (i : Nat) : Logins :=
  if s.requests[i]? = some .matched then
    { s with auth := Auth.resetFailures, requests := s.requests.set i (.answered 200), failures := 0 }
  else s

def step : LoginAct → Logins
  | .tick ns => s.tick ns
  | .arrive body => s.arrive body
  | .compare i hash => s.compare bcrypt i hash
  | .record i => s.record i
  | .reset i => s.reset i

def run (acts : List LoginAct) : Logins := acts.foldl (step bcrypt) s

/-- At most ten comparisons failed, and the latest lockout lasts. -/
def LockoutHolds : Prop := s.failures ≤ lockoutLimit ∧ (s.now < s.lockEnd → s.auth.isLocked s.now)

instance : Decidable s.LockoutHolds := inferInstanceAs (Decidable (_ ∧ _))

/-! ## What a step is asked for -/

/-- The comparisons that failed and are not in the counter yet. -/
def unrecorded : Nat := s.requests.countP (· = .failed)

/-- The comparison is about to be made, and fails. -/
def failsNext (i : Nat) (hash : Except StoreError Bytes) : Bool :=
  match s.requests[i]? with
  | some (.checked pin) => compared bcrypt pin hash = .failed
  | _ => false

/-- A comparison fails only while the login is open and fewer than ten failures are counted or under way, and a
success resets the counter only while the login is open. -/
def ActOk (s : Logins) : LoginAct → Prop
  | .compare i hash => s.failsNext bcrypt i hash →
      ¬ s.auth.isLocked s.now ∧ s.auth.failCount + s.unrecorded < lockoutLimit
  | .reset i => s.requests[i]? = some .matched → ¬ s.auth.isLocked s.now
  | _ => True

/-- Out of a lockout the failures are counted or under way; in one there are none under way. -/
structure Tally (s : Logins) : Prop where
  failures : s.failures ≤ lockoutLimit
  total : s.auth.failCount + s.unrecorded ≤ lockoutLimit
  below : s.auth.failCount < lockoutLimit
  locked : s.now < s.lockEnd → s.auth.lockedUntil = s.lockEnd ∧ s.auth.failCount = 0 ∧ s.unrecorded = 0
  opened : s.lockEnd ≤ s.now → s.auth.lockedUntil ≤ s.now ∧ s.failures ≤ s.auth.failCount + s.unrecorded

variable {bcrypt} {s}

theorem Tally.lockoutHolds (h : s.Tally) : s.LockoutHolds := by
  refine ⟨h.failures, fun hnow => ?_⟩
  obtain ⟨huntil, -⟩ := h.locked hnow
  exact decide_eq_true (huntil ▸ hnow)

theorem tally_init (now : Nat) : (init now).Tally where
  failures := Nat.zero_le _
  total := Nat.zero_le _
  below := Nat.zero_lt_succ 9
  locked h := absurd h (Nat.not_lt_zero now)
  opened _ := ⟨Nat.zero_le now, Nat.zero_le _⟩

/-- The lock is open once the latest lockout has run out. -/
theorem Tally.lockEnd_le (h : s.Tally) (hopen : ¬ s.auth.isLocked s.now) : s.lockEnd ≤ s.now := by
  by_contra hlt
  obtain ⟨huntil, -⟩ := h.locked (not_le.1 hlt)
  exact hopen (decide_eq_true (huntil ▸ not_le.1 hlt))

/-! ## Requests that move on -/

theorem unrecorded_set {i : Nat} {old : LoginStage} (new : LoginStage) (hi : s.requests[i]? = some old) :
    (s.requests.set i new).countP (· = .failed) + (if old = .failed then 1 else 0) =
      s.unrecorded + (if new = .failed then 1 else 0) := by
  obtain ⟨hlt, hold⟩ := List.getElem?_eq_some_iff.1 hi
  have hle : (if s.requests[i] = .failed then 1 else 0) ≤ s.unrecorded := by
    split
    · next h => exact List.countP_pos_iff.2 ⟨s.requests[i], List.getElem_mem hlt, decide_eq_true h⟩
    · exact Nat.zero_le _
  rw [List.countP_set hlt]
  simp only [decide_eq_true_eq, hold] at hle ⊢
  unfold unrecorded at hle ⊢
  omega

theorem Tally.tick (h : s.Tally) (ns : Nat) : (s.tick ns).Tally := by
  unfold Logins.tick
  constructor
  · show (if _ then 0 else s.failures) ≤ lockoutLimit
    split
    · exact Nat.zero_le _
    · exact h.failures
  · exact h.total
  · exact h.below
  · intro hnow
    exact h.locked (lt_of_le_of_lt (Nat.le_add_right s.now ns) hnow)
  · intro hend
    show s.auth.lockedUntil ≤ s.now + ns ∧ (if _ then 0 else s.failures) ≤ _
    by_cases hnow : s.now < s.lockEnd
    · -- the lockout runs out with this tick
      obtain ⟨huntil, -⟩ := h.locked hnow
      rw [if_pos ⟨huntil ▸ hnow, huntil ▸ hend⟩, huntil]
      exact ⟨hend, Nat.zero_le _⟩
    · obtain ⟨huntil, hfailures⟩ := h.opened (not_lt.1 hnow)
      rw [if_neg fun helapsed => absurd helapsed.1 (not_lt.2 huntil)]
      exact ⟨huntil.trans (Nat.le_add_right s.now ns), hfailures⟩

/-- A step that changes neither the counter nor the lock, and no failure under way. -/
theorem Tally.requests (h : s.Tally) {rs : List LoginStage} (hrs : rs.countP (· = .failed) = s.unrecorded) :
    Tally { s with requests := rs } where
  failures := h.failures
  total := by
    show s.auth.failCount + rs.countP (· = .failed) ≤ _
    exact hrs ▸ h.total
  below := h.below
  locked hnow := by
    show s.auth.lockedUntil = s.lockEnd ∧ s.auth.failCount = 0 ∧ rs.countP (· = .failed) = 0
    exact hrs ▸ h.locked hnow
  opened hend := by
    show s.auth.lockedUntil ≤ s.now ∧ s.failures ≤ s.auth.failCount + rs.countP (· = .failed)
    exact hrs ▸ h.opened hend

theorem Tally.arrive (h : s.Tally) (body : Option Bytes) : (s.arrive body).Tally := by
  refine h.requests ?_
  rw [List.countP_append, unrecorded, List.countP_singleton]
  repeat' split
  all_goals simp_all

theorem Tally.compare (h : s.Tally) {i : Nat} {hash : Except StoreError Bytes}
    (hok : s.ActOk bcrypt (.compare i hash)) : (s.compare bcrypt i hash).Tally := by
  unfold Logins.compare
  split
  · next pin hi =>
    have hnext : s.failsNext bcrypt i hash = decide (compared bcrypt pin hash = .failed) := by
      rw [failsNext, hi]
    have hset := unrecorded_set (compared bcrypt pin hash) hi
    rw [if_neg (by simp), Nat.add_zero] at hset
    by_cases hfail : compared bcrypt pin hash = .failed
    · obtain ⟨hopen, hroom⟩ := hok (hnext.trans (decide_eq_true hfail))
      have hend := h.lockEnd_le hopen
      obtain ⟨huntil, hfailures⟩ := h.opened hend
      rw [if_pos hfail] at hset
      simp only [hfail] at hset ⊢
      have hsum : s.auth.failCount + (s.requests.set i .failed).countP (· = .failed) ≤ lockoutLimit := by
        rw [hset]
        omega
      refine ⟨?_, hsum, h.below, fun hnow => absurd hnow (not_lt.2 hend), fun _ => ⟨huntil, ?_⟩⟩
      · show s.failures + 1 ≤ lockoutLimit
        omega
      · show s.failures + 1 ≤ s.auth.failCount + (s.requests.set i .failed).countP (· = .failed)
        rw [hset]
        omega
    · rw [if_neg hfail] at hset
      simp only [if_neg hfail]
      exact h.requests hset
  · exact h

/-- The failure that is recorded was under way, so the login is open. -/
theorem Tally.record (h : s.Tally) (i : Nat) : (s.record i).Tally := by
  unfold Logins.record
  split
  · next hi =>
    have hset := unrecorded_set (.answered 401) hi
    rw [if_pos rfl, if_neg (by simp), Nat.add_zero] at hset
    -- within a lockout no failure is under way
    have hend : s.lockEnd ≤ s.now := by
      by_contra hlt
      obtain ⟨-, -, hnone⟩ := h.locked (not_le.1 hlt)
      omega
    obtain ⟨huntil, hfailures⟩ := h.opened hend
    have htotal := h.total
    by_cases hlimit : s.auth.failCount + 1 ≥ lockoutLimit
    · have hnone : (s.requests.set i (.answered 401)).countP (· = .failed) = 0 := by omega
      have hauth : s.auth.recordFailure s.now = ⟨0, s.now + lockoutWindow⟩ := if_pos hlimit
      simp only [hauth, if_pos hlimit]
      refine ⟨h.failures, ?_, Nat.zero_lt_succ 9, fun _ => ⟨rfl, rfl, hnone⟩, fun hnow => ?_⟩
      · show 0 + (s.requests.set i (.answered 401)).countP (· = .failed) ≤ lockoutLimit
        rw [hnone]
        exact Nat.zero_le _
      · exact absurd hnow (not_le.2 (Nat.lt_add_of_pos_right (by decide)))
    · have hauth : s.auth.recordFailure s.now = { s.auth with failCount := s.auth.failCount + 1 } := if_neg hlimit
      simp only [hauth, if_neg hlimit]
      refine ⟨h.failures, ?_, not_le.1 hlimit, fun hnow => absurd hnow (not_lt.2 hend), fun _ => ⟨huntil, ?_⟩⟩
      · show s.auth.failCount + 1 + (s.requests.set i (.answered 401)).countP (· = .failed) ≤ lockoutLimit
        omega
      · show s.failures ≤ s.auth.failCount + 1 + (s.requests.set i (.answered 401)).countP (· = .failed)
        omega
  · exact h

theorem Tally.reset (h : s.Tally) {i : Nat} (hok : s.ActOk bcrypt (.reset i)) : (s.reset i).Tally := by
  unfold Logins.reset
  split
  · next hi =>
    have hset := unrecorded_set (.answered 200) hi
    rw [if_neg (by simp), if_neg (by simp), Nat.add_zero, Nat.add_zero] at hset
    have hend := h.lockEnd_le (hok hi)
    refine ⟨Nat.zero_le _, ?_, Nat.zero_lt_succ 9, fun hnow => absurd hnow (not_lt.2 hend), fun _ => ?_⟩
    · show 0 + (s.requests.set i (.answered 200)).countP (· = .failed) ≤ lockoutLimit
      have htotal := h.total
      omega
    · exact ⟨Nat.zero_le _, Nat.zero_le _⟩
  · exact h

theorem Tally.step (h : s.Tally) {act : LoginAct} (hok : s.ActOk bcrypt act) : (s.step bcrypt act).Tally := by
  cases act with
  | tick ns => exact h.tick ns
  | arrive body => exact h.arrive body
  | compare i hash => exact h.compare hok
  | record i => exact h.record i
  | reset i => exact h.reset hok

/-! ## Any interleaving -/

/-- In every interleaving whose steps meet their condition no more than ten comparisons fail between two resets or
elapsed lockouts, and no lockout is cut short. -/
theorem lockoutHolds_run (bcrypt : Bytes → Bytes → Bool) (now : Nat) (acts : List LoginAct)
    (hok : AllSteps (step bcrypt) (ActOk bcrypt) (init now) acts) :
    ∀ pre, pre <+: acts → ((init now).run bcrypt pre).LockoutHolds := by
  intro pre hpre
  have htally : ((init now).run bcrypt pre).Tally :=
    foldl_invariant (fun s act (h : s.Tally) hok => h.step hok) pre (init now) (tally_init now)
      (hok.of_isPrefix hpre)
  exact htally.lockoutHolds

instance (bcrypt : Bytes → Bytes → Bool) (s : Logins) : ∀ act, Decidable (s.ActOk bcrypt act)
  | .tick _ => inferInstanceAs (Decidable True)
  | .arrive _ => inferInstanceAs (Decidable True)
  | .compare i hash => inferInstanceAs (Decidable (s.failsNext bcrypt i hash → _ ∧ _))
  | .record _ => inferInstanceAs (Decidable True)
  | .reset i => inferInstanceAs (Decidable (s.requests[i]? = some .matched → _))

/-- A comparison of the texts themselves. -/
def plain (hash pin : Bytes) : Bool := hash = pin

/-- A wrong PIN and then the right one. -/
def secondTry : List LoginAct :=
  [.arrive (some (ascii "0000")), .compare 0 (.ok (ascii "1234")), .record 0,
    .arrive (some (ascii "1234")), .compare 1 (.ok (ascii "1234")), .reset 1]

theorem lockoutHolds_secondTry : ((init 1).run plain secondTry).LockoutHolds :=
  lockoutHolds_run plain 1 secondTry (by decide) secondTry (List.prefix_refl _)

/-- Eleven logins with a wrong PIN pass the check of the lock before the first of them is recorded. -/
def elevenAtOnce : List LoginAct :=
  List.replicate 11 (.arrive (some (ascii "0000"))) ++ (List.range 11).map fun i => .compare i (.ok (ascii "1234"))

theorem lockoutHolds_elevenAtOnce_fails :
    ¬ ∀ pre, pre <+: elevenAtOnce → ((init 1).run plain pre).LockoutHolds := by
  intro h
  exact absurd (h elevenAtOnce (List.prefix_refl _)) (by decide)

/-- A login with the right PIN passes the check before ten others lock the console, and lifts the lock. -/
def lateSuccess : List LoginAct :=
  .arrive (some (ascii "1234")) :: List.replicate 10 (.arrive (some (ascii "0000"))) ++
    (List.range 10).flatMap (fun i => [.compare (i + 1) (.ok (ascii "1234")), .record (i + 1)]) ++
    [.compare 0 (.ok (ascii "1234")), .reset 0]

example : ¬ ((init 1).run plain lateSuccess).LockoutHolds := by decide

end Logins

end KnIg.Backend
