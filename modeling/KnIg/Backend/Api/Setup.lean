/-
The console's first PIN. A setup looks whether a hash is stored, hashes its PIN, which takes long, and stores the hash
over whatever is stored by then: setups that look before the first of them stores are all answered with a token.
-/
import KnIg.Backend.Api.Auth
import KnIg.Lib.Keystream

namespace KnIg.Backend

open Lib

/-! ## The stored hash -/

/-- `GetPINHash`: the empty text where `auth_state` has no row. -/
def getPINHash (fails : Bool) (pinHash : Option Bytes) : Except StoreError Bytes :=
  if fails then .error .driver else .ok (pinHash.getD [])

/-- `SetPINHash`, which inserts the row or updates it. -/
def setPINHash (o : Outcome) (pinHash : Option Bytes) (hash : Bytes) : Except StoreError Unit × Option Bytes :=
  match o with
  | .ok => (.ok (), some hash)
  | .failed => (.error .driver, pinHash)
  | .unknown => (.error .driver, some hash)

/-! ## Setups -/

/-- Where a setup stands. -/
inductive SetupStage where
  | checked (pin : Bytes)
  | unset (pin : Bytes)
  | hashed (pin : Bytes) (salt : Octets 16)
  | stored (pin : Bytes) (salt : Octets 16)
  /-- answered with 201 and the token -/
  | created (pin : Bytes) (salt : Octets 16) (token : Bytes)
  | answered (status : Nat)
deriving DecidableEq

/-- The PIN and the salt of a setup whose `SetPINHash` returned nil, up to its answer. -/
def SetupStage.wrote : SetupStage → Option (Bytes × Octets 16)
  | .stored pin salt | .created pin salt _ => some (pin, salt)
  | .checked _ | .unset _ | .hashed _ _ | .answered _ => none

inductive SetupAct where
  /-- a request, whose body may not parse -/
  | arrive (body : Option Bytes)
  | get (i : Nat) (fails : Bool)
  /-- `GenerateFromPassword` ends, with the salt that it drew if it could -/
  | generate (i : Nat) (salt : Option (Octets 16))
  | set (i : Nat) (o : Outcome)
  /-- `issue` draws a token, or panics -/
  | issue (i : Nat) (draw : Option (Octets 32))

/-- The row of `auth_state`, if there is one, and the server's setups. -/
structure Setups where
  pinHash : Option Bytes
  requests : List SetupStage

namespace Setups

def init (pinHash : Option Bytes) : Setups := ⟨pinHash, []⟩

section Bcrypt

variable (bcrypt : Octets 16 → Bytes → Octets 60) (s : Setups)

def arrive (body : Option Bytes) : Setups :=
  let stage : SetupStage :=
    match body with
    | none => .answered 400
    | some pin => if validPin pin then .checked pin else .answered 400
  { s with requests := s.requests ++ [stage] }

/-- What the stored hash makes of a setup. -/
def read (pin : Bytes) : Except StoreError Bytes → SetupStage
  | .error _ => .answered 500
  | .ok existing => if existing ≠ [] then .answered 409 else .unset pin

def get (i : Nat) (fails : Bool) : Setups :=
  match s.requests[i]? with
  | some (.checked pin) => { s with requests := s.requests.set i (read pin (getPINHash fails s.pinHash)) }
  | _ => s

def generate (i : Nat) (salt : Option (Octets 16)) : Setups :=
  match s.requests[i]? with
  | some (.unset pin) =>
    let stage : SetupStage :=
      match salt with
      | none => .answered 500
      | some salt => .hashed pin salt
    { s with requests := s.requests.set i stage }
  | _ => s

def set (i : Nat) (o : Outcome) : Setups :=
  match s.requests[i]? with
  | some (.hashed pin salt) =>
    let (r, pinHash) := setPINHash o s.pinHash (bcrypt salt pin).bytes
    let stage : SetupStage :=
      match r with
      | .error _ => .answered 500
      | .ok () => .stored pin salt
    ⟨pinHash, s.requests.set i stage⟩
  | _ => s

def issue (i : Nat) (draw : Option (Octets 32)) : Setups :=
  match s.requests[i]? with
  | some (.stored pin salt) =>
    let stage : SetupStage :=
      match draw with
      -- the router recovers from the panic
      | none => .answered 500
      | some draw => .created pin salt (draw.bytes.flatMap hexByte)
    { s with requests := s.requests.set i stage }
  | _ => s

def step : SetupAct → Setups
  | .arrive body => s.arrive body
  | .get i fails => s.get i fails
  | .generate i salt => s.generate i salt
  | .set i o => s.set bcrypt i o
  | .issue i draw => s.issue i draw

def run (acts : List SetupAct) : Setups := acts.foldl (step bcrypt) s

/-- The setup of this number was answered with 201, for this PIN and salt. -/
def Created (i : Nat) (pin : Bytes) (salt : Octets 16) : Prop :=
  ∃ token, s.requests[i]? = some (.created pin salt token)

/-- Once a setup is answered with 201 it is the only one, and the stored hash is of its PIN, from then on. -/
def SoleSetup (acts : List SetupAct) : Prop :=
  ∀ pre i pin salt, pre <+: acts → (s.run bcrypt pre).Created i pin salt →
    ∀ later, pre <+: later → later <+: acts →
      (s.run bcrypt later).pinHash = some (bcrypt salt pin).bytes ∧
        ∀ j pin' salt', (s.run bcrypt later).Created j pin' salt' → j = i

/-- The step is a `SetPINHash` that is carried out. -/
def carriesOut : SetupAct → Bool
  | .set i o =>
    match s.requests[i]? with
    | some (.hashed _ _) => o ≠ .failed
    | _ => false
  | _ => false

/-- A hash is stored only while none is. -/
def ActOk (s : Setups) (act : SetupAct) : Prop := s.carriesOut act → s.pinHash.getD [] = []

instance (s : Setups) (act : SetupAct) : Decidable (s.ActOk act) := inferInstanceAs (Decidable (_ → _))

end Bcrypt

/-! ## What a step does -/

/-- The `SetPINHash` of this setup returned nil. -/
def Writes (s : Setups) (i : Nat) (x : Bytes × Octets 16) : Prop :=
  ∃ stage, s.requests[i]? = some stage ∧ stage.wrote = some x

variable {bcrypt : Octets 16 → Bytes → Octets 60} {s : Setups}

/-- A step adds a request, or moves one on that is not answered with 201: it writes nothing new, or is a
`SetPINHash` that is carried out. -/
theorem step_moves (bcrypt : Octets 16 → Bytes → Octets 60) (s : Setups) (act : SetupAct) :
    (∃ stage : SetupStage, stage.wrote = none ∧ s.step bcrypt act = { s with requests := s.requests ++ [stage] }) ∨
      s.step bcrypt act = s ∨
      ∃ i old stage, s.requests[i]? = some old ∧ (∀ pin salt token, old ≠ .created pin salt token) ∧
        ((s.step bcrypt act = { s with requests := s.requests.set i stage } ∧
            (stage.wrote = none ∨ stage.wrote = old.wrote)) ∨
          ∃ pin salt, s.carriesOut act ∧ s.step bcrypt act = ⟨some (bcrypt salt pin).bytes, s.requests.set i stage⟩ ∧
            (stage.wrote = none ∨ stage.wrote = some (pin, salt))) := by
  cases act with
  | arrive body =>
    refine .inl ⟨_, ?_, rfl⟩
    repeat' split
    all_goals rfl
  | get i fails =>
    right
    simp only [step]
    unfold get
    split
    · next pin hi =>
      refine .inr ⟨i, _, _, hi, nofun, .inl ⟨rfl, .inl ?_⟩⟩
      unfold read
      repeat' split
      all_goals rfl
    · exact .inl rfl
  | generate i salt =>
    right
    simp only [step]
    unfold generate
    split
    · next pin hi =>
      refine .inr ⟨i, _, _, hi, nofun, .inl ⟨rfl, .inl ?_⟩⟩
      cases salt <;> rfl
    · exact .inl rfl
  | set i o =>
    right
    simp only [step]
    unfold set
    split
    · next pin salt hi =>
      cases o with
      | ok =>
        have hout : s.carriesOut (.set i .ok) = true := by simp [carriesOut, hi]
        exact .inr ⟨i, _, .stored pin salt, hi, nofun, .inr ⟨pin, salt, hout, rfl, .inr rfl⟩⟩
      | failed => exact .inr ⟨i, _, .answered 500, hi, nofun, .inl ⟨rfl, .inl rfl⟩⟩
      | unknown =>
        have hout : s.carriesOut (.set i .unknown) = true := by simp [carriesOut, hi]
        exact .inr ⟨i, _, .answered 500, hi, nofun, .inr ⟨pin, salt, hout, rfl, .inl rfl⟩⟩
    · exact .inl rfl
  | issue i draw =>
    right
    simp only [step]
    unfold issue
    split
    · next pin salt hi =>
      refine .inr ⟨i, _, _, hi, nofun, .inl ⟨rfl, ?_⟩⟩
      cases draw with
      | none => exact .inl rfl
      | some draw => exact .inr rfl
    · exact .inl rfl

/-- What is written once a setup has moved on: what its stage says, or what was before. -/
theorem writes_set {i : Nat} {stage : SetupStage} {pinHash : Option Bytes} {j : Nat} {x : Bytes × Octets 16}
    (h : Writes ⟨pinHash, s.requests.set i stage⟩ j x) : (j = i ∧ stage.wrote = some x) ∨ s.Writes j x := by
  obtain ⟨stage', hj, hx⟩ := h
  by_cases hji : i = j
  · subst hji
    have hlt : i < s.requests.length := by simpa using (List.getElem?_eq_some_iff.1 hj).1
    rw [List.getElem?_set_self hlt] at hj
    cases hj
    exact .inl ⟨rfl, hx⟩
  · rw [List.getElem?_set_ne hji] at hj
    exact .inr ⟨stage', hj, hx⟩

theorem writes_append {stage : SetupStage} (hstage : stage.wrote = none) {j : Nat} {x : Bytes × Octets 16}
    (h : Writes { s with requests := s.requests ++ [stage] } j x) : s.Writes j x := by
  obtain ⟨stage', hj, hx⟩ := h
  by_cases hlt : j < s.requests.length
  · exact ⟨stage', (List.getElem?_append_left hlt).symm.trans hj, hx⟩
  · have hmem := List.mem_of_getElem? ((List.getElem?_append_right (not_lt.1 hlt)).symm.trans hj)
    rw [List.mem_singleton.1 hmem, hstage] at hx
    cases hx

/-- A step leaves the stored hash and what was written, or is a `SetPINHash` that is carried out. -/
theorem step_cases (s : Setups) (act : SetupAct) :
    ((s.step bcrypt act).pinHash = s.pinHash ∧ ∀ j x, (s.step bcrypt act).Writes j x → s.Writes j x) ∨
      ∃ i pin salt, s.carriesOut act ∧ (s.step bcrypt act).pinHash = some (bcrypt salt pin).bytes ∧
        ∀ j x, (s.step bcrypt act).Writes j x → (j = i ∧ x = (pin, salt)) ∨ s.Writes j x := by
  rcases step_moves bcrypt s act with ⟨stage, hstage, heq⟩ | heq | ⟨i, old, stage, hi, -, hmove⟩
  · rw [heq]
    exact .inl ⟨rfl, fun j x => writes_append hstage⟩
  · rw [heq]
    exact .inl ⟨rfl, fun _ _ h => h⟩
  · rcases hmove with ⟨heq, hstage⟩ | ⟨pin, salt, hout, heq, hstage⟩
    · rw [heq]
      refine .inl ⟨rfl, fun j x h => ?_⟩
      rcases writes_set h with ⟨rfl, hx⟩ | h
      · rcases hstage with hnone | hold
        · rw [hnone] at hx
          cases hx
        · exact ⟨old, hi, hold.symm.trans hx⟩
      · exact h
    · rw [heq]
      refine .inr ⟨i, pin, salt, hout, rfl, fun j x h => ?_⟩
      rcases writes_set h with ⟨rfl, hx⟩ | h
      · rcases hstage with hnone | hown
        · rw [hnone] at hx
          cases hx
        · exact .inl ⟨rfl, Option.some_inj.1 (hx.symm.trans hown)⟩
      · exact .inr h

/-- No step takes an answer back. -/
theorem created_step {i : Nat} {pin : Bytes} {salt : Octets 16} (h : s.Created i pin salt) (act : SetupAct) :
    (s.step bcrypt act).Created i pin salt := by
  obtain ⟨token, hi⟩ := h
  have hkept : ∀ {j : Nat} {old new : SetupStage}, s.requests[j]? = some old →
      (∀ pin salt token, old ≠ .created pin salt token) →
      (s.requests.set j new)[i]? = some (.created pin salt token) := by
    intro j old new hj hne
    rw [List.getElem?_set_ne, hi]
    rintro rfl
    exact hne pin salt token (Option.some_inj.1 (hj.symm.trans hi))
  refine ⟨token, ?_⟩
  rcases step_moves bcrypt s act with ⟨stage, -, heq⟩ | heq | ⟨j, old, stage, hj, hne, hmove⟩
  · rw [heq]
    exact (List.getElem?_append_left (List.getElem?_eq_some_iff.1 hi).1).trans hi
  · rw [heq]
    exact hi
  · rcases hmove with ⟨heq, -⟩ | ⟨_, _, -, heq, -⟩
    · rw [heq]
      exact hkept hj hne
    · rw [heq]
      exact hkept hj hne

theorem created_run {i : Nat} {pin : Bytes} {salt : Octets 16} (acts : List SetupAct) (h : s.Created i pin salt) :
    (s.run bcrypt acts).Created i pin salt := by
  induction acts generalizing s with
  | nil => exact h
  | cons act acts ih => exact ih (created_step h act)

/-! ## Any interleaving -/

/-- What was written is what is stored, and one setup wrote it. -/
structure OneWriter (bcrypt : Octets 16 → Bytes → Octets 60) (s : Setups) : Prop where
  stored : ∀ i x, s.Writes i x → s.pinHash = some (bcrypt x.2 x.1).bytes
  sole : ∀ i j x y, s.Writes i x → s.Writes j y → i = j

theorem oneWriter_init (pinHash : Option Bytes) : (init pinHash).OneWriter bcrypt where
  stored := by
    rintro i x ⟨stage, hi, -⟩
    cases hi
  sole := by
    rintro i j x y ⟨stage, hi, -⟩
    cases hi

/-- While no hash is stored no setup has written one. -/
theorem OneWriter.not_writes (h : s.OneWriter bcrypt) (hunset : s.pinHash.getD [] = []) (i : Nat)
    (x : Bytes × Octets 16) : ¬ s.Writes i x := by
  intro hw
  rw [h.stored i x hw] at hunset
  have hlen := (bcrypt x.2 x.1).length_eq
  rw [show (bcrypt x.2 x.1).bytes = [] from hunset] at hlen
  cases hlen

theorem OneWriter.step (h : s.OneWriter bcrypt) {act : SetupAct} (hok : s.ActOk act) :
    (s.step bcrypt act).OneWriter bcrypt := by
  rcases step_cases s act with ⟨hrow, hwrites⟩ | ⟨i, pin, salt, hout, hrow, hwrites⟩
  · constructor
    · intro j x hj
      rw [hrow]
      exact h.stored j x (hwrites j x hj)
    · intro j k x y hj hk
      exact h.sole j k x y (hwrites j x hj) (hwrites k y hk)
  · -- the store found no hash, so this setup is the first to write
    have hnone := h.not_writes (hok hout)
    have hfirst : ∀ j x, (s.step bcrypt act).Writes j x → j = i ∧ x = (pin, salt) := by
      intro j x hj
      rcases hwrites j x hj with hx | hold
      · exact hx
      · exact absurd hold (hnone j x)
    constructor
    · intro j x hj
      obtain ⟨-, rfl⟩ := hfirst j x hj
      exact hrow
    · intro j k x y hj hk
      rw [(hfirst j x hj).1, (hfirst k y hk).1]

theorem Created.writes {i : Nat} {pin : Bytes} {salt : Octets 16} (h : s.Created i pin salt) :
    s.Writes i (pin, salt) := by
  obtain ⟨token, hi⟩ := h
  exact ⟨_, hi, rfl⟩

/-- In every interleaving of setups in which a hash is stored only while none is, one setup at most is answered with
201, and its PIN stays. -/
theorem soleSetup_run (bcrypt : Octets 16 → Bytes → Octets 60) (pinHash : Option Bytes) (acts : List SetupAct)
    (hok : AllSteps (step bcrypt) ActOk (init pinHash) acts) : (init pinHash).SoleSetup bcrypt acts := by
  rintro pre i pin salt - hi later hpre hlater
  have hone : ((init pinHash).run bcrypt later).OneWriter bcrypt :=
    foldl_invariant (fun s act (h : s.OneWriter bcrypt) hok => h.step hok) later (init pinHash)
      (oneWriter_init pinHash) (hok.of_isPrefix hlater)
  have hstill : ((init pinHash).run bcrypt later).Created i pin salt := by
    obtain ⟨rest, rfl⟩ := hpre
    unfold run at hi ⊢
    rw [List.foldl_append]
    exact created_run rest hi
  refine ⟨hone.stored i (pin, salt) hstill.writes, fun j pin' salt' hj => ?_⟩
  exact hone.sole j i _ _ hj.writes hstill.writes

/-- A PIN and its salt one after the other. -/
def saltedPin (salt : Octets 16) (pin : Bytes) : Octets 60 :=
  ⟨(salt.bytes ++ pin ++ zeroed 60).take 60, by simp; omega⟩

theorem zeroes32_length : (zeroed 32).length = 32 := rfl

/-- A setup that ends before the next one looks. -/
def oneThenOther : List SetupAct :=
  [.arrive (some (ascii "1234")), .get 0 false, .generate 0 (some ⟨zeroed 16, rfl⟩), .set 0 .ok,
    .issue 0 (some ⟨zeroed 32, zeroes32_length⟩), .arrive (some (ascii "9999")), .get 1 false]

theorem soleSetup_oneThenOther : (init none).SoleSetup saltedPin oneThenOther :=
  soleSetup_run saltedPin none oneThenOther (by decide)

/-- Two setups look before either stores. -/
def bothLook : List SetupAct :=
  [.arrive (some (ascii "1234")), .arrive (some (ascii "9999")), .get 0 false, .get 1 false,
    .generate 0 (some ⟨zeroed 16, rfl⟩), .generate 1 (some ⟨zeroed 16, rfl⟩), .set 0 .ok,
    .issue 0 (some ⟨zeroed 32, zeroes32_length⟩), .set 1 .ok, .issue 1 (some ⟨zeroed 32, zeroes32_length⟩)]

theorem soleSetup_bothLook_fails : ¬ (init none).SoleSetup saltedPin bothLook := by
  intro h
  obtain ⟨hrow, -⟩ := h (bothLook.take 8) 0 (ascii "1234") ⟨zeroed 16, rfl⟩ (List.take_prefix 8 bothLook)
    ⟨(zeroed 32).flatMap hexByte, by decide⟩ bothLook (List.take_prefix 8 bothLook) (List.prefix_refl _)
  exact absurd hrow (by decide)

end Setups

end KnIg.Backend
