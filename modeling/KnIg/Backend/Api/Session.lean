/-
The console's sessions. A token that is issued stands in a map with the end of its day; a request looks its token up,
reads the clock, and takes an ended token out of the map, in separate steps between which tokens are issued and other
requests go on. As long as no token is drawn twice, a request is let through exactly if its token had been issued when
it looked and its day had not ended when it read the clock, whatever ran in between.
-/
import KnIg.Backend.Api.Setup

namespace KnIg.Backend

open Lib

/-- A day in nanoseconds. -/
def sessionTTL : Nat := 24 * 60 * 60 * 1000000000

/-- Where `Authorize` stands with a token, how many tokens had been issued when it looked the token up, and when it read
the clock, or found that it need not. -/
inductive AuthorizeStage where
  | found (tok : Bytes) (seen : Nat) (exp : Option Nat)
  /-- before the token is taken out -/
  | expired (tok : Bytes) (seen decided : Nat)
  | answered (tok : Bytes) (seen decided : Nat) (authorized : Bool)
  /-- refused without a look -/
  | missing
deriving DecidableEq

inductive ConsoleAct where
  | tick (ns : Nat)
  | issue (draw : Octets 32)
  /-- a request with its Authorization header -/
  | arrive (header : Bytes)
  | readClock (i : Nat)
  | delete (i : Nat)

/-- The map of tokens, the clock and the requests, with the tokens issued so far and when. -/
structure ConsoleSessions where
  sessions : List (Bytes × Nat)
  now : Nat
  requests : List AuthorizeStage
  issued : List (Bytes × Nat)

def bearer : Bytes := ascii "Bearer "

/-- `hex.EncodeToString` of what was drawn -/
def sessionToken (draw : Octets 32) : Bytes := draw.bytes.flatMap hexByte

namespace ConsoleSessions

def init (now : Nat) : ConsoleSessions := ⟨[], now, [], []⟩

variable (s : ConsoleSessions)

def issue (draw : Octets 32) : ConsoleSessions :=
  let entry := (sessionToken draw, s.now + sessionTTL)
  { s with
    sessions := entry :: s.sessions.filter (·.1 ≠ entry.1)
    issued := s.issued ++ [(sessionToken draw, s.now)] }

/-- The header and the look at the map. -/
def arrive (header : Bytes) : ConsoleSessions :=
  let stage :=
    if bearer.isPrefixOf header then
      let tok := header.drop bearer.length
      .found tok s.issued.length (s.sessions.lookup tok)
    else .missing
  { s with requests := s.requests ++ [stage] }

def readClock (i : Nat) : ConsoleSessions :=
  match s.requests[i]? with
  | some (.found tok seen exp) =>
    let stage :=
      match exp with
      | none => .answered tok seen s.now false
      | some exp => if exp < s.now then .expired tok seen s.now else .answered tok seen s.now true
    { s with requests := s.requests.set i stage }
  | _ => s

def delete (i : Nat) : ConsoleSessions :=
  match s.requests[i]? with
  | some (.expired tok seen decided) =>
    { s with
      sessions := s.sessions.filter (·.1 ≠ tok)
      requests := s.requests.set i (.answered tok seen decided false) }
  | _ => s

def step : ConsoleAct → ConsoleSessions
  | .tick ns => { s with now := s.now + ns }
  | .issue draw => s.issue draw
  | .arrive header => s.arrive header
  | .readClock i => s.readClock i
  | .delete i => s.delete i

def run (acts : List ConsoleAct) : ConsoleSessions := acts.foldl step s

/-- No token is drawn that has been drawn before. -/
def Fresh (s : ConsoleSessions) : ConsoleAct → Prop
  | .issue draw => sessionToken draw ∉ s.issued.map Prod.fst
  | _ => True

/-! ## The map and the requests -/

/-- The token had been issued when it was looked up, and its day lasts at the time. -/
def Lasts (issued : List (Bytes × Nat)) (tok : Bytes) (seen time : Nat) : Prop :=
  ∃ t, (tok, t) ∈ issued.take seen ∧ time ≤ t + sessionTTL

/-- What a request knows is so. -/
def StageOk (issued : List (Bytes × Nat)) (now : Nat) : AuthorizeStage → Prop
  | .found tok seen exp => seen ≤ issued.length ∧
      match exp with
      | none => ¬ Lasts issued tok seen now
      | some exp => ∃ t, (tok, t) ∈ issued.take seen ∧ exp = t + sessionTTL
  | .expired tok seen decided => seen ≤ issued.length ∧ decided ≤ now ∧
      ∃ t, (tok, t) ∈ issued.take seen ∧ t + sessionTTL < decided
  | .answered tok seen decided authorized => seen ≤ issued.length ∧ (authorized = true ↔ Lasts issued tok seen decided)
  | .missing => True

/-- The map holds the tokens that were issued, but for those whose day has ended. -/
structure Kept (s : ConsoleSessions) : Prop where
  sound : ∀ tok exp, s.sessions.lookup tok = some exp → ∃ t, (tok, t) ∈ s.issued ∧ exp = t + sessionTTL
  complete : ∀ tok t, (tok, t) ∈ s.issued → s.sessions.lookup tok = some (t + sessionTTL) ∨ t + sessionTTL < s.now
  distinct : (s.issued.map Prod.fst).Nodup
  stages : ∀ stage ∈ s.requests, StageOk s.issued s.now stage

variable {s}

/-- A token is issued at one time. -/
theorem Kept.same (h : s.Kept) {tok : Bytes} {t t' : Nat} (ht : (tok, t) ∈ s.issued) (ht' : (tok, t') ∈ s.issued) :
    t = t' := by
  have := List.inj_on_of_nodup_map h.distinct ht ht' rfl
  exact congrArg Prod.snd this

theorem lookup_filter (l : List (Bytes × Nat)) (tok k : Bytes) :
    (l.filter (·.1 ≠ tok)).lookup k = if k = tok then none else l.lookup k := by
  induction l with
  | nil => simp
  | cons e l ih =>
    by_cases he : e.1 = tok
    · rw [List.filter_cons_of_neg (by simp [he]), ih, List.lookup_cons]
      by_cases hk : k = tok
      · simp [hk]
      · rw [if_neg hk, if_neg hk, beq_false_of_ne (he ▸ hk)]
    · rw [List.filter_cons_of_pos (by simp [he]), List.lookup_cons, List.lookup_cons, ih]
      by_cases hk : k = tok
      · rw [if_pos hk, if_pos hk, hk, beq_false_of_ne (Ne.symm he)]
      · rw [if_neg hk, if_neg hk]

namespace Kept

theorem init (now : Nat) : (ConsoleSessions.init now).Kept := by
  constructor <;> simp [ConsoleSessions.init]

/-- A token that is looked up was issued, or lasts no more. -/
theorem found (h : s.Kept) (tok : Bytes) :
    StageOk s.issued s.now (.found tok s.issued.length (s.sessions.lookup tok)) := by
  refine ⟨Nat.le_refl _, ?_⟩
  cases hlookup : s.sessions.lookup tok with
  | none =>
    rintro ⟨t, ht, hlast⟩
    rw [List.take_length] at ht
    rcases h.complete tok t ht with hmap | hended
    · rw [hlookup] at hmap
      cases hmap
    · omega
  | some exp =>
    rw [List.take_length]
    exact h.sound tok exp hlookup

end Kept

/-! ## Steps -/

/-- What a request knows stays so while time passes and tokens are issued. -/
theorem StageOk.mono {issued : List (Bytes × Nat)} {now now' : Nat} {stage : AuthorizeStage}
    (h : StageOk issued now stage) (hnow : now ≤ now') (more : List (Bytes × Nat)) :
    StageOk (issued ++ more) now' stage := by
  have htake : ∀ {seen}, seen ≤ issued.length → (issued ++ more).take seen = issued.take seen :=
    fun hseen => List.take_append_of_le_length hseen
  have hlen : ∀ {seen}, seen ≤ issued.length → seen ≤ (issued ++ more).length := by
    intro seen hseen
    rw [List.length_append]
    omega
  cases stage with
  | missing => trivial
  | found tok seen exp =>
    refine ⟨hlen h.1, ?_⟩
    cases exp with
    | none =>
      rintro ⟨t, ht, hlast⟩
      rw [htake h.1] at ht
      exact h.2 ⟨t, ht, Nat.le_trans hnow hlast⟩
    | some exp =>
      rw [htake h.1]
      exact h.2
  | expired tok seen decided =>
    obtain ⟨hseen, hdecided, hended⟩ := h
    refine ⟨hlen hseen, Nat.le_trans hdecided hnow, ?_⟩
    rw [htake hseen]
    exact hended
  | answered tok seen decided authorized =>
    refine ⟨hlen h.1, ?_⟩
    unfold Lasts
    rw [htake h.1]
    exact h.2

namespace Kept

theorem tick (h : s.Kept) (ns : Nat) : (s.step (.tick ns)).Kept where
  sound := h.sound
  complete tok t ht := (h.complete tok t ht).imp id fun hended => Nat.lt_of_lt_of_le hended (Nat.le_add_right _ _)
  distinct := h.distinct
  stages stage hstage := by
    have hok := (h.stages stage hstage).mono (Nat.le_add_right s.now ns) []
    rwa [List.append_nil] at hok

theorem issue (h : s.Kept) {draw : Octets 32} (hfresh : sessionToken draw ∉ s.issued.map Prod.fst) :
    (s.issue draw).Kept where
  sound tok exp hlookup := by
    show ∃ t, (tok, t) ∈ s.issued ++ [(sessionToken draw, s.now)] ∧ exp = t + sessionTTL
    have hmap : List.lookup tok ((sessionToken draw, s.now + sessionTTL) ::
        s.sessions.filter (·.1 ≠ sessionToken draw)) = some exp := hlookup
    rw [List.lookup_cons, lookup_filter] at hmap
    by_cases htok : tok = sessionToken draw
    · rw [htok, beq_self_eq_true] at hmap
      cases hmap
      exact ⟨s.now, by simp [htok], rfl⟩
    · rw [beq_false_of_ne htok, if_neg htok] at hmap
      obtain ⟨t, ht, hexp⟩ := h.sound tok exp hmap
      exact ⟨t, List.mem_append_left _ ht, hexp⟩
  complete tok t ht := by
    show List.lookup tok ((sessionToken draw, s.now + sessionTTL) ::
      s.sessions.filter (·.1 ≠ sessionToken draw)) = some (t + sessionTTL) ∨ t + sessionTTL < s.now
    rw [List.lookup_cons, lookup_filter]
    rcases List.mem_append.1 ht with ht | ht
    · have htok : tok ≠ sessionToken draw := by
        rintro rfl
        exact hfresh (List.mem_map.2 ⟨_, ht, rfl⟩)
      rw [beq_false_of_ne htok, if_neg htok]
      exact h.complete tok t ht
    · cases List.mem_singleton.1 ht
      rw [beq_self_eq_true]
      exact Or.inl rfl
  distinct := by
    show ((s.issued ++ [(sessionToken draw, s.now)]).map Prod.fst).Nodup
    rw [List.map_append, List.nodup_append]
    refine ⟨h.distinct, by simp, fun a ha b hb => ?_⟩
    rintro rfl
    rw [List.map_singleton, List.mem_singleton] at hb
    rw [hb] at ha
    exact hfresh ha
  stages stage hstage := (h.stages stage hstage).mono (Nat.le_refl _) _

/-- A request that comes or goes on. -/
theorem answer (h : s.Kept) {requests : List AuthorizeStage}
    (hrequests : ∀ stage ∈ requests, StageOk s.issued s.now stage) : { s with requests := requests }.Kept :=
  ⟨h.sound, h.complete, h.distinct, hrequests⟩

theorem of_set (h : s.Kept) {i : Nat} {stage : AuthorizeStage} (hstage : StageOk s.issued s.now stage) :
    ∀ st ∈ s.requests.set i stage, StageOk s.issued s.now st := by
  intro st hst
  rcases List.mem_or_eq_of_mem_set hst with hst | rfl
  · exact h.stages st hst
  · exact hstage

theorem arrive (h : s.Kept) (header : Bytes) : (s.arrive header).Kept := by
  refine h.answer fun stage hstage => ?_
  rcases List.mem_append.1 hstage with hstage | hstage
  · exact h.stages stage hstage
  · rw [List.mem_singleton.1 hstage]
    split
    · exact h.found _
    · trivial

theorem readClock (h : s.Kept) (i : Nat) : (s.readClock i).Kept := by
  unfold ConsoleSessions.readClock
  split
  · rename_i tok seen exp hi
    obtain ⟨hseen, hfound⟩ := h.stages _ (List.mem_of_getElem? hi)
    refine h.answer (h.of_set ?_)
    cases exp with
    | none => exact ⟨hseen, iff_of_false (by simp) hfound⟩
    | some exp =>
      obtain ⟨t, ht, rfl⟩ := hfound
      dsimp only
      split
      · rename_i hended
        exact ⟨hseen, Nat.le_refl _, t, ht, hended⟩
      · rename_i hlast
        exact ⟨hseen, iff_of_true rfl ⟨t, ht, Nat.not_lt.1 hlast⟩⟩
  · exact h

theorem delete (h : s.Kept) (i : Nat) : (s.delete i).Kept := by
  unfold ConsoleSessions.delete
  split
  · rename_i tok seen decided hi
    obtain ⟨hseen, hdecided, t, ht, hended⟩ := h.stages _ (List.mem_of_getElem? hi)
    have hmem : (tok, t) ∈ s.issued := List.mem_of_mem_take ht
    refine ⟨fun k exp hlookup => ?_, fun k t' ht' => ?_, h.distinct, h.of_set ⟨hseen, iff_of_false (by simp) ?_⟩⟩
    · have hmap : (s.sessions.filter (·.1 ≠ tok)).lookup k = some exp := hlookup
      rw [lookup_filter] at hmap
      split at hmap
      · cases hmap
      · exact h.sound k exp hmap
    · show (s.sessions.filter (·.1 ≠ tok)).lookup k = _ ∨ _
      rw [lookup_filter]
      by_cases hk : k = tok
      · subst hk
        rw [h.same ht' hmem]
        exact Or.inr (Nat.lt_of_lt_of_le hended hdecided)
      · rw [if_neg hk]
        exact h.complete k t' ht'
    · rintro ⟨t', ht', hlast⟩
      rw [h.same (List.mem_of_mem_take ht') hmem] at hlast
      omega
  · exact h

theorem step (h : s.Kept) {act : ConsoleAct} (hfresh : Fresh s act) : (s.step act).Kept := by
  cases act with
  | tick ns => exact h.tick ns
  | issue draw => exact h.issue hfresh
  | arrive header => exact h.arrive header
  | readClock i => exact h.readClock i
  | delete i => exact h.delete i

end Kept

/-- A request that presents a token is let through exactly if the token had been issued when it was looked up and its
day lasted when the clock was read. -/
theorem authorized_iff (now : Nat) (acts : List ConsoleAct) (h : AllSteps step Fresh (init now) acts) (i : Nat)
    (tok : Bytes) (seen decided : Nat) (authorized : Bool)
    (hi : ((init now).run acts).requests[i]? = some (.answered tok seen decided authorized)) :
    authorized = true ↔
      ∃ t, (tok, t) ∈ ((init now).run acts).issued.take seen ∧ decided ≤ t + sessionTTL := by
  have hkept : ((init now).run acts).Kept :=
    foldl_invariant (fun s act hs hf => hs.step hf) acts _ (Kept.init now) h
  exact (hkept.stages _ (List.mem_of_getElem? hi)).2

def zeroDraw : Octets 32 := ⟨zeroed 32, Setups.zeroes32_length⟩

/-- Two requests with a token: one at the end of its day, one behind it. -/
def dayActs : List ConsoleAct :=
  [.issue zeroDraw, .arrive (bearer ++ sessionToken zeroDraw), .tick sessionTTL, .readClock 0, .tick 1,
    .arrive (bearer ++ sessionToken zeroDraw), .readClock 1, .delete 1]

theorem authorized_iff_day :
    (true = true ↔
      ∃ t, (sessionToken zeroDraw, t) ∈ ((init 0).run dayActs).issued.take 1 ∧ sessionTTL ≤ t + sessionTTL) ∧
    (false = true ↔
      ∃ t, (sessionToken zeroDraw, t) ∈ ((init 0).run dayActs).issued.take 1 ∧ sessionTTL + 1 ≤ t + sessionTTL) := by
  have h : AllSteps step Fresh (init 0) dayActs := by
    refine ⟨?_, trivial, trivial, trivial, trivial, trivial, trivial, trivial, trivial⟩
    simp [Fresh, init]
  exact ⟨authorized_iff 0 dayActs h 0 _ _ _ _ (by decide), authorized_iff 0 dayActs h 1 _ _ _ _ (by decide)⟩

end ConsoleSessions

end KnIg.Backend
