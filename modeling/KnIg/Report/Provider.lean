/-
The providers of the language model. They are tried in the order of the settings: one without a key, or unknown, or
without an answer is passed over, and one whose call raises is called once more. The text of the first answer is the
patch, where it can be read as an object; a stream of tokens comes from the first provider that has a token. Which
provider that is, and what the ones before it did.
-/
import KnIg.Report.Assemble

namespace KnIg.Report

open Lib Lib.Text

/-! ## The settings -/

/-- The environment variables that the providers read. -/
structure ProviderEnv where
  providerOrder : Option Str
  geminiApiKey : Option Str
  openaiApiKey : Option Str

namespace ProviderEnv

variable (env : ProviderEnv)

def order (rt : Runtime) : List Str :=
  ((((env.providerOrder.getD (txt "gemini,openai")).splitOn 44).map strip).filter (· ≠ [])).map rt.lower

/-- The key of a provider that has one, which is a text that is not empty. -/
def key (name : Str) : Option Str :=
  if name = txt "gemini" then env.geminiApiKey.filter (· ≠ [])
  else if name = txt "openai" then env.openaiApiKey.filter (· ≠ [])
  else none

def configured (rt : Runtime) : List Str := (env.order rt).filter fun name => (env.key name).isSome

def available (rt : Runtime) : Bool := env.configured rt ≠ []

end ProviderEnv

/-! ## The patch -/

/-- What the SDK of a provider does when it is called: it raises, or it has a text or none. It has none where it is not
installed. -/
inductive Reply where
  | raises
  | text (t : Option Str)

/-- `_gemini` and `_openai`: `none` for a raised exception. -/
def callProvider (env : ProviderEnv) (name : Str) (reply : Reply) : Option (Option Str) :=
  match env.key name with
  | none => some none
  | some _ =>
    match reply with
    | .raises => none
    | .text t => some ((t.map strip).filter (· ≠ []))

/-- `_RETRIES` -/
def retries : Nat := 1

/-- The calls of one provider. -/
def attempts (env : ProviderEnv) (name : Str) : List Reply → Option Str
  | [] => none
  | reply :: replies =>
    match callProvider env name reply with
    -- no text, and no call that could bring one
    | some text => text
    | none => attempts env name replies

/-- The replies to the calls of `generate`: the provider's place in the order, and the attempt. -/
abbrev Replies := Nat → Nat → Reply

/-- `generate`, from a place in the order on. An unknown name has no key. -/
def generateFrom (env : ProviderEnv) (replies : Replies) : Nat → List Str → Option Str
  | _, [] => none
  | i, name :: names =>
    match attempts env name ((List.range (retries + 1)).map (replies i)) with
    | some text => some text
    | none => generateFrom env replies (i + 1) names

def generate (rt : Runtime) (env : ProviderEnv) (replies : Replies) : Option Str :=
  generateFrom env replies 0 (env.order rt)

inductive LoadError where
  | jsonDecodeError
  /-- nested too deep, or a number too long -/
  | other

/-- The text inside a fence, if it is in one. -/
def unfence (text : Str) : Str :=
  if startsWith text "```" = true ∧ endsWith text "```" = true ∧ 6 ≤ text.length then
    let inner := (text.drop 3).take (text.length - 6)
    strip (if startsWith inner "json" then inner.drop 4 else inner)
  else text

/-- The object of a value, if it is one. -/
def asDict : PyVal → Option (List (Str × PyVal))
  | .dict kvs => some kvs
  | _ => none

/-- `_extract_json`: an error is what is not caught. -/
def extractJson (loads : Str → Except LoadError PyVal) (text : Str) :
    Except LoadError (Option (List (Str × PyVal))) :=
  let text := unfence (strip text)
  match loads text with
  | .ok v => .ok (asDict v)
  | .error .other => .error .other
  | .error .jsonDecodeError =>
    let inner := text.dropWhile (· ≠ 123)
    let braced := (inner.reverse.dropWhile (· ≠ 125)).reverse
    -- both braces, the one behind the other; what stands between them is read as an object
    if braced ≠ [] then
      match loads braced with
      | .ok v => .ok (asDict v)
      | .error .other => .error .other
      | .error .jsonDecodeError => .ok none
    else .ok none

/-- `narrative.generate` -/
def narrate (rt : Runtime) (env : ProviderEnv) (replies : Replies) (loads : Str → Except LoadError PyVal) :
    Except LoadError (Option (List (Str × PyVal))) :=
  if env.available rt then
    match generate rt env replies with
    | none => .ok none
    | some raw => extractJson loads raw
  else .ok none

/-! ## The tokens -/

/-- What the stream of a provider does: the call raises, the SDK is not installed, or there are chunks of text, with an
exception behind them or not. -/
inductive StreamReply where
  | raises
  | absent
  | chunks (texts : List Str) (fails : Bool)

/-- `generate_stream`, from a place in the order on: the tokens, and whether an exception ends them. -/
def streamFrom (env : ProviderEnv) (replies : Nat → StreamReply) : Nat → List Str → List Str × Bool
  | _, [] => ([], false)
  | i, name :: names =>
    match env.key name with
    | none => streamFrom env replies (i + 1) names
    | some _ =>
      match replies i with
      | .absent => streamFrom env replies (i + 1) names
      -- the call stands outside of the `try`
      | .raises => ([], true)
      | .chunks texts fails =>
        match texts.filter (· ≠ []) with
        | [] => streamFrom env replies (i + 1) names
        | token :: tokens => (token :: tokens, fails)

def generateStream (rt : Runtime) (env : ProviderEnv) (replies : Nat → StreamReply) : List Str × Bool :=
  streamFrom env replies 0 (env.order rt)

/-! ## Which provider it is -/

/-- What a provider's two calls bring. -/
theorem attempts_eq_some {env : ProviderEnv} {name : Str} {first second : Reply} {t : Str} :
    attempts env name [first, second] = some t ↔
      callProvider env name first = some (some t) ∨
        callProvider env name first = none ∧ callProvider env name second = some (some t) := by
  unfold attempts attempts attempts
  cases hfirst : callProvider env name first with
  | some text => simp
  | none =>
    cases hsecond : callProvider env name second with
    | some text => simp
    | none => simp

/-- The two calls of the provider at a place in the order. -/
def answer (env : ProviderEnv) (replies : Replies) (place : Str × Nat) : Option Str :=
  attempts env place.1 [replies place.2 0, replies place.2 1]

theorem generateFrom_eq (env : ProviderEnv) (replies : Replies) (names : List Str) : ∀ i,
    generateFrom env replies i names = (names.zipIdx i).findSome? (answer env replies) := by
  induction names with
  | nil => exact fun _ => rfl
  | cons name names ih =>
    intro i
    have hanswer : attempts env name ((List.range (retries + 1)).map (replies i)) = answer env replies (name, i) := rfl
    rw [generateFrom, hanswer, List.zipIdx_cons, List.findSome?_cons]
    cases answer env replies (name, i) with
    | some text => rfl
    | none => exact ih (i + 1)

/-- What a provider makes of the stream, unless it is passed over. -/
def speech (env : ProviderEnv) (name : Str) (reply : StreamReply) : Option (List Str × Bool) :=
  match env.key name, reply with
  | some _, .raises => some ([], true)
  | some _, .chunks texts fails => some (texts.filter (· ≠ []), fails) |>.filter (·.1 ≠ [])
  | _, _ => none

theorem streamFrom_eq (env : ProviderEnv) (replies : Nat → StreamReply) (names : List Str) : ∀ i,
    streamFrom env replies i names =
      ((names.zipIdx i).findSome? fun p => speech env p.1 (replies p.2)).getD ([], false) := by
  induction names with
  | nil => exact fun _ => rfl
  | cons name names ih =>
    intro i
    rw [streamFrom, List.zipIdx_cons, List.findSome?_cons]
    unfold speech
    dsimp only
    cases env.key name with
    | none => exact ih (i + 1)
    | some key =>
      cases replies i with
      | raises => rfl
      | absent => exact ih (i + 1)
      | chunks texts fails =>
        dsimp only
        cases htexts : texts.filter (· ≠ []) with
        | nil => exact ih (i + 1)
        | cons token tokens => rfl

/-- A provider that has no key or is not installed, or that ends or fails before its first token. -/
def PassedOver (env : ProviderEnv) (name : Str) (reply : StreamReply) : Prop :=
  env.key name = none ∨ reply = .absent ∨ ∃ texts fails, reply = .chunks texts fails ∧ ∀ t ∈ texts, t = []

theorem speech_eq_none {env : ProviderEnv} {name : Str} {reply : StreamReply} :
    speech env name reply = none ↔ PassedOver env name reply := by
  unfold speech PassedOver
  cases env.key name with
  | none => simp
  | some key => cases reply <;> simp

theorem speech_eq_some {env : ProviderEnv} {name : Str} {reply : StreamReply} {out : List Str × Bool} :
    speech env name reply = some out ↔
      (env.key name).isSome ∧ (reply = .raises ∧ out = ([], true) ∨
        ∃ texts fails, reply = .chunks texts fails ∧ (∃ t ∈ texts, t ≠ []) ∧ out = (texts.filter (· ≠ []), fails)) := by
  unfold speech
  cases env.key name with
  | none => simp
  | some key =>
    cases reply with
    | chunks texts fails =>
      rw [Option.filter_eq_some_iff]
      constructor
      · rintro ⟨hout, hne⟩
        cases hout
        refine ⟨rfl, Or.inr ⟨texts, fails, rfl, ?_, rfl⟩⟩
        simpa [List.filter_eq_nil_iff] using hne
      · rintro ⟨-, ⟨hreply, -⟩ | ⟨texts', fails', hreply, hsome, rfl⟩⟩
        · cases hreply
        · cases hreply
          exact ⟨rfl, by simpa [List.filter_eq_nil_iff] using hsome⟩
    | _ => simp [eq_comm]

/-- The text is that of the first provider in the order that answers, at its first call or, where that raises, at its
second; the ones before it have no key, or no text, or raise twice. -/
theorem generate_first (rt : Runtime) (env : ProviderEnv) (replies : Replies) (t : Str) :
    generate rt env replies = some t ↔
      ∃ before name i after, (env.order rt).zipIdx = before ++ (name, i) :: after ∧
        (callProvider env name (replies i 0) = some (some t) ∨
          callProvider env name (replies i 0) = none ∧ callProvider env name (replies i 1) = some (some t)) ∧
        ∀ n j, (n, j) ∈ before → ∀ text, callProvider env n (replies j 0) ≠ some (some text) ∧
          (callProvider env n (replies j 0) = none → callProvider env n (replies j 1) ≠ some (some text)) := by
  have hnone : ∀ n j, answer env replies (n, j) = none ↔
      ∀ text, callProvider env n (replies j 0) ≠ some (some text) ∧
        (callProvider env n (replies j 0) = none → callProvider env n (replies j 1) ≠ some (some text)) := by
    intro n j
    rw [Option.eq_none_iff_forall_ne_some]
    refine forall_congr' fun text => ?_
    rw [Ne, answer, attempts_eq_some, not_or, not_and]
  rw [generate, generateFrom_eq, List.findSome?_eq_some_iff]
  constructor
  · rintro ⟨before, ⟨name, i⟩, after, horder, hat, hbefore⟩
    exact ⟨before, name, i, after, horder, attempts_eq_some.1 hat, fun n j hp => (hnone n j).1 (hbefore (n, j) hp)⟩
  · rintro ⟨before, name, i, after, horder, hat, hbefore⟩
    exact ⟨before, (name, i), after, horder, attempts_eq_some.2 hat, fun p hp => (hnone p.1 p.2).2 (hbefore p.1 p.2 hp)⟩

/-- The tokens are those of the first provider in the order that has a key and a token, up to where it ends or fails;
but a provider whose call raises ends the stream, whatever the ones behind it have. -/
theorem tokens_first (rt : Runtime) (env : ProviderEnv) (replies : Nat → StreamReply) :
    (∃ before name i after, (env.order rt).zipIdx = before ++ (name, i) :: after ∧ (env.key name).isSome ∧
      (replies i = .raises ∧ generateStream rt env replies = ([], true) ∨
        ∃ texts fails, replies i = .chunks texts fails ∧ (∃ t ∈ texts, t ≠ []) ∧
          generateStream rt env replies = (texts.filter (· ≠ []), fails)) ∧
      ∀ n j, (n, j) ∈ before → PassedOver env n (replies j)) ∨
    generateStream rt env replies = ([], false) ∧
      ∀ n j, (n, j) ∈ (env.order rt).zipIdx → PassedOver env n (replies j) := by
  rw [generateStream, streamFrom_eq]
  cases hfirst : (env.order rt).zipIdx.findSome? fun p => speech env p.1 (replies p.2) with
  | none => exact Or.inr ⟨rfl, fun n j hp => speech_eq_none.1 (List.findSome?_eq_none_iff.1 hfirst (n, j) hp)⟩
  | some out =>
    obtain ⟨before, ⟨name, i⟩, after, horder, hat, hbefore⟩ := List.findSome?_eq_some_iff.1 hfirst
    obtain ⟨hkey, hout⟩ := speech_eq_some.1 hat
    exact Or.inl ⟨before, name, i, after, horder, hkey, hout, fun n j hp => speech_eq_none.1 (hbefore (n, j) hp)⟩

end KnIg.Report
