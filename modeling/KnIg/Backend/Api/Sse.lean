/-
The publisher of the event stream. A Publish ranges over the subscribers' channels under the read lock and offers its
event to each without waiting; Subscribe and Unsubscribe change the map under the write lock, and Unsubscribe closes
the channel that it took out. Every goroutine goes on step by step and the clients receive at any time, so the
invariants tie the map, the lock and the channels together wherever the goroutines stand, and a history of what was
called, offered, received and published says what each subscriber gets.
-/
import KnIg.Lib.Run
import Mathlib.Logic.Function.Basic

namespace KnIg.Backend

open Lib

/-! ## Channels -/

/-- A buffered channel. -/
structure Channel (E : Type) where
  buf : List E
  closed : Bool

/-- `make(chan, n)`; the room is with the send. -/
def Channel.make {E : Type} : Channel E := ⟨[], false⟩

inductive TrySend (E : Type) where
  /-- a send on a closed channel -/
  | panics
  /-- the `default` of the `select` -/
  | full
  | sent (c : Channel E)

namespace Channel

variable {E : Type} (c : Channel E)

def trySend (cap : Nat) (event : E) : TrySend E :=
  if c.closed then .panics
  else if c.buf.length < cap then .sent { c with buf := c.buf ++ [event] }
  else .full

/-- `none` is the panic of a second close. -/
def close : Option (Channel E) := if c.closed then none else some { c with closed := true }

end Channel

/-! ## The publisher -/

def sseBuffer : Nat := 100

/-- Where a goroutine stands. -/
inductive PublisherAt (E : Type) where
  | idle
  /-- in Publish, before `RLock` -/
  | publishing (call : Nat) (event : E)
  /-- in the loop over the clients, with those that are done -/
  | ranging (call : Nat) (event : E) (seen : List Nat)
  /-- the loop has come to a client, before the `select` -/
  | sending (call : Nat) (event : E) (seen : List Nat) (ch : Nat)
  /-- in Subscribe, before `Lock` -/
  | subscribing
  | adding
  /-- in Unsubscribe, before `Lock` -/
  | unsubscribing (ch : Nat)
  | searching (ch : Nat)
  /-- the channel is out of the map -/
  | closing (ch : Nat)
  /-- before `Unlock` -/
  | unlocking

namespace PublisherAt

variable {E : Type}

def isIdle : PublisherAt E → Bool
  | idle => true
  | _ => false

/-- It holds the read lock. -/
def reads : PublisherAt E → Bool
  | ranging _ _ _ | sending _ _ _ _ => true
  | _ => false

/-- It holds the write lock. -/
def writes : PublisherAt E → Bool
  | adding | searching _ | closing _ | unlocking => true
  | _ => false

/-- The Publish it is in, with its event and the clients that are done. -/
def progress : PublisherAt E → Option (Nat × E × List Nat)
  | publishing call event => some (call, event, [])
  | ranging call event seen | sending call event seen _ => some (call, event, seen)
  | _ => none

end PublisherAt

/-- What happened: the calls of Publish, by number, up to the end of their locked section, the offers with whether
the channel took them, the changes of the map, and the receives. -/
inductive Note (E : Type) where
  | called (call : Nat) (event : E)
  | offered (call ch : Nat) (event : E) (taken : Bool)
  | published (call : Nat)
  | subscribed (ch : Nat)
  | unsubscribed (ch : Nat)
  | received (ch : Nat) (event : E)
deriving DecidableEq

/-- The Publish that a note is about. -/
def Note.call {E : Type} : Note E → Option Nat
  | .called call _ | .offered call _ _ _ | .published call => some call
  | .subscribed _ | .unsubscribed _ | .received _ _ => none

/-- `SSEPublisher`, its channels, the goroutines that call it and the history. A channel is numbered when it is put
into the map: before, only the Subscribe that made it knows it. -/
structure SSEPublisher (E : Type) where
  clients : List Nat
  channel : Nat → Channel E
  made : Nat
  readers : List Nat
  writer : Option Nat
  goroutine : Nat → PublisherAt E
  calls : Nat
  panicked : Bool
  history : List (Note E)

inductive PublisherAct (E : Type) where
  | publish (g : Nat) (event : E)
  | subscribe (g : Nat)
  | unsubscribe (g ch : Nat)
  /-- the next step of a call -/
  | advance (g : Nat)
  /-- the loop of a Publish comes to a client, in any order -/
  | next (g ch : Nat)
  | receive (ch : Nat)

namespace SSEPublisher

variable {E : Type} (s : SSEPublisher E)

def newSSEPublisher : SSEPublisher E := ⟨[], fun _ => .make, 0, [], none, fun _ => .idle, 0, false, []⟩

def stand (g : Nat) (p : PublisherAt E) : SSEPublisher E := { s with goroutine := Function.update s.goroutine g p }

def begin (g : Nat) (p : PublisherAt E) : SSEPublisher E := if (s.goroutine g).isIdle then s.stand g p else s

def publish (g : Nat) (event : E) : SSEPublisher E :=
  if (s.goroutine g).isIdle then
    { s.stand g (.publishing s.calls event) with
      calls := s.calls + 1, history := s.history ++ [.called s.calls event] }
  else s

/-- `RLock`, if no goroutine writes. -/
def rlock (g : Nat) (p : PublisherAt E) : SSEPublisher E :=
  if s.writer = none then { s.stand g p with readers := g :: s.readers } else s

/-- `Lock`, if no goroutine reads or writes. -/
def lock (g : Nat) (p : PublisherAt E) : SSEPublisher E :=
  if s.writer = none ∧ s.readers = [] then { s.stand g p with writer := some g } else s

def runlock (g call : Nat) : SSEPublisher E :=
  { s.stand g .idle with readers := s.readers.filter (· ≠ g), history := s.history ++ [.published call] }

def insert (g : Nat) : SSEPublisher E :=
  { s.stand g .unlocking with
    clients := s.clients ++ [s.made], channel := Function.update s.channel s.made .make, made := s.made + 1,
    history := s.history ++ [.subscribed s.made] }

def delete (g ch : Nat) : SSEPublisher E :=
  { s.stand g (.closing ch) with
    clients := s.clients.filter (· ≠ ch), history := s.history ++ [.unsubscribed ch] }

def close (g ch : Nat) : SSEPublisher E :=
  match (s.channel ch).close with
  | none => { s with panicked := true }
  | some c => { s.stand g .unlocking with channel := Function.update s.channel ch c }

/-- The `select` of a Publish. -/
def send (g call : Nat) (event : E) (seen : List Nat) (ch : Nat) : SSEPublisher E :=
  match (s.channel ch).trySend sseBuffer event with
  | .panics => { s with panicked := true }
  | .full =>
    { s.stand g (.ranging call event (ch :: seen)) with history := s.history ++ [.offered call ch event false] }
  | .sent c =>
    { s.stand g (.ranging call event (ch :: seen)) with
      channel := Function.update s.channel ch c, history := s.history ++ [.offered call ch event true] }

def advance (g : Nat) : SSEPublisher E :=
  match s.goroutine g with
  | .idle => s
  | .publishing call event => s.rlock g (.ranging call event [])
  | .ranging call _ seen => if ∀ ch ∈ s.clients, ch ∈ seen then s.runlock g call else s
  | .sending call event seen ch => s.send g call event seen ch
  | .subscribing => s.lock g .adding
  | .adding => s.insert g
  | .unsubscribing ch => s.lock g (.searching ch)
  | .searching ch => if ch ∈ s.clients then s.delete g ch else s.stand g .unlocking
  | .closing ch => s.close g ch
  | .unlocking => { s.stand g .idle with writer := none }

def next (g ch : Nat) : SSEPublisher E :=
  match s.goroutine g with
  | .ranging call event seen => if ch ∈ s.clients ∧ ch ∉ seen then s.stand g (.sending call event seen ch) else s
  | _ => s

/-- A client receives; from an empty channel there is no event. -/
def receive (ch : Nat) : SSEPublisher E :=
  match (s.channel ch).buf with
  | [] => s
  | event :: buf =>
    { s with
      channel := Function.update s.channel ch { s.channel ch with buf }
      history := s.history ++ [.received ch event] }

def step : PublisherAct E → SSEPublisher E
  | .publish g event => s.publish g event
  | .subscribe g => s.begin g .subscribing
  | .unsubscribe g ch => s.begin g (.unsubscribing ch)
  | .advance g => s.advance g
  | .next g ch => s.next g ch
  | .receive ch => s.receive ch

def run (acts : List (PublisherAct E)) : SSEPublisher E := acts.foldl step newSSEPublisher

end SSEPublisher

/-! ## The lock -/

/-- The goroutines that read and the one that writes stand where the lock is held, and exclude each other. -/
structure Locked {E : Type} (readers : List Nat) (writer : Option Nat) (goroutine : Nat → PublisherAt E) : Prop where
  reads : ∀ g, g ∈ readers ↔ (goroutine g).reads = true
  writes : ∀ g, writer = some g ↔ (goroutine g).writes = true
  exclusive : writer = none ∨ readers = []

namespace Locked

variable {E : Type} {readers : List Nat} {writer : Option Nat} {goroutine : Nat → PublisherAt E} {g : Nat}
  {p : PublisherAt E}

theorem of_stand (h : Locked readers writer goroutine) (hr : p.reads = (goroutine g).reads)
    (hw : p.writes = (goroutine g).writes) : Locked readers writer (Function.update goroutine g p) where
  reads g' := by
    rw [Function.update_apply, h.reads]
    split
    · next heq => rw [hr, heq]
    · rfl
  writes g' := by
    rw [Function.update_apply, h.writes]
    split
    · next heq => rw [hw, heq]
    · rfl
  exclusive := h.exclusive

theorem rlock (h : Locked readers writer goroutine) (hfree : writer = none) (hr : p.reads = true)
    (hw : p.writes = false) : Locked (g :: readers) writer (Function.update goroutine g p) where
  reads g' := by
    rw [List.mem_cons, Function.update_apply, h.reads]
    split
    · next heq => simp [heq, hr]
    · next hne => simp [hne]
  writes g' := by
    rw [Function.update_apply]
    split
    · simp [hfree, hw]
    · exact h.writes g'
  exclusive := .inl hfree

theorem runlock (h : Locked readers writer goroutine) (hg : (goroutine g).reads = true) :
    Locked (readers.filter (· ≠ g)) writer (Function.update goroutine g .idle) where
  reads g' := by
    rw [List.mem_filter, Function.update_apply, h.reads]
    split
    · next heq => simp [heq, PublisherAt.reads]
    · next hne => simp [hne]
  writes g' := by
    rw [Function.update_apply]
    split
    · next heq =>
      rw [heq, h.writes]
      cases hat : goroutine g <;> simp_all [PublisherAt.reads, PublisherAt.writes]
    · exact h.writes g'
  exclusive := h.exclusive.imp_right fun hnil => by rw [hnil]; rfl

theorem lock (h : Locked readers writer goroutine) (hfree : writer = none) (hnone : readers = [])
    (hr : p.reads = false) (hw : p.writes = true) : Locked readers (some g) (Function.update goroutine g p) where
  reads g' := by
    rw [Function.update_apply]
    split
    · simp [hnone, hr]
    · exact h.reads g'
  writes g' := by
    rw [Function.update_apply]
    split
    · next heq => simp [heq, hw]
    · next hne =>
      rw [← h.writes, hfree]
      simp [Ne.symm hne]
  exclusive := .inr hnone

theorem unlock (h : Locked readers writer goroutine) (hg : (goroutine g).writes = true) :
    Locked readers none (Function.update goroutine g .idle) where
  reads g' := by
    rw [Function.update_apply]
    split
    · next heq =>
      rw [heq, h.reads]
      cases hat : goroutine g <;> simp_all [PublisherAt.reads, PublisherAt.writes]
    · exact h.reads g'
  writes g' := by
    rw [Function.update_apply]
    split
    · simp [PublisherAt.writes]
    · next hne =>
      have hholds := (h.writes g).2 hg
      rw [← h.writes, hholds]
      simp [Ne.symm hne]
  exclusive := .inl rfl

/-- Only one goroutine holds the write lock. -/
theorem writer_unique (h : Locked readers writer goroutine) {g' : Nat} (hg : (goroutine g).writes = true)
    (hg' : (goroutine g').writes = true) : g = g' :=
  Option.some.inj (((h.writes g).2 hg).symm.trans ((h.writes g').2 hg'))

/-- While a goroutine reads, none writes. -/
theorem not_writes (h : Locked readers writer goroutine) (g' : Nat) (hg : (goroutine g).reads = true) :
    (goroutine g').writes = false := by
  rcases h.exclusive with hnone | hnil
  · rw [← Bool.not_eq_true, ← h.writes, hnone]
    simp
  · have hmem := (h.reads g).2 hg
    rw [hnil] at hmem
    cases hmem

end Locked

/-! ## The map and the channels -/

namespace SSEPublisher

variable {E : Type}

/-- What a step does, if it does anything. -/
inductive Move (s : SSEPublisher E) : SSEPublisher E → Prop where
  | publish (g : Nat) (event : E) (hat : s.goroutine g = .idle) :
      Move s { s.stand g (.publishing s.calls event) with
        calls := s.calls + 1, history := s.history ++ [.called s.calls event] }
  | begin (g : Nat) (p : PublisherAt E) (hat : s.goroutine g = .idle)
      (hp : p = .subscribing ∨ ∃ ch, p = .unsubscribing ch) : Move s (s.stand g p)
  | rlock (g call : Nat) (event : E) (hat : s.goroutine g = .publishing call event) (hfree : s.writer = none) :
      Move s { s.stand g (.ranging call event []) with readers := g :: s.readers }
  | next (g call : Nat) (event : E) (seen : List Nat) (ch : Nat) (hat : s.goroutine g = .ranging call event seen)
      (hch : ch ∈ s.clients) (hnew : ch ∉ seen) : Move s (s.stand g (.sending call event seen ch))
  | send (g call : Nat) (event : E) (seen : List Nat) (ch : Nat) (hat : s.goroutine g = .sending call event seen ch) :
      Move s (s.send g call event seen ch)
  | runlock (g call : Nat) (event : E) (seen : List Nat) (hat : s.goroutine g = .ranging call event seen)
      (hall : ∀ ch ∈ s.clients, ch ∈ seen) : Move s (s.runlock g call)
  | lock (g : Nat) (p : PublisherAt E)
      (hat : s.goroutine g = .subscribing ∧ p = .adding ∨
        ∃ ch, s.goroutine g = .unsubscribing ch ∧ p = .searching ch)
      (hfree : s.writer = none) (hnone : s.readers = []) : Move s { s.stand g p with writer := some g }
  | insert (g : Nat) (hat : s.goroutine g = .adding) : Move s (s.insert g)
  | delete (g ch : Nat) (hat : s.goroutine g = .searching ch) (hch : ch ∈ s.clients) : Move s (s.delete g ch)
  | missing (g ch : Nat) (hat : s.goroutine g = .searching ch) : Move s (s.stand g .unlocking)
  | close (g ch : Nat) (hat : s.goroutine g = .closing ch) : Move s (s.close g ch)
  | unlock (g : Nat) (hat : s.goroutine g = .unlocking) : Move s { s.stand g .idle with writer := none }
  | receive (ch : Nat) (event : E) (buf : List E) (hbuf : (s.channel ch).buf = event :: buf) :
      Move s { s with
        channel := Function.update s.channel ch { s.channel ch with buf }
        history := s.history ++ [.received ch event] }

theorem eq_idle {p : PublisherAt E} (h : p.isIdle = true) : p = .idle := by
  cases p <;> simp_all [PublisherAt.isIdle]

theorem step_moves (s : SSEPublisher E) (a : PublisherAct E) : s.step a = s ∨ Move s (s.step a) := by
  cases a with
  | publish g event =>
    simp only [step, publish]
    split
    · next h => exact .inr (.publish g event (eq_idle h))
    · exact .inl rfl
  | subscribe g =>
    simp only [step, begin]
    split
    · next h => exact .inr (.begin g _ (eq_idle h) (.inl rfl))
    · exact .inl rfl
  | unsubscribe g ch =>
    simp only [step, begin]
    split
    · next h => exact .inr (.begin g _ (eq_idle h) (.inr ⟨ch, rfl⟩))
    · exact .inl rfl
  | advance g =>
    simp only [step, advance]
    cases hat : s.goroutine g with
    | idle => exact .inl rfl
    | publishing call event =>
      simp only [rlock]
      split
      · next h => exact .inr (.rlock g call event hat h)
      · exact .inl rfl
    | ranging call event seen =>
      dsimp only
      split
      · next h => exact .inr (.runlock g call event seen hat h)
      · exact .inl rfl
    | sending call event seen ch => exact .inr (.send g call event seen ch hat)
    | subscribing =>
      simp only [lock]
      split
      · next h => exact .inr (.lock g _ (.inl ⟨hat, rfl⟩) h.1 h.2)
      · exact .inl rfl
    | adding => exact .inr (.insert g hat)
    | unsubscribing ch =>
      simp only [lock]
      split
      · next h => exact .inr (.lock g _ (.inr ⟨ch, hat, rfl⟩) h.1 h.2)
      · exact .inl rfl
    | searching ch =>
      dsimp only
      split
      · next h => exact .inr (.delete g ch hat h)
      · exact .inr (.missing g ch hat)
    | closing ch => exact .inr (.close g ch hat)
    | unlocking => exact .inr (.unlock g hat)
  | next g ch =>
    simp only [step, next]
    cases hat : s.goroutine g with
    | ranging call event seen =>
      dsimp only
      split
      · next h => exact .inr (.next g call event seen ch hat h.1 h.2)
      · exact .inl rfl
    | _ => exact .inl rfl
  | receive ch =>
    simp only [step, receive]
    cases hbuf : (s.channel ch).buf with
    | nil => exact .inl rfl
    | cons event buf => exact .inr (.receive ch event buf hbuf)

/-- The clients' channels are open, and so is one that is about to be closed; a Publish sends to clients only. -/
structure Safe (s : SSEPublisher E) : Prop where
  locked : Locked s.readers s.writer s.goroutine
  clients : ∀ ch ∈ s.clients, ch < s.made ∧ (s.channel ch).closed = false
  sending : ∀ g call event seen ch, s.goroutine g = .sending call event seen ch → ch ∈ s.clients ∧ ch ∉ seen
  closing : ∀ g ch, s.goroutine g = .closing ch → ch < s.made ∧ ch ∉ s.clients ∧ (s.channel ch).closed = false
  running : s.panicked = false
  unmade : ∀ ch, s.made ≤ ch → s.channel ch = .make

namespace Safe

variable {s s' : SSEPublisher E}

theorem init : (newSSEPublisher : SSEPublisher E).Safe where
  locked := ⟨fun g => by simp [newSSEPublisher, PublisherAt.reads],
    fun g => by simp [newSSEPublisher, PublisherAt.writes], .inl rfl⟩
  clients := by simp [newSSEPublisher]
  sending := by simp [newSSEPublisher]
  closing := by simp [newSSEPublisher]
  running := rfl
  unmade := fun _ _ => rfl

/-- A step of one goroutine that leaves the map and the channels, and neither comes to a client nor takes one out. -/
theorem of_stand (h : s.Safe) {g : Nat} {p : PublisherAt E} {readers : List Nat} {writer : Option Nat} {calls : Nat}
    {history : List (Note E)} (hl : Locked readers writer (Function.update s.goroutine g p))
    (hsending : ∀ call event seen ch, p = .sending call event seen ch → ch ∈ s.clients ∧ ch ∉ seen)
    (hclosing : ∀ ch, p ≠ .closing ch) :
    Safe { s.stand g p with readers, writer, calls, history } where
  locked := hl
  clients := h.clients
  sending g' call event seen ch hat := by
    simp only [stand, Function.update_apply] at hat
    split at hat
    · exact hsending call event seen ch hat
    · exact h.sending g' call event seen ch hat
  closing g' ch hat := by
    simp only [stand, Function.update_apply] at hat
    split at hat
    · exact absurd hat (hclosing ch)
    · exact h.closing g' ch hat
  running := h.running
  unmade := h.unmade

/-- A channel that stays open may be read from and written to. -/
theorem of_channel (h : s.Safe) {ch : Nat} {c : Channel E} (hch : ch < s.made)
    (hc : c.closed = (s.channel ch).closed) (history : List (Note E)) :
    Safe { s with channel := Function.update s.channel ch c, history } where
  locked := h.locked
  clients ch' hmem := by
    refine ⟨(h.clients ch' hmem).1, ?_⟩
    show (Function.update s.channel ch c ch').closed = false
    rw [Function.update_apply]
    split
    · next heq => rw [hc, ← heq, (h.clients ch' hmem).2]
    · exact (h.clients ch' hmem).2
  sending := h.sending
  closing g ch' hat := by
    obtain ⟨hmade, hnot, hopen⟩ := h.closing g ch' hat
    refine ⟨hmade, hnot, ?_⟩
    show (Function.update s.channel ch c ch').closed = false
    rw [Function.update_apply]
    split
    · next heq => rw [hc, ← heq, hopen]
    · exact hopen
  running := h.running
  unmade ch' hle := by
    have hne : ch' ≠ ch := Nat.ne_of_gt (Nat.lt_of_lt_of_le hch hle)
    exact (Function.update_of_ne hne _ _).trans (h.unmade ch' hle)

theorem receive (h : s.Safe) {ch : Nat} {event : E} {buf : List E} (hbuf : (s.channel ch).buf = event :: buf)
    (history : List (Note E)) :
    Safe { s with channel := Function.update s.channel ch { s.channel ch with buf }, history } := by
  refine h.of_channel (c := { s.channel ch with buf }) ?_ rfl history
  by_contra hle
  rw [h.unmade ch (Nat.le_of_not_lt hle)] at hbuf
  cases hbuf

/-- The select finds the channel open. -/
theorem trySend (h : s.Safe) {g call : Nat} {event : E} {seen : List Nat} {ch : Nat}
    (hat : s.goroutine g = .sending call event seen ch) :
    (s.channel ch).trySend sseBuffer event =
      if (s.channel ch).buf.length < sseBuffer then .sent { s.channel ch with buf := (s.channel ch).buf ++ [event] }
      else .full := by
  obtain ⟨-, hopen⟩ := h.clients ch (h.sending g call event seen ch hat).1
  simp only [Channel.trySend, hopen, Bool.false_eq_true, if_false]

theorem send (h : s.Safe) {g call : Nat} {event : E} {seen : List Nat} {ch : Nat}
    (hat : s.goroutine g = .sending call event seen ch) : (s.send g call event seen ch).Safe := by
  have hlocked : Locked s.readers s.writer (Function.update s.goroutine g (.ranging call event (ch :: seen))) :=
    h.locked.of_stand (by rw [hat]; rfl) (by rw [hat]; rfl)
  rw [SSEPublisher.send, h.trySend hat]
  split
  · next heq => split at heq <;> cases heq
  · exact h.of_stand hlocked nofun nofun
  · next c heq =>
    split at heq
    · cases heq
      have hmade := (h.clients ch (h.sending g call event seen ch hat).1).1
      have htaken := h.of_channel (c := { s.channel ch with buf := (s.channel ch).buf ++ [event] })
        hmade rfl s.history
      exact htaken.of_stand hlocked nofun nofun
    · cases heq

theorem insert (h : s.Safe) {g : Nat} (hat : s.goroutine g = .adding) : (s.insert g).Safe where
  locked := h.locked.of_stand (by rw [hat]; rfl) (by rw [hat]; rfl)
  clients ch hmem := by
    simp only [SSEPublisher.insert, stand, List.mem_append, List.mem_singleton, Function.update_apply] at hmem ⊢
    rcases hmem with hmem | rfl
    · have hlt := (h.clients ch hmem).1
      rw [if_neg (Nat.ne_of_lt hlt)]
      exact ⟨by omega, (h.clients ch hmem).2⟩
    · rw [if_pos rfl]
      exact ⟨Nat.lt_succ_self _, rfl⟩
  sending g' call event seen ch hat' := by
    simp only [SSEPublisher.insert, stand, Function.update_apply] at hat' ⊢
    split at hat'
    · cases hat'
    · obtain ⟨hmem, hnew⟩ := h.sending g' call event seen ch hat'
      exact ⟨List.mem_append_left _ hmem, hnew⟩
  closing g' ch hat' := by
    simp only [SSEPublisher.insert, stand, Function.update_apply] at hat' ⊢
    split at hat'
    · cases hat'
    · obtain ⟨hlt, hnot, hopen⟩ := h.closing g' ch hat'
      rw [if_neg (Nat.ne_of_lt hlt)]
      refine ⟨by omega, fun hmem => ?_, hopen⟩
      rcases List.mem_append.1 hmem with hmem | hmem
      · exact hnot hmem
      · exact absurd (List.mem_singleton.1 hmem) (Nat.ne_of_lt hlt)
  running := h.running
  unmade ch hle := by
    simp only [SSEPublisher.insert, stand] at hle ⊢
    rw [Function.update_of_ne (Nat.ne_of_gt (by omega))]
    exact h.unmade ch (by omega)

/-- No Publish is at a client while a channel is taken out of the map. -/
theorem delete (h : s.Safe) {g ch : Nat} (hat : s.goroutine g = .searching ch) (hch : ch ∈ s.clients) :
    (s.delete g ch).Safe where
  locked := h.locked.of_stand (by rw [hat]; rfl) (by rw [hat]; rfl)
  clients ch' hmem := h.clients ch' (List.mem_of_mem_filter hmem)
  sending g' call event seen ch' hat' := by
    simp only [SSEPublisher.delete, stand, Function.update_apply] at hat'
    split at hat'
    · cases hat'
    · have hreads : (s.goroutine g').reads = true := by rw [hat']; rfl
      have hwrites := h.locked.not_writes g hreads
      rw [hat] at hwrites
      cases hwrites
  closing g' ch' hat' := by
    simp only [SSEPublisher.delete, stand, Function.update_apply] at hat'
    split at hat'
    · cases hat'
      exact ⟨(h.clients ch hch).1, by simp [SSEPublisher.delete], (h.clients ch hch).2⟩
    · obtain ⟨hlt, hnot, hopen⟩ := h.closing g' ch' hat'
      exact ⟨hlt, fun hmem => hnot (List.mem_of_mem_filter hmem), hopen⟩
  running := h.running
  unmade := h.unmade

theorem close_eq (h : s.Safe) {g ch : Nat} (hat : s.goroutine g = .closing ch) :
    s.close g ch =
      { s.stand g .unlocking with channel := Function.update s.channel ch { s.channel ch with closed := true } } := by
  obtain ⟨-, -, hopen⟩ := h.closing g ch hat
  rw [SSEPublisher.close, Channel.close, hopen]
  rfl

/-- The channel that is closed is open and no client's, and no other goroutine is to close it. -/
theorem close (h : s.Safe) {g ch : Nat} (hat : s.goroutine g = .closing ch) : (s.close g ch).Safe := by
  obtain ⟨hlt, hnot, hopen⟩ := h.closing g ch hat
  rw [h.close_eq hat]
  exact
    { locked := h.locked.of_stand (by rw [hat]; rfl) (by rw [hat]; rfl)
      clients := fun ch' hmem => by
        have hne : ch' ≠ ch := fun heq => hnot (heq ▸ hmem)
        have hopen' := (h.clients ch' hmem).2
        exact ⟨(h.clients ch' hmem).1, (congrArg Channel.closed (Function.update_of_ne hne _ _)).trans hopen'⟩
      sending := fun g' call event seen ch' hat' => by
        simp only [stand, Function.update_apply] at hat'
        split at hat'
        · cases hat'
        · exact h.sending g' call event seen ch' hat'
      closing := fun g' ch' hat' => by
        simp only [stand, Function.update_apply] at hat'
        split at hat'
        · cases hat'
        · next hne =>
          have heq : g' = g := h.locked.writer_unique (by rw [hat']; rfl) (by rw [hat]; rfl)
          exact absurd heq hne
      running := h.running
      unmade := fun ch' hle => by
        have hne : ch' ≠ ch := Nat.ne_of_gt (Nat.lt_of_lt_of_le hlt hle)
        exact (Function.update_of_ne hne _ _).trans (h.unmade ch' hle) }

theorem move (h : s.Safe) (hm : Move s s') : s'.Safe := by
  cases hm with
  | publish g event hat => exact h.of_stand (h.locked.of_stand (by rw [hat]; rfl) (by rw [hat]; rfl)) nofun nofun
  | begin g p hat hp =>
    rcases hp with rfl | ⟨ch, rfl⟩ <;>
      exact h.of_stand (h.locked.of_stand (by rw [hat]; rfl) (by rw [hat]; rfl)) nofun nofun
  | rlock g call event hat hfree => exact h.of_stand (h.locked.rlock hfree rfl rfl) nofun nofun
  | next g call event seen ch hat hch hnew =>
    refine h.of_stand (h.locked.of_stand (by rw [hat]; rfl) (by rw [hat]; rfl)) ?_ nofun
    rintro call' event' seen' ch' ⟨⟩
    exact ⟨hch, hnew⟩
  | send g call event seen ch hat => exact h.send hat
  | runlock g call event seen hat hall => exact h.of_stand (h.locked.runlock (by rw [hat]; rfl)) nofun nofun
  | lock g p hat hfree hnone =>
    rcases hat with ⟨-, rfl⟩ | ⟨ch, -, rfl⟩ <;> exact h.of_stand (h.locked.lock hfree hnone rfl rfl) nofun nofun
  | insert g hat => exact h.insert hat
  | delete g ch hat hch => exact h.delete hat hch
  | missing g ch hat => exact h.of_stand (h.locked.of_stand (by rw [hat]; rfl) (by rw [hat]; rfl)) nofun nofun
  | close g ch hat => exact h.close hat
  | unlock g hat => exact h.of_stand (h.locked.unlock (by rw [hat]; rfl)) nofun nofun
  | receive ch event buf hbuf => exact h.receive hbuf _

end Safe

end SSEPublisher

end KnIg.Backend
