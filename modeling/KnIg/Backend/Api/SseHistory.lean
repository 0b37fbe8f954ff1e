/-
What the subscribers of the event stream get, over every interleaving: the history agrees with the map, the buffers
and the calls under way, so a channel takes each event offered to it once, unless its buffer is full, and every
Publish offers its event to all that are subscribed while it holds the lock. Two calls of Publish that overlap may
offer their events to two subscribers in different orders; of two that do not, the earlier one's comes first.
-/
import KnIg.Backend.Api.Sse
import Mathlib.Data.List.Induction

namespace KnIg.Backend

open Lib

/-! ## What a subscriber gets -/

section History

variable {E : Type}

/-- The events that the channel took, in their order. -/
def takenBy (ch : Nat) (history : List (Note E)) : List E :=
  history.filterMap fun
    | .offered _ c event true => if c = ch then some event else none
    | _ => none

/-- The events that the channel was offered, in their order. -/
def offeredTo (ch : Nat) (history : List (Note E)) : List E :=
  history.filterMap fun
    | .offered _ c event _ => if c = ch then some event else none
    | _ => none

/-- The events received from the channel, in their order. -/
def receivedBy (ch : Nat) (history : List (Note E)) : List E :=
  history.filterMap fun
    | .received c event => if c = ch then some event else none
    | _ => none

/-- The channel is in the map after the history. -/
def SubscribedIn (history : List (Note E)) (ch : Nat) : Prop :=
  .subscribed ch ∈ history ∧ .unsubscribed ch ∉ history

/-- The Publish has offered its event to the channel. -/
def OfferedIn (history : List (Note E)) (call ch : Nat) : Prop :=
  ∃ event taken, .offered call ch event taken ∈ history

/-- The event of an offer is the one of its Publish, which is under way, is offered to a subscriber for the first time,
and is not taken only if the channel holds a full buffer of events. -/
structure OfferOk (before : List (Note E)) (call ch : Nat) (event : E) (taken : Bool) : Prop where
  subscribed : SubscribedIn before ch
  called : .called call event ∈ before
  underWay : .published call ∉ before
  first : ¬ OfferedIn before call ch
  full : taken = false → (takenBy ch before).length = (receivedBy ch before).length + sseBuffer

/-- A note goes with those before it. -/
def NoteOk (before : List (Note E)) : Note E → Prop
  | .called call _ => ∀ event, .called call event ∉ before
  | .offered call ch event taken => OfferOk before call ch event taken
  | .published call => ∀ ch, SubscribedIn before ch → OfferedIn before call ch
  | .subscribed _ | .unsubscribed _ | .received _ _ => True

end History

/-! ## The history -/

section History

variable {E : Type} {history : List (Note E)} {note : Note E} {call ch : Nat}

theorem takenBy_snoc : takenBy ch (history ++ [note]) = takenBy ch history ++ takenBy ch [note] :=
  List.filterMap_append ..

theorem receivedBy_snoc : receivedBy ch (history ++ [note]) = receivedBy ch history ++ receivedBy ch [note] :=
  List.filterMap_append ..

theorem takenBy_sublist (ch : Nat) (history : List (Note E)) :
    (takenBy ch history).Sublist (offeredTo ch history) := by
  induction history using List.reverseRecOn with
  | nil => exact List.nil_sublist _
  | append_singleton history note ih =>
    rw [takenBy_snoc, show offeredTo ch (history ++ [note]) = offeredTo ch history ++ offeredTo ch [note] from
      List.filterMap_append ..]
    refine ih.append ?_
    cases note with
    | offered call c event taken => cases taken <;> by_cases hc : c = ch <;> simp [takenBy, offeredTo, hc]
    | _ => exact List.nil_sublist _

theorem offeredIn_snoc :
    OfferedIn (history ++ [note]) call ch ↔
      OfferedIn history call ch ∨ ∃ event taken, note = .offered call ch event taken := by
  unfold OfferedIn
  constructor
  · rintro ⟨event, taken, hmem⟩
    rcases List.mem_append.1 hmem with hmem | hmem
    · exact .inl ⟨event, taken, hmem⟩
    · exact .inr ⟨event, taken, (List.mem_singleton.1 hmem).symm⟩
  · rintro (⟨event, taken, hmem⟩ | ⟨event, taken, rfl⟩)
    · exact ⟨event, taken, List.mem_append_left _ hmem⟩
    · exact ⟨event, taken, by simp⟩

theorem each_snoc (h : EachAfter NoteOk [] history) (hnote : NoteOk history note) :
    EachAfter NoteOk [] (history ++ [note]) := by
  rw [eachAfter_append, eachAfter_cons]
  exact ⟨h, hnote, eachAfter_nil⟩

/-- A Publish that was called and has not ended, with the clients that it has offered its event to. -/
structure UnderWay (history : List (Note E)) (call : Nat) (event : E) (seen : List Nat) : Prop where
  called : .called call event ∈ history
  unpublished : .published call ∉ history
  offered : ∀ ch, OfferedIn history call ch ↔ ch ∈ seen

/-- A note about something else. -/
theorem UnderWay.snoc {event : E} {seen : List Nat} (h : UnderWay history call event seen)
    (hnote : note.call ≠ some call) : UnderWay (history ++ [note]) call event seen where
  called := List.mem_append_left _ h.called
  unpublished hmem := by
    rcases List.mem_append.1 hmem with hmem | hmem
    · exact h.unpublished hmem
    · rw [← List.mem_singleton.1 hmem] at hnote
      exact hnote rfl
  offered ch := by
    rw [offeredIn_snoc, h.offered, or_iff_left]
    rintro ⟨event', taken, rfl⟩
    exact hnote rfl

/-- The map has the channels that were subscribed and not unsubscribed. -/
structure Mapped (clients : List Nat) (made : Nat) (history : List (Note E)) : Prop where
  subscribed : ∀ ch, SubscribedIn history ch ↔ ch ∈ clients
  unmade : ∀ ch, made ≤ ch → .subscribed ch ∉ history ∧ .unsubscribed ch ∉ history

theorem Mapped.snoc {clients : List Nat} {made : Nat} (h : Mapped clients made history)
    (hnote : ∀ ch, .subscribed ch ≠ note ∧ .unsubscribed ch ≠ note) : Mapped clients made (history ++ [note]) where
  subscribed ch := by
    rw [← h.subscribed]
    simp [SubscribedIn, (hnote ch).1, (hnote ch).2]
  unmade ch hle := by simpa [(hnote ch).1, (hnote ch).2] using h.unmade ch hle

theorem Mapped.offered {clients : List Nat} {made : Nat} (h : Mapped clients made history) (call ch : Nat) (event : E)
    (taken : Bool) : Mapped clients made (history ++ [.offered call ch event taken]) :=
  h.snoc fun _ => ⟨nofun, nofun⟩

theorem Mapped.insert {clients : List Nat} {made : Nat} (h : Mapped clients made history) :
    Mapped (clients ++ [made]) (made + 1) (history ++ [.subscribed made]) where
  subscribed ch := by
    have hold := h.subscribed ch
    obtain ⟨-, hnot⟩ := h.unmade made (Nat.le_refl _)
    simp only [SubscribedIn, List.mem_append, List.mem_singleton, Note.subscribed.injEq, reduceCtorEq,
      or_false] at hold ⊢
    by_cases heq : ch = made
    · simp [heq, hnot]
    · simp [heq, hold]
  unmade ch hle := by
    have hne : ch ≠ made := Nat.ne_of_gt hle
    simpa [hne] using h.unmade ch (Nat.le_of_succ_le hle)

theorem Mapped.delete {clients : List Nat} {made : Nat} (h : Mapped clients made history) (hlt : ch < made) :
    Mapped (clients.filter (· ≠ ch)) made (history ++ [.unsubscribed ch]) where
  subscribed ch' := by
    have hold := h.subscribed ch'
    simp only [SubscribedIn, List.mem_append, List.mem_singleton, Note.unsubscribed.injEq, reduceCtorEq, or_false,
      List.mem_filter, decide_eq_true_eq] at hold ⊢
    rw [← hold, not_or, and_assoc]
  unmade ch' hle := by
    have hne : ch' ≠ ch := Nat.ne_of_gt (Nat.lt_of_lt_of_le hlt hle)
    simpa [hne] using h.unmade ch' hle

/-- A channel holds what it took and what was not received of it. -/
def Buffered (channel : Nat → Channel E) (history : List (Note E)) : Prop :=
  ∀ ch, takenBy ch history = receivedBy ch history ++ (channel ch).buf

theorem Buffered.snoc {channel : Nat → Channel E} (h : Buffered channel history)
    (htaken : ∀ ch, takenBy ch [note] = []) (hreceived : ∀ ch, receivedBy ch [note] = []) :
    Buffered channel (history ++ [note]) := by
  intro ch
  rw [takenBy_snoc, receivedBy_snoc, htaken, hreceived, List.append_nil, List.append_nil, h]

theorem Buffered.take {channel : Nat → Channel E} (h : Buffered channel history) {c : Channel E} (event : E)
    (hbuf : c.buf = (channel ch).buf ++ [event]) :
    Buffered (Function.update channel ch c) (history ++ [.offered call ch event true]) := by
  intro ch'
  rw [takenBy_snoc, receivedBy_snoc, h, Function.update_apply]
  by_cases heq : ch = ch'
  · subst heq
    simp [takenBy, receivedBy, hbuf]
  · simp [takenBy, receivedBy, heq, Ne.symm heq]

theorem Buffered.receive {channel : Nat → Channel E} (h : Buffered channel history) {c : Channel E} {event : E}
    (hbuf : (channel ch).buf = event :: c.buf) :
    Buffered (Function.update channel ch c) (history ++ [.received ch event]) := by
  intro ch'
  rw [takenBy_snoc, receivedBy_snoc, h, Function.update_apply]
  by_cases heq : ch = ch'
  · subst heq
    simp [takenBy, receivedBy, hbuf]
  · simp [takenBy, receivedBy, heq, Ne.symm heq]

/-- The calls under way, one for each goroutine in a Publish. -/
structure CallsOf (calls : Nat) (goroutine : Nat → PublisherAt E) (history : List (Note E)) : Prop where
  numbered : ∀ note ∈ history, ∀ call ∈ note.call, call < calls
  current : ∀ g call event seen, (goroutine g).progress = some (call, event, seen) →
    call < calls ∧ UnderWay history call event seen
  own : ∀ g g' call x x', (goroutine g).progress = some (call, x) → (goroutine g').progress = some (call, x') → g = g'

namespace CallsOf

variable {calls g : Nat} {goroutine : Nat → PublisherAt E} {p : PublisherAt E}

/-- The other goroutines are where they were. -/
theorem progress_of_update (hp : p.progress = none ∨ p.progress = (goroutine g).progress) {g' : Nat}
    {x : Nat × E × List Nat} (h : (Function.update goroutine g p g').progress = some x) :
    (goroutine g').progress = some x := by
  rw [Function.update_apply] at h
  split at h
  · next heq =>
    rcases hp with hnone | hsame
    · rw [hnone] at h
      cases h
    · rw [heq, ← hsame, h]
  · exact h

theorem stand (h : CallsOf calls goroutine history)
    (hp : p.progress = none ∨ p.progress = (goroutine g).progress) :
    CallsOf calls (Function.update goroutine g p) history where
  numbered := h.numbered
  current g' call event seen hg := h.current g' call event seen (progress_of_update hp hg)
  own g₁ g₂ call x x' h₁ h₂ := h.own g₁ g₂ call x x' (progress_of_update hp h₁) (progress_of_update hp h₂)

/-- A note about no Publish. -/
theorem snoc (h : CallsOf calls goroutine history) (hnote : note.call = none) :
    CallsOf calls goroutine (history ++ [note]) where
  numbered note' hmem call hcall := by
    rcases List.mem_append.1 hmem with hmem | hmem
    · exact h.numbered note' hmem call hcall
    · rw [List.mem_singleton.1 hmem, hnote] at hcall
      cases hcall
  current g call event seen hg := by
    obtain ⟨hlt, hway⟩ := h.current g call event seen hg
    exact ⟨hlt, hway.snoc (by rw [hnote]; simp)⟩
  own := h.own

theorem publish (h : CallsOf calls goroutine history) (event : E) :
    CallsOf (calls + 1) (Function.update goroutine g (.publishing calls event))
      (history ++ [.called calls event]) where
  numbered note hmem call hcall := by
    rcases List.mem_append.1 hmem with hmem | hmem
    · exact Nat.lt_succ_of_lt (h.numbered note hmem call hcall)
    · rw [List.mem_singleton.1 hmem] at hcall
      cases hcall
      exact Nat.lt_succ_self _
  current g' call event' seen hg := by
    rw [Function.update_apply] at hg
    split at hg
    · cases hg
      refine ⟨Nat.lt_succ_self _, by simp, fun hmem => ?_, fun ch => ?_⟩
      · have hold : .published calls ∈ history := by simpa using hmem
        exact Nat.lt_irrefl _ (h.numbered _ hold calls rfl)
      · rw [offeredIn_snoc]
        refine iff_of_false ?_ (List.not_mem_nil)
        rintro (⟨event', taken, hmem⟩ | ⟨event', taken, ⟨⟩⟩)
        exact Nat.lt_irrefl _ (h.numbered _ hmem calls rfl)
    · obtain ⟨hlt, hway⟩ := h.current g' call event' seen hg
      exact ⟨Nat.lt_succ_of_lt hlt, hway.snoc fun heq => Nat.ne_of_gt hlt (Option.some.inj heq)⟩
  own g₁ g₂ call x x' h₁ h₂ := by
    rw [Function.update_apply] at h₁ h₂
    split at h₁ <;> split at h₂
    · next heq₁ heq₂ => rw [heq₁, heq₂]
    · cases h₁
      exact absurd (h.current g₂ calls x'.1 x'.2 h₂).1 (Nat.lt_irrefl _)
    · cases h₂
      exact absurd (h.current g₁ calls x.1 x.2 h₁).1 (Nat.lt_irrefl _)
    · exact h.own g₁ g₂ call x x' h₁ h₂

variable {event : E} {seen : List Nat}

/-- A note about a goroutine's own Publish does not concern the others. -/
theorem current_of_ne (h : CallsOf calls goroutine history) (hat : (goroutine g).progress = some (call, event, seen))
    (hnote : note.call = some call) {g' call' : Nat} {event' : E} {seen' : List Nat} (hne : g' ≠ g)
    (hg : (goroutine g').progress = some (call', event', seen')) :
    call' < calls ∧ UnderWay (history ++ [note]) call' event' seen' := by
  obtain ⟨hlt, hway⟩ := h.current g' call' event' seen' hg
  refine ⟨hlt, hway.snoc fun heq => hne ?_⟩
  rw [hnote] at heq
  cases heq
  exact h.own g' g call _ _ hg hat

theorem numbered_snoc (h : CallsOf calls goroutine history) (hat : (goroutine g).progress = some (call, event, seen))
    (hnote : note.call = some call) : ∀ note' ∈ history ++ [note], ∀ call' ∈ note'.call, call' < calls := by
  intro note' hmem call' hcall
  rcases List.mem_append.1 hmem with hmem | hmem
  · exact h.numbered note' hmem call' hcall
  · rw [List.mem_singleton.1 hmem, hnote] at hcall
    cases hcall
    exact (h.current g call event seen hat).1

theorem offer (h : CallsOf calls goroutine history) (hat : (goroutine g).progress = some (call, event, seen))
    (ch : Nat) (taken : Bool) :
    CallsOf calls (Function.update goroutine g (.ranging call event (ch :: seen)))
      (history ++ [.offered call ch event taken]) where
  numbered := h.numbered_snoc hat rfl
  current g' call' event' seen' hg := by
    rw [Function.update_apply] at hg
    split at hg
    · cases hg
      obtain ⟨hlt, hway⟩ := h.current g call event seen hat
      refine ⟨hlt, List.mem_append_left _ hway.called, by simpa using hway.unpublished, fun ch' => ?_⟩
      rw [offeredIn_snoc, hway.offered, List.mem_cons, or_comm]
      simp [eq_comm]
    · next hne => exact h.current_of_ne hat rfl hne hg
  own g₁ g₂ call' x x' h₁ h₂ := by
    have hsame : ∀ {g' x}, (Function.update goroutine g (.ranging call event (ch :: seen)) g').progress =
        some (call', x) → ∃ y, (goroutine g').progress = some (call', y) := by
      intro g' x hg
      rw [Function.update_apply] at hg
      split at hg
      · next heq =>
        cases hg
        exact ⟨_, heq ▸ hat⟩
      · exact ⟨_, hg⟩
    obtain ⟨y, hy⟩ := hsame h₁
    obtain ⟨y', hy'⟩ := hsame h₂
    exact h.own g₁ g₂ call' y y' hy hy'

theorem published (h : CallsOf calls goroutine history) (hat : (goroutine g).progress = some (call, event, seen)) :
    CallsOf calls (Function.update goroutine g .idle) (history ++ [.published call]) where
  numbered := h.numbered_snoc hat rfl
  current g' call' event' seen' hg := by
    rw [Function.update_apply] at hg
    split at hg
    · cases hg
    · next hne => exact h.current_of_ne hat rfl hne hg
  own g₁ g₂ call' x x' h₁ h₂ :=
    h.own g₁ g₂ call' x x' (progress_of_update (.inl rfl) h₁) (progress_of_update (.inl rfl) h₂)

end CallsOf

end History

namespace SSEPublisher

variable {E : Type}

/-- The history agrees with the map, the buffers and the calls under way. -/
structure Recorded (s : SSEPublisher E) : Prop where
  mapped : Mapped s.clients s.made s.history
  buffered : Buffered s.channel s.history
  room : ∀ ch, (s.channel ch).buf.length ≤ sseBuffer
  calls : CallsOf s.calls s.goroutine s.history
  ok : EachAfter NoteOk [] s.history

namespace Recorded

variable {s s' : SSEPublisher E} {g : Nat}

theorem init : (newSSEPublisher : SSEPublisher E).Recorded where
  mapped := ⟨fun ch => by simp [newSSEPublisher, SubscribedIn], fun ch _ => by simp [newSSEPublisher]⟩
  buffered ch := rfl
  room ch := Nat.zero_le _
  calls := ⟨by simp [newSSEPublisher], nofun, nofun⟩
  ok := eachAfter_nil

/-- A step without a note. -/
theorem of_stand (h : s.Recorded) {p : PublisherAt E}
    (hp : p.progress = none ∨ p.progress = (s.goroutine g).progress) {readers : List Nat} {writer : Option Nat} :
    Recorded { s.stand g p with readers, writer } :=
  ⟨h.mapped, h.buffered, h.room, h.calls.stand hp, h.ok⟩

theorem runlock (h : s.Recorded) {call : Nat} {event : E} {seen : List Nat}
    (hat : s.goroutine g = .ranging call event seen) (hall : ∀ ch ∈ s.clients, ch ∈ seen) :
    (s.runlock g call).Recorded := by
  have hprogress : (s.goroutine g).progress = some (call, event, seen) := by rw [hat]; rfl
  obtain ⟨-, hway⟩ := h.calls.current g call event seen hprogress
  refine ⟨h.mapped.snoc fun _ => ⟨nofun, nofun⟩, h.buffered.snoc (fun _ => rfl) fun _ => rfl, h.room,
    h.calls.published hprogress, each_snoc h.ok fun ch hch => ?_⟩
  exact (hway.offered ch).2 (hall ch ((h.mapped.subscribed ch).1 hch))

theorem send (h : s.Recorded) (hsafe : s.Safe) {call : Nat} {event : E} {seen : List Nat} {ch : Nat}
    (hat : s.goroutine g = .sending call event seen ch) : (s.send g call event seen ch).Recorded := by
  have hprogress : (s.goroutine g).progress = some (call, event, seen) := by rw [hat]; rfl
  obtain ⟨-, hway⟩ := h.calls.current g call event seen hprogress
  obtain ⟨hclient, hnew⟩ := hsafe.sending g call event seen ch hat
  have hok : ∀ taken, (taken = false → (s.channel ch).buf.length = sseBuffer) →
      NoteOk s.history (.offered call ch event taken) := by
    intro taken hfull
    refine ⟨(h.mapped.subscribed ch).2 hclient, hway.called, hway.unpublished,
      fun hin => hnew ((hway.offered ch).1 hin), fun htaken => ?_⟩
    rw [h.buffered, List.length_append, hfull htaken]
  rw [SSEPublisher.send, hsafe.trySend hat]
  by_cases hroom : (s.channel ch).buf.length < sseBuffer
  · rw [if_pos hroom]
    refine ⟨h.mapped.offered .., h.buffered.take event rfl, fun ch' => ?_,
      h.calls.offer hprogress ch true, each_snoc h.ok (hok true fun h => by cases h)⟩
    show (Function.update s.channel ch _ ch').buf.length ≤ sseBuffer
    rw [Function.update_apply]
    split
    · simpa using Nat.succ_le_of_lt hroom
    · exact h.room ch'
  · rw [if_neg hroom]
    have hfull : (s.channel ch).buf.length = sseBuffer := Nat.le_antisymm (h.room ch) (Nat.le_of_not_lt hroom)
    exact ⟨h.mapped.offered .., h.buffered.snoc (fun _ => rfl) fun _ => rfl, h.room,
      h.calls.offer hprogress ch false, each_snoc h.ok (hok false fun _ => hfull)⟩

theorem insert (h : s.Recorded) (hsafe : s.Safe) : (s.insert g).Recorded := by
  have hmake : Function.update s.channel s.made .make = s.channel := by
    rw [← hsafe.unmade s.made (Nat.le_refl _), Function.update_eq_self]
  refine ⟨h.mapped.insert, ?_, ?_, (h.calls.snoc rfl).stand (.inl rfl), each_snoc h.ok trivial⟩
  · show Buffered (Function.update s.channel s.made .make) _
    rw [hmake]
    exact h.buffered.snoc (fun _ => rfl) fun _ => rfl
  · show ∀ ch, (Function.update s.channel s.made .make ch).buf.length ≤ sseBuffer
    rw [hmake]
    exact h.room

theorem receive (h : s.Recorded) {ch : Nat} {event : E} {buf : List E} (hbuf : (s.channel ch).buf = event :: buf) :
    Recorded { s with
      channel := Function.update s.channel ch { s.channel ch with buf }
      history := s.history ++ [.received ch event] } := by
  refine ⟨h.mapped.snoc fun _ => ⟨nofun, nofun⟩, h.buffered.receive hbuf, fun ch' => ?_, h.calls.snoc rfl,
    each_snoc h.ok trivial⟩
  show (Function.update s.channel ch _ ch').buf.length ≤ sseBuffer
  rw [Function.update_apply]
  split
  · have hroom := h.room ch
    rw [hbuf, List.length_cons] at hroom
    exact Nat.le_of_succ_le hroom
  · exact h.room ch'

theorem close (h : s.Recorded) (hsafe : s.Safe) {ch : Nat} (hat : s.goroutine g = .closing ch) :
    (s.close g ch).Recorded := by
  have hbuf : ∀ ch', (Function.update s.channel ch { s.channel ch with closed := true } ch').buf =
      (s.channel ch').buf := by
    intro ch'
    rw [Function.update_apply]
    split
    · next heq => rw [heq]
    · rfl
  rw [hsafe.close_eq hat]
  refine ⟨h.mapped, fun ch' => ?_, fun ch' => ?_, h.calls.stand (.inl rfl), h.ok⟩
  · rw [hbuf]
    exact h.buffered ch'
  · rw [hbuf]
    exact h.room ch'

theorem move (h : s.Recorded) (hsafe : s.Safe) (hm : Move s s') : s'.Recorded := by
  cases hm with
  | publish g event hat =>
    refine ⟨h.mapped.snoc fun _ => ⟨nofun, nofun⟩, h.buffered.snoc (fun _ => rfl) fun _ => rfl, h.room,
      h.calls.publish event, each_snoc h.ok fun event' hmem => ?_⟩
    exact Nat.lt_irrefl _ (h.calls.numbered _ hmem s.calls rfl)
  | begin g p hat hp => rcases hp with rfl | ⟨ch, rfl⟩ <;> exact h.of_stand (.inl rfl)
  | rlock g call event hat hfree => exact h.of_stand (.inr (by rw [hat]; rfl))
  | next g call event seen ch hat hch hnew => exact h.of_stand (.inr (by rw [hat]; rfl))
  | send g call event seen ch hat => exact h.send hsafe hat
  | runlock g call event seen hat hall => exact h.runlock hat hall
  | lock g p hat hfree hnone => rcases hat with ⟨-, rfl⟩ | ⟨ch, -, rfl⟩ <;> exact h.of_stand (.inl rfl)
  | insert g hat => exact h.insert hsafe
  | delete g ch hat hch =>
    exact ⟨h.mapped.delete (hsafe.clients ch hch).1, h.buffered.snoc (fun _ => rfl) fun _ => rfl, h.room,
      (h.calls.snoc rfl).stand (.inl rfl), each_snoc h.ok trivial⟩
  | missing g ch hat => exact h.of_stand (.inl rfl)
  | close g ch hat => exact h.close hsafe hat
  | unlock g hat => exact h.of_stand (.inl rfl)
  | receive ch event buf hbuf => exact h.receive hbuf

end Recorded

/-! ## Any interleaving -/

theorem run_inv (acts : List (PublisherAct E)) : (run acts).Safe ∧ (run acts).Recorded := by
  refine List.foldlRecOn (motive := fun s => Safe s ∧ Recorded s) acts step ⟨Safe.init, Recorded.init⟩ fun s h a _ => ?_
  rcases step_moves s a with heq | hm
  · rwa [heq]
  · exact ⟨h.1.move hm, h.2.move h.1 hm⟩

/-- What the channel of a subscriber carries. -/
structure Delivers (s : SSEPublisher E) (ch : Nat) : Prop where
  /-- the events received are the first of those that the channel took, in that order -/
  received : takenBy ch s.history = receivedBy ch s.history ++ (s.channel ch).buf
  subsequence : (receivedBy ch s.history).Sublist (offeredTo ch s.history)
  /-- each offer is of a Publish under way, to a subscriber, once, and is missed only at a full buffer -/
  offers : ∀ before call event taken after, s.history = before ++ .offered call ch event taken :: after →
    OfferOk before call ch event taken
  /-- a Publish that is over has offered its event to every subscriber -/
  complete : ∀ before call after, s.history = before ++ .published call :: after → SubscribedIn before ch →
    OfferedIn before call ch
  /-- an event does not come before one whose Publish was over when its own was called -/
  inOrder : ∀ before call event taken mid call' event' taken' after,
    s.history = before ++ .offered call ch event taken :: mid ++ .offered call' ch event' taken' :: after →
    ∀ early late, s.history = early ++ .called call event :: late → .published call' ∉ early

/-- A call of Publish stands in the history once. -/
theorem Recorded.called_once {s : SSEPublisher E} (h : s.Recorded) {early late early' late' : List (Note E)}
    {call : Nat} {event : E} (hsplit : s.history = early ++ .called call event :: late)
    (hsplit' : s.history = early' ++ .called call event :: late') : early = early' := by
  have hnone : .called call event ∉ early := h.ok early _ late hsplit event
  have hnone' : .called call event ∉ early' := h.ok early' _ late' hsplit' event
  rw [hsplit] at hsplit'
  rcases List.append_eq_append_iff.1 hsplit' with ⟨mid, hearly, hlate⟩ | ⟨mid, hearly, hlate⟩
  · cases mid with
    | nil => rw [hearly, List.append_nil]
    | cons note mid =>
      obtain ⟨rfl, -⟩ := List.cons_eq_cons.1 hlate
      exact absurd (hearly ▸ List.mem_append_right early List.mem_cons_self) hnone'
  · cases mid with
    | nil => rw [hearly, List.append_nil]
    | cons note mid =>
      obtain ⟨rfl, -⟩ := List.cons_eq_cons.1 hlate
      exact absurd (hearly ▸ List.mem_append_right early' List.mem_cons_self) hnone

theorem Recorded.delivers {s : SSEPublisher E} (h : s.Recorded) (ch : Nat) : s.Delivers ch where
  received := h.buffered ch
  subsequence := (h.buffered ch ▸ List.sublist_append_left _ _).trans (takenBy_sublist ch s.history)
  offers before call event taken after hsplit := h.ok before (.offered call ch event taken) after hsplit
  complete before call after hsplit := h.ok before (.published call) after hsplit ch
  inOrder before call event taken mid call' event' taken' after hsplit early late hcalled hover := by
    have hfirst : OfferOk before call ch event taken :=
      h.ok before (.offered call ch event taken) _ (by rw [hsplit, List.append_assoc]; rfl)
    have hsecond : OfferOk (before ++ .offered call ch event taken :: mid) call' ch event' taken' :=
      h.ok _ (.offered call' ch event' taken') after hsplit
    -- the call stands before its offer, and only there
    obtain ⟨x, y, rfl⟩ := List.append_of_mem hfirst.called
    have hfrom : s.history = x ++ .called call event ::
        (y ++ .offered call ch event taken :: mid ++ .offered call' ch event' taken' :: after) := by
      rw [hsplit]
      simp only [List.append_assoc, List.cons_append]
    have hearly : early = x := h.called_once hcalled hfrom
    refine hsecond.underWay ?_
    rw [List.append_assoc]
    exact List.mem_append_left _ (hearly ▸ hover)

/-- Over any interleaving of Publish, Subscribe, Unsubscribe and receives nothing is sent on a closed channel and no
channel is closed twice, and every subscriber gets what its channel is offered while it is subscribed, but for the
events that find its buffer full. -/
theorem publisher_delivers (acts : List (PublisherAct E)) :
    (run acts).panicked = false ∧ ∀ ch, (run acts).Delivers ch :=
  ⟨(run_inv acts).1.running, (run_inv acts).2.delivers⟩

/-- Two calls of Publish that overlap, and two subscribers that come to them in turn. -/
example :
    let s := run ([.subscribe 0, .advance 0, .advance 0, .advance 0, .subscribe 0, .advance 0, .advance 0, .advance 0,
      .publish 1 'a', .publish 2 'b', .advance 1, .advance 2, .next 1 0, .advance 1, .next 2 0, .advance 2, .next 2 1,
      .advance 2, .next 1 1, .advance 1, .receive 0, .receive 0, .receive 1, .receive 1] : List (PublisherAct Char))
    receivedBy 0 s.history = ['a', 'b'] ∧ receivedBy 1 s.history = ['b', 'a'] := by decide

end SSEPublisher

end KnIg.Backend
