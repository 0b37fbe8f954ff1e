/-
The live stream from the publisher to the console. The handler of a subscriber writes each event that its channel
brings as a frame with a blank line behind it, the connection brings the bytes in any pieces and may break off anywhere,
and the console's hook calls its signal once for every frame. So of the events that the publisher offered while the
console was subscribed each that came whole is signalled once, and none is signalled twice or made up.
-/
import KnIg.Backend.Api.SseHistory
import KnIg.Lib.Bytes
import KnIg.Lib.Frames

namespace KnIg.Link

open Lib Backend Backend.SSEPublisher

/-! ## The two ends -/

def blankLine : Bytes := [0x0A, 0x0A]

theorem blankLine_ne_nil : blankLine ≠ [] := by decide

section Handler

variable {E : Type}

/-- A frame of an event, which `json.Marshal` makes a text. -/
def sseFrame (marshal : E → Bytes) (event : E) : Bytes := ascii "data:" ++ marshal event

/-- `handleSSE`: what it has written of the events that it has received. -/
def handleSSE (marshal : E → Bytes) (events : List E) : Bytes :=
  (events.map (sseFrame marshal)).flatMap (framed blankLine)

end Handler

/-- `String.includes` -/
def includes (s word : Bytes) : Bool := s.tails.any word.isPrefixOf

/-- The hook's loop on one piece of the body: the calls of `onSignal` so far, and `buf`. The text is kept as its bytes,
since what is looked for in it is ASCII. -/
def onPiece (st : Nat × Bytes) (piece : Bytes) : Nat × Bytes :=
  let r := Lib.frames blankLine (st.2 ++ piece)
  (st.1 + r.1.countP fun frame => includes frame (ascii "data:"), r.2)

/-- The signals of a connection, which starts with an empty `buf`. -/
def signals (pieces : List Bytes) : Nat := (pieces.foldl onPiece (0, [])).1

/-! ## What the console is signalled -/

theorem includes_append (word s : Bytes) : includes (word ++ s) word = true := by
  refine List.any_eq_true.2 ⟨word ++ s, ?_, List.isPrefixOf_iff_prefix.2 (List.prefix_append word s)⟩
  exact (List.mem_tails _ _).2 List.suffix_rfl

/-- The loop calls its signal for the frames that it takes off. -/
theorem foldl_onPiece (pieces : List Bytes) (fs : List Bytes) (rest : Bytes) :
    pieces.foldl onPiece (fs.countP fun frame => includes frame (ascii "data:"), rest) =
      ((pieces.foldl (feed blankLine) (fs, rest)).1.countP fun frame => includes frame (ascii "data:"),
        (pieces.foldl (feed blankLine) (fs, rest)).2) := by
  induction pieces generalizing fs rest with
  | nil => rfl
  | cons piece pieces ih =>
    rw [List.foldl_cons, List.foldl_cons, feed, ← ih]
    dsimp only [onPiece]
    rw [List.countP_append]

section Handler

variable {E : Type} {marshal : E → Bytes} (hmarshal : ∀ event, 0x0A ∉ marshal event)
include hmarshal

theorem clean_sseFrame (event : E) : Clean blankLine (sseFrame marshal event) := by
  refine clean_line ?_
  rw [sseFrame, List.mem_append, not_or]
  exact ⟨by decide, hmarshal event⟩

/-- The events that came whole are signalled. -/
theorem signals_handleSSE {events : List E} {pieces : List Bytes}
    (h : pieces.flatten <+: handleSSE marshal events) : ∃ k, signals pieces = k ∧ k ≤ events.length ∧
      handleSSE marshal (events.take k) <+: pieces.flatten ∧
      (k < events.length → ¬ handleSSE marshal (events.take (k + 1)) <+: pieces.flatten) := by
  have hclean : ∀ w ∈ events.map (sseFrame marshal), Clean blankLine w := by
    intro w hw
    obtain ⟨event, -, rfl⟩ := List.mem_map.1 hw
    exact clean_sseFrame hmarshal event
  obtain ⟨k, hframes, hcame, hnext⟩ := frames_prefix blankLine_ne_nil hclean h
  have hall : ∀ frame ∈ (events.map (sseFrame marshal)).take k, includes frame (ascii "data:") = true := by
    intro frame hframe
    obtain ⟨event, -, rfl⟩ := List.mem_map.1 (List.mem_of_mem_take hframe)
    exact includes_append _ _
  have hcount : signals pieces = min k events.length := by
    have hfold := foldl_onPiece pieces [] []
    rw [foldl_feed_eq blankLine_ne_nil, hframes, List.countP_eq_length.2 hall, List.length_take,
      List.length_map] at hfold
    exact congrArg Prod.fst hfold
  by_cases hk : k ≤ events.length
  · refine ⟨k, by rw [hcount, Nat.min_eq_left hk], hk, ?_, fun hlt hcon => hnext (by rwa [List.length_map]) ?_⟩
    · rw [handleSSE, List.map_take]
      exact hcame
    · rw [← List.map_take]
      exact hcon
  · have hlen : events.length ≤ k := Nat.le_of_not_le hk
    refine ⟨events.length, by rw [hcount, Nat.min_eq_right hlen], Nat.le_refl _, ?_,
      fun hlt => absurd hlt (Nat.lt_irrefl _)⟩
    rw [List.take_of_length_le (by rwa [List.length_map])] at hcame
    rw [List.take_length]
    exact hcame

end Handler

/-- In every run of the publisher, whatever has come of what a subscriber's handler wrote, and in whatever pieces: the
console is signalled once for each event of which all has come, and these are the first of the events that the
subscriber's channel took. -/
theorem console_signalled {E : Type} (marshal : E → Bytes) (hmarshal : ∀ event, 0x0A ∉ marshal event)
    (acts : List (PublisherAct E)) (ch : Nat) (pieces : List Bytes)
    (hpieces : pieces.flatten <+: handleSSE marshal (receivedBy ch (run acts).history)) :
    ∃ k, signals pieces = k ∧ k ≤ (receivedBy ch (run acts).history).length ∧
      (receivedBy ch (run acts).history).take k <+: takenBy ch (run acts).history ∧
      handleSSE marshal ((receivedBy ch (run acts).history).take k) <+: pieces.flatten ∧
      (k < (receivedBy ch (run acts).history).length →
        ¬ handleSSE marshal ((receivedBy ch (run acts).history).take (k + 1)) <+: pieces.flatten) := by
  obtain ⟨k, hsignals, hle, hcame, hnext⟩ := signals_handleSSE hmarshal hpieces
  refine ⟨k, hsignals, hle, (List.take_prefix k _).trans ?_, hcame, hnext⟩
  rw [((run_inv acts).2.delivers ch).received]
  exact List.prefix_append _ _

/-- A frame that has come whole, and a part of the next. -/
theorem console_signalled_cut :
    let acts : List (PublisherAct Char) := [.subscribe 0, .advance 0, .advance 0, .advance 0, .publish 1 'a',
      .advance 1, .next 1 0, .advance 1, .advance 1, .publish 1 'b', .advance 1, .next 1 0, .advance 1, .receive 0,
      .receive 0]
    let marshal : Char → Bytes := fun c => if c = 'a' then ascii "7" else ascii "8"
    let events := receivedBy 0 (run acts).history
    let pieces := [ascii "da", ascii "ta:7\n", ascii "\nda"]
    ∃ k, signals pieces = k ∧ k ≤ events.length ∧ events.take k <+: takenBy 0 (run acts).history ∧
      handleSSE marshal (events.take k) <+: pieces.flatten ∧
      (k < events.length → ¬ handleSSE marshal (events.take (k + 1)) <+: pieces.flatten) := by
  refine console_signalled _ (fun c => ?_) _ 0 _ (by decide)
  split <;> decide

end KnIg.Link
