/-
The numbers of the frames that one session dispatches. A session that has dispatched a frame numbered 0 takes
itself for one that has dispatched nothing, so the numbers run on by one exactly as long as no frame numbered 0
is followed by one that is not numbered 1.
-/
import KnIg.Backend.Collector.AgentSession

namespace KnIg.Backend

open Lib

/-- The number of the frame is the one after the other's, modulo 2^32. -/
def Frame.Next (f g : Frame) : Prop := g.hdr.seqNum = f.hdr.seqNum + 1

instance (f g : Frame) : Decidable (f.Next g) := inferInstanceAs (Decidable (_ = _))

/-- The numbers of the frames run on by one. -/
abbrev Consecutive (frames : List Frame) : Prop := frames.IsChain Frame.Next

/-- A frame numbered 0 that ends a consecutive start of the frames is followed by one numbered 1. -/
def ZeroThenOne (frames : List Frame) : Prop :=
  ∀ before f g after, frames = before ++ f :: g :: after → Consecutive (before ++ [f]) → f.hdr.seqNum = 0 →
    g.hdr.seqNum = 1

/-! ## What a run dispatches -/

/-- The frames out of sequence, and all after them, leave no trace in what a session does. -/
theorem run_dispatched (c : PeerCert) (current : Bool) (s : AgentSession) (frames : List Frame) :
    c.run current s (dispatched s.lastSeq frames) = c.run current s frames := by
  induction frames generalizing s with
  | nil => rfl
  | cons f fs ih =>
    rw [dispatched, PeerCert.run]
    split
    · next hf =>
      rw [PeerCert.run, if_pos hf]
      have hrest := ih (c.dispatch { s with lastSeq := f.hdr.seqNum } f).1
      rw [dispatch_lastSeq] at hrest
      exact congrArg _ hrest
    · rfl

theorem dispatched_isPrefix (lastSeq : UInt32) (frames : List Frame) : dispatched lastSeq frames <+: frames := by
  induction frames generalizing lastSeq with
  | nil => exact List.prefix_refl []
  | cons f fs ih =>
    rw [dispatched]
    split
    · exact List.cons_prefix_cons.2 ⟨rfl, ih f.hdr.seqNum⟩
    · exact List.nil_prefix

theorem follows_iff {f : Frame} {lastSeq : UInt32} :
    f.follows lastSeq = true ↔ lastSeq = 0 ∨ f.hdr.seqNum = lastSeq + 1 := by
  have hpos : lastSeq > 0 ↔ lastSeq ≠ 0 := UInt32.pos_iff_ne_zero
  rw [Frame.follows, decide_eq_true_eq, hpos]
  tauto

/-- A frame may come after another one: its number is the next, or the other's is 0. -/
theorem isChain_dispatched (lastSeq : UInt32) (frames : List Frame) :
    (dispatched lastSeq frames).IsChain fun f g => f.hdr.seqNum = 0 ∨ f.Next g := by
  induction frames generalizing lastSeq with
  | nil => exact List.isChain_nil
  | cons f fs ih =>
    rw [dispatched]
    split
    · refine List.isChain_cons.2 ⟨fun g hg => ?_, ih f.hdr.seqNum⟩
      cases fs with
      | nil => cases hg
      | cons g' fs =>
        rw [dispatched] at hg
        split at hg
        · next hfol =>
          cases hg
          exact follows_iff.1 hfol
        · cases hg
    · exact List.isChain_nil

/-- A session dispatches every frame of a consecutive start, and the one after it if that follows. -/
theorem dispatched_consecutive {before : List Frame} {f g : Frame} {lastSeq : UInt32} (after : List Frame)
    (hb : Consecutive (before ++ [f])) (hfirst : ∀ d ∈ (before ++ [f]).head?, d.follows lastSeq)
    (hg : g.follows f.hdr.seqNum) :
    ∃ rest, dispatched lastSeq (before ++ f :: g :: after) = before ++ f :: g :: rest := by
  induction before generalizing lastSeq with
  | nil =>
    refine ⟨dispatched g.hdr.seqNum after, ?_⟩
    rw [List.nil_append, dispatched, if_pos (hfirst f rfl), dispatched, if_pos hg]
    rfl
  | cons d before ih =>
    obtain ⟨hnext, hrest⟩ := List.isChain_cons.1 hb
    obtain ⟨rest, hr⟩ := ih hrest fun e he => follows_iff.2 (Or.inr (hnext e he))
    refine ⟨rest, ?_⟩
    rw [List.cons_append, dispatched, if_pos (hfirst d rfl), hr, List.cons_append]

/-! ## Consecutive numbers -/

/-- The frames a session dispatches are numbered one after the other exactly if among those it reads no frame
numbered 0, at the end of a consecutive start, is followed by one not numbered 1. -/
theorem consecutive_dispatched_iff (frames : List Frame) :
    Consecutive (dispatched AgentSession.new.lastSeq frames) ↔ ZeroThenOne frames := by
  constructor
  · rintro hcons before f g after rfl hbefore hzero
    have hnew : ∀ d ∈ (before ++ [f]).head?, d.follows AgentSession.new.lastSeq :=
      fun d _ => follows_iff.2 (Or.inl rfl)
    obtain ⟨rest, hr⟩ := dispatched_consecutive after hbefore hnew (follows_iff.2 (Or.inl hzero))
    rw [hr] at hcons
    have hnext : f.Next g := (List.isChain_append_cons_cons.1 hcons).2.1
    rwa [Frame.Next, hzero, UInt32.zero_add] at hnext
  · intro hzero
    by_contra hcons
    obtain ⟨before, f, g, after, heq, hbefore, hnext⟩ := exists_first_break hcons
    have hchain := isChain_dispatched AgentSession.new.lastSeq frames
    rw [heq] at hchain
    have hf : f.hdr.seqNum = 0 := (List.isChain_append_cons_cons.1 hchain).2.1.resolve_right hnext
    -- the session read what it dispatched, and then some
    obtain ⟨unread, hread⟩ := dispatched_isPrefix AgentSession.new.lastSeq frames
    have hone : g.hdr.seqNum = 1 :=
      hzero before f g (after ++ unread) (by rw [← hread, heq]; simp) hbefore hf
    exact hnext (by rw [Frame.Next, hf, hone]; rfl)

/-- Two heartbeats, numbered 0 and 5. -/
def zeroThenFive : List Frame :=
  [⟨⟨13, msgHeartbeat, 0⟩, [], .ok ()⟩, ⟨⟨13, msgHeartbeat, 5⟩, [], .ok ()⟩]

/-- The session dispatches both. -/
theorem consecutive_zeroThenFive_fails : ¬ Consecutive (dispatched AgentSession.new.lastSeq zeroThenFive) := by
  decide

end KnIg.Backend
