/-
The frames of one connection, from the agent's sends to the server's loop. A frame that is cut short stays on the
connection, and a send uses up its number whether or not it gets through, so the stream stays one of
consecutive frames just as long as no frame is cut and none follows a failure once the first is out.
-/
import KnIg.Agent.Client
import KnIg.Backend.Collector.AgentSession
import KnIg.Lib.Delimited
import Mathlib.Data.List.Chain

namespace KnIg.Link

open Lib Lib.Reader Agent Backend

/-! ## What is on the connection -/

/-- One call of `ig_tcp_send_frame` with what its writes return. -/
structure Send where
  type : UInt8
  payload : Bytes
  results : List Int

def send (cli : IgTcpClient) (s : Send) : IgTcpClient := (cli.sendFrameLocked s.type s.payload s.results).cli

/-- Each frame is numbered after the one before it. -/
def Consecutive (fs : List SentFrame) : Prop := fs.IsChain fun f g => g.seqNum = f.seqNum + 1

/-- A frame as the server's loop has it. -/
def received (f : SentFrame) : Frame where
  hdr := ⟨UInt32.ofNat f.payload.length, f.type, f.seqNum⟩
  payload := f.payload
  answer := .ok ()

/-- `ReadFrame` over and over yields just these frames and comes to the end of the stream. -/
def ReadAs : Bytes → List Frame → Prop
  | stream, [] => stream = []
  | stream, f :: fs => ∃ rest, readFrame stream = .ok ((f.hdr, f.payload), rest) ∧ ReadAs rest fs

/-- A stream of whole frames with consecutive numbers, and the server reads and dispatches all of them. -/
def InFrames (stream : Bytes) : Prop :=
  ∃ fs, stream = fs.flatMap SentFrame.bytes ∧ Consecutive fs ∧
    ReadAs stream (fs.map received) ∧ dispatched 0 (fs.map received) = fs.map received

/-- As long as the client is connected, its connection carries frames. -/
def Sound (cli : IgTcpClient) : Prop :=
  cli.state = .connected → ∃ stream, cli.ssl = some stream ∧ InFrames stream

/-! ## Which sends keep it so -/

/-- The attempts that failed since the last frame that got through; none before the first. -/
def missed (before : List Send) : Option Nat :=
  before.foldl (fun n s =>
    if s.payload.length > igMaxFrameSize then n
    else if Carries s.results s.payload.length then some 0
    else n.map (· + 1)) none

/-- The send is refused for its size, or nothing of it gets through, or all of it does and no failures lie
between it and the frame before, but for a whole round of the numbers. -/
def Continues (before : List Send) (s : Send) : Prop :=
  s.payload.length > igMaxFrameSize ∨ FailsAtOnce s.results ∨
    (Carries s.results s.payload.length ∧ ∀ n, missed before = some n → 2 ^ 32 ∣ n)

/-! ## Frames and the server -/

theorem reads_sentFrame (f : SentFrame) :
    Reads readFrame f.bytes ((received f).hdr, (received f).payload) := by
  have hlen : f.payload.length = (UInt32.ofNat f.payload.length).toNat :=
    (UInt32.toNat_ofNat_of_lt' (f.fits.trans_lt (by decide))).symm
  have h := reads_readFrame hlen (hlen ▸ f.fits) f.type f.seqNum
  simpa [received, SentFrame.bytes, SentFrame.header, igFrameHeaderEncode, writeU32, writeU8] using h

theorem delimited_sentFrame : Delimited SentFrame.bytes := by
  refine Reads.delimited reads_sentFrame ?_ fun f h => ?_
  · rintro ⟨t, n, p, hp⟩ ⟨t', n', p', hp'⟩ h
    simp only [received, Prod.mk.injEq, FrameHeader.mk.injEq] at h
    obtain ⟨⟨-, rfl, rfl⟩, rfl⟩ := h
    rfl
  · have hlen := congrArg List.length h
    simp [SentFrame.bytes, igFrameHeaderSize] at hlen

theorem readAs_flatMap (fs : List SentFrame) : ReadAs (fs.flatMap SentFrame.bytes) (fs.map received) := by
  induction fs with
  | nil => rfl
  | cons f fs ih => exact ⟨_, reads_sentFrame f _, ih⟩

/-- The server's sequence check lets consecutive frames pass. -/
theorem dispatched_consecutive {fs : List SentFrame} (hc : Consecutive fs) (lastSeq : UInt32)
    (hfirst : ∀ f ∈ fs.head?, lastSeq > 0 → f.seqNum = lastSeq + 1) :
    dispatched lastSeq (fs.map received) = fs.map received := by
  induction fs generalizing lastSeq with
  | nil => rfl
  | cons f fs ih =>
    obtain ⟨hnext, hrest⟩ := List.isChain_cons.1 hc
    have hf : (received f).follows lastSeq = true := by
      have h0 := hfirst f (by simp)
      simp only [Frame.follows, received, decide_eq_true_eq, not_and, not_not]
      exact h0
    rw [List.map_cons, dispatched, if_pos hf]
    exact congrArg _ (ih hrest f.seqNum fun g hg _ => hnext g hg)

theorem inFrames_of_consecutive {fs : List SentFrame} (hc : Consecutive fs) :
    InFrames (fs.flatMap SentFrame.bytes) := by
  have h0 : ∀ f ∈ fs.head?, (0 : UInt32) > 0 → f.seqNum = 0 + 1 := fun f _ h => absurd h (by decide)
  exact ⟨fs, rfl, hc, readAs_flatMap fs, dispatched_consecutive hc 0 h0⟩

theorem inFrames_flatMap {fs : List SentFrame} : InFrames (fs.flatMap SentFrame.bytes) ↔ Consecutive fs := by
  refine ⟨?_, inFrames_of_consecutive⟩
  rintro ⟨gs, hgs, hc, -⟩
  rwa [delimited_sentFrame.flatMap_injective hgs]

/-! ## One send -/

/-- After `before`, the client is connected and its connection carries `fs`; its number is that of the last
of them and the attempts missed since. -/
structure Carrying (before : List Send) (fs : List SentFrame) (cli : IgTcpClient) : Prop where
  state : cli.state = .connected
  ssl : cli.ssl = some (fs.flatMap SentFrame.bytes)
  consecutive : Consecutive fs
  number : fs.getLast?.map SentFrame.seqNum = (missed before).map fun n => cli.seqNum - UInt32.ofNat n

theorem missed_append (before : List Send) (s : Send) :
    missed (before ++ [s]) =
      if s.payload.length > igMaxFrameSize then missed before
      else if Carries s.results s.payload.length then some 0
      else (missed before).map (· + 1) := by
  simp [missed, List.foldl_append]

section Step

variable {before : List Send} {fs : List SentFrame} {cli : IgTcpClient} {s : Send}

theorem Carrying.sound (h : Carrying before fs cli) : Sound cli :=
  fun _ => ⟨_, h.ssl, inFrames_of_consecutive h.consecutive⟩

/-- A further frame is in sequence exactly if the attempts missed are a whole number of rounds. -/
theorem Carrying.consecutive_append (h : Carrying before fs cli) {f : SentFrame} (hf : f.seqNum = cli.seqNum + 1) :
    Consecutive (fs ++ [f]) ↔ ∀ n, missed before = some n → 2 ^ 32 ∣ n := by
  have hnum := h.number
  rw [Consecutive, List.isChain_append]
  simp only [List.isChain_singleton, List.head?_cons, Option.mem_some_iff, forall_eq', true_and, hf]
  cases hm : missed before with
  | none =>
    have hlast : fs.getLast? = none := by simpa [hm] using hnum
    have hc : fs.IsChain fun f g => g.seqNum = f.seqNum + 1 := h.consecutive
    simpa [hlast] using hc
  | some n =>
    obtain ⟨g, hg, hgn⟩ : ∃ g, fs.getLast? = some g ∧ g.seqNum = cli.seqNum - UInt32.ofNat n := by
      simpa [hm] using hnum
    simp only [hg, Option.mem_some_iff, forall_eq', Option.some.injEq, hgn]
    constructor
    · rintro ⟨-, hseq⟩
      have h0 : UInt32.ofNat n = 0 := by grind
      have hmod : n % 2 ^ 32 = 0 := by simpa using congrArg UInt32.toNat h0
      exact Nat.dvd_of_mod_eq_zero hmod
    · intro hd
      have h0 : UInt32.ofNat n = 0 := by
        apply UInt32.toNat.inj
        simpa using Nat.mod_eq_zero_of_dvd hd
      exact ⟨h.consecutive, by rw [h0, UInt32.sub_zero]⟩

/-- A send that is not refused for its size: the front of the next frame goes out and the number is used up. -/
theorem Carrying.after (h : Carrying before fs cli) (hfits : s.payload.length ≤ igMaxFrameSize) :
    ∃ written, written <+: (SentFrame.mk s.type (cli.seqNum + 1) s.payload hfits).bytes ∧
      (Carries s.results s.payload.length ↔ written = (SentFrame.mk s.type (cli.seqNum + 1) s.payload hfits).bytes) ∧
      (written = [] ↔ FailsAtOnce s.results) ∧ (send cli s).state = .connected ∧
      (send cli s).ssl = some (fs.flatMap SentFrame.bytes ++ written) ∧ (send cli s).seqNum = cli.seqNum + 1 := by
  obtain ⟨written, hpre, hall, hnone, heq⟩ :=
    IgTcpClient.sendFrameLocked_eq h.state h.ssl hfits s.type s.results
  refine ⟨written, hpre, hall, hnone, ?_⟩
  rw [send, heq]
  simp only
  split
  · exact ⟨h.state, rfl, rfl⟩
  · split
    · exact ⟨h.state, rfl, rfl⟩
    · exact ⟨h.state, rfl, rfl⟩

/-- What a send leaves is sound exactly if the send continues the stream. -/
theorem Carrying.send_iff (h : Carrying before fs cli) : Sound (send cli s) ↔ Continues before s := by
  by_cases hbig : s.payload.length > igMaxFrameSize
  · have hs : send cli s = cli := by rw [send, IgTcpClient.sendFrameLocked_oversize hbig]
    rw [hs]
    exact iff_of_true h.sound (.inl hbig)
  obtain ⟨written, hpre, hall, hnone, hstate, hssl, -⟩ := h.after (not_lt.1 hbig)
  have hsound : Sound (send cli s) ↔ InFrames (fs.flatMap SentFrame.bytes ++ written) := by
    simp [Sound, hstate, hssl]
  rw [hsound, Continues, or_iff_right hbig, ← hnone]
  by_cases hw : Carries s.results s.payload.length
  · have hne : ¬ written = [] := by
      rw [hall.1 hw]
      exact delimited_sentFrame.nonempty _
    rw [or_iff_right hne, and_iff_right hw, hall.1 hw, ← List.flatMap_singleton SentFrame.bytes,
      ← List.flatMap_append, inFrames_flatMap,
      h.consecutive_append rfl]
  · rw [or_iff_left fun hc => hw hc.1]
    constructor
    · rintro ⟨gs, hgs, -⟩
      by_contra hne
      obtain ⟨cs, -, hcs⟩ := delimited_sentFrame.flatMap_append_eq hgs
      exact delimited_sentFrame.cut_ne hpre (fun hb => hw (hall.2 hb)) hne hcs
    · rintro rfl
      rw [List.append_nil]
      exact inFrames_of_consecutive h.consecutive

/-- A send that continues the stream leaves it carrying frames. -/
theorem Carrying.send_step (h : Carrying before fs cli) (hs : Continues before s) :
    ∃ fs', Carrying (before ++ [s]) fs' (send cli s) := by
  by_cases hbig : s.payload.length > igMaxFrameSize
  · refine ⟨fs, ?_⟩
    have hcli : send cli s = cli := by rw [send, IgTcpClient.sendFrameLocked_oversize hbig]
    rw [hcli]
    exact ⟨h.state, h.ssl, h.consecutive, by rw [missed_append, if_pos hbig, h.number]⟩
  obtain ⟨written, hpre, hall, hnone, hstate, hssl, hseq⟩ := h.after (not_lt.1 hbig)
  by_cases hw : Carries s.results s.payload.length
  · have hrounds : ∀ n, missed before = some n → 2 ^ 32 ∣ n := by
      rcases hs with hs | hs | hs
      · exact absurd hs hbig
      · exact absurd ((hall.1 hw).symm.trans (hnone.2 hs)) (delimited_sentFrame.nonempty _)
      · exact hs.2
    refine ⟨fs ++ [⟨s.type, cli.seqNum + 1, s.payload, not_lt.1 hbig⟩], hstate, ?_, ?_, ?_⟩
    · rw [hssl, hall.1 hw, List.flatMap_append, List.flatMap_singleton]
    · exact (h.consecutive_append rfl).2 hrounds
    · simp [missed_append, hbig, hw, hseq]
  · have hnil : written = [] := by
      rcases hs with hs | hs | hs
      · exact absurd hs hbig
      · exact hnone.2 hs
      · exact absurd hs.1 hw
    refine ⟨fs, hstate, by rw [hssl, hnil, List.append_nil], h.consecutive, ?_⟩
    rw [h.number, missed_append, if_neg hbig, if_neg hw, hseq, Option.map_map]
    refine Option.map_congr fun n _ => ?_
    show cli.seqNum - UInt32.ofNat n = cli.seqNum + 1 - UInt32.ofNat (n + 1)
    rw [UInt32.ofNat_add]
    grind

end Step

/-! ## Runs -/

def runSends (cli : IgTcpClient) (sends : List Send) : IgTcpClient := sends.foldl send cli

theorem Carrying.run_iff {before : List Send} {fs : List SentFrame} {cli : IgTcpClient} (h : Carrying before fs cli)
    (sends : List Send) :
    (∀ sent, sent <+: sends → Sound (runSends cli sent)) ↔ EachAfter Continues before sends := by
  induction sends generalizing before fs cli with
  | nil =>
    refine iff_of_true (fun sent hsent => ?_) eachAfter_nil
    rw [List.prefix_nil.1 hsent]
    exact h.sound
  | cons s sends ih =>
    rw [eachAfter_cons, ← h.send_iff]
    constructor
    · intro hall
      have hs : Sound (send cli s) := hall [s] (by simp)
      obtain ⟨fs', h'⟩ := h.send_step (h.send_iff.1 hs)
      refine ⟨hs, (ih h').1 fun sent hsent => ?_⟩
      exact hall (s :: sent) (List.prefix_cons_inj s |>.2 hsent)
    · rintro ⟨hs, hrest⟩ sent hsent
      obtain ⟨fs', h'⟩ := h.send_step (h.send_iff.1 hs)
      cases sent with
      | nil => exact h.sound
      | cons s' sent =>
        obtain ⟨rfl, hrun⟩ := List.cons_prefix_cons.1 hsent
        exact (ih h').2 hrest sent hrun

theorem carrying_connected (cli : IgTcpClient) : Carrying [] [] cli.connected :=
  ⟨rfl, rfl, List.isChain_nil, rfl⟩

/-- Every stretch of a connection's sends leaves whole consecutive frames, which the server takes, exactly if
each send continues the stream of those before it. -/
theorem stream_in_frames_iff (cli : IgTcpClient) (sends : List Send) :
    (∀ sent, sent <+: sends → Sound (runSends cli.connected sent)) ↔ EachAfter Continues [] sends :=
  (carrying_connected cli).run_iff sends

/-- A heartbeat whose header gets through and whose payload does not. -/
def cutHeartbeat : Send := ⟨igMsgTypeHeartbeat, List.replicate 13 0, [9, -1]⟩

/-- The client stays connected with the header alone on its connection. -/
theorem stream_cut_fails :
    ¬ ∀ sent, sent <+: [cutHeartbeat] → Sound (runSends freshClient.connected sent) := by
  intro h
  have hc := ((carrying_connected freshClient).run_iff [cutHeartbeat]).1 h [] cutHeartbeat [] rfl
  revert hc
  simp only [Continues, cutHeartbeat]
  decide

end KnIg.Link
