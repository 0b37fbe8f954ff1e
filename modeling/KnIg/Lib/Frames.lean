/-
Frames that a delimiter ends. A reader keeps what has come behind the last delimiter, and takes off the frames that the
next piece completes; what it finds does not depend on how the stream was cut into pieces, and of a stream that broke
off it has the frames that came whole.
-/
import Mathlib.Data.List.Basic
import Mathlib.Data.List.Infix

namespace Lib

variable {α : Type} [DecidableEq α]

/-- What stands before and behind the first place of a delimiter. -/
def cutAt (d : List α) : List α → Option (List α × List α)
  | [] => none
  | c :: s =>
    if d.isPrefixOf (c :: s) then some ([], (c :: s).drop d.length)
    else (cutAt d s).map fun p => (c :: p.1, p.2)

/-- The frames of a text and what is left behind the last one; each is shorter than what it is taken from. -/
def framesLoop (d : List α) : Nat → List α → List (List α) × List α
  | 0, s => ([], s)
  | fuel + 1, s =>
    match cutAt d s with
    | none => ([], s)
    | some (frame, rest) => (frame :: (framesLoop d fuel rest).1, (framesLoop d fuel rest).2)

def frames (d s : List α) : List (List α) × List α := framesLoop d s.length s

/-- The next piece of the stream, behind what is left of the ones before. -/
def feed (d : List α) (st : List (List α) × List α) (piece : List α) : List (List α) × List α :=
  (st.1 ++ (frames d (st.2 ++ piece)).1, (frames d (st.2 ++ piece)).2)

/-- A frame with its delimiter. -/
def framed (d frame : List α) : List α := frame ++ d

/-- The delimiter ends the frame, and stands nowhere before. -/
def Clean (d frame : List α) : Prop := cutAt d (framed d frame) = some (frame, [])

section Frames

variable {d s t : List α}

theorem cutAt_spec {frame rest : List α} (h : cutAt d s = some (frame, rest)) : s = framed d frame ++ rest := by
  induction s generalizing frame with
  | nil => cases h
  | cons c s ih =>
    unfold cutAt at h
    split at h
    · rename_i hd
      obtain ⟨t, ht⟩ := List.isPrefixOf_iff_prefix.1 hd
      cases h
      rw [framed, List.nil_append, ← ht, List.drop_left]
    · obtain ⟨⟨f, r⟩, hcut, hp⟩ := Option.map_eq_some_iff.1 h
      cases hp
      rw [ih hcut, framed, framed, List.cons_append, List.cons_append]

/-- What comes later does not move the first delimiter. -/
theorem cutAt_append {frame rest : List α} (h : cutAt d s = some (frame, rest)) (t : List α) :
    cutAt d (s ++ t) = some (frame, rest ++ t) := by
  induction s generalizing frame with
  | nil => cases h
  | cons c s ih =>
    unfold cutAt at h
    split at h
    · rename_i hd
      have hpre : d <+: c :: s := List.isPrefixOf_iff_prefix.1 hd
      have hpre' : d.isPrefixOf (c :: (s ++ t)) = true :=
        List.isPrefixOf_iff_prefix.2 (hpre.trans (List.prefix_append (c :: s) t))
      cases h
      rw [List.cons_append, cutAt, if_pos hpre', ← List.cons_append, List.drop_append_of_le_length hpre.length_le]
    · rename_i hd
      obtain ⟨⟨f, r⟩, hcut, hp⟩ := Option.map_eq_some_iff.1 h
      cases hp
      -- the delimiter has room in what is there already
      have hlen : d.length ≤ (c :: s).length := by
        rw [cutAt_spec hcut, framed]
        simp only [List.length_cons, List.length_append]
        omega
      have hd' : ¬ d.isPrefixOf (c :: (s ++ t)) = true := by
        intro hpre
        refine hd (List.isPrefixOf_iff_prefix.2 ?_)
        exact List.prefix_of_prefix_length_le (List.isPrefixOf_iff_prefix.1 hpre) (List.prefix_append (c :: s) t) hlen
      rw [List.cons_append, cutAt, if_neg hd', ih hcut]
      rfl

variable (hd : d ≠ [])
include hd

theorem length_cutAt_lt {frame rest : List α} (h : cutAt d s = some (frame, rest)) : rest.length < s.length := by
  have hpos : 0 < d.length := List.length_pos_iff.2 hd
  rw [cutAt_spec h, framed, List.length_append, List.length_append]
  omega

theorem framesLoop_eq {fuel : Nat} (h : s.length ≤ fuel) : framesLoop d fuel s = frames d s := by
  induction fuel using Nat.strong_induction_on generalizing s with
  | _ fuel ih =>
    cases s with
    | nil => cases fuel <;> rfl
    | cons c s =>
      obtain ⟨n, rfl⟩ : ∃ n, fuel = n + 1 :=
        Nat.exists_eq_succ_of_ne_zero (Nat.ne_of_gt (Nat.lt_of_lt_of_le (by simp) h))
      show framesLoop d (n + 1) (c :: s) = framesLoop d (s.length + 1) (c :: s)
      unfold framesLoop
      cases hcut : cutAt d (c :: s) with
      | none => rfl
      | some p =>
        have hlt : p.2.length < (c :: s).length := length_cutAt_lt hd hcut
        have hle : p.2.length ≤ s.length := Nat.le_of_lt_succ hlt
        have hn : s.length ≤ n := Nat.le_of_succ_le_succ h
        dsimp only
        rw [ih n (Nat.lt_succ_self n) (Nat.le_trans hle hn), ih s.length (Nat.lt_succ_of_le hn) hle]

omit hd in
theorem frames_of_none (h : cutAt d s = none) : frames d s = ([], s) := by
  unfold frames
  cases s with
  | nil => rfl
  | cons c s =>
    rw [List.length_cons, framesLoop, h]

theorem frames_of_some {frame rest : List α} (h : cutAt d s = some (frame, rest)) :
    frames d s = (frame :: (frames d rest).1, (frames d rest).2) := by
  have hlt := length_cutAt_lt hd h
  obtain ⟨n, hn⟩ : ∃ n, s.length = n + 1 := Nat.exists_eq_succ_of_ne_zero (by omega)
  rw [frames, hn, framesLoop, h]
  dsimp only
  rw [framesLoop_eq hd (by omega)]

/-- What comes later completes the frame that is under way and leaves the ones before as they are. -/
theorem frames_append (s t : List α) :
    frames d (s ++ t) = ((frames d s).1 ++ (frames d ((frames d s).2 ++ t)).1, (frames d ((frames d s).2 ++ t)).2) := by
  induction hn : s.length using Nat.strong_induction_on generalizing s with
  | _ n ih =>
    cases hcut : cutAt d s with
    | none => rw [frames_of_none hcut, List.nil_append]
    | some p =>
      obtain ⟨frame, rest⟩ := p
      rw [frames_of_some hd hcut, frames_of_some hd (cutAt_append hcut t),
        ih rest.length (hn ▸ length_cutAt_lt hd hcut) rest rfl]
      rfl

theorem foldl_feed (pieces : List (List α)) (s : List α) :
    pieces.foldl (feed d) (frames d s) = frames d (s ++ pieces.flatten) := by
  induction pieces generalizing s with
  | nil => rw [List.foldl_nil, List.flatten_nil, List.append_nil]
  | cons piece pieces ih =>
    rw [List.foldl_cons, List.flatten_cons, ← List.append_assoc, ← ih, frames_append hd s piece]
    rfl

/-- A stream is read the same however it is cut into pieces. -/
theorem foldl_feed_eq (pieces : List (List α)) : pieces.foldl (feed d) ([], []) = frames d pieces.flatten :=
  foldl_feed hd pieces []

theorem frames_framed {frame : List α} (h : Clean d frame) (t : List α) :
    frames d (framed d frame ++ t) = (frame :: (frames d t).1, (frames d t).2) :=
  frames_of_some hd (cutAt_append h t)

omit hd in
/-- A frame that has not come whole. -/
theorem cutAt_cut {frame t : List α} (h : Clean d frame) (ht : t <+: framed d frame) (hne : t ≠ framed d frame) :
    cutAt d t = none := by
  obtain ⟨u, hu⟩ := ht
  cases hcut : cutAt d t with
  | none => rfl
  | some p =>
    have hwhole := cutAt_append hcut u
    rw [hu, show cutAt d (framed d frame) = some (frame, []) from h] at hwhole
    obtain ⟨hframe, hrest⟩ := Prod.ext_iff.1 (Option.some.inj hwhole)
    have hu0 : u = [] := (List.append_eq_nil_iff.1 hrest.symm).2
    rw [hu0, List.append_nil] at hu
    exact absurd hu hne

/-- Of a stream of frames that breaks off, those are read that have come whole. -/
theorem frames_prefix {ws : List (List α)} (h : ∀ w ∈ ws, Clean d w) {t : List α} (ht : t <+: ws.flatMap (framed d)) :
    ∃ k, (frames d t).1 = ws.take k ∧ (ws.take k).flatMap (framed d) <+: t ∧
      (k < ws.length → ¬ (ws.take (k + 1)).flatMap (framed d) <+: t) := by
  induction ws generalizing t with
  | nil =>
    rw [List.prefix_nil.1 ht]
    exact ⟨0, rfl, List.prefix_rfl, fun hk => absurd hk (Nat.lt_irrefl 0)⟩
  | cons w ws ih =>
    have hw := h w List.mem_cons_self
    rw [List.flatMap_cons] at ht
    by_cases hwhole : framed d w <+: t
    · obtain ⟨t, rfl⟩ := hwhole
      obtain ⟨k, hframes, hpre, hnext⟩ :=
        ih (fun w' hw' => h w' (List.mem_cons_of_mem w hw')) ((List.prefix_append_right_inj _).1 ht)
      refine ⟨k + 1, ?_, ?_, fun hk hcon => hnext (Nat.lt_of_succ_lt_succ hk) ?_⟩
      · rw [frames_framed hd hw, hframes, List.take_succ_cons]
      · rw [List.take_succ_cons, List.flatMap_cons]
        exact (List.prefix_append_right_inj _).2 hpre
      · rw [List.take_succ_cons, List.flatMap_cons] at hcon
        exact (List.prefix_append_right_inj _).1 hcon
    · have hlen : t.length < (framed d w).length := by
        by_contra hge
        exact hwhole (List.prefix_of_prefix_length_le (List.prefix_append _ _) ht (Nat.not_lt.1 hge))
      have hcut : t <+: framed d w :=
        List.prefix_of_prefix_length_le ht (List.prefix_append _ _) (Nat.le_of_lt hlen)
      refine ⟨0, ?_, List.nil_prefix, fun _ hcon => hwhole ?_⟩
      · rw [frames_of_none (cutAt_cut hw hcut fun heq => by rw [heq] at hlen; exact Nat.lt_irrefl _ hlen)]
        rfl
      · rw [List.take_succ_cons, List.take_zero, List.flatMap_cons, List.flatMap_nil, List.append_nil] at hcon
        exact hcon

end Frames

/-! ## A doubled character -/

section Doubled

variable {c : α}

theorem cutAt_skip {a : List α} (ha : c ∉ a) (s : List α) :
    cutAt [c, c] (a ++ s) = (cutAt [c, c] s).map fun p => (a ++ p.1, p.2) := by
  induction a with
  | nil => simp
  | cons x a ih =>
    have hx : x ≠ c := fun h => ha (h ▸ List.mem_cons_self)
    rw [List.cons_append, cutAt, if_neg (by simp [List.isPrefixOf, Ne.symm hx]),
      ih fun h => ha (List.mem_cons_of_mem x h), Option.map_map]
    rfl

/-- A line. -/
theorem clean_line {w : List α} (hw : c ∉ w) : Clean [c, c] w := by
  rw [Clean, framed, cutAt_skip hw]
  simp [cutAt, List.isPrefixOf]

/-- Two lines, of which the second is not empty. -/
theorem clean_lines {a b : List α} (ha : c ∉ a) (hb : c ∉ b) (hne : b ≠ []) : Clean [c, c] (a ++ c :: b) := by
  obtain ⟨x, b, rfl⟩ := List.exists_cons_of_ne_nil hne
  have hx : x ≠ c := fun h => hb (h ▸ List.mem_cons_self)
  have hcut : cutAt [c, c] (c :: (x :: b ++ [c, c])) = some (c :: x :: b, []) := by
    rw [cutAt, if_neg (by simp [List.isPrefixOf, Ne.symm hx]), cutAt_skip hb]
    simp [cutAt, List.isPrefixOf]
  rw [Clean, framed, List.append_assoc, cutAt_skip ha, List.cons_append, hcut]
  rfl

end Doubled

end Lib
