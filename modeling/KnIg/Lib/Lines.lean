/-
Text read line by line with `fgets`, and blanks taken off both ends. A line that fits the buffer is read as it is; a
longer one comes in pieces. What stands between blanks is what is left of it when they are taken off.
-/
import KnIg.Lib.Bytes
import Mathlib.Data.List.DropRight

namespace Lib

/-! ## Lines -/

/-- What one `fgets` into `n` bytes reads: no further than the first newline. -/
def fgets (n : Nat) (s : Bytes) : Bytes := (s.take (n - 1)).take ((s.take (n - 1)).idxOf 10 + 1)

/-- What `fgets` reads up to the end, one call after the other; no call is made on the end but the last. -/
def fgetsLoop (n : Nat) : Nat → Bytes → List Bytes
  | 0, _ => []
  | fuel + 1, s => if s = [] then [] else fgets n s :: fgetsLoop n fuel (s.drop (fgets n s).length)

def fgetsAll (n : Nat) (s : Bytes) : List Bytes := fgetsLoop n s.length s

/-- A line and its newline. -/
def ended (line : Bytes) : Bytes := line ++ [10]

section Lines

variable {n : Nat} {s : Bytes}

theorem fgets_ne_nil (hn : 2 ≤ n) (hs : s ≠ []) : fgets n s ≠ [] := by
  unfold fgets
  rw [ne_eq, List.take_eq_nil_iff, List.take_eq_nil_iff]
  rintro (h | h | h)
  · omega
  · omega
  · exact hs h

theorem drop_fgets_lt (hn : 2 ≤ n) (hs : s ≠ []) : (s.drop (fgets n s).length).length < s.length := by
  have hpos := List.length_pos_of_ne_nil (fgets_ne_nil hn hs)
  have hlen := List.length_pos_of_ne_nil hs
  rw [List.length_drop]
  omega

/-- With as much fuel as bytes, or more, the loop comes to the end. -/
theorem fgetsLoop_eq (hn : 2 ≤ n) : ∀ {fuel : Nat} {s : Bytes}, s.length ≤ fuel → fgetsLoop n fuel s = fgetsAll n s
  | 0, s, h => by
    obtain rfl := List.length_eq_zero_iff.1 (Nat.le_zero.1 h)
    rfl
  | fuel + 1, s, h => by
    by_cases hs : s = []
    · rw [hs]
      rfl
    · obtain ⟨k, hk⟩ := Nat.exists_eq_succ_of_ne_zero (List.length_pos_of_ne_nil hs).ne'
      have hlt := drop_fgets_lt hn hs
      rw [fgetsAll, hk, fgetsLoop, fgetsLoop, if_neg hs, if_neg hs, fgetsLoop_eq hn (by omega),
        fgetsLoop_eq hn (by omega)]

theorem fgetsAll_cons (hn : 2 ≤ n) (hs : s ≠ []) :
    fgetsAll n s = fgets n s :: fgetsAll n (s.drop (fgets n s).length) := by
  obtain ⟨k, hk⟩ := Nat.exists_eq_succ_of_ne_zero (List.length_pos_of_ne_nil hs).ne'
  have hlt := drop_fgets_lt hn hs
  rw [fgetsAll, hk, fgetsLoop, if_neg hs, fgetsLoop_eq hn (by omega)]

/-- A line that fits is read with its newline. -/
theorem fgets_ended {line : Bytes} (hline : 10 ∉ line) (hfits : line.length + 2 ≤ n) (rest : Bytes) :
    fgets n (ended line ++ rest) = ended line := by
  have hlen : (ended line).length = line.length + 1 := List.length_append
  have htake : (ended line ++ rest).take (n - 1) = line ++ 10 :: rest.take (n - 1 - (line.length + 1)) := by
    rw [List.take_append, hlen, List.take_of_length_le (by omega), ended, List.append_assoc]
    rfl
  have hidx : (line ++ 10 :: rest.take (n - 1 - (line.length + 1))).idxOf 10 = line.length := by
    rw [List.idxOf_append_of_notMem hline, List.idxOf_cons_self, Nat.add_zero]
  rw [fgets, htake, hidx, List.take_append, List.take_of_length_le (by omega), Nat.add_sub_cancel_left]
  rfl

/-- Lines that fit are read one by one. -/
theorem fgetsAll_ended (lines : List Bytes) (h : ∀ line ∈ lines, 10 ∉ line ∧ line.length + 2 ≤ n) :
    fgetsAll n (lines.flatMap ended) = lines.map ended := by
  induction lines with
  | nil => rfl
  | cons line lines ih =>
    obtain ⟨hline, hfits⟩ := h line List.mem_cons_self
    have hread := fgets_ended hline hfits (lines.flatMap ended)
    rw [List.flatMap_cons, fgetsAll_cons (by omega) (by simp [ended]), hread, List.drop_left,
      ih fun l hl => h l (List.mem_cons_of_mem line hl), List.map_cons]

end Lines

/-! ## Blanks at the ends -/

section Trim

variable {α : Type} (p q : α → Bool)

/-- What is left without the leading elements of one kind and the trailing ones of another. -/
def trimWith (s : List α) : List α := (s.dropWhile p).rdropWhile q

/-- Nothing to take off at either end. -/
structure Bare (s : List α) : Prop where
  head : ∀ c, s.head? = some c → p c = false
  last : ∀ c, s.getLast? = some c → q c = false

variable {p q}

theorem trimWith_sublist (s : List α) : (trimWith p q s).Sublist s :=
  (List.rdropWhile_prefix _ _).sublist.trans (List.dropWhile_suffix _).sublist

theorem Bare.dropWhile {s : List α} (h : Bare p q s) : s.dropWhile p = s := by
  cases s with
  | nil => rfl
  | cons c s => exact List.dropWhile_cons_of_neg (by rw [h.head c rfl]; simp)

theorem Bare.rdropWhile {s : List α} (h : Bare p q s) : s.rdropWhile q = s :=
  List.rdropWhile_eq_self_iff.2 fun hne => by
    rw [h.last _ (List.getLast?_eq_some_getLast hne)]
    simp

theorem Bare.trimWith {s : List α} (h : Bare p q s) : Lib.trimWith p q s = s := by
  rw [Lib.trimWith, h.dropWhile, h.rdropWhile]

/-- What stands between blanks. -/
theorem trimWith_padded {pre body post : List α} (h : Bare p q body) (hpre : ∀ c ∈ pre, p c = true)
    (hpost : ∀ c ∈ post, q c = true) : trimWith p q (pre ++ (body ++ post)) = body := by
  unfold Lib.trimWith
  rw [List.dropWhile_append_of_pos hpre]
  by_cases hbody : body = []
  · rw [hbody, List.nil_append]
    exact List.rdropWhile_eq_nil_iff.2 fun c hc => hpost c ((List.dropWhile_suffix _).subset hc)
  · obtain ⟨c, body, rfl⟩ := List.exists_cons_of_ne_nil hbody
    rw [List.cons_append, List.dropWhile_cons_of_neg (by rw [h.head c rfl]; simp), ← List.cons_append]
    unfold List.rdropWhile
    rw [List.reverse_append, List.dropWhile_append_of_pos fun d hd => hpost d (List.mem_reverse.1 hd)]
    exact h.rdropWhile

theorem trimWith_append {body post : List α} (h : Bare p q body) (hpost : ∀ c ∈ post, q c = true) :
    trimWith p q (body ++ post) = body := @trimWith_padded α p q [] body post h (by simp) hpost

theorem trimWith_prepend {pre body : List α} (h : Bare p q body) (hpre : ∀ c ∈ pre, p c = true) :
    trimWith p q (pre ++ body) = body := by
  have hpadded := @trimWith_padded α p q pre body [] h hpre (by simp)
  rwa [List.append_nil] at hpadded

end Trim

end Lib
