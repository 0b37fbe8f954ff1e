/-
Strings as lists of code points: the tests for a beginning, an end and a part, the piece before or
behind a separator, and the first of a list of rules that matches.
-/
import Mathlib.Data.List.Basic
import Mathlib.Data.List.Infix

namespace Lib.Text

/-- A string as its code points. Lone surrogates are code points like others. -/
abbrev Str := List Nat

instance : LawfulBEq Str := inferInstance

/-- The code points of a text. -/
def txt (s : String) : Str := s.toList.map Char.toNat

def startsWith (s : Str) (a : String) : Bool := (txt a).isPrefixOf s

def endsWith (s : Str) (a : String) : Bool := (txt a).isSuffixOf s

/-- Whether a text occurs somewhere in a string. -/
def contains (s : Str) (a : String) : Bool := s.tails.any (txt a).isPrefixOf

/-- Whether a string ends in a dot and one of the words. -/
def hasExt (words : List String) (s : Str) : Bool := words.any fun w => (46 :: txt w).isSuffixOf s

/-- The piece of a string before its first separator. -/
def before (sep : Nat) (s : Str) : Str := s.takeWhile (· ≠ sep)

/-- The piece of a string behind its last separator. -/
def behind (sep : Nat) (s : Str) : Str := (s.reverse.takeWhile (· ≠ sep)).reverse

theorem txt_injective : Function.Injective txt := by
  intro a b h
  exact String.toList_inj.1 (List.map_injective_iff.2 (fun _ _ => Char.toNat_inj.1) h)

/-- Texts compare as the strings they are of. -/
theorem txt_beq (a b : String) : (txt a == txt b) = (a == b) := by
  rw [Bool.eq_iff_iff, beq_iff_eq, beq_iff_eq]
  exact txt_injective.eq_iff

section Rules

variable {α : Type} (p : α → Bool) (d : α)

/-- The first rule that matches, or the default. -/
def firstMatch (rules : List α) : α := (rules.find? p).getD d

@[simp] theorem firstMatch_nil : firstMatch p d [] = d := rfl

theorem firstMatch_cons (r : α) (rs : List α) :
    firstMatch p d (r :: rs) = if p r = true then r else firstMatch p d rs := by
  unfold firstMatch
  rw [List.find?_cons]
  cases p r <;> rfl

/-- What comes out is the default or a rule that matches. -/
theorem firstMatch_cases (rs : List α) :
    firstMatch p d rs = d ∨ firstMatch p d rs ∈ rs ∧ p (firstMatch p d rs) = true := by
  induction rs with
  | nil => exact Or.inl rfl
  | cons r rs ih =>
    rw [firstMatch_cons]
    split
    · rename_i h
      exact Or.inr ⟨List.mem_cons_self, h⟩
    · rcases ih with h | ⟨hm, h⟩
      · exact Or.inl h
      · exact Or.inr ⟨List.mem_cons_of_mem _ hm, h⟩

end Rules

end Lib.Text
