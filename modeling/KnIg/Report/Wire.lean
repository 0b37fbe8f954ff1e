/-
The report's events as they stand on the wire: a value as JSON text, an event as two lines and a blank one, in UTF-8.
The text of a value has no line breaks, whatever is in its strings, so that the blank lines of a stream are the ends of
its events.
-/
import KnIg.Lib.Bytes
import KnIg.Lib.Frames
import KnIg.Report.Request
import KnIg.Report.Schemas

namespace KnIg.Report

open Lib Lib.Text

/-! ## JSON -/

/-- A hexadecimal digit. -/
def hexChar (n : Nat) : Nat := if n < 10 then 48 + n else 87 + n

/-- A character inside quotes; what is not ASCII stays as it is. -/
def jsonChar (c : Nat) : Str :=
  if c = 34 then txt "\\\""
  else if c = 92 then txt "\\\\"
  else if c = 10 then txt "\\n"
  else if c = 13 then txt "\\r"
  else if c = 9 then txt "\\t"
  else if c = 12 then txt "\\f"
  else if c = 8 then txt "\\b"
  else if c < 32 then txt "\\u00" ++ [hexChar (c / 16), hexChar (c % 16)]
  else [c]

def jsonStr (s : Str) : Str := txt "\"" ++ (s.flatMap jsonChar ++ txt "\"")

/-- The texts with a comma between them. -/
def commas (texts : List Str) : Str := (texts.intersperse (txt ", ")).flatten

section Dumps

variable (floatText : PyFloat → Str)

mutual

/-- `json.dumps` with `ensure_ascii=False`; a float's text is its `repr`, or a name where it is not a number. -/
def dumps : PyVal → Str
  | .none => txt "null"
  | .bool b => if b then txt "true" else txt "false"
  | .int n => dec n
  | .float x => floatText x
  | .str s => jsonStr s
  | .list vs => txt "[" ++ (commas (dumpsList vs) ++ txt "]")
  | .dict kvs => txt "\x7b" ++ (commas (dumpsFields kvs) ++ txt "\x7d")

def dumpsList : List PyVal → List Str
  | [] => []
  | v :: vs => dumps v :: dumpsList vs

def dumpsFields : List (Str × PyVal) → List Str
  | [] => []
  | (key, v) :: kvs => (jsonStr key ++ (txt ": " ++ dumps v)) :: dumpsFields kvs

end

end Dumps

/-! ## Events -/

inductive StreamEvent where
  | skeleton (data : PyVal)
  | token (t : Str)
  | patch (data : PyVal)
  | done

namespace StreamEvent

def name : StreamEvent → Str
  | skeleton _ => txt "skeleton"
  | token _ => txt "token"
  | patch _ => txt "patch"
  | done => txt "done"

def data : StreamEvent → PyVal
  | skeleton data | patch data => data
  | token t => .dict [(txt "t", .str t)]
  | done => .dict []

/-- `_sse`, without the blank line at its end. -/
def frame (floatText : PyFloat → Str) (e : StreamEvent) : Str :=
  txt "event: " ++ e.name ++ 10 :: (txt "data: " ++ dumps floatText e.data)

end StreamEvent

/-! ## UTF-8 -/

def utf8Char (c : Nat) : Bytes :=
  if c < 0x80 then [UInt8.ofNat c]
  else if c < 0x800 then [UInt8.ofNat (0xC0 + c / 0x40), UInt8.ofNat (0x80 + c % 0x40)]
  else if c < 0x10000 then
    [UInt8.ofNat (0xE0 + c / 0x1000), UInt8.ofNat (0x80 + c / 0x40 % 0x40), UInt8.ofNat (0x80 + c % 0x40)]
  else
    [UInt8.ofNat (0xF0 + c / 0x40000 % 8), UInt8.ofNat (0x80 + c / 0x1000 % 0x40), UInt8.ofNat (0x80 + c / 0x40 % 0x40),
      UInt8.ofNat (0x80 + c % 0x40)]

def utf8 (s : Str) : Bytes := s.flatMap utf8Char

/-- A lone surrogate cannot be encoded. -/
def encodable (s : Str) : Bool := s.all fun c => c < 0xD800 ∨ 0xDFFF < c

/-! ## Line breaks -/

theorem notMem_txt_repr (n : Nat) : 10 ∉ txt (Nat.repr n) := by
  intro h
  obtain ⟨c, hc, heq⟩ := List.mem_map.1 h
  rw [Nat.toList_repr] at hc
  have hdigit := Nat.isDigit_of_mem_toDigits (by decide) (by decide) hc
  simp only [Char.isDigit, Bool.and_eq_true, decide_eq_true_eq] at hdigit
  have hlow : 48 ≤ c.toNat := hdigit.1
  omega

theorem notMem_dec (n : Int) : 10 ∉ dec n := by
  cases n with
  | ofNat n => exact notMem_txt_repr n
  | negSucc n =>
    have htext : dec (Int.negSucc n) = 45 :: txt (Nat.repr (n + 1)) := by
      show ("-" ++ Nat.repr (n + 1)).toList.map Char.toNat = _
      rw [String.toList_append]
      rfl
    rw [htext, List.mem_cons, not_or]
    exact ⟨by decide, notMem_txt_repr (n + 1)⟩

theorem hexChar_ge (n : Nat) : 48 ≤ hexChar n := by
  unfold hexChar
  split <;> omega

theorem notMem_jsonChar (c : Nat) : 10 ∉ jsonChar c := by
  unfold jsonChar
  iterate 7
    split
    · decide
  split
  · have h1 := hexChar_ge (c / 16)
    have h2 := hexChar_ge (c % 16)
    rw [List.mem_append, not_or]
    refine ⟨by decide, ?_⟩
    simp only [List.mem_cons, List.not_mem_nil, or_false, not_or]
    omega
  · rename_i hne _ _ _ _ _
    simp only [List.mem_singleton]
    omega

theorem notMem_jsonStr (s : Str) : 10 ∉ jsonStr s := by
  simp only [jsonStr, List.mem_append, List.mem_flatMap, not_or, not_exists, not_and]
  exact ⟨by decide, fun c _ => notMem_jsonChar c, by decide⟩

theorem notMem_commas : ∀ {texts : List Str}, (∀ t ∈ texts, 10 ∉ t) → 10 ∉ commas texts
  | [], _ => by simp [commas]
  | [t], h => by
    rw [show commas [t] = t ++ [] from rfl, List.append_nil]
    exact h t List.mem_cons_self
  | t :: u :: texts, h => by
    rw [show commas (t :: u :: texts) = t ++ (txt ", " ++ commas (u :: texts)) from rfl, List.mem_append,
      List.mem_append, not_or, not_or]
    exact ⟨h t List.mem_cons_self, by decide, notMem_commas fun v hv => h v (List.mem_cons_of_mem t hv)⟩

section Dumps

variable {floatText : PyFloat → Str}

mutual

theorem notMem_dumps (hfloat : ∀ x, 10 ∉ floatText x) : ∀ v, 10 ∉ dumps floatText v
  | .none => by rw [dumps]; decide
  | .bool b => by
    rw [dumps]
    cases b <;> decide
  | .int n => by
    rw [dumps]
    exact notMem_dec n
  | .float x => by
    rw [dumps]
    exact hfloat x
  | .str s => by
    rw [dumps]
    exact notMem_jsonStr s
  | .list vs => by
    rw [dumps, List.mem_append, List.mem_append, not_or, not_or]
    exact ⟨by decide, notMem_commas (notMem_dumpsList hfloat vs), by decide⟩
  | .dict kvs => by
    rw [dumps, List.mem_append, List.mem_append, not_or, not_or]
    exact ⟨by decide, notMem_commas (notMem_dumpsFields hfloat kvs), by decide⟩

theorem notMem_dumpsList (hfloat : ∀ x, 10 ∉ floatText x) : ∀ vs, ∀ t ∈ dumpsList floatText vs, 10 ∉ t
  | [] => by simp [dumpsList]
  | v :: vs => by
    rw [dumpsList, List.forall_mem_cons]
    exact ⟨notMem_dumps hfloat v, notMem_dumpsList hfloat vs⟩

theorem notMem_dumpsFields (hfloat : ∀ x, 10 ∉ floatText x) : ∀ kvs, ∀ t ∈ dumpsFields floatText kvs, 10 ∉ t
  | [] => by simp [dumpsFields]
  | (key, v) :: kvs => by
    rw [dumpsFields, List.forall_mem_cons, List.mem_append, List.mem_append, not_or, not_or]
    exact ⟨⟨notMem_jsonStr key, by decide, notMem_dumps hfloat v⟩, notMem_dumpsFields hfloat kvs⟩

end

end Dumps

/-- A line break is a byte of its own. -/
theorem newline_of_mem_utf8Char {c : Nat} (h : 0x0A ∈ utf8Char c) : c = 10 := by
  have hval : ∀ n, (0x0A : UInt8) = UInt8.ofNat n → n % 256 = 10 := by
    intro n hn
    have := congrArg UInt8.toNat hn
    rw [UInt8.toNat_ofNat'] at this
    exact this.symm
  unfold utf8Char at h
  split at h
  · have := hval c (List.mem_singleton.1 h)
    omega
  split at h
  · simp only [List.mem_cons, List.not_mem_nil, or_false] at h
    rcases h with h | h
    all_goals
      have := hval _ h
      omega
  split at h
  · simp only [List.mem_cons, List.not_mem_nil, or_false] at h
    rcases h with h | h | h
    all_goals
      have := hval _ h
      omega
  · simp only [List.mem_cons, List.not_mem_nil, or_false] at h
    rcases h with h | h | h | h
    all_goals
      have := hval _ h
      omega

theorem notMem_utf8 {s : Str} (h : 10 ∉ s) : 0x0A ∉ utf8 s := by
  intro hmem
  obtain ⟨c, hc, hbyte⟩ := List.mem_flatMap.1 hmem
  exact h (newline_of_mem_utf8Char hbyte ▸ hc)

theorem utf8_append (s t : Str) : utf8 (s ++ t) = utf8 s ++ utf8 t := List.flatMap_append

/-- An event ends at its blank line. -/
theorem clean_frame {floatText : PyFloat → Str} (hfloat : ∀ x, 10 ∉ floatText x) (e : StreamEvent) :
    Clean [0x0A, 0x0A] (utf8 (e.frame floatText)) := by
  have hframe : utf8 (e.frame floatText) =
      utf8 (txt "event: " ++ e.name) ++ 0x0A :: utf8 (txt "data: " ++ dumps floatText e.data) := by
    rw [StreamEvent.frame, utf8_append]
    rfl
  have hname : 10 ∉ txt "event: " ++ e.name := by
    cases e
    · exact (by decide : 10 ∉ txt "event: " ++ txt "skeleton")
    · exact (by decide : 10 ∉ txt "event: " ++ txt "token")
    · exact (by decide : 10 ∉ txt "event: " ++ txt "patch")
    · exact (by decide : 10 ∉ txt "event: " ++ txt "done")
  have hdata : 10 ∉ txt "data: " ++ dumps floatText e.data := by
    rw [List.mem_append, not_or]
    exact ⟨by decide, notMem_dumps hfloat e.data⟩
  rw [hframe]
  refine clean_lines (notMem_utf8 hname) (notMem_utf8 hdata) ?_
  rw [utf8_append]
  exact List.append_ne_nil_of_left_ne_nil (by decide) _

end KnIg.Report
