/-
What the agent reads out of `/proc/<pid>/stat`. The name of the process stands in parentheses and may itself have
parentheses and blanks, so it ends at the last closing one; behind it fields are counted by blanks. The theorem is about
every line that the kernel prints into the agent's buffer.
-/
import KnIg.Agent.Queue
import KnIg.Lib.Strtol

namespace KnIg.Agent

open Lib

/-! ## The source's functions -/

/-- What one `read` gives of a file with room for `buflen` bytes and a terminator. -/
def readFileBuf (file : Option Bytes) (buflen : Nat) : Option Bytes := file.map (·.take (buflen - 1))

namespace CharArr

variable {n : Nat}

/-- Write bytes and a terminator at the beginning. -/
def store (a : CharArr n) (s : Bytes) : CharArr n where
  bytes := (s ++ 0 :: a.bytes.drop (s.length + 1)).take n
  size := by
    rw [List.length_take, List.length_append, List.length_cons, List.length_drop, a.size]
    omega

/-- `snprintf` into the array. -/
def snprintf (a : CharArr n) (text : Bytes) : CharArr n := a.store (text.take (n - 1))

end CharArr

def formatTty {n : Nat} (ttyNr : UInt64) (out : CharArr n) : CharArr n :=
  let out := out.store []
  if ttyNr = 0 then out
  else
    let major := (ttyNr >>> (8 : UInt64) &&& 0xFF).toUInt32
    let minor := ((ttyNr &&& 0xFF) ||| (ttyNr >>> (12 : UInt64) &&& 0xFFF00)).toUInt32
    if major = 136 then out.snprintf (ascii "pts/" ++ decimal minor.toNat)
    else if major = 4 then out.snprintf (ascii "tty" ++ decimal minor.toNat)
    else out.snprintf (ascii "tty:" ++ decimal major.toNat ++ ascii "," ++ decimal minor.toNat)

/-- What `load_boot_meta` has found out. -/
structure BootMeta where
  bootEpochS : UInt64
  clockTck : Int64

/-- The last closing parenthesis before an index. -/
def findRparen (buf : Bytes) : Nat → Option Nat
  | 0 => none
  | i + 1 => if buf[i]? = some 0x29 then some i else findRparen buf i

/-- `strchr`: the first such byte before the terminator. -/
def strchr (buf : Bytes) (c : UInt8) : Option Nat :=
  let s := buf.takeWhile (· ≠ 0)
  if c ∈ s then some (s.idxOf c) else none

/-- The variables of the loop over the fields. -/
structure StatFields where
  ppid : Int64
  sid : Int64
  ttyNr : UInt64
  starttime : UInt64

/-- The `switch` on the number of a field. -/
def StatFields.store (s : StatFields) (field : Nat) (p : Bytes) : StatFields :=
  if field = 4 then { s with ppid := strtol p }
  else if field = 6 then { s with sid := strtol p }
  else if field = 7 then { s with ttyNr := strtoul p }
  else if field = 22 then { s with starttime := strtoul p }
  else s

namespace StatFields

variable (s : StatFields) (field : Nat) (p : Bytes)

theorem store_ppid : (s.store field p).ppid = if field = 4 then strtol p else s.ppid := by
  unfold store
  split_ifs <;> rfl

theorem store_sid : (s.store field p).sid = if field = 6 then strtol p else s.sid := by
  unfold store
  split_ifs <;> first | rfl | omega

theorem store_ttyNr : (s.store field p).ttyNr = if field = 7 then strtoul p else s.ttyNr := by
  unfold store
  split_ifs <;> first | rfl | omega

theorem store_starttime : (s.store field p).starttime = if field = 22 then strtoul p else s.starttime := by
  unfold store
  split_ifs <;> first | rfl | omega

end StatFields

/-- Neither a blank nor the terminator. -/
def inToken (c : UInt8) : Bool := c ≠ 0 ∧ c ≠ 0x20

/-- The loop over the fields from a number on, as many as are left up to number 22. The list ends where the string
does. -/
def fieldLoop : Nat → Nat → Bytes → StatFields → StatFields
  | 0, _, _, s => s
  | left + 1, field, p, s =>
    if p = [] ∨ p.head? = some 0 then s
    else
      let p := p.dropWhile (· = 0x20)
      fieldLoop left (field + 1) (p.dropWhile inToken) (s.store field (p.takeWhile inToken))

/-- `parse_stat`, with what there is to read of the file. -/
def parseStat (boot : BootMeta) (stat : Option Bytes) (info : ProcInfo) : Option ProcInfo := do
  let buf ← readFileBuf stat 1024
  let rparen ← findRparen buf buf.length
  let lparen ← strchr buf 0x28
  if lparen ≥ rparen then none
  else
    let len := rparen - lparen - 1
    let commLen := if len ≥ 16 then 16 - 1 else len
    let comm := info.comm.store ((buf.drop (lparen + 1)).take commLen)
    let p := buf.drop (rparen + 1)
    let p := p.dropWhile (· = 0x20)
    let p := p.dropWhile inToken
    let s := fieldLoop 19 4 p ⟨0, 0, 0, 0⟩
    let startTimeNs :=
      if boot.bootEpochS ≠ 0 ∧ 0 < boot.clockTck then
        boot.bootEpochS * 1000000000 + s.starttime * (1000000000 / boot.clockTck.toUInt64)
      else 0
    some { info with comm := comm, ppid := s.ppid.toInt32, sid := s.sid.toInt32, startTicks := s.starttime,
                     tty := formatTty s.ttyNr info.tty, startTimeNs := startTimeNs }

/-! ## What the kernel prints -/

/-- The number with which a field is printed, from field 4 on. -/
def statField (fields : List Int) (k : Nat) : Int := fields.getD (k - 4) 0

/-- A line of `/proc/<pid>/stat`: the state is a letter, and the fields have the kernel's types, an `int` for the
parent, the session and the terminal, an `unsigned long long` for the start time. -/
structure StatLine where
  pid : Nat
  comm : CStr
  state : UInt8
  fields : List Int
  letter : (0x41 ≤ state ∧ state ≤ 0x5A) ∨ (0x61 ≤ state ∧ state ≤ 0x7A)
  ppid : -2 ^ 31 ≤ statField fields 4 ∧ statField fields 4 < 2 ^ 31
  sid : -2 ^ 31 ≤ statField fields 6 ∧ statField fields 6 < 2 ^ 31
  ttyNr : -2 ^ 31 ≤ statField fields 7 ∧ statField fields 7 < 2 ^ 31
  starttime : 0 ≤ statField fields 22 ∧ statField fields 22 < 2 ^ 64

namespace StatLine

def renderFields (fields : List Int) : Bytes := fields.flatMap fun z => 0x20 :: signedDecimal z

def render (line : StatLine) : Bytes :=
  decimal line.pid ++ ascii " (" ++ line.comm.bytes ++ ascii ") " ++ [line.state] ++ renderFields line.fields ++ [0x0A]

end StatLine

/-- `new_encode_dev`, as an `int`. -/
def newEncodeDev (major minor : Nat) : Int := Int.bmod (minor % 2 ^ 8 + major * 2 ^ 8 + minor / 2 ^ 8 * 2 ^ 20) (2 ^ 32)

/-- The name of a terminal, and none for the device 0. -/
def ttyName (major minor : Nat) : Bytes :=
  if major = 0 ∧ minor = 0 then []
  else if major = 136 then ascii "pts/" ++ decimal minor
  else if major = 4 then ascii "tty" ++ decimal minor
  else ascii "tty:" ++ decimal major ++ ascii "," ++ decimal minor

/-- The entry has the name, cut to what its array holds, and the fields of the line. -/
structure StatLine.ReadAs (line : StatLine) (info : ProcInfo) : Prop where
  comm : info.comm.str = line.comm.bytes.take 15
  ppid : info.ppid.toInt = statField line.fields 4
  sid : info.sid.toInt = statField line.fields 6
  startTicks : info.startTicks.toNat = statField line.fields 22
  tty : ∀ major minor, major < 256 → minor < 2 ^ 20 → statField line.fields 7 = newEncodeDev major minor →
    info.tty.str = ttyName major minor

/-! ## The name -/

theorem findRparen_eq {x y : Bytes} (hy : 0x29 ∉ y) :
    findRparen (x ++ 0x29 :: y) (x ++ 0x29 :: y).length = some x.length := by
  have hgo : ∀ j ≤ y.length, findRparen (x ++ 0x29 :: y) (x.length + 1 + j) = some x.length := by
    intro j hj
    induction j with
    | zero => simp [findRparen]
    | succ j ih =>
      have hget : (x ++ 0x29 :: y)[x.length + 1 + j]? = y[j]? := by
        rw [List.getElem?_append_right (by omega)]
        have hidx : x.length + 1 + j - x.length = j + 1 := by omega
        rw [hidx, List.getElem?_cons_succ]
      have hne : y[j]? ≠ some 0x29 := fun h => hy (List.mem_of_getElem? h)
      rw [← Nat.add_assoc, findRparen, hget, if_neg hne]
      exact ih (by omega)
  have hlen : (x ++ 0x29 :: y).length = x.length + 1 + y.length := by
    simp only [List.length_append, List.length_cons]
    omega
  rw [hlen]
  exact hgo y.length le_rfl

theorem strchr_eq {x y : Bytes} {c : UInt8} (hc : c ≠ 0) (hx : c ∉ x) (h0 : 0 ∉ x) :
    strchr (x ++ c :: y) c = some x.length := by
  have htake : (x ++ c :: y).takeWhile (· ≠ 0) = x ++ c :: y.takeWhile (· ≠ 0) := by
    rw [List.takeWhile_append_of_pos, List.takeWhile_cons_of_pos]
    · simpa using hc
    · intro a ha
      simpa using fun h : a = 0 => h0 (h ▸ ha)
  unfold strchr
  rw [htake]
  simp only [List.mem_append, List.mem_cons, true_or, or_true, if_true]
  rw [List.idxOf_append_of_notMem hx, List.idxOf_cons_self, Nat.add_zero]

/-! ## The fields -/

namespace StatLine

/-- What is left of a line behind a field: nothing, if that was the last one. -/
def behind (fields : List Int) : Bytes := if fields = [] then [] else renderFields fields ++ [0x0A]

/-- The end of the line belongs to the last field. -/
def lineEnd (fields : List Int) : Bytes := if fields = [] then [0x0A] else []

theorem lineEnd_append_behind (fields : List Int) :
    lineEnd fields ++ behind fields = renderFields fields ++ [0x0A] := by
  unfold lineEnd behind
  split
  · rename_i h
    rw [h]
    rfl
  · rfl

theorem noDigit_lineEnd (fields : List Int) : NoDigit (lineEnd fields) := by
  unfold lineEnd NoDigit
  intro c hc
  split at hc
  · cases hc
    decide
  · cases hc

theorem behind_cons (z : Int) (fields : List Int) :
    behind (z :: fields) = 0x20 :: (signedDecimal z ++ lineEnd fields ++ behind fields) := by
  rw [List.append_assoc, lineEnd_append_behind]
  simp [behind, renderFields]

theorem inToken_signedDecimal {z : Int} {c : UInt8} (hc : c ∈ signedDecimal z) : inToken c := by
  have hdigit : ∀ n, c ∈ decimal n → inToken c := by
    intro n hn
    have hd := digit_of_mem_decimal hn
    unfold isDigit at hd
    rw [decide_eq_true_eq] at hd
    unfold inToken
    rw [decide_eq_true_eq]
    grind
  unfold signedDecimal at hc
  split at hc
  · rcases List.mem_cons.1 hc with rfl | hc
    · decide
    · exact hdigit _ hc
  · exact hdigit _ hc

theorem inToken_token {z : Int} {fields : List Int} {c : UInt8} (hc : c ∈ signedDecimal z ++ lineEnd fields) :
    inToken c := by
  rcases List.mem_append.1 hc with hc | hc
  · exact inToken_signedDecimal hc
  · unfold lineEnd at hc
    split at hc
    · obtain rfl := List.mem_singleton.1 hc
      decide
    · cases hc

/-- A token ends where the next field begins. -/
theorem token_behind {t : Bytes} (ht : ∀ c ∈ t, inToken c) (fields : List Int) :
    (t ++ behind fields).takeWhile inToken = t ∧ (t ++ behind fields).dropWhile inToken = behind fields := by
  rw [List.takeWhile_append_of_pos ht, List.dropWhile_append_of_pos ht]
  cases fields with
  | nil => simp [behind]
  | cons z fields =>
    rw [behind_cons]
    exact ⟨by rw [List.takeWhile_cons_of_neg (by decide), List.append_nil], List.dropWhile_cons_of_neg (by decide)⟩

theorem dropWhile_blank (z : Int) (rest : Bytes) :
    (0x20 :: (signedDecimal z ++ rest)).dropWhile (· = 0x20) = signedDecimal z ++ rest := by
  obtain ⟨c, t, ht⟩ := List.exists_cons_of_ne_nil (show signedDecimal z ≠ [] by
    unfold signedDecimal
    split
    · exact List.cons_ne_nil _ _
    · exact decimal_ne_nil _)
  have hc : inToken c := inToken_signedDecimal (z := z) (ht ▸ List.mem_cons_self)
  unfold inToken at hc
  rw [decide_eq_true_eq] at hc
  rw [List.dropWhile_cons_of_pos (by decide), ht, List.cons_append, List.dropWhile_cons_of_neg (by simpa using hc.2)]

section Getter

variable {α : Type} (get : StatFields → α) (k : Nat) (read : Bytes → α)
  (hstore : ∀ s field p, get (s.store field p) = if field = k then read p else get s)
  (hread : ∀ z rest, NoDigit rest → read (signedDecimal z ++ rest) = read (signedDecimal z))
include hstore hread

/-- A variable of the loop that is read from field `k` is what is printed there, if the line has that many fields. -/
theorem fieldLoop_behind (fields : List Int) (left field : Nat) (hfield : k < field + left) (s : StatFields) :
    get (fieldLoop left field (behind fields) s) =
      if field ≤ k then ((fields[k - field]?).map (read ∘ signedDecimal)).getD (get s) else get s := by
  induction fields generalizing left field s with
  | nil =>
    have hend : fieldLoop left field (behind []) s = s := by
      cases left with
      | zero => rfl
      | succ left => exact if_pos (Or.inl rfl)
    rw [hend]
    simp
  | cons z fields ih =>
    cases left with
    | zero =>
      rw [if_neg (by omega)]
      rfl
    | succ left =>
      obtain ⟨htake, hdrop⟩ := token_behind (fun c => inToken_token (c := c)) fields
      have hgo : ¬ (behind (z :: fields) = [] ∨ (behind (z :: fields)).head? = some 0) := by
        rw [behind_cons]
        simp
      unfold fieldLoop
      rw [if_neg hgo]
      simp only [behind_cons, List.append_assoc, dropWhile_blank]
      rw [← List.append_assoc, htake, hdrop, ih left (field + 1) (by omega), hstore,
        hread z _ (noDigit_lineEnd fields)]
      by_cases heq : field = k
      · subst heq
        simp
      · rw [if_neg heq]
        by_cases hle : field + 1 ≤ k
        · have hidx : k - field = k - (field + 1) + 1 := by omega
          rw [if_pos hle, if_pos (by omega), hidx, List.getElem?_cons_succ]
        · rw [if_neg hle, if_neg (by omega)]

/-- A field that the line does not have is 0, as is the variable at first. -/
theorem fieldLoop_field (fields : List Int) (hk : 4 ≤ k ∧ k ≤ 22) (hzero : get ⟨0, 0, 0, 0⟩ = read (signedDecimal 0)) :
    get (fieldLoop 19 4 (behind fields) ⟨0, 0, 0, 0⟩) = read (signedDecimal (statField fields k)) := by
  rw [fieldLoop_behind get k read hstore hread fields 19 4 (by omega), if_pos hk.1, hzero]
  unfold statField
  rw [List.getD_eq_getElem?_getD]
  cases fields[k - 4]? <;> rfl

end Getter

end StatLine

/-! ## The terminal -/

theorem and_high (n : Nat) : n &&& 0xFFF00 = n / 2 ^ 8 % 2 ^ 12 * 2 ^ 8 := by
  have hmask : 0xFFF00 = (2 ^ 12 - 1) * 2 ^ 8 := by decide
  apply Nat.eq_of_testBit_eq
  intro i
  rw [hmask, Nat.testBit_and, Nat.testBit_mul_two_pow, Nat.testBit_mul_two_pow, Nat.testBit_two_pow_sub_one,
    Nat.testBit_mod_two_pow, Nat.testBit_div_two_pow]
  by_cases hi : 8 ≤ i
  · simp [hi, Nat.sub_add_cancel hi, Bool.and_comm]
  · simp [hi]

/-- The two parts of the minor number. -/
theorem minor_bits (n : Nat) : (n &&& 0xFF) ||| (n / 2 ^ 12 &&& 0xFFF00) = n % 2 ^ 8 + n / 2 ^ 20 % 2 ^ 12 * 2 ^ 8 := by
  have hlow : n &&& 0xFF = n % 2 ^ 8 := Nat.and_two_pow_sub_one_eq_mod n 8
  have hor := Nat.two_pow_add_eq_or_of_lt (i := 8) (Nat.mod_lt n (by decide : 0 < 2 ^ 8)) (n / 2 ^ 20 % 2 ^ 12)
  rw [and_high, hlow, Nat.div_div_eq_div_mul, ← Nat.pow_add, Nat.or_comm, Nat.mul_comm, ← hor]
  omega

/-- A number that `strtoul` reads is the `int` that was printed in its low bits. -/
theorem ofInt_newEncodeDev {major minor : Nat} (hmajor : major < 256) (hminor : minor < 2 ^ 20) :
    ∃ high, (UInt64.ofInt (newEncodeDev major minor)).toNat =
        minor % 2 ^ 8 + major * 2 ^ 8 + minor / 2 ^ 8 * 2 ^ 20 + high * 2 ^ 32 ∧
      (major = 0 ∧ minor = 0 → high = 0) := by
  have hlt : ((minor % 2 ^ 8 + major * 2 ^ 8 + minor / 2 ^ 8 * 2 ^ 20 : Nat) : Int) < 2 ^ 32 := by omega
  unfold newEncodeDev
  rw [UInt64.ofInt, UInt64.toNat_ofNat', Int.bmod_def]
  push_cast at hlt ⊢
  split
  · exact ⟨0, by omega, fun _ => rfl⟩
  · exact ⟨2 ^ 32 - 1, by omega, by omega⟩

theorem CharArr.str_store {n : Nat} (a : CharArr n) {s : Bytes} (h0 : 0 ∉ s) (hs : s.length < n) :
    (a.store s).str = s := by
  have htake : (a.store s).bytes = s ++ 0 :: (a.bytes.drop (s.length + 1)).take (n - (s.length + 1)) := by
    obtain ⟨k, hk⟩ : ∃ k, n - s.length = k + 1 := ⟨n - s.length - 1, by omega⟩
    have hk' : n - (s.length + 1) = k := by omega
    show (s ++ 0 :: a.bytes.drop (s.length + 1)).take n = _
    rw [List.take_append, List.take_of_length_le hs.le, hk, hk', List.take_succ_cons]
  unfold CharArr.str
  rw [htake, List.takeWhile_append_of_pos, List.takeWhile_cons_of_neg (by simp), List.append_nil]
  intro c hc
  simpa using fun h : c = 0 => h0 (h ▸ hc)

theorem CharArr.str_snprintf {n : Nat} (a : CharArr n) {text : Bytes} (h0 : 0 ∉ text) (hs : text.length < n) :
    (a.snprintf text).str = text := by
  unfold CharArr.snprintf
  rw [List.take_of_length_le (by omega)]
  exact a.str_store h0 hs

theorem length_decimal_le {n k : Nat} (hk : 0 < k) (hn : n < 10 ^ k) : (decimal n).length ≤ k := by
  unfold decimal
  rw [List.length_map]
  exact (Nat.length_toDigits_le_iff (by decide) hk).2 hn

theorem ttyName_fits {major minor : Nat} (hmajor : major < 256) (hminor : minor < 2 ^ 20) :
    0 ∉ ttyName major minor ∧ (ttyName major minor).length < 32 := by
  have hmajor' : (decimal major).length ≤ 3 := length_decimal_le (by decide) (by omega)
  have hminor' : (decimal minor).length ≤ 7 := length_decimal_le (by decide) (by omega)
  have h0 := zero_notMem_decimal major
  have h0' := zero_notMem_decimal minor
  have hpts : 0 ∉ ascii "pts/" ∧ (ascii "pts/").length = 4 := by decide
  have htty : 0 ∉ ascii "tty" ∧ (ascii "tty").length = 3 := by decide
  have hcolon : 0 ∉ ascii "tty:" ∧ (ascii "tty:").length = 4 := by decide
  have hcomma : 0 ∉ ascii "," ∧ (ascii ",").length = 1 := by decide
  unfold ttyName
  split
  · simp
  split
  · simp only [List.mem_append, List.length_append, not_or]
    exact ⟨⟨hpts.1, h0'⟩, by omega⟩
  split
  · simp only [List.mem_append, List.length_append, not_or]
    exact ⟨⟨htty.1, h0'⟩, by omega⟩
  · simp only [List.mem_append, List.length_append, not_or]
    exact ⟨⟨⟨⟨hcolon.1, h0⟩, hcomma.1⟩, h0'⟩, by omega⟩

/-- The name is the one of the device that the kernel has printed. -/
theorem formatTty_str (out : CharArr 32) {major minor : Nat} (hmajor : major < 256) (hminor : minor < 2 ^ 20) :
    (formatTty (UInt64.ofInt (newEncodeDev major minor)) out).str = ttyName major minor := by
  obtain ⟨high, hx, hhigh⟩ := ofInt_newEncodeDev hmajor hminor
  generalize UInt64.ofInt (newEncodeDev major minor) = x at hx
  obtain ⟨h0, hlen⟩ := ttyName_fits hmajor hminor
  have hzero : x = 0 ↔ major = 0 ∧ minor = 0 := by
    rw [← UInt64.toNat_inj, UInt64.toNat_zero]
    omega
  have hmaj : (x >>> (8 : UInt64) &&& 0xFF).toUInt32.toNat = major := by
    have hbits : (x >>> (8 : UInt64) &&& 0xFF).toNat = x.toNat / 2 ^ 8 % 2 ^ 8 := by
      rw [← Nat.shiftRight_eq_div_pow]
      exact Nat.and_two_pow_sub_one_eq_mod (x.toNat >>> 8) 8
    rw [UInt64.toNat_toUInt32, hbits]
    omega
  have hmin : ((x &&& 0xFF) ||| (x >>> (12 : UInt64) &&& 0xFFF00)).toUInt32.toNat = minor := by
    have hbits : ((x &&& 0xFF) ||| (x >>> (12 : UInt64) &&& 0xFFF00)).toNat =
        x.toNat % 2 ^ 8 + x.toNat / 2 ^ 20 % 2 ^ 12 * 2 ^ 8 := by
      rw [← minor_bits, ← Nat.shiftRight_eq_div_pow _ 12]
      rfl
    rw [UInt64.toNat_toUInt32, hbits]
    omega
  unfold formatTty
  generalize (x >>> (8 : UInt64) &&& 0xFF).toUInt32 = majorN at hmaj ⊢
  generalize ((x &&& 0xFF) ||| (x >>> (12 : UInt64) &&& 0xFFF00)).toUInt32 = minorN at hmin ⊢
  subst hmaj hmin
  by_cases hx0 : x = 0
  · have hname : ttyName majorN.toNat minorN.toNat = [] := if_pos (hzero.1 hx0)
    simp only [if_pos hx0, hname]
    exact out.str_store (by simp) (by decide)
  · have hname : ∀ a : CharArr 32, (if majorN = 136 then a.snprintf (ascii "pts/" ++ decimal minorN.toNat)
        else if majorN = 4 then a.snprintf (ascii "tty" ++ decimal minorN.toNat)
        else a.snprintf (ascii "tty:" ++ decimal majorN.toNat ++ ascii "," ++ decimal minorN.toNat)) =
        a.snprintf (ttyName majorN.toNat minorN.toNat) := by
      intro a
      have h136 : majorN = 136 ↔ majorN.toNat = 136 := UInt32.toNat_inj.symm
      have h4 : majorN = 4 ↔ majorN.toNat = 4 := UInt32.toNat_inj.symm
      unfold ttyName
      rw [if_neg fun h => hx0 (hzero.2 h)]
      simp only [h136, h4]
      split
      · rfl
      split <;> rfl
    simp only [if_neg hx0, hname]
    exact CharArr.str_snprintf _ h0 hlen

/-! ## The whole line -/

theorem decimal_notMem {n : Nat} {c : UInt8} (hc : isDigit c = false) : c ∉ decimal n := fun h => by
  rw [digit_of_mem_decimal h] at hc
  cases hc

theorem StatLine.rparen_notMem_behind (line : StatLine) (fields : List Int) :
    0x29 ∉ line.state :: (renderFields fields ++ [0x0A]) := by
  intro h
  rcases List.mem_cons.1 h with h | h
  · have hletter := line.letter
    rw [← h] at hletter
    revert hletter
    decide
  rcases List.mem_append.1 h with h | h
  · unfold renderFields at h
    obtain ⟨z, -, hz⟩ := List.mem_flatMap.1 h
    rcases List.mem_cons.1 hz with hz | hz
    · cases hz
    · unfold signedDecimal at hz
      split at hz
      · rcases List.mem_cons.1 hz with hz | hz
        · cases hz
        · exact decimal_notMem (by decide) hz
      · exact decimal_notMem (by decide) hz
  · cases List.mem_singleton.1 h

namespace StatLine

variable (line : StatLine)

/-- What stands before the name, between its parenthesis and the last one, and behind that. -/
def beforeName : Bytes := decimal line.pid ++ [0x20]

def behindName : Bytes := 0x20 :: line.state :: (renderFields line.fields ++ [0x0A])

theorem render_eq : line.render = line.beforeName ++ 0x28 :: (line.comm.bytes ++ 0x29 :: line.behindName) := by
  have hopen : ascii " (" = [0x20, 0x28] := by decide
  have hclose : ascii ") " = [0x29, 0x20] := by decide
  unfold render beforeName behindName
  rw [hopen, hclose]
  simp

theorem findRparen_render :
    findRparen line.render line.render.length = some (line.beforeName.length + 1 + line.comm.bytes.length) := by
  have hend : 0x29 ∉ line.behindName := by
    unfold behindName
    rw [List.mem_cons, not_or]
    exact ⟨by decide, line.rparen_notMem_behind line.fields⟩
  have hrender : line.render = (line.beforeName ++ 0x28 :: line.comm.bytes) ++ 0x29 :: line.behindName := by
    rw [render_eq]
    simp
  rw [hrender, findRparen_eq hend]
  simp only [List.length_append, List.length_cons]
  congr 1
  omega

theorem strchr_render : strchr line.render 0x28 = some line.beforeName.length := by
  have hnot : ∀ c, isDigit c = false → c ≠ 0x20 → c ∉ line.beforeName := by
    intro c hc hblank h
    rcases List.mem_append.1 h with h | h
    · exact decimal_notMem hc h
    · exact hblank (List.mem_singleton.1 h)
  rw [render_eq]
  exact strchr_eq (by decide) (hnot _ (by decide) (by decide)) (hnot _ (by decide) (by decide))

/-- The loop begins behind the state. -/
theorem behindName_dropWhile :
    (line.behindName.dropWhile (· = 0x20)).dropWhile inToken = behind line.fields := by
  have hstate : line.state ≠ 0x20 ∧ line.state ≠ 0 := by
    have hletter := line.letter
    constructor
    · rintro h
      rw [h] at hletter
      revert hletter
      decide
    · rintro h
      rw [h] at hletter
      revert hletter
      decide
  unfold behindName
  rw [List.dropWhile_cons_of_pos (by decide), List.dropWhile_cons_of_neg (by simpa using hstate.1),
    ← lineEnd_append_behind, ← List.cons_append]
  refine (token_behind ?_ line.fields).2
  intro c hc
  rcases List.mem_cons.1 hc with rfl | hc
  · unfold inToken
    rw [decide_eq_true_eq]
    exact ⟨hstate.2, hstate.1⟩
  · exact inToken_token (z := 0) (List.mem_append_right _ hc)

end StatLine

/-- A line that fits the buffer is read as what it was printed from, whatever the name of the process. -/
theorem parseStat_render (boot : BootMeta) (line : StatLine) (info : ProcInfo) (hfits : line.render.length ≤ 1023) :
    ∃ info', parseStat boot (some line.render) info = some info' ∧ line.ReadAs info' := by
  have hread : readFileBuf (some line.render) 1024 = some line.render := by
    unfold readFileBuf
    rw [Option.map_some, List.take_of_length_le hfits]
  have hbefore : ¬ line.beforeName.length ≥ line.beforeName.length + 1 + line.comm.bytes.length := by omega
  unfold parseStat
  rw [hread]
  simp only [Option.bind_eq_bind, Option.bind_some, line.findRparen_render, line.strchr_render, if_neg hbefore]
  refine ⟨_, rfl, ?_⟩
  have hdrop : line.render.drop (line.beforeName.length + 1 + line.comm.bytes.length + 1) = line.behindName := by
    have hlen : line.beforeName.length + 1 + line.comm.bytes.length + 1 =
        (line.beforeName ++ 0x28 :: (line.comm.bytes ++ [0x29])).length := by
      simp only [List.length_append, List.length_cons, List.length_nil]
      omega
    have hrender : line.render = line.beforeName ++ 0x28 :: (line.comm.bytes ++ [0x29]) ++ line.behindName := by
      rw [line.render_eq]
      simp
    rw [hlen, hrender, List.drop_left]
  have hcomm : line.render.drop (line.beforeName.length + 1) = line.comm.bytes ++ 0x29 :: line.behindName := by
    have hrender : line.render = (line.beforeName ++ [0x28]) ++ (line.comm.bytes ++ 0x29 :: line.behindName) := by
      rw [line.render_eq]
      simp
    have hlen : line.beforeName.length + 1 = (line.beforeName ++ [0x28]).length := by simp
    rw [hlen, hrender, List.drop_left]
  rw [hdrop, hcomm, line.behindName_dropWhile]
  have hpid : ∀ {z : Int}, -2 ^ 31 ≤ z ∧ z < 2 ^ 31 → (strtol (signedDecimal z)).toInt32.toInt = z := by
    intro z hz
    rw [strtol_signedDecimal (by omega) (by omega), Int64.toInt32_ofInt]
    exact Int32.toInt_ofInt_of_le hz.1 hz.2
  constructor
  · show (CharArr.store info.comm _).str = _
    have hlen : line.beforeName.length + 1 + line.comm.bytes.length - line.beforeName.length - 1 =
        line.comm.bytes.length := by omega
    have htake : ∀ rest, (line.comm.bytes ++ rest).take
        (if line.comm.bytes.length ≥ 16 then 16 - 1 else line.comm.bytes.length) = line.comm.bytes.take 15 := by
      intro rest
      split
      · rw [List.take_append_of_le_length (by omega)]
      · rw [List.take_left, List.take_of_length_le (by omega)]
    rw [hlen, htake]
    refine info.comm.str_store (fun h => line.comm.noNul (List.mem_of_mem_take h)) ?_
    rw [List.length_take]
    omega
  · show (StatFields.ppid _).toInt32.toInt = _
    rw [StatLine.fieldLoop_field StatFields.ppid 4 strtol StatFields.store_ppid (fun z _ => strtol_append z) line.fields
      (by decide) (by decide)]
    exact hpid line.ppid
  · show (StatFields.sid _).toInt32.toInt = _
    rw [StatLine.fieldLoop_field StatFields.sid 6 strtol StatFields.store_sid (fun z _ => strtol_append z) line.fields
      (by decide) (by decide)]
    exact hpid line.sid
  · show ((StatFields.starttime _).toNat : Int) = _
    rw [StatLine.fieldLoop_field StatFields.starttime 22 strtoul StatFields.store_starttime
      (fun z _ => strtoul_append z) line.fields (by decide) (by decide)]
    obtain ⟨n, hn⟩ := Int.eq_ofNat_of_zero_le line.starttime.1
    have hlt := line.starttime.2
    rw [hn] at hlt ⊢
    rw [strtoul_signedDecimal (by omega) (by omega), ofInt_natCast, UInt64.toNat_ofNat']
    omega
  · intro major minor hmajor hminor htty
    show (formatTty (StatFields.ttyNr _) info.tty).str = _
    rw [StatLine.fieldLoop_field StatFields.ttyNr 7 strtoul StatFields.store_ttyNr (fun z _ => strtoul_append z)
      line.fields (by decide) (by decide)]
    have hrange := line.ttyNr
    rw [strtoul_signedDecimal (by omega) (by omega), htty]
    exact formatTty_str info.tty hmajor hminor

/-- A process whose name looks like the rest of a line, on the terminal `pts/300`. -/
def misleading : StatLine where
  pid := 42
  comm := ⟨ascii "a) R 7 (8 9) S 1", by decide⟩
  state := 0x53
  fields := [41, 42, 40, 1083436, -1, 0, 0, 0, 0, 0, 3, 1, 0, 0, 20, 0, 1, 0, 987654321, 0]
  letter := by decide
  ppid := by decide
  sid := by decide
  ttyNr := by decide
  starttime := by decide

theorem parseStat_misleading :
    ∃ info', parseStat ⟨0, 100⟩ (some misleading.render) ProcInfo.zero = some info' ∧ misleading.ReadAs info' :=
  parseStat_render ⟨0, 100⟩ misleading ProcInfo.zero (by decide)

example : (parseStat ⟨0, 100⟩ (some misleading.render) ProcInfo.zero).map
    (fun info => (info.comm.str, info.ppid, info.sid, info.tty.str, info.startTicks)) =
      some (ascii "a) R 7 (8 9) S ", 41, 40, ascii "pts/300", 987654321) := by decide +kernel

end KnIg.Agent
