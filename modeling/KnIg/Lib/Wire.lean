/-
Readers of a byte string from the front, and which bytes a reader reads as which value, whatever
follows them. The reads compose as the fields of a record do.
-/
import KnIg.Lib.Bytes

namespace Lib

/-- A reader takes bytes from the front, or fails. -/
abbrev Reader (ε α : Type) := StateT Bytes (Except ε) α

namespace Reader

variable {ε α β : Type}

/-- The next `n` bytes. -/
def bytes (n : Nat) (e : ε) : Reader ε Bytes :=
  fun bs => if bs.length < n then .error e else .ok (bs.take n, bs.drop n)

/-- The next `w` bytes as a big-endian number. -/
def word (w : Nat) (e : ε) : Reader ε Nat := do
  let bs ← bytes w e
  return beNat bs

/-- The reader with its error put in a context. -/
def wrap (f : ε → ε) (r : Reader ε α) : Reader ε α := fun bs => (r bs).mapError f

/-- The readers of positions `i`, `i + 1`, … one after the other. -/
def listFrom (r : Nat → Reader ε α) : Nat → Nat → Reader ε (List α)
  | _, 0 => pure []
  | i, n + 1 => do
    let a ← r i
    let as ← listFrom r (i + 1) n
    return a :: as

/-! ## What a reader reads -/

/-- The reader takes exactly `bs` and returns `a`, whatever follows. -/
def Reads (r : Reader ε α) (bs : Bytes) (a : α) : Prop :=
  ∀ rest, r (bs ++ rest) = .ok (a, rest)

theorem reads_pure (a : α) : Reads (pure a : Reader ε α) [] a := fun _ => rfl

theorem Reads.bind {r : Reader ε α} {k : α → Reader ε β} {bs cs : Bytes} {a : α} {b : β}
    (hr : Reads r bs a) (hk : Reads (k a) cs b) : Reads (r >>= k) (bs ++ cs) b := by
  intro rest
  rw [List.append_assoc]
  show (r (bs ++ (cs ++ rest)) >>= fun p => k p.1 p.2) = _
  rw [hr]
  exact hk rest

/-- What comes after a field that is read goes on behind its bytes, also where it fails. -/
theorem Reads.run_bind {r : Reader ε α} {bs : Bytes} {a : α} (hr : Reads r bs a) (k : α → Reader ε β) (cs : Bytes) :
    (r >>= k) (bs ++ cs) = k a cs := by
  show (r (bs ++ cs) >>= fun p => k p.1 p.2) = _
  rw [hr]
  rfl

/-- The last field of a record: nothing is read after it. -/
theorem Reads.last {r : Reader ε α} {f : α → β} {bs : Bytes} {a : α}
    (hr : Reads r bs a) : Reads (r >>= fun x => pure (f x)) bs (f a) := by
  simpa using hr.bind (k := fun x => pure (f x)) (reads_pure (f a))

theorem Reads.wrap {r : Reader ε α} {bs : Bytes} {a : α} (f : ε → ε) (hr : Reads r bs a) :
    Reads (Reader.wrap f r) bs a := by
  intro rest
  simp only [Reader.wrap, hr rest]
  rfl

/-- A reader that reads all of its input leaves nothing. -/
theorem Reads.all {r : Reader ε α} {bs : Bytes} {a : α} (hr : Reads r bs a) :
    r bs = .ok (a, []) := by
  simpa using hr []

theorem reads_bytes (bs : Bytes) (e : ε) : Reads (bytes bs.length e) bs bs := by
  intro rest
  simp [bytes]

/-- A word that fits its width is read back. -/
theorem reads_word {w n : Nat} (h : n < 256 ^ w) (e : ε) : Reads (word w e) (beBytes w n) n := by
  have hb := reads_bytes (beBytes w n) e
  rw [beBytes_length] at hb
  have hl := hb.last (f := beNat)
  rw [beNat_beBytes, Nat.mod_eq_of_lt h] at hl
  exact hl

theorem reads_listFrom {r : Nat → Reader ε α} {enc : α → Bytes} {xs : List α}
    (hr : ∀ x ∈ xs, ∀ i, Reads (r i) (enc x) x) (i : Nat) :
    Reads (listFrom r i xs.length) (xs.flatMap enc) xs := by
  induction xs generalizing i with
  | nil => exact reads_pure []
  | cons x xs ih =>
    have hxs := ih (fun y hy => hr y (List.mem_cons_of_mem x hy)) (i + 1)
    exact (hr x List.mem_cons_self i).bind hxs.last

/-! ## What was read -/

theorem bind_eq_ok {r : Reader ε α} {k : α → Reader ε β} {bs rest : Bytes} {b : β} :
    (r >>= k) bs = .ok (b, rest) ↔ ∃ a mid, r bs = .ok (a, mid) ∧ k a mid = .ok (b, rest) := by
  show (r bs >>= fun p => k p.1 p.2) = _ ↔ _
  cases r bs with
  | error err => simp [bind, Except.bind]
  | ok p =>
    constructor
    · intro h
      exact ⟨p.1, p.2, rfl, h⟩
    · rintro ⟨a, mid, ha, h⟩
      cases ha
      exact h

theorem pure_eq_ok {bs rest : Bytes} {a b : α} :
    (pure a : Reader ε α) bs = .ok (b, rest) ↔ a = b ∧ bs = rest := by
  show (Except.ok (a, bs) : Except ε _) = _ ↔ _
  rw [Except.ok.injEq, Prod.mk.injEq]

theorem throw_ne_ok {bs : Bytes} {e : ε} {p : α × Bytes} : (throw e : Reader ε α) bs ≠ .ok p := nofun

theorem wrap_eq_ok {f : ε → ε} {r : Reader ε α} {bs : Bytes} {p : α × Bytes} :
    wrap f r bs = .ok p ↔ r bs = .ok p := by
  unfold wrap
  cases r bs with
  | error err => simp [Except.mapError]
  | ok q => simp [Except.mapError]

theorem bytes_sound {n : Nat} {e : ε} {bs b rest : Bytes} (h : bytes n e bs = .ok (b, rest)) :
    bs = b ++ rest ∧ b.length = n := by
  unfold bytes at h
  split at h
  · cases h
  · next hn =>
    obtain ⟨rfl, rfl⟩ := Prod.mk.inj (Except.ok.inj h)
    refine ⟨(List.take_append_drop n bs).symm, ?_⟩
    rw [List.length_take]
    omega

theorem word_sound {w n : Nat} {e : ε} {bs rest : Bytes} (h : word w e bs = .ok (n, rest)) :
    bs = beBytes w n ++ rest ∧ n < 256 ^ w := by
  obtain ⟨b, mid, hb, hn⟩ := bind_eq_ok.1 h
  obtain ⟨rfl, rfl⟩ := pure_eq_ok.1 hn
  obtain ⟨rfl, hlen⟩ := bytes_sound hb
  rw [← hlen, beBytes_beNat]
  exact ⟨rfl, beNat_lt b⟩

/-- The values that were read, when each reader takes just what its value is written as. -/
theorem listFrom_sound {r : Nat → Reader ε α} {enc : α → Bytes} {P : α → Prop}
    (hr : ∀ i bs a rest, r i bs = .ok (a, rest) → bs = enc a ++ rest ∧ P a) {i n : Nat} {bs rest : Bytes} {as : List α}
    (h : listFrom r i n bs = .ok (as, rest)) : bs = as.flatMap enc ++ rest ∧ as.length = n ∧ ∀ a ∈ as, P a := by
  induction n generalizing i bs as with
  | zero =>
    obtain ⟨rfl, rfl⟩ := pure_eq_ok.1 h
    simp
  | succ n ih =>
    obtain ⟨a, mid, ha, h⟩ := bind_eq_ok.1 h
    obtain ⟨as, mid', has, h⟩ := bind_eq_ok.1 h
    obtain ⟨rfl, rfl⟩ := pure_eq_ok.1 h
    obtain ⟨rfl, hPa⟩ := hr i _ _ _ ha
    obtain ⟨rfl, rfl, hP⟩ := ih has
    refine ⟨by simp, rfl, ?_⟩
    rintro x (_ | ⟨_, hx⟩)
    · exact hPa
    · exact hP x hx

end Reader

end Lib
