/-
Readers that index the bytes they read by position. One that checks what remains before each access does
what a reader from the front does, and its accesses lie inside the bytes.
-/
import KnIg.Lib.Counted
import KnIg.Lib.Wire

namespace Lib

/-- A reader of a byte string by position; `none` where it accesses a byte outside the string. -/
abbrev Cursor (ε α : Type) := ReaderT Bytes (StateT Nat (ExceptT ε Option)) α

namespace Cursor

variable {ε α β : Type}

/-- How many bytes follow the position. -/
def remaining : Cursor ε Int := fun data pos => pure ((data.length : Int) - pos, pos)

/-- The `n` bytes from `off` after the position on. -/
def look (off n : Nat) : Cursor ε Bytes := fun data pos => (load data (pos + off) n).map fun b => .ok (b, pos)

def skip (n : Nat) : Cursor ε Unit := fun _ pos => pure ((), pos + n)

/-- The next `n` bytes, once that many remain. -/
def bytes (n : Nat) (e : ε) : Cursor ε Bytes := do
  if (← remaining) < n then throw e
  else
    let b ← look 0 n
    skip n
    return b

/-- The next `w` bytes as a big-endian number. -/
def word (w : Nat) (e : ε) : Cursor ε Nat := do
  let b ← bytes w e
  return beNat b

/-- The reader with its error put in a context. -/
def wrap (f : ε → ε) (c : Cursor ε α) : Cursor ε α := fun data pos =>
  Option.map (Except.mapError f) (c data pos)

/-- The readers of positions `i`, `i + 1`, … one after the other. -/
def listFrom (c : Nat → Cursor ε α) : Nat → Nat → Cursor ε (List α)
  | _, 0 => pure []
  | i, n + 1 => do
    let a ← c i
    let as ← listFrom c (i + 1) n
    return a :: as

/-! ## Against readers from the front -/

/-- From a position inside the string, the cursor does what the reader does on the rest of the string, and
stays inside. -/
structure Agrees (c : Cursor ε α) (r : Reader ε α) : Prop where
  ok : ∀ data pos a rest, pos ≤ data.length → r (data.drop pos) = .ok (a, rest) →
    ∃ pos', c data pos = some (.ok (a, pos')) ∧ pos' ≤ data.length ∧ data.drop pos' = rest
  error : ∀ data pos err, pos ≤ data.length → r (data.drop pos) = .error err → c data pos = some (.error err)

theorem bind_of_ok {c : Cursor ε α} {k : α → Cursor ε β} {data : Bytes} {pos pos' : Nat} {a : α}
    (h : c data pos = some (.ok (a, pos'))) : (c >>= k) data pos = k a data pos' := by
  show (ExceptT.bind (c data pos) fun p => k p.1 data p.2) = _
  simp only [ExceptT.bind, ExceptT.mk, h]
  rfl

theorem bind_of_error {c : Cursor ε α} {k : α → Cursor ε β} {data : Bytes} {pos : Nat} {err : ε}
    (h : c data pos = some (.error err)) : (c >>= k) data pos = some (.error err) := by
  show (ExceptT.bind (c data pos) fun p => k p.1 data p.2) = _
  simp only [ExceptT.bind, ExceptT.mk, h]
  rfl

theorem bind_remaining {k : Int → Cursor ε β} {data : Bytes} {pos : Nat} :
    (remaining >>= k) data pos = k ((data.length : Int) - pos) data pos := bind_of_ok rfl

theorem bind_skip {n : Nat} {k : Unit → Cursor ε β} {data : Bytes} {pos : Nat} :
    (skip n >>= k) data pos = k () data (pos + n) := bind_of_ok rfl

theorem agrees_pure (a : α) : Agrees (pure a : Cursor ε α) (pure a : Reader ε α) := by
  constructor
  · intro data pos b rest hpos hb
    obtain ⟨rfl, rfl⟩ := Reader.pure_eq_ok.1 hb
    exact ⟨pos, rfl, hpos, rfl⟩
  · intro data pos err _ he
    cases he

theorem agrees_throw (e : ε) : Agrees (throw e : Cursor ε α) (throw e : Reader ε α) := by
  constructor
  · intro data pos a rest _ ha
    exact absurd ha Reader.throw_ne_ok
  · intro data pos err _ he
    cases he
    rfl

theorem Agrees.bind {c : Cursor ε α} {r : Reader ε α} {k : α → Cursor ε β} {l : α → Reader ε β} (h : Agrees c r)
    (hk : ∀ a, Agrees (k a) (l a)) : Agrees (c >>= k) (r >>= l) := by
  constructor
  · intro data pos b rest hpos hb
    obtain ⟨a, mid, ha, hb⟩ := Reader.bind_eq_ok.1 hb
    obtain ⟨pos', hc, hpos', rfl⟩ := h.ok data pos a mid hpos ha
    rw [bind_of_ok hc]
    exact (hk a).ok data pos' b rest hpos' hb
  · intro data pos err hpos he
    change (r (data.drop pos) >>= fun p => l p.1 p.2) = _ at he
    cases hr : r (data.drop pos) with
    | error err' =>
      rw [hr] at he
      cases he
      exact bind_of_error (h.error data pos err hpos hr)
    | ok p =>
      rw [hr] at he
      obtain ⟨pos', hc, hpos', hrest⟩ := h.ok data pos p.1 p.2 hpos hr
      rw [bind_of_ok hc]
      exact (hk p.1).error data pos' err hpos' (hrest ▸ he)

theorem Agrees.wrap {c : Cursor ε α} {r : Reader ε α} (f : ε → ε) (h : Agrees c r) :
    Agrees (Cursor.wrap f c) (Reader.wrap f r) := by
  constructor
  · intro data pos a rest hpos ha
    obtain ⟨pos', hc, hin⟩ := h.ok data pos a rest hpos (Reader.wrap_eq_ok.1 ha)
    refine ⟨pos', ?_, hin⟩
    simp only [Cursor.wrap, hc]
    rfl
  · intro data pos err hpos he
    unfold Reader.wrap at he
    cases hr : r (data.drop pos) with
    | ok p => rw [hr] at he; cases he
    | error err' =>
      rw [hr] at he
      cases he
      simp only [Cursor.wrap, h.error data pos err' hpos hr]
      rfl

/-- An access after the check of what remains. -/
theorem agrees_checked {n : Nat} (e : ε) {c : Cursor ε α} {f : Bytes → α}
    (hc : ∀ data pos, pos + n ≤ data.length →
      c data pos = some (.ok (f ((data.drop pos).take n), pos + n))) :
    Agrees (do if (← remaining) < n then throw e else c) (do let b ← Reader.bytes n e; return f b) := by
  have hrem : ∀ data pos, ((do if (← remaining) < n then throw e else c) : Cursor ε α) data pos =
      if (data.length : Int) - pos < n then some (.error e) else c data pos := by
    intro data pos
    rw [bind_remaining]
    split <;> rfl
  constructor
  · intro data pos a rest hpos ha
    obtain ⟨b, mid, hb, ha⟩ := Reader.bind_eq_ok.1 ha
    obtain ⟨rfl, rfl⟩ := Reader.pure_eq_ok.1 ha
    unfold Reader.bytes at hb
    split at hb
    · cases hb
    · next hn =>
      rw [List.length_drop] at hn
      cases hb
      refine ⟨pos + n, ?_, by omega, by rw [List.drop_drop]⟩
      rw [hrem, if_neg (by omega), hc data pos (by omega)]
  · intro data pos err hpos he
    change (Reader.bytes n e (data.drop pos) >>= fun p => pure (f p.1, p.2)) = _ at he
    unfold Reader.bytes at he
    split at he
    · next hn =>
      rw [List.length_drop] at hn
      cases he
      rw [hrem, if_pos (by omega)]
    · cases he

theorem look_inside {data : Bytes} {pos off n : Nat} (h : pos + off + n ≤ data.length) :
    (look off n : Cursor ε Bytes) data pos = some (.ok ((data.drop (pos + off)).take n, pos)) := by
  rw [look, load_inside h]
  rfl

theorem agrees_bytes (n : Nat) (e : ε) : Agrees (bytes n e : Cursor ε Bytes) (Reader.bytes n e) := by
  have h := agrees_checked (n := n) e (c := (do let b ← look 0 n; skip n; return b : Cursor ε Bytes)) (f := id)
    fun data pos hin => by
      rw [bind_of_ok (look_inside hin), bind_skip]
      rfl
  rw [← bind_pure (Reader.bytes n e)]
  exact h

theorem agrees_word (w : Nat) (e : ε) : Agrees (word w e : Cursor ε Nat) (Reader.word w e) :=
  (agrees_bytes w e).bind fun b => agrees_pure (beNat b)

theorem agrees_listFrom {c : Nat → Cursor ε α} {r : Nat → Reader ε α} (h : ∀ i, Agrees (c i) (r i)) (i n : Nat) :
    Agrees (listFrom c i n) (Reader.listFrom r i n) := by
  induction n generalizing i with
  | zero => exact agrees_pure []
  | succ n ih => exact (h i).bind fun a => (ih (i + 1)).bind fun as => agrees_pure (a :: as)

end Cursor

end Lib
