/-
Streams that arrive in pieces. Reading a number of bytes takes as many reads as the pieces make it, and
frames whose header says how much payload follows are read back one by one, whatever the pieces are.
-/
import KnIg.Lib.Wire

namespace Lib

/-- A reader of a stream, given the pieces that its reads will find; what it does not read it leaves, also
when it fails. -/
abbrev ChunkReader (ε α : Type) := ExceptT ε (StateM (List Bytes)) α

namespace ChunkReader

variable {ε α β : Type}

/-- What is left of a piece stays in front of the next ones. -/
def putBack (piece : Bytes) (pieces : List Bytes) : List Bytes := if piece = [] then pieces else piece :: pieces

/-- Reads until `n` bytes have come. One read takes at most one piece and at most what is missing; one that
brings nothing is repeated or ends the reading. -/
def readAll (retry : Bool) : Nat → List Bytes → Bytes × List Bytes
  | _, [] => ([], [])
  | n, piece :: pieces =>
    if n = 0 then ([], piece :: pieces)
    else if piece = [] then if retry then readAll retry n pieces else ([], pieces)
    else if n ≤ piece.length then (piece.take n, putBack (piece.drop n) pieces)
    else
      let r := readAll retry (n - piece.length) pieces
      (piece ++ r.1, r.2)

/-- Just `n` bytes, or the error for what came instead. -/
def readFull (retry : Bool) (short : Bytes → ε) (n : Nat) : ChunkReader ε Bytes := fun pieces =>
  let r := readAll retry n pieces
  if r.1.length < n then (.error (short r.1), r.2) else (.ok r.1, r.2)

/-- No read ends the reading before the stream does. -/
def Flows (retry : Bool) (pieces : List Bytes) : Prop := retry = true ∨ [] ∉ pieces

instance (retry : Bool) (pieces : List Bytes) : Decidable (Flows retry pieces) :=
  inferInstanceAs (Decidable (_ ∨ _))

section Reading

variable {retry : Bool} {pieces : List Bytes}

theorem Flows.tail {piece : Bytes} (h : Flows retry (piece :: pieces)) : Flows retry pieces :=
  h.imp_right fun hnil hmem => hnil (List.mem_cons_of_mem piece hmem)

theorem Flows.putBack (h : Flows retry pieces) (piece : Bytes) : Flows retry (putBack piece pieces) := by
  unfold ChunkReader.putBack
  split
  · exact h
  · next hne => exact h.imp_right fun hnil hmem => (List.mem_cons.1 hmem).elim (fun he => hne he.symm) hnil

theorem flatten_putBack (piece : Bytes) : (putBack piece pieces).flatten = piece ++ pieces.flatten := by
  unfold putBack
  split
  · next h => rw [h, List.nil_append]
  · rw [List.flatten_cons]

/-- The reads get the front of the stream, as much of it as there is, and leave the rest. -/
theorem readAll_spec (h : Flows retry pieces) (n : Nat) :
    (readAll retry n pieces).1 = pieces.flatten.take n ∧
      (readAll retry n pieces).2.flatten = pieces.flatten.drop n ∧ Flows retry (readAll retry n pieces).2 := by
  induction pieces generalizing n with
  | nil => simp [readAll, h]
  | cons piece pieces ih =>
    unfold readAll
    split
    · next h0 => simp [h0, h]
    split
    · next hnil =>
      have hretry : retry = true := h.resolve_right fun hmem => hmem (hnil ▸ List.mem_cons_self)
      simpa [hnil, hretry] using ih h.tail n
    split
    · next hle =>
      refine ⟨?_, ?_, h.tail.putBack _⟩
      · rw [List.flatten_cons, List.take_append_of_le_length hle]
      · rw [flatten_putBack, List.flatten_cons, List.drop_append_of_le_length hle]
    · next hlt =>
      obtain ⟨hgot, hrest, hflows⟩ := ih h.tail (n - piece.length)
      have hall : piece.length ≤ n := by omega
      refine ⟨?_, ?_, hflows⟩
      · show piece ++ (readAll retry (n - piece.length) pieces).1 = _
        rw [hgot, List.flatten_cons, List.take_append, List.take_of_length_le hall]
      · show (readAll retry (n - piece.length) pieces).2.flatten = _
        rw [hrest, List.flatten_cons, List.drop_append, List.drop_eq_nil_of_le hall, List.nil_append]

end Reading

/-! ## What is read of a stream -/

/-- Of a stream that goes on with `bs`, in whatever pieces, the reader takes just `bs` and returns `a`. -/
def Reads (retry : Bool) (r : ChunkReader ε α) (bs : Bytes) (a : α) : Prop :=
  ∀ pieces tail, Flows retry pieces → pieces.flatten = bs ++ tail →
    ∃ rest, r pieces = (.ok a, rest) ∧ rest.flatten = tail ∧ Flows retry rest

/-- Of a stream that goes on with `bs`, in whatever pieces, the reader takes just `bs` and fails. -/
def Refuses (retry : Bool) (r : ChunkReader ε α) (bs : Bytes) (err : ε) : Prop :=
  ∀ pieces tail, Flows retry pieces → pieces.flatten = bs ++ tail →
    ∃ rest, r pieces = (.error err, rest) ∧ rest.flatten = tail

/-- The reader, time and again, returns just these values and then finds nothing more to read. -/
def ReadBack (r : ChunkReader ε α) : List Bytes → List α → Prop
  | pieces, [] => pieces.flatten = [] ∧ ∃ err rest, r pieces = (.error err, rest)
  | pieces, a :: as => ∃ rest, r pieces = (.ok a, rest) ∧ ReadBack r rest as

variable {retry : Bool}

theorem bind_of_ok {r : ChunkReader ε α} {k : α → ChunkReader ε β} {pieces rest : List Bytes} {a : α}
    (h : r pieces = (.ok a, rest)) : (r >>= k) pieces = k a rest := by
  show (StateT.bind r (ExceptT.bindCont k)) pieces = _
  simp only [StateT.bind, h]
  rfl

theorem bind_of_error {r : ChunkReader ε α} {k : α → ChunkReader ε β} {pieces rest : List Bytes} {err : ε}
    (h : r pieces = (.error err, rest)) : (r >>= k) pieces = (.error err, rest) := by
  show (StateT.bind r (ExceptT.bindCont k)) pieces = _
  simp only [StateT.bind, h]
  rfl

theorem reads_pure (a : α) : Reads retry (pure a : ChunkReader ε α) [] a :=
  fun pieces _ hflows hbs => ⟨pieces, rfl, hbs, hflows⟩

theorem Reads.bind {r : ChunkReader ε α} {k : α → ChunkReader ε β} {bs cs : Bytes} {a : α} {b : β}
    (hr : Reads retry r bs a) (hk : Reads retry (k a) cs b) : Reads retry (r >>= k) (bs ++ cs) b := by
  intro pieces tail hflows hbs
  rw [List.append_assoc] at hbs
  obtain ⟨rest, hra, hrest, hflows⟩ := hr pieces _ hflows hbs
  rw [bind_of_ok hra]
  exact hk rest tail hflows hrest

/-- The last field: nothing is read after it. -/
theorem Reads.last {r : ChunkReader ε α} {f : α → β} {bs : Bytes} {a : α} (hr : Reads retry r bs a) :
    Reads retry (r >>= fun x => pure (f x)) bs (f a) := by
  have hpure : Reads retry (pure (f a) : ChunkReader ε β) [] (f a) := reads_pure (f a)
  simpa using hr.bind (k := fun x => pure (f x)) hpure

/-- After what was read, the rest of the reader refuses: nothing more is read. -/
theorem Reads.refuses {r : ChunkReader ε α} {k : α → ChunkReader ε β} {bs : Bytes} {a : α} {err : ε}
    (hr : Reads retry r bs a) (hk : k a = throw err) : Refuses retry (r >>= k) bs err := by
  intro pieces tail hflows hbs
  obtain ⟨rest, hra, hrest, -⟩ := hr pieces tail hflows hbs
  refine ⟨rest, ?_, hrest⟩
  rw [bind_of_ok hra, hk]
  rfl

theorem reads_readFull (short : Bytes → ε) (bs : Bytes) : Reads retry (readFull retry short bs.length) bs bs := by
  intro pieces tail hflows hbs
  obtain ⟨hgot, hrest, hflows⟩ := readAll_spec hflows bs.length
  rw [hbs, List.take_left] at hgot
  rw [hbs, List.drop_left] at hrest
  refine ⟨_, ?_, hrest, hflows⟩
  simp [readFull, hgot]

/-! ## Against readers of the whole stream -/

/-- In whatever pieces the stream comes, the reader does what a reader of all of it does. -/
structure Follows (retry : Bool) (r : ChunkReader ε α) (s : Reader ε α) : Prop where
  ok : ∀ pieces a tail, Flows retry pieces → s pieces.flatten = .ok (a, tail) →
    ∃ rest, r pieces = (.ok a, rest) ∧ rest.flatten = tail ∧ Flows retry rest
  error : ∀ pieces err, Flows retry pieces → s pieces.flatten = .error err → ∃ rest, r pieces = (.error err, rest)

theorem Follows.reads {r : ChunkReader ε α} {s : Reader ε α} (h : Follows retry r s) {bs : Bytes} {a : α}
    (hs : Reader.Reads s bs a) : Reads retry r bs a := by
  intro pieces tail hflows hbs
  refine h.ok pieces a tail hflows ?_
  rw [hbs]
  exact hs tail

theorem follows_pure (a : α) : Follows retry (pure a : ChunkReader ε α) (pure a : Reader ε α) := by
  refine ⟨fun pieces b tail hflows hb => ?_, fun pieces err _ he => nomatch he⟩
  cases hb
  exact ⟨pieces, rfl, rfl, hflows⟩

theorem follows_throw (err : ε) : Follows retry (throw err : ChunkReader ε α) (throw err : Reader ε α) := by
  have hthrow : ∀ bs, (throw err : Reader ε α) bs = .error err := fun _ => rfl
  constructor
  · intro pieces a tail _ ha
    rw [hthrow] at ha
    cases ha
  · intro pieces err' _ he
    rw [hthrow] at he
    cases he
    exact ⟨pieces, rfl⟩

theorem Follows.bind {r : ChunkReader ε α} {s : Reader ε α} {k : α → ChunkReader ε β} {l : α → Reader ε β}
    (h : Follows retry r s) (hk : ∀ a, Follows retry (k a) (l a)) : Follows retry (r >>= k) (s >>= l) := by
  have hbind : ∀ bs, (s >>= l) bs = s bs >>= fun p => l p.1 p.2 := fun _ => rfl
  constructor
  · intro pieces b tail hflows hb
    rw [hbind] at hb
    cases hs : s pieces.flatten with
    | error err => rw [hs] at hb; cases hb
    | ok p =>
      rw [hs] at hb
      obtain ⟨rest, hra, hrest, hflows⟩ := h.ok pieces p.1 p.2 hflows hs
      rw [bind_of_ok hra]
      refine (hk p.1).ok rest b tail hflows ?_
      rw [hrest]
      exact hb
  · intro pieces err hflows he
    rw [hbind] at he
    cases hs : s pieces.flatten with
    | error err' =>
      rw [hs] at he
      cases he
      obtain ⟨rest, hre⟩ := h.error pieces err hflows hs
      exact ⟨rest, bind_of_error hre⟩
    | ok p =>
      rw [hs] at he
      obtain ⟨rest, hra, hrest, hflows⟩ := h.ok pieces p.1 p.2 hflows hs
      rw [bind_of_ok hra]
      refine (hk p.1).error rest err hflows ?_
      rw [hrest]
      exact he

/-- Reading in pieces what a reader takes whole, with the errors for what came. -/
theorem follows_readFull (short : Bytes → ε) (n : Nat) :
    Follows retry (readFull retry short n)
      (fun bs => if bs.length < n then .error (short bs) else .ok (bs.take n, bs.drop n)) := by
  constructor
  · intro pieces bs tail hflows hb
    obtain ⟨hgot, hrest, hflows⟩ := readAll_spec hflows n
    split at hb
    · cases hb
    · next hlen =>
      cases hb
      refine ⟨_, ?_, hrest, hflows⟩
      have hmin : ¬ (pieces.flatten.take n).length < n := by
        rw [List.length_take]
        omega
      simp only [readFull, hgot, if_neg hmin]
  · intro pieces err hflows he
    obtain ⟨hgot, -, -⟩ := readAll_spec hflows n
    split at he
    · next hlen =>
      cases he
      refine ⟨(readAll retry n pieces).2, ?_⟩
      simp only [readFull, hgot, List.take_of_length_le hlen.le, if_pos hlen]
    · cases he

/-! ## Sequences of frames -/

/-- At the end of the stream there are no `n` bytes. -/
theorem readFull_end {n : Nat} (hn : 0 < n) (short : Bytes → ε) {pieces : List Bytes} (hflows : Flows retry pieces)
    (hnil : pieces.flatten = []) : ∃ rest, readFull retry short n pieces = (.error (short []), rest) := by
  obtain ⟨hgot, -, -⟩ := readAll_spec hflows n
  rw [hnil, List.take_nil] at hgot
  refine ⟨(readAll retry n pieces).2, ?_⟩
  simp [readFull, hgot, hn]

/-- A stream of frames each of which is read back is read back as the sequence of frames. -/
theorem readBack_flatMap {ι : Type} {r : ChunkReader ε α} {enc : ι → Bytes} {val : ι → α}
    (hend : ∀ pieces, Flows retry pieces → pieces.flatten = [] → ∃ err rest, r pieces = (.error err, rest))
    {is : List ι} (hr : ∀ i ∈ is, Reads retry r (enc i) (val i)) {pieces : List Bytes} (hflows : Flows retry pieces)
    (hbs : pieces.flatten = is.flatMap enc) : ReadBack r pieces (is.map val) := by
  induction is generalizing pieces with
  | nil => exact ⟨hbs, hend pieces hflows hbs⟩
  | cons i is ih =>
    rw [List.flatMap_cons] at hbs
    obtain ⟨rest, hri, hrest, hflows⟩ := hr i List.mem_cons_self pieces _ hflows hbs
    exact ⟨rest, hri, ih (fun j hj => hr j (List.mem_cons_of_mem i hj)) hflows hrest⟩

end ChunkReader

end Lib
