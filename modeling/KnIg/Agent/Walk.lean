/-
Which files a walk hands to its callback. A walk is a sequence of calls that does not depend on the callback; over
a tree these are all its regular files, but for those below a directory whose inode number was recorded before: the
walker tells directories apart by `st_ino` alone, and two mounted file systems number their inodes independently.
-/
import KnIg.Agent.Scan

namespace KnIg.Agent

open Lib

/-! ## Calls -/

section Calls

variable {β : Type} (cb : CStr → Stat → β → Int × β)

/-- The callback on each of the files in turn, and how many of the calls returned 0. -/
def callAll : List (CStr × Stat) → β → Int × β
  | [], acc => (0, acc)
  | f :: files, acc =>
    let call := visitFile cb f.1 f.2 acc
    let rest := callAll files call.2
    (call.1 + rest.1, rest.2)

theorem callAll_append (files more : List (CStr × Stat)) (acc : β) :
    callAll cb (files ++ more) acc =
      ((callAll cb files acc).1 + (callAll cb more (callAll cb files acc).2).1,
        (callAll cb more (callAll cb files acc).2).2) := by
  induction files generalizing acc with
  | nil => simp [callAll]
  | cons f files ih =>
    simp only [List.cons_append, callAll, ih, add_assoc]

/-- A callback that logs its calls. -/
def logCall (path : CStr) (st : Stat) (log : List (CStr × Stat)) : Int × List (CStr × Stat) := (0, log ++ [(path, st)])

theorem callAll_logCall (files log : List (CStr × Stat)) : (callAll logCall files log).2 = log ++ files := by
  induction files generalizing log with
  | nil => simp [callAll]
  | cons f files ih =>
    simp only [callAll, ih, visitFile, logCall, List.append_assoc, List.singleton_append]

variable (fs : Files) (recursive : Bool)

/-- What `walk_impl` does with one entry, given how it walks a directory. -/
def walkEntry (walkDir : CStr → List UInt64 → β → Int × List UInt64 × β) (path : CStr) :
    Int × List UInt64 × β → CStr → Int × List UInt64 × β :=
  fun (count, vs, acc) name =>
    match subPath path name with
    | none => (count, vs, acc)
    | some sub =>
      match fs.lstat sub with
      | none => (count, vs, acc)
      | some subSt =>
        match subSt.stMode with
        | .reg =>
          let (n, acc) := visitFile cb sub subSt acc
          (count + n, vs, acc)
        | .dir =>
          if recursive then
            let (n, vs, acc) := walkDir sub vs acc
            (count + n, vs, acc)
          else (count, vs, acc)
        | .other => (count, vs, acc)

theorem walkImpl_file {levels : Nat} {path : CStr} {st : Stat} (hst : fs.lstat path = some st) (hreg : st.stMode = .reg)
    (vs : List UInt64) (acc : β) :
    walkImpl fs cb recursive (levels + 1) path vs acc =
      ((visitFile cb path st acc).1, vs, (visitFile cb path st acc).2) := by
  simp [walkImpl, hst, hreg]

theorem walkImpl_other {levels : Nat} {path : CStr} {st : Stat} (hst : fs.lstat path = some st)
    (hother : st.stMode = .other) (vs : List UInt64) (acc : β) :
    walkImpl fs cb recursive (levels + 1) path vs acc = (0, vs, acc) := by
  simp [walkImpl, hst, hother]

/-- A directory whose inode number is recorded is left alone. -/
theorem walkImpl_visited {levels : Nat} {path : CStr} {st : Stat} (hst : fs.lstat path = some st)
    (hdir : st.stMode = .dir) {vs : List UInt64} (hvs : st.stIno ∈ vs) (acc : β) :
    walkImpl fs cb recursive (levels + 1) path vs acc = (0, vs, acc) := by
  simp [walkImpl, hst, hdir, visitedCheckAdd, hvs]

/-- The inode numbers recorded with one that was not. -/
def record (vs : List UInt64) (ino : UInt64) : List UInt64 := (visitedCheckAdd vs ino).2

theorem visitedCheckAdd_new {vs : List UInt64} {ino : UInt64} (h : ino ∉ vs) :
    visitedCheckAdd vs ino = (false, record vs ino) := by
  unfold record visitedCheckAdd
  rw [if_neg h]
  split <;> rfl

theorem walkImpl_dir {levels : Nat} {path : CStr} {st : Stat} {names : List CStr} (hst : fs.lstat path = some st)
    (hdir : st.stMode = .dir) {vs : List UInt64} (hvs : st.stIno ∉ vs) (hnames : fs.readdir path = some names)
    (acc : β) :
    walkImpl fs cb recursive (levels + 1) path vs acc =
      (names.filter (!isDots ·)).foldl (walkEntry cb fs recursive (walkImpl fs cb recursive levels) path)
        (0, record vs st.stIno, acc) := by
  rw [walkImpl]
  simp only [hst, hdir, visitedCheckAdd_new hvs, hnames]
  rfl

end Calls

/-! ## A walk is a sequence of calls -/

/-- What is done with a callback, a count and its data: the calls are made and counted, and the inode numbers `vs'`
are left recorded. -/
def MakesCalls (run : (β : Type) → (CStr → Stat → β → Int × β) → Int → β → Int × List UInt64 × β)
    (files : List (CStr × Stat)) (vs' : List UInt64) : Prop :=
  ∀ β cb count acc, run β cb count acc = (count + (callAll cb files acc).1, vs', (callAll cb files acc).2)

theorem makesCalls_nil (vs : List UInt64) : MakesCalls (fun _ _ count acc => (count, vs, acc)) [] vs := by
  intro β cb count acc
  simp [callAll]

theorem makesCalls_file (path : CStr) (st : Stat) (vs : List UInt64) :
    MakesCalls (fun _ cb count acc => (count + (visitFile cb path st acc).1, vs, (visitFile cb path st acc).2))
      [(path, st)] vs := by
  intro β cb count acc
  simp [callAll]

section Entries

variable {fs : Files} {recursive : Bool} {path : CStr}

/-- The walk of a directory with `levels` levels left makes the calls. -/
def WalkMakes (fs : Files) (recursive : Bool) (levels : Nat) (path : CStr) (vs : List UInt64)
    (files : List (CStr × Stat)) (vs' : List UInt64) : Prop :=
  MakesCalls (fun _ cb count acc =>
    let w := walkImpl fs cb recursive levels path vs acc
    (count + w.1, w.2)) files vs'

/-- The loop over the entries of a directory makes the calls. -/
def EntriesMake (fs : Files) (recursive : Bool) (levels : Nat) (path : CStr) (names : List CStr) (vs : List UInt64)
    (files : List (CStr × Stat)) (vs' : List UInt64) : Prop :=
  MakesCalls (fun _ cb count acc =>
    names.foldl (walkEntry cb fs recursive (walkImpl fs cb recursive levels) path) (count, vs, acc)) files vs'

theorem entriesMake_nil {levels : Nat} (vs : List UInt64) : EntriesMake fs recursive levels path [] vs [] vs :=
  makesCalls_nil vs

/-- The calls of the first entry come before those of the others. -/
theorem EntriesMake.cons {levels : Nat} {name : CStr} {names : List CStr} {vs vs₁ vs₂ : List UInt64}
    {files more : List (CStr × Stat)}
    (hname : MakesCalls (fun _ cb count acc =>
      walkEntry cb fs recursive (walkImpl fs cb recursive levels) path (count, vs, acc) name) files vs₁)
    (hnames : EntriesMake fs recursive levels path names vs₁ more vs₂) :
    EntriesMake fs recursive levels path (name :: names) vs (files ++ more) vs₂ := by
  intro β cb count acc
  have hfirst := hname β cb count acc
  have hrest := hnames β cb (count + (callAll cb files acc).1) (callAll cb files acc).2
  simp only [List.foldl_cons] at hfirst hrest ⊢
  rw [hfirst, hrest, callAll_append, add_assoc]

/-- The calls of an entry that is a directory are those of its walk. -/
theorem entryMakes_dir {levels : Nat} {name : CStr} {st : Stat} (hlen : (path ++ slash ++ name).length < igMaxPath)
    (hst : fs.lstat (path ++ slash ++ name) = some st) (hdir : st.stMode = .dir) {vs vs' : List UInt64}
    {files : List (CStr × Stat)} (hwalk : WalkMakes fs true levels (path ++ slash ++ name) vs files vs') :
    MakesCalls (fun _ cb count acc =>
      walkEntry cb fs true (walkImpl fs cb true levels) path (count, vs, acc) name) files vs' := by
  intro β cb count acc
  have hsub : subPath path name = some (path ++ slash ++ name) := if_neg (not_le.2 hlen)
  simp only [walkEntry, hsub, hst, hdir, if_true]
  exact hwalk β cb count acc

theorem entryMakes_file {levels : Nat} {name : CStr} {st : Stat} (hlen : (path ++ slash ++ name).length < igMaxPath)
    (hst : fs.lstat (path ++ slash ++ name) = some st) (hreg : st.stMode = .reg) (vs : List UInt64) :
    MakesCalls (fun _ cb count acc =>
      walkEntry cb fs recursive (walkImpl fs cb recursive levels) path (count, vs, acc) name)
      [(path ++ slash ++ name, st)] vs := by
  intro β cb count acc
  have hsub : subPath path name = some (path ++ slash ++ name) := if_neg (not_le.2 hlen)
  simp only [walkEntry, hsub, hst, hreg]
  exact makesCalls_file _ st vs β cb count acc

theorem entryMakes_other {levels : Nat} {name : CStr} {st : Stat} (hlen : (path ++ slash ++ name).length < igMaxPath)
    (hst : fs.lstat (path ++ slash ++ name) = some st) (hother : st.stMode = .other) (vs : List UInt64) :
    MakesCalls (fun _ cb count acc =>
      walkEntry cb fs recursive (walkImpl fs cb recursive levels) path (count, vs, acc) name) [] vs := by
  intro β cb count acc
  have hsub : subPath path name = some (path ++ slash ++ name) := if_neg (not_le.2 hlen)
  simp only [walkEntry, hsub, hst, hother]
  exact makesCalls_nil vs β cb count acc

/-- Whatever the tree, an entry leads to calls that do not depend on the callback, if the walks of directories do. -/
theorem exists_entryMakes (path : CStr) {levels : Nat}
    (hwalk : ∀ sub vs, ∃ files vs', WalkMakes fs recursive levels sub vs files vs')
    (name : CStr) (vs : List UInt64) :
    ∃ files vs', MakesCalls (fun _ cb count acc =>
      walkEntry cb fs recursive (walkImpl fs cb recursive levels) path (count, vs, acc) name) files vs' := by
  by_cases hlen : (path ++ slash ++ name).length < igMaxPath
  · have hsub : subPath path name = some (path ++ slash ++ name) := if_neg (not_le.2 hlen)
    cases hst : fs.lstat (path ++ slash ++ name) with
    | none =>
      refine ⟨[], vs, ?_⟩
      simp only [walkEntry, hsub, hst]
      exact makesCalls_nil vs
    | some st =>
      cases hmode : st.stMode with
      | reg => exact ⟨_, _, entryMakes_file hlen hst hmode vs⟩
      | other => exact ⟨_, _, entryMakes_other hlen hst hmode vs⟩
      | dir =>
        cases recursive with
        | true =>
          obtain ⟨files, vs', h⟩ := hwalk (path ++ slash ++ name) vs
          exact ⟨files, vs', entryMakes_dir hlen hst hmode h⟩
        | false =>
          refine ⟨[], vs, ?_⟩
          simp only [walkEntry, hsub, hst, hmode, Bool.false_eq_true, if_false]
          exact makesCalls_nil vs
  · have hsub : subPath path name = none := if_pos (not_lt.1 hlen)
    refine ⟨[], vs, ?_⟩
    simp only [walkEntry, hsub]
    exact makesCalls_nil vs

theorem exists_entriesMake (path : CStr) {levels : Nat}
    (hwalk : ∀ sub vs, ∃ files vs', WalkMakes fs recursive levels sub vs files vs')
    (names : List CStr) (vs : List UInt64) : ∃ files vs', EntriesMake fs recursive levels path names vs files vs' := by
  induction names generalizing vs with
  | nil => exact ⟨[], vs, entriesMake_nil vs⟩
  | cons name names ih =>
    obtain ⟨files, vs₁, hname⟩ := exists_entryMakes path hwalk name vs
    obtain ⟨more, vs₂, hnames⟩ := ih vs₁
    exact ⟨files ++ more, vs₂, EntriesMake.cons hname hnames⟩

/-- The walk of a directory that is not recorded makes the calls of its entries. -/
theorem walkMakes_dir {levels : Nat} {st : Stat} {names : List CStr} (hst : fs.lstat path = some st)
    (hdir : st.stMode = .dir) (hnames : fs.readdir path = some names) {vs vs' : List UInt64} (hvs : st.stIno ∉ vs)
    {files : List (CStr × Stat)}
    (h : EntriesMake fs recursive levels path (names.filter (!isDots ·)) (record vs st.stIno) files vs') :
    WalkMakes fs recursive (levels + 1) path vs files vs' := by
  intro β cb count acc
  have hentries := h β cb 0 acc
  simp only [walkImpl_dir cb fs recursive hst hdir hvs hnames, hentries, zero_add]

theorem walkMakes_visited {levels : Nat} {st : Stat} (hst : fs.lstat path = some st) (hdir : st.stMode = .dir)
    {vs : List UInt64} (hvs : st.stIno ∈ vs) : WalkMakes fs recursive (levels + 1) path vs [] vs := by
  intro β cb count acc
  simp only [walkImpl_visited cb fs recursive hst hdir hvs, callAll]

theorem walkMakes_file {levels : Nat} {st : Stat} (hst : fs.lstat path = some st) (hreg : st.stMode = .reg)
    (vs : List UInt64) : WalkMakes fs recursive (levels + 1) path vs [(path, st)] vs := by
  intro β cb count acc
  simp only [walkImpl_file cb fs recursive hst hreg]
  exact makesCalls_file path st vs β cb count acc

theorem walkMakes_other {levels : Nat} {st : Stat} (hst : fs.lstat path = some st) (hother : st.stMode = .other)
    (vs : List UInt64) : WalkMakes fs recursive (levels + 1) path vs [] vs := by
  intro β cb count acc
  simp only [walkImpl_other cb fs recursive hst hother, callAll]

/-- A walk that finds nothing to open makes no call. -/
theorem walkMakes_nothing {levels : Nat} {vs vs' : List UInt64}
    (h : ∀ (β : Type) (cb : CStr → Stat → β → Int × β) acc,
      walkImpl fs cb recursive levels path vs acc = (0, vs', acc)) :
    WalkMakes fs recursive levels path vs [] vs' := by
  intro β cb count acc
  simp only [h, callAll]

/-- Every walk, over whatever tree, makes calls that do not depend on the callback. -/
theorem exists_walkMakes (levels : Nat) (path : CStr) (vs : List UInt64) :
    ∃ files vs', WalkMakes fs recursive levels path vs files vs' := by
  induction levels generalizing path vs with
  | zero => exact ⟨[], vs, walkMakes_nothing fun _ _ _ => rfl⟩
  | succ levels ih =>
    cases hst : fs.lstat path with
    | none => exact ⟨[], vs, walkMakes_nothing fun _ _ _ => by simp [walkImpl, hst]⟩
    | some st =>
      cases hmode : st.stMode with
      | reg => exact ⟨_, _, walkMakes_file hst hmode vs⟩
      | other => exact ⟨_, _, walkMakes_other hst hmode vs⟩
      | dir =>
        by_cases hvs : st.stIno ∈ vs
        · exact ⟨_, _, walkMakes_visited hst hmode hvs⟩
        · cases hnames : fs.readdir path with
          | none =>
            refine ⟨[], record vs st.stIno, walkMakes_nothing fun _ _ _ => ?_⟩
            simp [walkImpl, hst, hmode, visitedCheckAdd_new hvs, hnames]
          | some names =>
            obtain ⟨files, vs', h⟩ := exists_entriesMake path ih (names.filter (!isDots ·)) (record vs st.stIno)
            exact ⟨files, vs', walkMakes_dir hst hmode hnames hvs h⟩

end Entries

/-- The files that a walk hands to its callback, in order. -/
def walkedFiles (fs : Files) (recursive : Bool) (base : CStr) : List (CStr × Stat) :=
  (igWalk fs logCall recursive base []).2

/-- What a walk does with a callback: the calls of the walked files. -/
theorem igWalk_of_makes {fs : Files} {recursive : Bool} {base : CStr} {files : List (CStr × Stat)} {vs : List UInt64}
    (h : WalkMakes fs recursive (walkMaxDepth + 1) (stripSlashes (base.cut (igMaxPath - 1))) [] files vs) :
    walkedFiles fs recursive base = files ∧
      ∀ (β : Type) (cb : CStr → Stat → β → Int × β) (acc : β),
        igWalk fs cb recursive base acc = callAll cb files acc := by
  have hcalls : ∀ (β : Type) (cb : CStr → Stat → β → Int × β) (acc : β),
      igWalk fs cb recursive base acc = callAll cb files acc := by
    intro β cb acc
    have hwalk := h β cb 0 acc
    simp only [zero_add, Prod.ext_iff] at hwalk
    exact Prod.ext hwalk.1 hwalk.2.2
  refine ⟨?_, hcalls⟩
  rw [walkedFiles, hcalls, callAll_logCall, List.nil_append]

theorem igWalk_eq_callAll {β : Type} (fs : Files) (cb : CStr → Stat → β → Int × β) (recursive : Bool) (base : CStr)
    (acc : β) : igWalk fs cb recursive base acc = callAll cb (walkedFiles fs recursive base) acc := by
  have hmakes := @exists_walkMakes fs recursive (walkMaxDepth + 1) (stripSlashes (base.cut (igMaxPath - 1))) []
  obtain ⟨files, vs, h⟩ := hmakes
  obtain ⟨hfiles, hcalls⟩ := igWalk_of_makes h
  rw [hfiles]
  exact hcalls β cb acc

/-! ## Trees -/

/-- The entries of a directory in the order in which `readdir` gives them, each with what `lstat` says of it and, for
a directory, its own entries. -/
inductive Entries where
  | nil
  | file (name : CStr) (st : Stat) (rest : Entries)
  | dir (name : CStr) (st : Stat) (sub rest : Entries)
  /-- a symbolic link or a special file -/
  | other (name : CStr) (st : Stat) (rest : Entries)

namespace Entries

def names : Entries → List CStr
  | nil => []
  | file name _ rest => name :: rest.names
  | dir name _ _ rest => name :: rest.names
  | other name _ rest => name :: rest.names

/-- How many directories lie one in another. -/
def depth : Entries → Nat
  | nil => 0
  | file _ _ rest => rest.depth
  | dir _ _ sub rest => max (sub.depth + 1) rest.depth
  | other _ _ rest => rest.depth

/-- The file system shows the entries below a path, all of them at paths that fit a buffer and all directories
readable. -/
def Shown (fs : Files) (path : CStr) : Entries → Prop
  | nil => True
  | file name st rest =>
    (path ++ slash ++ name).length < igMaxPath ∧ fs.lstat (path ++ slash ++ name) = some st ∧ st.stMode = .reg ∧
      rest.Shown fs path
  | dir name st sub rest =>
    ((path ++ slash ++ name).length < igMaxPath ∧ fs.lstat (path ++ slash ++ name) = some st ∧ st.stMode = .dir ∧
      (fs.readdir (path ++ slash ++ name)).map (·.filter (!isDots ·)) = some sub.names) ∧
      sub.Shown fs (path ++ slash ++ name) ∧ rest.Shown fs path
  | other name st rest =>
    (path ++ slash ++ name).length < igMaxPath ∧ fs.lstat (path ++ slash ++ name) = some st ∧ st.stMode = .other ∧
      rest.Shown fs path

/-- The regular files below, with their paths. -/
def files (path : CStr) : Entries → List (CStr × Stat)
  | nil => []
  | file name st rest => (path ++ slash ++ name, st) :: rest.files path
  | dir name _ sub rest => sub.files (path ++ slash ++ name) ++ rest.files path
  | other _ _ rest => rest.files path

/-- The inode numbers recorded once the entries were walked. -/
def recorded : List UInt64 → Entries → List UInt64
  | vs, nil => vs
  | vs, file _ _ rest => rest.recorded vs
  | vs, dir _ st sub rest => rest.recorded (if st.stIno ∈ vs then vs else sub.recorded (record vs st.stIno))
  | vs, other _ _ rest => rest.recorded vs

/-- The files that the walk finds: it enters no directory whose inode number is recorded. -/
def walked (path : CStr) : List UInt64 → Entries → List (CStr × Stat)
  | _, nil => []
  | vs, file name st rest => (path ++ slash ++ name, st) :: rest.walked path vs
  | vs, dir name st sub rest =>
    if st.stIno ∈ vs then rest.walked path vs
    else sub.walked (path ++ slash ++ name) (record vs st.stIno) ++ rest.walked path (sub.recorded (record vs st.stIno))
  | vs, other _ _ rest => rest.walked path vs

/-- There is no regular file below. -/
def Bare : Entries → Prop
  | nil => True
  | file _ _ _ => False
  | dir _ _ sub rest => sub.Bare ∧ rest.Bare
  | other _ _ rest => rest.Bare

/-- No directory with a regular file below it has an inode number that is recorded when the walk comes to it. -/
def Unmistaken : List UInt64 → Entries → Prop
  | _, nil => True
  | vs, file _ _ rest => rest.Unmistaken vs
  | vs, dir _ st sub rest =>
    (if st.stIno ∈ vs then sub.Bare else sub.Unmistaken (record vs st.stIno)) ∧
      rest.Unmistaken (if st.stIno ∈ vs then vs else sub.recorded (record vs st.stIno))
  | vs, other _ _ rest => rest.Unmistaken vs

/-- The loop over the entries of a tree that is not too deep calls the walked files. -/
theorem makes {fs : Files} : ∀ (es : Entries) {levels : Nat} {path : CStr} (vs : List UInt64), es.Shown fs path →
    es.depth ≤ levels → EntriesMake fs true levels path es.names vs (es.walked path vs) (es.recorded vs)
  | nil, _, _, vs, _, _ => entriesMake_nil vs
  | file name st rest, _, _, vs, ⟨hlen, hst, hreg, hrest⟩, hdepth =>
    EntriesMake.cons (entryMakes_file hlen hst hreg vs) (rest.makes vs hrest hdepth)
  | other name st rest, _, _, vs, ⟨hlen, hst, hother, hrest⟩, hdepth =>
    EntriesMake.cons (entryMakes_other hlen hst hother vs) (rest.makes vs hrest hdepth)
  | dir name st sub rest, levels, path, vs, ⟨⟨hlen, hst, hdir, hread⟩, hsub, hrest⟩, hdepth => by
    obtain ⟨hsubDepth, hrestDepth⟩ := max_le_iff.1 hdepth
    obtain ⟨names, hnames, hfilter⟩ := Option.map_eq_some_iff.1 hread
    -- the directory itself takes one of the levels
    obtain ⟨levels, rfl⟩ : ∃ l, levels = l + 1 := ⟨levels - 1, by omega⟩
    by_cases hvs : st.stIno ∈ vs
    · have hwalk : WalkMakes fs true (levels + 1) (path ++ slash ++ name) vs [] vs := walkMakes_visited hst hdir hvs
      have := EntriesMake.cons (entryMakes_dir hlen hst hdir hwalk) (rest.makes vs hrest hrestDepth)
      simpa only [Entries.names, walked, recorded, if_pos hvs, List.nil_append] using this
    · have hentries := sub.makes (record vs st.stIno) hsub (Nat.le_of_succ_le_succ hsubDepth)
      rw [← hfilter] at hentries
      have hwalk := walkMakes_dir hst hdir hnames hvs hentries
      have := EntriesMake.cons (entryMakes_dir hlen hst hdir hwalk)
        (rest.makes (sub.recorded (record vs st.stIno)) hrest hrestDepth)
      simpa only [Entries.names, walked, recorded, if_neg hvs] using this

theorem files_eq_nil_iff (es : Entries) (path : CStr) : es.files path = [] ↔ es.Bare := by
  induction es generalizing path with
  | nil => simp [files, Bare]
  | file name st rest ih => simp [files, Bare]
  | dir name st sub rest ihSub ih => rw [files, List.append_eq_nil_iff, ihSub, ih, Bare]
  | other name st rest ih => exact ih path

/-- The walk skips some of the files. -/
theorem walked_sublist (es : Entries) (path : CStr) (vs : List UInt64) :
    (es.walked path vs).Sublist (es.files path) := by
  induction es generalizing path vs with
  | nil => exact List.Sublist.slnil
  | file name st rest ih => exact (ih path vs).cons_cons _
  | dir name st sub rest ihSub ih =>
    rw [walked, files]
    split
    · exact (ih path vs).trans (List.sublist_append_right _ _)
    · exact (ihSub _ _).append (ih path _)
  | other name st rest ih => exact ih path vs

/-- The walk finds all files when it mistakes no directory with files for one that it was in before. -/
theorem walked_eq_files_iff (es : Entries) (path : CStr) (vs : List UInt64) :
    es.walked path vs = es.files path ↔ es.Unmistaken vs := by
  induction es generalizing path vs with
  | nil => simp [walked, files, Unmistaken]
  | file name st rest ih => simpa [walked, files, Unmistaken] using ih path vs
  | other name st rest ih => exact ih path vs
  | dir name st sub rest ihSub ih =>
    rw [walked, files, Unmistaken]
    split
    · have hlen := (rest.walked_sublist path vs).length_le
      rw [← ih path vs, ← files_eq_nil_iff sub (path ++ slash ++ name)]
      constructor
      · intro h
        have hlen' := congrArg List.length h
        rw [List.length_append] at hlen'
        have hbare : sub.files (path ++ slash ++ name) = [] := List.length_eq_zero_iff.1 (by omega)
        rw [hbare, List.nil_append] at h
        exact ⟨hbare, h⟩
      · rintro ⟨hbare, h⟩
        rw [hbare, List.nil_append, h]
    · rw [← ihSub (path ++ slash ++ name), ← ih path]
      constructor
      · intro h
        have hsub := (sub.walked_sublist (path ++ slash ++ name) (record vs st.stIno)).length_le
        have hrest := (rest.walked_sublist path (sub.recorded (record vs st.stIno))).length_le
        have hlen := congrArg List.length h
        rw [List.length_append, List.length_append] at hlen
        exact List.append_inj h (by omega)
      · rintro ⟨hsub, hrest⟩
        rw [hsub, hrest]

end Entries

/-- What lies at the path a walk starts from. -/
inductive Tree where
  | file (st : Stat)
  | dir (st : Stat) (entries : Entries)
  | other (st : Stat)

namespace Tree

def depth : Tree → Nat
  | dir _ entries => entries.depth
  | file _ | other _ => 0

def Shown (fs : Files) (path : CStr) : Tree → Prop
  | file st => fs.lstat path = some st ∧ st.stMode = .reg
  | dir st entries =>
    (fs.lstat path = some st ∧ st.stMode = .dir ∧
      (fs.readdir path).map (·.filter (!isDots ·)) = some entries.names) ∧ entries.Shown fs path
  | other st => fs.lstat path = some st ∧ st.stMode = .other

/-- The regular files of the tree, with their paths. -/
def files (path : CStr) : Tree → List (CStr × Stat)
  | file st => [(path, st)]
  | dir _ entries => entries.files path
  | other _ => []

/-- No directory with a regular file below it has the inode number of one that the walk entered before it, as far as
that was recorded. -/
def Unmistaken : Tree → Prop
  | dir st entries => entries.Unmistaken (record [] st.stIno)
  | file _ | other _ => True

end Tree

/-- A finite tree of readable directories, not too deep, all of whose paths fit a buffer. -/
structure Walkable (fs : Files) (base : CStr) (t : Tree) : Prop where
  fits : base.length < igMaxPath
  shown : t.Shown fs (stripSlashes base)
  depth : t.depth ≤ walkMaxDepth

/-- The walk calls its callback once for each regular file of the tree, and returns how many of the calls returned 0. -/
def WalksAll (fs : Files) (base : CStr) (t : Tree) : Prop :=
  ∃ calls : List (CStr × Stat), calls.Perm (t.files (stripSlashes base)) ∧
    ∀ (β : Type) (cb : CStr → Stat → β → Int × β) (acc : β), igWalk fs cb true base acc = callAll cb calls acc

/-- The walk of a tree calls its callback for all its files, in order, or for those outside mistaken directories. -/
theorem walkedFiles_eq_files_iff {fs : Files} {base : CStr} {t : Tree} (h : Walkable fs base t) :
    (walkedFiles fs true base).Sublist (t.files (stripSlashes base)) ∧
      (walkedFiles fs true base = t.files (stripSlashes base) ↔ t.Unmistaken) := by
  have hbase : base.cut (igMaxPath - 1) = base := CStr.cut_of_lt h.fits
  have hwalked : ∀ {files vs}, WalkMakes fs true (walkMaxDepth + 1) (stripSlashes base) [] files vs →
      walkedFiles fs true base = files := fun hm => (igWalk_of_makes (hbase.symm ▸ hm)).1
  cases t with
  | file st =>
    obtain ⟨hst, hreg⟩ := h.shown
    rw [hwalked (walkMakes_file hst hreg [])]
    exact ⟨List.Sublist.refl _, by simp [Tree.files, Tree.Unmistaken]⟩
  | other st =>
    obtain ⟨hst, hother⟩ := h.shown
    rw [hwalked (walkMakes_other hst hother [])]
    exact ⟨List.Sublist.refl _, by simp [Tree.files, Tree.Unmistaken]⟩
  | dir st entries =>
    obtain ⟨⟨hst, hdir, hread⟩, hshown⟩ := h.shown
    obtain ⟨names, hnames, hfilter⟩ := Option.map_eq_some_iff.1 hread
    have hentries := entries.makes (record [] st.stIno) hshown h.depth
    rw [← hfilter] at hentries
    rw [hwalked (walkMakes_dir hst hdir hnames List.not_mem_nil hentries)]
    exact ⟨entries.walked_sublist _ _, entries.walked_eq_files_iff _ _⟩

/-! ## Two file systems -/

def fileStat (dev ino : UInt64) : Stat := ⟨dev, ino, .reg, 1700000000, 1⟩
def dirStat (dev ino : UInt64) : Stat := ⟨dev, ino, .dir, 1700000000, 4096⟩

def srv : CStr := ⟨ascii "/srv", by decide⟩
def mountA : CStr := ⟨ascii "a", by decide⟩
def mountB : CStr := ⟨ascii "b", by decide⟩
def keyFile : CStr := ⟨ascii "key", by decide⟩

/-- A file system mounted at `/srv/a` and another at `/srv/b`, each with one file; the inode numbers of their root
directories are given. -/
def srvTree (inoA inoB : UInt64) : Tree :=
  .dir (dirStat 2049 12)
    (.dir mountA (dirStat 2065 inoA) (.file keyFile (fileStat 2065 11) .nil)
      (.dir mountB (dirStat 2081 inoB) (.file keyFile (fileStat 2081 11) .nil) .nil))

def srvFiles (inoA inoB : UInt64) : Files where
  lstat path :=
    if path = srv then some (dirStat 2049 12)
    else if path = srv ++ slash ++ mountA then some (dirStat 2065 inoA)
    else if path = srv ++ slash ++ mountB then some (dirStat 2081 inoB)
    else if path = srv ++ slash ++ mountA ++ slash ++ keyFile then some (fileStat 2065 11)
    else if path = srv ++ slash ++ mountB ++ slash ++ keyFile then some (fileStat 2081 11)
    else none
  stat _ := none
  readdir path :=
    if path = srv then some [⟨ascii ".", by decide⟩, ⟨ascii "..", by decide⟩, mountA, mountB]
    else if path = srv ++ slash ++ mountA then some [keyFile]
    else if path = srv ++ slash ++ mountB then some [keyFile]
    else none
  sha256File _ := none

end KnIg.Agent
