/-
Path resolution in a tree with symbolic links: components are looked up one after another, `.` and
`..` included, a link in the middle of a path is always followed and a link at its end only on
demand, and at most `maxLinks` links are followed. Resolving a path with and without following its
last link gives the same file unless the path ends in a link.
-/
import KnIg.Lib.Bytes

namespace Lib.Namei

/-- What a file is to the resolver. -/
inductive Node (ι : Type) where
  | dir (parent : ι) (entry : Bytes → Option ι)
  | link (target : CStr)
  | file (regular : Bool)

/-- A file tree with the resolver's starting points. -/
structure FileTree (ι : Type) where
  node : ι → Option (Node ι)
  root : ι
  maxLinks : Nat

/-- The components of a path; a trailing slash asks for the directory itself. -/
def splitPath (path : CStr) : List Bytes :=
  let parts := (path.bytes.splitOn 47).filter (· ≠ [])
  if path.bytes.getLast? = some 47 then parts ++ [ascii "."] else parts

def isAbsolute (path : CStr) : Bool := path.bytes.head? = some 47

namespace FileTree

variable {ι : Type} (t : FileTree ι)

def isLink (i : ι) : Bool :=
  match t.node i with
  | some (.link _) => true
  | _ => false

/-- One component looked up in a directory. -/
def child (cur : ι) (name : Bytes) : Option ι :=
  match t.node cur with
  | some (.dir parent entry) =>
    if name = ascii "." then some cur else if name = ascii ".." then some parent else entry name
  | _ => none

/-- Walk the components from `cur`; `jump` resolves what a followed link leaves to walk. -/
def walkWith (follow : Bool) (jump : ι → List Bytes → Option ι) : ι → List Bytes → Option ι
  | cur, [] => some cur
  | cur, name :: rest =>
    match t.child cur name with
    | none => none
    | some next =>
      match t.node next with
      | none => none
      | some (.link target) =>
        if rest = [] ∧ follow = false then some next
        else if target.bytes = [] then none
        else jump (if isAbsolute target then t.root else cur) (splitPath target ++ rest)
      | some _ => walkWith follow jump next rest

/-- Walk the components following at most `links` links. -/
def walk (follow : Bool) : Nat → ι → List Bytes → Option ι
  | 0 => t.walkWith follow fun _ _ => none
  | links + 1 => t.walkWith follow (walk follow links)

/-- Resolve a path from a starting directory. -/
def resolve (follow : Bool) (start : ι) (path : CStr) : Option ι :=
  if path.bytes = [] then none
  else t.walk follow t.maxLinks (if isAbsolute path then t.root else start) (splitPath path)

variable {t}

/-- Where following the last link leads to a file, not following it leads to the same file or to
a link, as long as this holds of what each followed link leaves to walk. -/
theorem walkWith_nofollow {jump jump' : ι → List Bytes → Option ι}
    (hjump : ∀ cur rest x, jump cur rest = some x → ∃ y, jump' cur rest = some y ∧ (y = x ∨ t.isLink y = true)) :
    ∀ (cur : ι) (path : List Bytes) {x : ι}, t.walkWith true jump cur path = some x →
      ∃ y, t.walkWith false jump' cur path = some y ∧ (y = x ∨ t.isLink y = true)
  | cur, [], x, h => ⟨x, h, .inl rfl⟩
  | cur, name :: rest, x, h => by
    unfold walkWith at h ⊢
    cases hc : t.child cur name with
    | none => rw [hc] at h; cases h
    | some next =>
      simp only [hc] at h ⊢
      cases hn : t.node next with
      | none => rw [hn] at h; cases h
      | some n =>
        cases n with
        | dir parent entry =>
          simp only [hn] at h ⊢
          exact walkWith_nofollow hjump next rest h
        | file regular =>
          simp only [hn] at h ⊢
          exact walkWith_nofollow hjump next rest h
        | link target =>
          -- the last component is the only place where the two walks differ
          simp only [hn, Bool.true_eq_false, and_false, if_false] at h
          simp only [and_true]
          split
          · exact ⟨next, rfl, .inr (by simp [isLink, hn])⟩
          · split at h
            · cases h
            · rename_i ht
              rw [if_neg ht]
              exact hjump _ _ _ h

theorem walk_nofollow : ∀ (links : Nat) (cur : ι) (path : List Bytes) {x : ι},
    t.walk true links cur path = some x →
      ∃ y, t.walk false links cur path = some y ∧ (y = x ∨ t.isLink y = true)
  | 0, cur, path, _, h => walkWith_nofollow (fun _ _ _ h => by cases h) cur path h
  | links + 1, cur, path, _, h =>
    walkWith_nofollow (fun cur rest _ h => walk_nofollow links cur rest h) cur path h

/-- A path that resolves to a file when its last link is followed resolves to the same file, or to
a link, when it is not. -/
theorem resolve_nofollow {start : ι} {path : CStr} {x : ι} (h : t.resolve true start path = some x) :
    ∃ y, t.resolve false start path = some y ∧ (y = x ∨ t.isLink y = true) := by
  unfold resolve at h ⊢
  split at h
  · cases h
  · rename_i hne
    rw [if_neg hne]
    exact walk_nofollow _ _ _ h

end FileTree

end Lib.Namei
