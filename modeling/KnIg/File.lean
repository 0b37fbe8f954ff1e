/-
What the agent and its kernel parts share about files: the device and inode number that identify a
file, the longest path, the trees path names are resolved in.
-/
import KnIg.Lib.Namei

namespace KnIg

open Lib Lib.Namei

/-- The kernel-encoded device and inode number that identify a file. -/
structure FileId where
  dev : UInt64
  ino : UInt64
deriving DecidableEq, Repr

/-- `IG_MAX_PATH`, the kernel's `PATH_MAX`. -/
def igMaxPath : Nat := 4096

theorem igMaxPath_pos : 0 < igMaxPath := by decide

/-- `AT_FDCWD`. -/
def atFdcwd : Int32 := -100

/-- The file tree as one process sees it, with its working directory and open files. -/
structure Fs extends FileTree FileId where
  cwd : FileId
  fd : UInt32 → Option FileId

namespace Fs

/-- Where a relative path starts for a directory descriptor. -/
def startDir (fs : Fs) (dfd : Int32) : Option FileId :=
  if dfd = atFdcwd then some fs.cwd else fs.fd dfd.toUInt32

/-- `user_path_at`: the file a path names relative to a directory descriptor. -/
def userPathAt (fs : Fs) (dfd : Int32) (path : CStr) (follow : Bool) : Option FileId :=
  if path.length ≥ igMaxPath then none
  else if isAbsolute path then fs.resolve follow fs.root path
  else (fs.startDir dfd).bind fun start => fs.resolve follow start path

def isRegular (fs : Fs) (id : FileId) : Bool :=
  match fs.node id with
  | some (.file regular) => regular
  | _ => false

theorem userPathAt_nofollow {fs : Fs} {dfd : Int32} {path : CStr} {x : FileId}
    (h : fs.userPathAt dfd path true = some x) :
    ∃ y, fs.userPathAt dfd path false = some y ∧ (y = x ∨ fs.isLink y = true) := by
  unfold userPathAt at h ⊢
  split at h
  · cases h
  · rename_i hlen
    rw [if_neg hlen]
    split at h
    · rename_i habs
      rw [if_pos habs]
      exact FileTree.resolve_nofollow h
    · rename_i habs
      rw [if_neg habs]
      obtain ⟨start, hs, h⟩ := Option.bind_eq_some_iff.1 h
      obtain ⟨y, hy, hxy⟩ := FileTree.resolve_nofollow h
      exact ⟨y, Option.bind_eq_some_iff.2 ⟨start, hs, hy⟩, hxy⟩

end Fs

end KnIg
