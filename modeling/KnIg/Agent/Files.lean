/-
What the agent's recursive passes over the watched trees read of the file system, the paths they
build for the entries of a directory, and the graph of paths they walk.
-/
import KnIg.File
import KnIg.Lib.TreeWalk

namespace KnIg.Agent

open Lib Lib.TreeWalk

/-- `S_IFMT` of `st_mode`, as far as the agent tells it apart. -/
inductive FileMode where
  | reg | dir | other
deriving DecidableEq

/-- The fields of `struct stat` the agent reads. -/
structure Stat where
  stDev : UInt64
  stIno : UInt64
  stMode : FileMode
  stMtime : Int64
  stSize : Int64
deriving DecidableEq

/-- An unchanging file tree, as the agent's calls read it; `readdir` is none where `opendir` fails. -/
structure Files where
  lstat : CStr → Option Stat
  stat : CStr → Option Stat
  readdir : CStr → Option (List CStr)
  sha256File : CStr → Option CStr

/-- glibc's `major`. -/
def major (dev : UInt64) : UInt32 :=
  ((dev &&& (0xfff00 : UInt64)) >>> 8 ||| (dev &&& (0xfffff00000000000 : UInt64)) >>> 32).toUInt32

/-- glibc's `minor`. -/
def minor (dev : UInt64) : UInt32 :=
  ((dev &&& (0xff : UInt64)) ||| (dev &&& (0xffffff00000 : UInt64)) >>> 12).toUInt32

def statDevToKernel (stDev : UInt64) : UInt64 := ((major stDev).toUInt64 <<< 20) ||| (minor stDev).toUInt64

/-- The key the policy tables use for a file. -/
def Stat.id (st : Stat) : FileId := ⟨statDevToKernel st.stDev, st.stIno⟩

def slash : CStr := ⟨ascii "/", by decide⟩

def isDots (name : CStr) : Bool := name.bytes = ascii "." || name.bytes = ascii ".."

/-- `snprintf(child, sizeof(child), "%s/%s", path, name)`. -/
def childPath (path name : CStr) : CStr := (path ++ slash ++ name).cut (igMaxPath - 1)

/-! ## The walked paths -/

namespace Files

variable (fs : Files)

/-- The paths of a directory's entries, or none for anything else. -/
def below (path : CStr) : List CStr :=
  match fs.lstat path with
  | some st =>
    if st.stMode = .dir then
      match fs.readdir path with
      | some names => (names.filter (!isDots ·)).map (childPath path)
      | none => []
    else []
  | none => []

/-- A directory with entries is reached at a path that fills its buffer, so that the path built for
an entry is the directory's own again. -/
def PathFull (start : CStr) : Prop := ∃ q, Reached fs.below start q ∧ q.length = igMaxPath - 1 ∧ fs.below q ≠ []

end Files

theorem childPath_length (path name : CStr) :
    (childPath path name).length = min (igMaxPath - 1) (path.length + 1 + name.length) := by
  unfold childPath CStr.length slash
  simp only [CStr.cut_bytes, CStr.append_bytes, List.length_take, List.length_append]
  rfl

/-- The path built for an entry of a directory at a full path. -/
theorem childPath_full {path : CStr} (h : path.length = igMaxPath - 1) (name : CStr) : childPath path name = path := by
  unfold CStr.length at h
  refine CStr.ext_bytes ?_
  unfold childPath
  rw [CStr.cut_bytes, CStr.append_bytes, CStr.append_bytes, List.append_assoc, ← h, List.take_left]

namespace Files

variable {fs : Files}

theorem mem_below {path c : CStr} (h : c ∈ fs.below path) : ∃ name, c = childPath path name := by
  unfold below at h
  split at h
  · split at h
    · split at h
      · obtain ⟨name, -, rfl⟩ := List.mem_map.1 h
        exact ⟨name, rfl⟩
      · cases h
    · cases h
  · cases h

/-- Every path reached from one that fits its buffer fits it too. -/
theorem length_lt_of_reached {path q : CStr} (hlen : path.length < igMaxPath) (h : Reached fs.below path q) :
    q.length < igMaxPath := by
  rcases Relation.ReflTransGen.cases_tail h with rfl | ⟨p, -, hq⟩
  · exact hlen
  · obtain ⟨name, rfl⟩ := mem_below hq
    have := childPath_length p name
    unfold igMaxPath at *
    omega

/-- A walk returns exactly when it reaches no directory with entries at a full path. -/
theorem trace_isSome_iff {path : CStr} (hlen : path.length < igMaxPath) :
    (trace fs.below igMaxPath path).isSome ↔ ¬ fs.PathFull path := by
  constructor
  · rintro hsome ⟨q, hq, hfull, hne⟩
    obtain ⟨c, hc⟩ := List.exists_mem_of_ne_nil _ hne
    obtain ⟨name, rfl⟩ := mem_below hc
    rw [childPath_full hfull] at hc
    rw [trace_runaway hq hc] at hsome
    cases hsome
  · intro hfull
    refine trace_isSome CStr.length (igMaxPath - 1) _ _ (fun q hq c hc => ?_) (Nat.le_sub_one_of_lt hlen) (by
      unfold igMaxPath; omega)
    have hne : fs.below q ≠ [] := List.ne_nil_of_mem hc
    have hq' : q.length ≠ igMaxPath - 1 := fun h => hfull ⟨q, hq, h, hne⟩
    have hlt := length_lt_of_reached hlen hq
    obtain ⟨name, rfl⟩ := mem_below hc
    rw [childPath_length]
    unfold igMaxPath at *
    omega

end Files

end KnIg.Agent
