/-
The walker under the agent's baseline scan, and the scan of a watch list: the regular files each
watched path leads to, hashed into the table that the kernel module's policies are injected from.
-/
import KnIg.Agent.Baseline
import KnIg.Agent.Event
import KnIg.Agent.Files
import Mathlib.Data.List.DropRight

namespace KnIg.Agent

open Lib

/-! ## The walker -/

def walkMaxDepth : Nat := 64

def walkVisitedMax : Nat := 4096

/-- `visited_check_add`: whether the inode number was visited, and the set with it if there is room. -/
def visitedCheckAdd (vs : List UInt64) (ino : UInt64) : Bool × List UInt64 :=
  if ino ∈ vs then (true, vs)
  else if vs.length < walkVisitedMax then (false, vs ++ [ino])
  else (false, vs)

/-- The path of an entry, none where it would not fit the buffer. -/
def subPath (path name : CStr) : Option CStr :=
  let sub := path ++ slash ++ name
  if sub.length ≥ igMaxPath then none else some sub

section Walk

variable {β : Type} (fs : Files) (cb : CStr → Stat → β → Int × β) (recursive : Bool)

/-- One regular file: whether the callback counts it. -/
def visitFile (path : CStr) (st : Stat) (acc : β) : Int × β :=
  let (rc, acc) := cb path st acc
  (if rc = 0 then 1 else 0, acc)

/-- `walk_impl` with `levels` levels left down to the deepest one, `WALK_MAX_DEPTH`. -/
def walkImpl : Nat → CStr → List UInt64 → β → Int × List UInt64 × β
  | 0, _, vs, acc => (0, vs, acc)
  | levels + 1, path, vs, acc =>
    match fs.lstat path with
    | none => (0, vs, acc)
    | some st =>
      match st.stMode with
      | .reg =>
        let (n, acc) := visitFile cb path st acc
        (n, vs, acc)
      | .other => (0, vs, acc)
      | .dir =>
        match visitedCheckAdd vs st.stIno with
        | (true, vs) => (0, vs, acc)
        | (false, vs) =>
          match fs.readdir path with
          | none => (0, vs, acc)
          | some names =>
            (names.filter (!isDots ·)).foldl
              (fun (count, vs, acc) name =>
                match subPath path name with
                | none => (count, vs, acc)
                | some sub =>
                  match fs.lstat sub with
                  | none => (count, vs, acc)
                  | some subSt =>
                    match subSt.stMode with
                    | .reg =>
                      let (n, acc) := visitFile cb sub subSt acc
                      (count + n, vs, acc)
                    | .dir =>
                      if recursive then
                        let (n, vs, acc) := walkImpl levels sub vs acc
                        (count + n, vs, acc)
                      else (count, vs, acc)
                    | .other => (count, vs, acc))
              (0, vs, acc)

/-- The base path without trailing slashes, down to one byte. -/
def stripSlashes (base : CStr) : CStr :=
  base.cut (max 1 (base.bytes.rdropWhile (· = 47)).length)

def igWalk (base : CStr) (acc : β) : Int × β :=
  let (count, _, acc) := walkImpl fs cb recursive (walkMaxDepth + 1) (stripSlashes (base.cut (igMaxPath - 1))) [] acc
  (count, acc)

end Walk

/-! ## The scan -/

/-- `ig_watch_entry_t`. -/
structure WatchEntry where
  path : TermArr igMaxPath
  recursive : Bool

/-- `result_grow`. -/
def resultGrow (growOk : Nat → Bool) (r : ScanResult) : Option ScanResult :=
  let newCap := if r.capacity = 0 then 256 else r.capacity * 2
  if growOk newCap then some { r with capacity := newCap } else none

/-- `scan_cb`; it counts every file. -/
def scanCb (fs : Files) (growOk : Nat → Bool) (path : CStr) (st : Stat) (r : ScanResult) : Int × ScanResult :=
  match if r.entries.length ≥ r.capacity then resultGrow growOk r else some r with
  | none => (0, { r with errors := r.errors + 1 })
  | some r =>
    match fs.sha256File path with
    | none => (0, { r with errors := r.errors + 1 })
    | some hash =>
      (0, { r with entries := r.entries ++ [⟨path.cut (igMaxPath - 1), hash, st.stMtime, st.stSize⟩] })

def igBaselineScan (fs : Files) (growOk : Nat → Bool) (watches : List WatchEntry) : ScanResult :=
  watches.foldl (fun r w => (igWalk fs (scanCb fs growOk) w.recursive w.path.str r).2) ⟨[], 0, 0⟩

def igBaselineDbBuild (fs : Files) (growOk : Nat → Bool) (_ : ScanResult) (watches : List WatchEntry) : ScanResult :=
  igBaselineScan fs growOk watches

end KnIg.Agent
