/-
The agent's baseline: the table of paths with the hash, time and size last recorded for them, its
check, update and remove, and what each leaves of the hash and of the entries stored for a path.
-/
import KnIg.File
import KnIg.Lib.Keyed

namespace KnIg.Agent

open Lib

/-! ## The table -/

structure FileStat where
  mtime : Int64
  size : Int64
deriving DecidableEq

/-- `ig_scan_entry_t`. -/
structure ScanEntry where
  path : CStr
  hash : CStr
  mtime : Int64
  size : Int64
deriving DecidableEq

/-- `ig_scan_result_t`: the entries with the allocated capacity and the skipped files. -/
structure ScanResult where
  entries : List ScanEntry
  capacity : Nat
  errors : Nat
deriving DecidableEq

/-- `ig_integrity_result_t`. -/
inductive Integrity where
  | same | mismatch | new | error
deriving DecidableEq

/-- What the agent reads at each moment: the text `ig_sha256_file` leaves for a path, its `stat`,
and whether an allocation succeeds. -/
structure Disk where
  sha256File : Nat → CStr → Option CStr
  stat : Nat → CStr → Option FileStat
  reallocOk : Nat → Bool

def ScanResult.lookup (db : ScanResult) (path : CStr) : Option ScanEntry :=
  Keyed.get ScanEntry.path db.entries path

/-- The hash stored for a path. -/
def ScanResult.storedHash (db : ScanResult) (path : CStr) : Option CStr := (db.lookup path).map (·.hash)

/-- `ig_baseline_check_file` at a moment: the verdict, the expected and the actual hash. -/
def igBaselineCheckFile (d : Disk) (now : Nat) (db : ScanResult) (path : CStr) : Integrity × CStr × CStr :=
  match d.sha256File now path with
  | none => (.error, ⟨[], zero_notMem_nil⟩, ⟨[], zero_notMem_nil⟩)
  | some actual =>
    match db.lookup path with
    | some e => (if actual = e.hash then .same else .mismatch, e.hash, actual)
    | none => (.new, ⟨[], zero_notMem_nil⟩, actual)

/-- The entry of a path after an update. -/
def ScanEntry.refresh (e : ScanEntry) (hash : CStr) (st : FileStat) : ScanEntry :=
  { e with hash := hash, mtime := st.mtime, size := st.size }

/-- Append an entry, growing the array when it is full. -/
def ScanResult.add (db : ScanResult) (reallocOk : Bool) (e : ScanEntry) : ScanResult :=
  if db.entries.length ≥ db.capacity then
    if reallocOk then
      { db with entries := db.entries ++ [e], capacity := if db.capacity = 0 then 256 else db.capacity * 2 }
    else db
  else { db with entries := db.entries ++ [e] }

/-- `ig_baseline_db_update`: the file is read at `now` and its status right after. -/
def igBaselineDbUpdate (d : Disk) (now : Nat) (db : ScanResult) (path : CStr) : ScanResult :=
  match d.sha256File now path with
  | none => db
  | some hash =>
    match d.stat (now + 1) path with
    | none => db
    | some st =>
      match db.lookup path with
      | some _ =>
        { db with entries := Keyed.modify ScanEntry.path db.entries path (·.refresh hash st) }
      | none => db.add (d.reallocOk (now + 2)) ⟨path.cut (igMaxPath - 1), hash, st.mtime, st.size⟩

/-- `ig_baseline_db_remove`: the last entry takes the place of the removed one. -/
def igBaselineDbRemove (db : ScanResult) (path : CStr) : ScanResult :=
  match db.entries.findIdx? (·.path = path), db.entries.getLast? with
  | some i, some last => { db with entries := (db.entries.set i last).dropLast }
  | _, _ => db

/-! ## Hashes after an update -/

/-- What the update read of the file, when it read both the file and its status. -/
def readForUpdate (d : Disk) (now : Nat) (path : CStr) : Option CStr :=
  match d.sha256File now path, d.stat (now + 1) path with
  | some hash, some _ => some hash
  | _, _ => none

theorem lookup_add_of_some {db : ScanResult} {path : CStr} {e : ScanEntry} (h : db.lookup path = some e)
    (reallocOk : Bool) (e' : ScanEntry) : (db.add reallocOk e').lookup path = some e := by
  have happ : Keyed.get ScanEntry.path (db.entries ++ [e']) path = some e := by
    rw [Keyed.get_append]
    unfold ScanResult.lookup at h
    rw [h]; rfl
  unfold ScanResult.add
  split
  · split
    · exact happ
    · exact h
  · exact happ

/-- What an update leaves stored for a path that has an entry: the hash it read, if it read one and
the path is the updated one. -/
theorem storedHash_update (d : Disk) (now : Nat) {db : ScanResult} (path : CStr) {path' h : CStr}
    (hs : db.storedHash path' = some h) :
    (igBaselineDbUpdate d now db path).storedHash path' =
      some (if path' = path then (readForUpdate d now path).getD h else h) := by
  obtain ⟨e, he, rfl⟩ := Option.map_eq_some_iff.1 hs
  unfold igBaselineDbUpdate readForUpdate
  cases hsha : d.sha256File now path with
  | none => simpa using hs
  | some hash =>
    cases hst : d.stat (now + 1) path with
    | none => simpa using hs
    | some st =>
      cases hl : db.lookup path with
      | some e' =>
        have hget := Keyed.get_modify (fun e : ScanEntry => (rfl : (e.refresh hash st).path = e.path)) path path'
          db.entries
        unfold ScanResult.storedHash ScanResult.lookup at *
        simp only [hget]
        by_cases hp : path' = path
        · simp [hp, hl, ScanEntry.refresh]
        · simp [hp, he]
      | none =>
        -- a path without an entry gets a new one, so it is not the path asked for
        have hp : path' ≠ path := by rintro rfl; rw [hl] at he; cases he
        simp only [ScanResult.storedHash, if_neg hp, lookup_add_of_some he, Option.map_some]

/-- No update drops an entry. -/
theorem lookup_isSome_update (d : Disk) (now : Nat) {db : ScanResult} (path : CStr) {path' : CStr}
    (h : (db.lookup path').isSome) : ((igBaselineDbUpdate d now db path).lookup path').isSome := by
  obtain ⟨e, he⟩ := Option.isSome_iff_exists.1 h
  have hs : db.storedHash path' = some e.hash := by rw [ScanResult.storedHash, he]; rfl
  have hafter := congrArg Option.isSome (storedHash_update d now path hs)
  rwa [ScanResult.storedHash, Option.isSome_map] at hafter

/-! ## Entries after a removal -/

/-- The paths of the entries. -/
def ScanResult.paths (db : ScanResult) : List CStr := db.entries.map ScanEntry.path

theorem remove_perm_eraseP (db : ScanResult) (path : CStr) :
    (igBaselineDbRemove db path).entries.Perm (db.entries.eraseP (·.path = path)) := by
  unfold igBaselineDbRemove
  cases hi : db.entries.findIdx? (·.path = path) with
  | none =>
    rw [List.findIdx?_eq_none_iff] at hi
    rw [List.eraseP_of_forall_not fun e he => by simpa using hi e he]
  | some i =>
    obtain ⟨hlt, hfind⟩ := List.findIdx?_eq_some_iff_findIdx_eq.1 hi
    cases hlast : db.entries.getLast? with
    | none =>
      rw [List.getLast?_eq_none_iff] at hlast
      rw [hlast] at hlt
      exact absurd hlt (Nat.not_lt_zero i)
    | some last =>
      have hidx : db.entries.eraseP (·.path = path) = db.entries.eraseIdx i := by
        rw [List.eraseP_eq_eraseIdx, hi]
      rw [hidx]
      exact Keyed.dropLast_set_perm hlt hlast

/-- A removed path still has an entry when it had two. -/
theorem lookup_isSome_remove (db : ScanResult) (path path' : CStr) :
    ((igBaselineDbRemove db path).lookup path').isSome ↔
      if path' = path then 2 ≤ db.paths.count path else (db.lookup path').isSome :=
  Keyed.get_isSome_of_perm_eraseP (remove_perm_eraseP db path) path'

end KnIg.Agent
