/-
The eBPF backend's policy map and the recursive passes that add and remove the policies of a path
and everything below it: which inodes carry a policy after a pass that returns, and which passes
return.
-/
import KnIg.Agent.Files
import KnIg.Ebpf.PathCache
import KnIg.Lib.BoundedMap

namespace KnIg.Ebpf

open Lib Lib.TreeWalk KnIg.Agent

/-! ## The passes -/

/-- `struct inode_policy`. -/
structure InodePolicy where
  mask : UInt32
  block : UInt32
deriving DecidableEq

/-- `max_entries` of `policy_map`. -/
def policyMapMax : Nat := 16384

abbrev PolicyMap := BoundedMap FileId InodePolicy policyMapMax

/-- `policy_map` with the reverse path cache beside it. -/
structure PolicyState where
  map : PolicyMap
  cache : PathCache

/-- `add_policy_inode`; none when the update of the full map is refused. -/
def addPolicyInode (m : PolicyMap) (id : FileId) (mask block : UInt32) : Option PolicyMap :=
  m.update id ⟨mask, block⟩

def removePolicyInode (m : PolicyMap) (id : FileId) : PolicyMap := m.delete id

section Pass

variable {σ : Type} (fs : Files) (act : FileId → CStr → σ → σ)

/-- What `add_path_internal` and `remove_path_internal` share: act on the path's inode, then pass
over the entries of a directory. The fuel bounds the depth of the recursion; running out of it is a
pass that never returns. -/
def pathInternal : Nat → CStr → Bool → σ → Option (Int × σ)
  | 0, _, _, _ => none
  | fuel + 1, path, recursive, s =>
    match fs.lstat path with
    | none => some (-1, s)
    | some st =>
      if recursive ∧ st.stMode = .dir then
        match fs.readdir path with
        | none => some (-1, act st.id path s)
        | some names =>
          ((names.filter (!isDots ·)).foldlM
            (fun s name => (pathInternal fuel (childPath path name) true s).map (·.2)) (act st.id path s)).map
            fun s => (0, s)
      else some (0, act st.id path s)

/-- The act of a pass on one path. -/
def visitPath (path : CStr) (s : σ) : σ :=
  match fs.lstat path with
  | some st => act st.id path s
  | none => s

end Pass

def addVisit (mask block : UInt32) (id : FileId) (path : CStr) (s : PolicyState) : PolicyState :=
  match addPolicyInode s.map id mask block with
  | some m => { map := m, cache := pathCachePut s.cache id path }
  | none => s

def removeVisit (id : FileId) (_ : CStr) (s : PolicyState) : PolicyState :=
  { map := removePolicyInode s.map id, cache := pathCacheRemove s.cache id }

def addPathInternal (fs : Files) (mask block : UInt32) (fuel : Nat) (path : CStr) (recursive : Bool)
    (s : PolicyState) : Option (Int × PolicyState) :=
  pathInternal fs (addVisit mask block) fuel path recursive s

def removePathInternal (fs : Files) (fuel : Nat) (path : CStr) (recursive : Bool) (s : PolicyState) :
    Option (Int × PolicyState) :=
  pathInternal fs removeVisit fuel path recursive s

def ebpfPolicyAddPathRecursive (fs : Files) (path : CStr) (mask block : UInt32) (s : PolicyState) :
    Option (Int × PolicyState) :=
  addPathInternal fs mask block igMaxPath path true s

def ebpfPolicyRemovePathRecursive (fs : Files) (path : CStr) (s : PolicyState) : Option (Int × PolicyState) :=
  removePathInternal fs igMaxPath path true s

/-! ## A pass is a walk -/

section Pass

variable {σ : Type} {fs : Files} {act : FileId → CStr → σ → σ}

/-- A recursive pass walks the paths below its own. -/
theorem pathInternal_eq_walk : ∀ (fuel : Nat) (path : CStr) (s : σ),
    (pathInternal fs act fuel path true s).map (·.2) = walk fs.below (visitPath fs act) fuel path s
  | 0, _, _ => rfl
  | fuel + 1, path, s => by
    have ih : (fun s name => (pathInternal fs act fuel (childPath path name) true s).map (·.2)) =
        fun s name => walk fs.below (visitPath fs act) fuel (childPath path name) s := by
      funext s name
      exact pathInternal_eq_walk fuel (childPath path name) s
    unfold pathInternal walk Files.below visitPath
    cases fs.lstat path with
    | none => rfl
    | some st =>
      by_cases hdir : st.stMode = .dir
      · simp only [hdir, and_self, if_true]
        cases fs.readdir path with
        | none => rfl
        | some names =>
          simp only [Option.map_map, List.foldlM_map, ih]
          exact Option.map_id'
      · simp only [hdir, and_false, if_false]
        rfl

end Pass

/-! ## Inodes carrying a policy -/

/-- The inodes a recursive pass over a path acts on, in order. -/
def visitedInodes (fs : Files) (path : CStr) : List FileId :=
  ((trace fs.below igMaxPath path).getD []).filterMap fun p => (fs.lstat p).map Stat.id

/-- A pass returns exactly when it reaches no directory with entries at a full path. -/
theorem pathInternal_isSome_iff {σ : Type} {fs : Files} {act : FileId → CStr → σ → σ} {path : CStr}
    (hlen : path.length < igMaxPath) (s : σ) :
    (pathInternal fs act igMaxPath path true s).isSome ↔ ¬ fs.PathFull path := by
  have hwalk := congrArg Option.isSome (@pathInternal_eq_walk _ fs act igMaxPath path s)
  rw [walk_eq_trace, Option.isSome_map, Option.isSome_map] at hwalk
  rw [hwalk, Files.trace_isSome_iff hlen]

/-- A pass that returns acts on the inodes of the paths it reaches. -/
theorem mem_visitedInodes {fs : Files} {path : CStr} (hlen : path.length < igMaxPath) (hfull : ¬ fs.PathFull path)
    {id : FileId} :
    id ∈ visitedInodes fs path ↔ ∃ q, Reached fs.below path q ∧ ∃ st, fs.lstat q = some st ∧ st.id = id := by
  obtain ⟨ps, hps⟩ := Option.isSome_iff_exists.1 ((Files.trace_isSome_iff hlen).2 hfull)
  simp only [visitedInodes, hps, Option.getD_some, List.mem_filterMap, mem_trace _ _ _ hps, Option.map_eq_some_iff]

/-- A pass that returns is its act on the paths it reaches, in order. -/
theorem pathInternal_eq_foldl {σ : Type} {fs : Files} {act : FileId → CStr → σ → σ} {path : CStr} {rc : Int}
    {s s' : σ} (h : pathInternal fs act igMaxPath path true s = some (rc, s')) :
    ∃ ps, trace fs.below igMaxPath path = some ps ∧ s' = ps.foldl (fun s p => visitPath fs act p s) s := by
  have hwalk := @pathInternal_eq_walk _ fs act igMaxPath path s
  rw [h, walk_eq_trace] at hwalk
  obtain ⟨ps, hps, hs'⟩ := Option.map_eq_some_iff.1 hwalk.symm
  exact ⟨ps, hps, hs'.symm⟩

/-- What the act keeps, a pass that returns keeps. -/
theorem pathInternal_invariant {σ : Type} {fs : Files} {act : FileId → CStr → σ → σ} {I : σ → Prop}
    (hact : ∀ id path s, I s → I (act id path s)) {path : CStr} {rc : Int} {s s' : σ}
    (h : pathInternal fs act igMaxPath path true s = some (rc, s')) (hs : I s) : I s' := by
  have hvisit : ∀ s p, I s → I (visitPath fs act p s) := by
    intro s p hs
    unfold visitPath
    split
    · exact hact _ _ _ hs
    · exact hs
  obtain ⟨ps, -, rfl⟩ := pathInternal_eq_foldl h
  exact List.foldlRecOn ps _ hs fun s hs p _ => hvisit s p hs

/-- A pass whose act changes the keys of the map by one inode at a time changes them by the visited
inodes. -/
theorem keys_pathInternal {fs : Files} {act : FileId → CStr → PolicyState → PolicyState}
    {onKey : Finset FileId → FileId → Finset FileId}
    (hact : ∀ id path s, (act id path s).map.keys = onKey s.map.keys id) {path : CStr} {rc : Int}
    {s s' : PolicyState} (h : pathInternal fs act igMaxPath path true s = some (rc, s')) :
    s'.map.keys = (visitedInodes fs path).foldl onKey s.map.keys := by
  have hfold : ∀ (ps : List CStr) (s : PolicyState), (ps.foldl (fun s p => visitPath fs act p s) s).map.keys =
      (ps.filterMap fun p => (fs.lstat p).map Stat.id).foldl onKey s.map.keys := by
    intro ps
    induction ps with
    | nil => intro s; rfl
    | cons p ps ih =>
      intro s
      rw [List.foldl_cons, ih]
      unfold visitPath
      cases hp : fs.lstat p with
      | none => simp [hp]
      | some st => simp [hp, hact]
  obtain ⟨ps, hps, rfl⟩ := pathInternal_eq_foldl h
  unfold visitedInodes
  rw [hfold, hps]
  rfl

theorem keys_addVisit (mask block : UInt32) (id : FileId) (path : CStr) (s : PolicyState) :
    (addVisit mask block id path s).map.keys = offer policyMapMax s.map.keys id := by
  have hoffer := BoundedMap.keys_offer s.map id (⟨mask, block⟩ : InodePolicy)
  unfold addVisit addPolicyInode
  cases h : s.map.update id ⟨mask, block⟩ with
  | none => rw [h] at hoffer; exact hoffer
  | some m => rw [h] at hoffer; exact hoffer

theorem keys_removeVisit (id : FileId) (path : CStr) (s : PolicyState) :
    (removeVisit id path s).map.keys = s.map.keys.erase id := rfl

/-- The inodes with a policy after a recursive add that returns. -/
theorem keys_add {fs : Files} {path : CStr} {mask block : UInt32} {rc : Int} {s s' : PolicyState}
    (h : ebpfPolicyAddPathRecursive fs path mask block s = some (rc, s')) :
    s'.map.keys = offerAll policyMapMax s.map.keys (visitedInodes fs path) :=
  keys_pathInternal (keys_addVisit mask block) h

/-- The inodes with a policy after a recursive removal that returns. -/
theorem keys_remove {fs : Files} {path : CStr} {rc : Int} {s s' : PolicyState}
    (h : ebpfPolicyRemovePathRecursive fs path s = some (rc, s')) :
    s'.map.keys = s.map.keys \ (visitedInodes fs path).toFinset := by
  have hfold : ∀ (ids : List FileId) (keys : Finset FileId), ids.foldl Finset.erase keys = keys \ ids.toFinset := by
    intro ids
    induction ids with
    | nil => intro keys; simp
    | cons id ids ih =>
      intro keys
      rw [List.foldl_cons, ih, List.toFinset_cons, Finset.sdiff_insert, Finset.erase_sdiff_comm]
  rw [keys_pathInternal keys_removeVisit h, hfold]

end KnIg.Ebpf
