/-
A reload of the agent's configuration against a fresh start with it: which inodes carry a policy
after each. The eBPF reload compares the watch lists as texts and undoes the removed paths inode by
inode, so it agrees with a fresh start exactly when no inode of a removed path is still needed by
a path it keeps; the reload for the kernel module injects the baseline of the old list again, so it
agrees exactly when both lists' scans find the same inodes.
-/
import KnIg.Ebpf.PolicyMap
import KnIg.Lib.Run
import KnIg.Lkm.Client

namespace KnIg.Agent

open Lib Lib.TreeWalk Ebpf Lkm

/-! ## Start and reload -/

/-- `IG_MAX_WATCHES`. -/
def igMaxWatches : Nat := 64

/-- The watch list of an `ig_config_t`. -/
structure IgConfig where
  watches : List WatchEntry
  fits : watches.length ≤ igMaxWatches

/-- What a start and a reload run in: the file tree, the memory that can be had, the mode. -/
structure Env extends Files where
  growOk : Nat → Bool
  kzallocOk : FileId → Bool
  block : UInt32

/-- The active backend: `g_ebpf_active` or `g_lkm_active`. -/
inductive Backend where
  | ebpf | lkm
deriving DecidableEq

/-- The running agent and the policies it has installed in the kernel. -/
structure RunningAgent where
  backend : Backend
  cfg : IgConfig
  baseline : ScanResult
  ebpf : PolicyState
  lkm : PolicyTable

/-- The inode carries a policy of the active backend. -/
def RunningAgent.Carries (a : RunningAgent) (id : FileId) : Prop :=
  match a.backend with
  | .ebpf => id ∈ a.ebpf.map.keys
  | .lkm => HasPolicy a.lkm id

def igEbpfOpWrite : UInt32 := 2
def igEbpfOpDelete : UInt32 := 4
def igEbpfOpAttr : UInt32 := 8

def protectMask : UInt32 := igEbpfOpWrite ||| igEbpfOpDelete ||| igEbpfOpAttr

/-- The state of a backend just loaded. -/
def ebpfInit : PolicyState := ⟨.empty, .empty⟩

/-- Add each path in turn; the return codes are only logged. -/
def addWatches (env : Env) (watches : List WatchEntry) (s : PolicyState) : Option PolicyState :=
  watches.foldlM (fun s w => (ebpfPolicyAddPathRecursive env.toFiles w.path.str protectMask env.block s).map (·.2)) s

def removeWatches (env : Env) (watches : List WatchEntry) (s : PolicyState) : Option PolicyState :=
  watches.foldlM (fun s w => (ebpfPolicyRemovePathRecursive env.toFiles w.path.str s).map (·.2)) s

/-- `main` from the baseline scan on; `left` is what an earlier run left in the kernel module. -/
def start (env : Env) (backend : Backend) (left : PolicyTable) (cfg : IgConfig) : Option RunningAgent :=
  let baseline := igBaselineDbBuild env.toFiles env.growOk ⟨[], 0, 0⟩ cfg.watches
  match backend with
  | .lkm =>
    let lkm := (lkmAddFromBaseline env.toFiles env.kzallocOk baseline env.block (lkmClearAll left)).2
    some ⟨.lkm, cfg, baseline, ebpfInit, lkm⟩
  | .ebpf => (addWatches env cfg.watches ebpfInit).map fun s => ⟨.ebpf, cfg, baseline, s, left⟩

/-- The path is one of the configuration's, compared by `strcmp`. -/
def IgConfig.found (cfg : IgConfig) (w : WatchEntry) : Bool := cfg.watches.any (·.path.str = w.path.str)

/-- The paths of one configuration that another does not have. -/
def IgConfig.without (cfg other : IgConfig) : List WatchEntry := cfg.watches.filter (!other.found ·)

/-- `reload_config` after the new configuration is loaded. -/
def reloadConfig (env : Env) (a : RunningAgent) (newCfg : IgConfig) : Option RunningAgent :=
  match a.backend with
  | .ebpf =>
    (removeWatches env (a.cfg.without newCfg) a.ebpf).bind fun s =>
      (addWatches env (newCfg.without a.cfg) s).map fun s => { a with cfg := newCfg, ebpf := s }
  | .lkm =>
    some
      { a with
        cfg := newCfg
        lkm := (lkmAddFromBaseline env.toFiles env.kzallocOk a.baseline env.block (lkmClearAll a.lkm)).2 }

/-- Start, reload and fresh start return, and the reload leaves the policies of the fresh start. -/
def ReloadAgrees (env : Env) (backend : Backend) (left : PolicyTable) (old new : IgConfig) : Prop :=
  ∃ a₀ a₁ a₂, start env backend left old = some a₀ ∧ reloadConfig env a₀ new = some a₁ ∧
    start env backend left new = some a₂ ∧ ∀ id, a₁.Carries id ↔ a₂.Carries id

/-! ## The eBPF backend -/

/-- The inodes the passes over a watch list act on, in order. -/
def inodesOf (fs : Files) (watches : List WatchEntry) : List FileId :=
  watches.flatMap fun w => visitedInodes fs w.path.str

theorem addWatches_isSome_iff {env : Env} {watches : List WatchEntry} {s : PolicyState} :
    (addWatches env watches s).isSome ↔ ∀ w ∈ watches, ¬ env.PathFull w.path.str :=
  foldlM_isSome_iff (fun s w => by
    rw [Option.isSome_map]
    exact pathInternal_isSome_iff w.path.fits s) watches s

theorem removeWatches_isSome_iff {env : Env} {watches : List WatchEntry} {s : PolicyState} :
    (removeWatches env watches s).isSome ↔ ∀ w ∈ watches, ¬ env.PathFull w.path.str :=
  foldlM_isSome_iff (fun s w => by
    rw [Option.isSome_map]
    exact pathInternal_isSome_iff w.path.fits s) watches s

theorem keys_addWatches {env : Env} {watches : List WatchEntry} {s s' : PolicyState}
    (h : addWatches env watches s = some s') :
    s'.map.keys = offerAll policyMapMax s.map.keys (inodesOf env.toFiles watches) := by
  unfold inodesOf offerAll
  rw [List.foldl_flatMap]
  refine foldlM_view (·.map.keys) (fun s w s' hs => ?_) watches h
  obtain ⟨⟨rc, t⟩, ht, rfl⟩ := Option.map_eq_some_iff.1 hs
  exact keys_add ht

theorem keys_removeWatches {env : Env} {watches : List WatchEntry} {s s' : PolicyState}
    (h : removeWatches env watches s = some s') :
    s'.map.keys = s.map.keys \ (inodesOf env.toFiles watches).toFinset := by
  have hfold : ∀ (ws : List WatchEntry) (keys : Finset FileId),
      ws.foldl (fun keys w => keys \ (visitedInodes env.toFiles w.path.str).toFinset) keys =
        keys \ (inodesOf env.toFiles ws).toFinset := by
    intro ws
    induction ws with
    | nil => intro keys; simp [inodesOf]
    | cons w ws ih =>
      intro keys
      rw [List.foldl_cons, ih]
      simp [inodesOf, sdiff_sdiff]
  rw [← hfold]
  refine foldlM_view (·.map.keys) (fun s w s' hs => ?_) watches h
  obtain ⟨⟨rc, t⟩, ht, rfl⟩ := Option.map_eq_some_iff.1 hs
  exact keys_remove ht

/-- The entries of the new list whose paths the old one has too. -/
def IgConfig.kept (cfg other : IgConfig) : List WatchEntry := cfg.watches.filter other.found

theorem mem_inodesOf {fs : Files} {watches : List WatchEntry} {id : FileId} :
    id ∈ inodesOf fs watches ↔ ∃ w ∈ watches, id ∈ visitedInodes fs w.path.str := by
  unfold inodesOf; exact List.mem_flatMap

/-- The entries of a list are the ones kept from another and the ones it adds. -/
theorem mem_inodesOf_iff {fs : Files} (cfg other : IgConfig) {id : FileId} :
    id ∈ inodesOf fs cfg.watches ↔ id ∈ inodesOf fs (cfg.kept other) ∨ id ∈ inodesOf fs (cfg.without other) := by
  simp only [mem_inodesOf, IgConfig.kept, IgConfig.without, List.mem_filter, Bool.not_eq_true']
  constructor
  · rintro ⟨w, hw, hid⟩
    cases hf : other.found w with
    | true => exact .inl ⟨w, ⟨hw, hf⟩, hid⟩
    | false => exact .inr ⟨w, ⟨hw, hf⟩, hid⟩
  · rintro (⟨w, ⟨hw, -⟩, hid⟩ | ⟨w, ⟨hw, -⟩, hid⟩)
    · exact ⟨w, hw, hid⟩
    · exact ⟨w, hw, hid⟩

/-- An inode that a path kept from the old list leads to is one that the new list leads to as kept. -/
theorem mem_inodesOf_kept {fs : Files} {old new : IgConfig} {id : FileId} :
    id ∈ inodesOf fs (old.kept new) ↔ id ∈ inodesOf fs (new.kept old) := by
  have hswap : ∀ {old new : IgConfig}, id ∈ inodesOf fs (old.kept new) → id ∈ inodesOf fs (new.kept old) := by
    intro old new h
    simp only [mem_inodesOf, IgConfig.kept, IgConfig.found, List.mem_filter, List.any_eq_true,
      decide_eq_true_eq] at h ⊢
    obtain ⟨w, ⟨hw, w', hw', hp⟩, hid⟩ := h
    exact ⟨w', ⟨hw', w, hw, hp.symm⟩, by rwa [hp]⟩
  exact ⟨hswap, hswap⟩

/-- The inodes with a policy after the start with a list. -/
def startKeys (fs : Files) (cfg : IgConfig) : Finset FileId :=
  offerAll policyMapMax ∅ (inodesOf fs cfg.watches)

/-- The inodes with a policy after the reload. -/
def reloadKeys (fs : Files) (old new : IgConfig) : Finset FileId :=
  offerAll policyMapMax (startKeys fs old \ (inodesOf fs (old.without new)).toFinset) (inodesOf fs (new.without old))

/-- What the removals leave and the additions bring are inodes of the new list. -/
theorem left_union_added_subset (fs : Files) (old new : IgConfig) :
    startKeys fs old \ (inodesOf fs (old.without new)).toFinset ∪ (inodesOf fs (new.without old)).toFinset ⊆
      (inodesOf fs new.watches).toFinset := by
  intro id hid
  rw [List.mem_toFinset, mem_inodesOf_iff new old]
  rcases Finset.mem_union.1 hid with h | h
  · obtain ⟨hstart, hrem⟩ := Finset.mem_sdiff.1 h
    have hold : id ∈ inodesOf fs old.watches := by
      simpa using offerAll_subset _ _ hstart
    rcases (mem_inodesOf_iff old new).1 hold with hkept | hremoved
    · exact .inl (mem_inodesOf_kept.1 hkept)
    · exact absurd (List.mem_toFinset.2 hremoved) hrem
  · exact .inr (List.mem_toFinset.1 h)

/-- A reload leaves no policy on an inode that no path of the new list leads to. -/
theorem reloadKeys_subset (fs : Files) (old new : IgConfig) :
    reloadKeys fs old new ⊆ (inodesOf fs new.watches).toFinset :=
  (offerAll_subset _ _).trans (left_union_added_subset fs old new)

theorem card_reloadKeys_le (fs : Files) (old new : IgConfig) : (reloadKeys fs old new).card ≤ policyMapMax := by
  refine card_offerAll_le _ ?_
  have hstart : (startKeys fs old).card ≤ policyMapMax := card_offerAll_le _ (by simp)
  exact (Finset.card_le_card Finset.sdiff_subset).trans hstart

/-! ## When the reload agrees with a fresh start -/

/-- The inode is one of the first of a sequence of inodes, as many as the map holds. -/
def Early (ids : List FileId) (id : FileId) : Prop :=
  id ∈ ids ∧ (ids.takeWhile (· ≠ id)).toFinset.card < policyMapMax

instance (ids : List FileId) (id : FileId) : Decidable (Early ids id) := inferInstanceAs (Decidable (_ ∧ _))

theorem mem_startKeys {fs : Files} {cfg : IgConfig} {id : FileId} :
    id ∈ startKeys fs cfg ↔ Early (inodesOf fs cfg.watches) id := by
  unfold startKeys Early
  rw [mem_offerAll _ (by simp)]
  simp

/-- The early inodes of the old list that no removed path leads to. -/
def leftInPlace (fs : Files) (old new : IgConfig) : Finset FileId :=
  (inodesOf fs old.watches).toFinset.filter fun id =>
    Early (inodesOf fs old.watches) id ∧ id ∉ inodesOf fs (old.without new)

theorem leftInPlace_eq (fs : Files) (old new : IgConfig) :
    leftInPlace fs old new = startKeys fs old \ (inodesOf fs (old.without new)).toFinset := by
  ext id
  unfold leftInPlace
  rw [Finset.mem_filter, Finset.mem_sdiff, mem_startKeys, List.mem_toFinset, List.mem_toFinset]
  exact ⟨fun h => h.2, fun h => ⟨h.1.1, h⟩⟩

/-- The inode stays in place, or an added path leads to it while there is room. -/
def Retained (fs : Files) (old new : IgConfig) (id : FileId) : Prop :=
  id ∈ leftInPlace fs old new ∨
    id ∈ inodesOf fs (new.without old) ∧
      (leftInPlace fs old new ∪ ((inodesOf fs (new.without old)).takeWhile (· ≠ id)).toFinset).card < policyMapMax

instance (fs : Files) (old new : IgConfig) (id : FileId) : Decidable (Retained fs old new id) :=
  inferInstanceAs (Decidable (_ ∨ _))

/-- The condition for the eBPF reload: no pass over a path of the two lists reaches a directory with
entries at a full path, and the early inodes of the new list are retained. -/
structure EbpfCondition (fs : Files) (old new : IgConfig) : Prop where
  returns : ∀ w ∈ old.watches ++ new.watches, ¬ fs.PathFull w.path.str
  retained : ∀ id, Early (inodesOf fs new.watches) id → Retained fs old new id

theorem startKeys_subset_reloadKeys_iff {fs : Files} {old new : IgConfig} :
    startKeys fs new ⊆ reloadKeys fs old new ↔
      ∀ id, Early (inodesOf fs new.watches) id → Retained fs old new id := by
  have hcard : (leftInPlace fs old new).card ≤ policyMapMax := by
    rw [leftInPlace_eq]
    exact (Finset.card_le_card Finset.sdiff_subset).trans (card_offerAll_le _ (by simp))
  have hmem : ∀ id, id ∈ reloadKeys fs old new ↔ Retained fs old new id := fun id => by
    unfold reloadKeys Retained
    rw [← leftInPlace_eq]
    exact mem_offerAll _ hcard
  constructor
  · intro h id hid
    exact (hmem id).1 (h (mem_startKeys.2 hid))
  · intro h id hid
    exact (hmem id).2 (h id (mem_startKeys.1 hid))

/-- When neither list leads to more inodes than the map holds, the new list's inodes are retained
exactly when no removed path leads to an inode that a kept path leads to and no added one. -/
theorem retained_iff_of_fits {fs : Files} {old new : IgConfig}
    (hold : (inodesOf fs old.watches).toFinset.card ≤ policyMapMax)
    (hnew : (inodesOf fs new.watches).toFinset.card ≤ policyMapMax) :
    (∀ id, Early (inodesOf fs new.watches) id → Retained fs old new id) ↔
      ∀ id ∈ inodesOf fs (new.kept old), id ∉ inodesOf fs (new.without old) →
        id ∉ inodesOf fs (old.without new) := by
  have hstart : ∀ {cfg : IgConfig}, (inodesOf fs cfg.watches).toFinset.card ≤ policyMapMax →
      startKeys fs cfg = (inodesOf fs cfg.watches).toFinset := fun h => by
    unfold startKeys
    rw [offerAll_of_fits (by simpa using h), Finset.empty_union]
  have hreload : reloadKeys fs old new =
      startKeys fs old \ (inodesOf fs (old.without new)).toFinset ∪ (inodesOf fs (new.without old)).toFinset :=
    offerAll_of_fits ((Finset.card_le_card (left_union_added_subset fs old new)).trans hnew)
  rw [← startKeys_subset_reloadKeys_iff, hreload, hstart hold, hstart hnew]
  constructor
  · intro h id hkept hadded hremoved
    have hid := h (List.mem_toFinset.2 ((mem_inodesOf_iff new old).2 (.inl hkept)))
    rcases Finset.mem_union.1 hid with hid | hid
    · exact (Finset.mem_sdiff.1 hid).2 (List.mem_toFinset.2 hremoved)
    · exact hadded (List.mem_toFinset.1 hid)
  · intro h id hid
    rw [Finset.mem_union, Finset.mem_sdiff, List.mem_toFinset, List.mem_toFinset, List.mem_toFinset]
    by_cases hadded : id ∈ inodesOf fs (new.without old)
    · exact .inr hadded
    · have hkept := ((mem_inodesOf_iff new old).1 (List.mem_toFinset.1 hid)).resolve_right hadded
      exact .inl ⟨(mem_inodesOf_iff old new).2 (.inl (mem_inodesOf_kept.2 hkept)), h id hkept hadded⟩

/-- The condition for the kernel module's reload: both lists' scans find files of the same inodes, as
far as the module has memory for them. -/
def LkmCondition (env : Env) (old new : IgConfig) : Prop :=
  ∀ id, env.kzallocOk id = true →
    (id ∈ entryInodes env.toFiles (igBaselineScan env.toFiles env.growOk old.watches).entries ↔
      id ∈ entryInodes env.toFiles (igBaselineScan env.toFiles env.growOk new.watches).entries)

theorem start_ebpf {env : Env} {left : PolicyTable} {cfg : IgConfig} {a : RunningAgent}
    (h : start env .ebpf left cfg = some a) :
    a.backend = .ebpf ∧ a.cfg = cfg ∧ a.ebpf.map.keys = startKeys env.toFiles cfg := by
  obtain ⟨s, hs, rfl⟩ := Option.map_eq_some_iff.1 h
  exact ⟨rfl, rfl, keys_addWatches hs⟩

theorem start_ebpf_isSome_iff {env : Env} (left : PolicyTable) {cfg : IgConfig} :
    (start env .ebpf left cfg).isSome ↔ ∀ w ∈ cfg.watches, ¬ env.PathFull w.path.str := by
  unfold start
  rw [Option.isSome_map, addWatches_isSome_iff]

theorem reload_ebpf {env : Env} {new : IgConfig} {a a' : RunningAgent} (hb : a.backend = .ebpf)
    (h : reloadConfig env a new = some a') :
    a'.backend = .ebpf ∧
      a'.ebpf.map.keys =
        offerAll policyMapMax (a.ebpf.map.keys \ (inodesOf env.toFiles (a.cfg.without new)).toFinset)
          (inodesOf env.toFiles (new.without a.cfg)) := by
  unfold reloadConfig at h
  rw [hb] at h
  obtain ⟨s, hs, h⟩ := Option.bind_eq_some_iff.1 h
  obtain ⟨s', hs', rfl⟩ := Option.map_eq_some_iff.1 h
  refine ⟨rfl, ?_⟩
  rw [← keys_removeWatches hs]
  exact keys_addWatches hs'

theorem reload_ebpf_isSome {env : Env} (new : IgConfig) {a : RunningAgent} (hb : a.backend = .ebpf)
    (h : ∀ w ∈ a.cfg.watches ++ new.watches, ¬ env.PathFull w.path.str) : (reloadConfig env a new).isSome := by
  have hrem : (removeWatches env (a.cfg.without new) a.ebpf).isSome :=
    removeWatches_isSome_iff.2 fun w hw => h w (List.mem_append_left _ (List.mem_of_mem_filter hw))
  obtain ⟨s, hs⟩ := Option.isSome_iff_exists.1 hrem
  have hadd : (addWatches env (new.without a.cfg) s).isSome :=
    addWatches_isSome_iff.2 fun w hw => h w (List.mem_append_right _ (List.mem_of_mem_filter hw))
  unfold reloadConfig
  rw [hb]
  simp only [hs, Option.bind_some, Option.isSome_map]
  exact hadd

theorem ebpf_reloadAgrees_iff (env : Env) (left : PolicyTable) (old new : IgConfig) :
    ReloadAgrees env .ebpf left old new ↔ EbpfCondition env.toFiles old new := by
  have hkeys : reloadKeys env.toFiles old new = startKeys env.toFiles new ↔
      ∀ id, Early (inodesOf env.toFiles new.watches) id → Retained env.toFiles old new id :=
    (eq_offerAll_iff (reloadKeys_subset _ old new) (card_reloadKeys_le _ old new)).trans
      startKeys_subset_reloadKeys_iff
  constructor
  -- both starts and the reload return: their maps can be compared
  · rintro ⟨a₀, a₁, a₂, h0, h1, h2, h⟩
    obtain ⟨hb0, hc0, hk0⟩ := start_ebpf h0
    obtain ⟨hb1, hk1⟩ := reload_ebpf hb0 h1
    obtain ⟨hb2, -, hk2⟩ := start_ebpf h2
    rw [hk0, hc0] at hk1
    refine ⟨fun w hw => ?_, hkeys.1 ?_⟩
    · have hold := (start_ebpf_isSome_iff left).1 (Option.isSome_of_mem h0)
      have hnew := (start_ebpf_isSome_iff left).1 (Option.isSome_of_mem h2)
      exact (List.mem_append.1 hw).elim (hold w) (hnew w)
    · ext id
      have hid := h id
      simp only [RunningAgent.Carries, hb1, hb2, hk1, hk2] at hid
      exact hid
  -- the passes of both lists return, and with them the starts and the reload
  · rintro ⟨hret, hretained⟩
    obtain ⟨a₀, h0⟩ := Option.isSome_iff_exists.1
      ((start_ebpf_isSome_iff left).2 fun w hw => hret w (List.mem_append_left _ hw))
    obtain ⟨a₂, h2⟩ := Option.isSome_iff_exists.1
      ((start_ebpf_isSome_iff left).2 fun w hw => hret w (List.mem_append_right _ hw))
    obtain ⟨hb0, hc0, hk0⟩ := start_ebpf h0
    obtain ⟨hb2, -, hk2⟩ := start_ebpf h2
    obtain ⟨a₁, h1⟩ := Option.isSome_iff_exists.1 (reload_ebpf_isSome new hb0 (by rwa [hc0]))
    obtain ⟨hb1, hk1⟩ := reload_ebpf hb0 h1
    rw [hk0, hc0] at hk1
    refine ⟨a₀, a₁, a₂, h0, h1, h2, fun id => ?_⟩
    have hid := Finset.ext_iff.1 (hkeys.2 hretained) id
    simp only [RunningAgent.Carries, hb1, hb2, hk1, hk2]
    exact hid

theorem lkm_reloadAgrees_iff (env : Env) (left : PolicyTable) (old new : IgConfig) :
    ReloadAgrees env .lkm left old new ↔ LkmCondition env old new := by
  unfold ReloadAgrees LkmCondition
  constructor
  · rintro ⟨a₀, a₁, a₂, h0, h1, h2, h⟩ id hid
    cases h0; cases h1; cases h2
    have hcarries := h id
    simp only [RunningAgent.Carries, hasPolicy_addFromBaseline, hid, and_true] at hcarries
    exact hcarries
  · intro h
    refine ⟨_, _, _, rfl, rfl, rfl, fun id => ?_⟩
    simp only [RunningAgent.Carries, hasPolicy_addFromBaseline]
    constructor
    · rintro ⟨hid, hok⟩
      exact ⟨(h id hok).1 hid, hok⟩
    · rintro ⟨hid, hok⟩
      exact ⟨(h id hok).2 hid, hok⟩

/-- A reload leaves the policies of a fresh start exactly when the active backend's condition holds. -/
theorem reloadAgrees_iff (env : Env) (backend : Backend) (left : PolicyTable) (old new : IgConfig) :
    ReloadAgrees env backend left old new ↔
      match backend with
      | .ebpf => EbpfCondition env.toFiles old new
      | .lkm => LkmCondition env old new := by
  cases backend with
  | ebpf => exact ebpf_reloadAgrees_iff env left old new
  | lkm => exact lkm_reloadAgrees_iff env left old new

theorem nestedName_noZero : 0 ∉ ascii "b" := by decide

theorem watchA_noZero : 0 ∉ ascii "/a" := by decide

/-- `/a` with the file `/a/b` in it, and the file `/c`. -/
def nestedEnv : Env where
  lstat path :=
    if path.bytes = ascii "/a" then some ⟨2049, 10, .dir, 0, 0⟩
    else if path.bytes = ascii "/a/b" then some ⟨2049, 11, .reg, 0, 0⟩
    else if path.bytes = ascii "/c" then some ⟨2049, 12, .reg, 0, 0⟩
    else none
  stat path :=
    if path.bytes = ascii "/a" then some ⟨2049, 10, .dir, 0, 0⟩
    else if path.bytes = ascii "/a/b" then some ⟨2049, 11, .reg, 0, 0⟩
    else if path.bytes = ascii "/c" then some ⟨2049, 12, .reg, 0, 0⟩
    else none
  readdir path := if path.bytes = ascii "/a" then some [⟨ascii "b", nestedName_noZero⟩] else none
  sha256File path := some path
  growOk _ := true
  kzallocOk _ := true
  block := igBlockDeny

def watchA : WatchEntry := ⟨⟨⟨ascii "/a", watchA_noZero⟩, by decide⟩, true⟩
def watchB : WatchEntry := ⟨⟨⟨ascii "/a/b", by decide⟩, by decide⟩, false⟩
def watchC : WatchEntry := ⟨⟨⟨ascii "/c", by decide⟩, by decide⟩, false⟩

/-- `/a` and `/a/b` are watched, then `/a/b` and `/c`. -/
def nestedOld : IgConfig := ⟨[watchA, watchB], by decide⟩
def nestedNew : IgConfig := ⟨[watchB, watchC], by decide⟩

/-- Removing `/a` takes the policy of the kept `/a/b` away, and the kernel module never gets one for
the added `/c`. -/
theorem reloadAgrees_nested_fails :
    ¬ ReloadAgrees nestedEnv .ebpf [] nestedOld nestedNew ∧ ¬ ReloadAgrees nestedEnv .lkm [] nestedOld nestedNew := by
  constructor
  · rw [ebpf_reloadAgrees_iff]
    intro h
    have hb := h.retained ⟨statDevToKernel 2049, 11⟩ (by decide +kernel)
    exact absurd hb (by decide +kernel)
  · rw [lkm_reloadAgrees_iff]
    intro h
    have hc := (h ⟨statDevToKernel 2049, 12⟩ rfl).2 (by decide +kernel)
    exact absurd hc (by decide +kernel)

end KnIg.Agent
