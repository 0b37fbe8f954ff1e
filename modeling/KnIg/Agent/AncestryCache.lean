/-
The cache of ancestries behind `ig_pa_resolve_cached`. Its lock is let go while `/proc` is read, so the sections of
several calls interleave: one looks the pid up, another inserts what was read. The list of the nodes, their flags and
the counter agree after any sections; that a pid has one node depends on what was inserted between a call's two
sections, since the second does not look again.
-/
import KnIg.Agent.Ancestry
import KnIg.Lib.LinkedList
import KnIg.Lib.Run
import Mathlib.Data.List.FinRange

namespace KnIg.Agent

open Lib

/-! ## The cache -/

/-- `cache_node_t` without its links. -/
structure CacheNode where
  pid : Int32
  startTicks : UInt64
  chain : PidChain
  inUse : Bool

structure PaCacheStats where
  lookups : UInt64
  hits : UInt64
  misses : UInt64
  evictions : UInt64

/-- `g_pa_cache`, once it is initialised with a capacity. -/
structure PaCache (capacity : Nat) where
  nodes : Fin capacity → CacheNode
  count : Int
  lru : Links (Fin capacity)
  stats : PaCacheStats

namespace PaCache

variable {capacity : Nat}

/-- `ig_pa_cache_init`. -/
def init (capacity : Nat) : PaCache capacity := ⟨fun _ => ⟨0, 0, .zero, false⟩, 0, .empty, ⟨0, 0, 0, 0⟩⟩

variable (c : PaCache capacity)

def setNode (n : Fin capacity) (node : CacheNode) : PaCache capacity :=
  { c with nodes := Function.update c.nodes n node }

/-- `cache_find`. -/
def cacheFind (pid : Int32) : Option (Fin capacity) :=
  (List.finRange capacity).find? fun n => (c.nodes n).inUse && (c.nodes n).pid = pid

/-- Take a node out of the list and out of use. -/
def release (n : Fin capacity) : PaCache capacity :=
  { c.setNode n { c.nodes n with inUse := false } with lru := c.lru.unlink n, count := c.count - 1 }

/-- `cache_alloc_slot`: a free slot, or that of the least recent node. -/
def cacheAllocSlot : Option (Fin capacity) × PaCache capacity :=
  match (List.finRange capacity).find? fun n => !(c.nodes n).inUse with
  | some n => (some n, c)
  | none =>
    match c.lru.tail with
    | some victim =>
      (some victim, { c.release victim with stats := { c.stats with evictions := c.stats.evictions + 1 } })
    | none => (none, c)

/-- The first locked section of `ig_pa_resolve_cached`, and the chain of a hit. -/
def lookupLocked (pid : Int32) (startTicks : UInt64) : PaCache capacity × Option PidChain :=
  let c := { c with stats := { c.stats with lookups := c.stats.lookups + 1 } }
  match c.cacheFind pid with
  | some n =>
    if (c.nodes n).startTicks = startTicks then
      ({ c with lru := (c.lru.unlink n).pushFront n, stats := { c.stats with hits := c.stats.hits + 1 } },
        some (c.nodes n).chain)
    else ({ c.release n with stats := { c.stats with misses := c.stats.misses + 1 } }, none)
  | none => ({ c with stats := { c.stats with misses := c.stats.misses + 1 } }, none)

/-- The second locked section. -/
def insertLocked (pid : Int32) (startTicks : UInt64) (out : PidChain) : PaCache capacity :=
  match c.cacheAllocSlot with
  | (some slot, c) =>
    { c.setNode slot ⟨pid, startTicks, out, true⟩ with lru := c.lru.pushFront slot, count := c.count + 1 }
  | (none, c) => c

end PaCache

/-! ## Calls that interleave -/

/-- How far a call of `ig_pa_resolve_cached` is. -/
inductive CallPhase where
  | idle
  | probed (pid : Int32) (startTicks : UInt64)
  | missed (pid : Int32) (startTicks : UInt64)
  | resolved (pid : Int32) (startTicks : UInt64) (out : PidChain)
  | returned (out : PidChain)

structure PaSystem (capacity : Nat) where
  cache : PaCache capacity
  calls : Nat → CallPhase

/-- A call reads the start time, looks the pid up, reads the ancestry on a miss, and inserts it. What `/proc` has each
time is part of the action. -/
inductive PaAct where
  | probe (thread : Nat) (pid : Int32) (stat : Option Bytes)
  | lookup (thread : Nat)
  | resolve (thread : Nat) (proc : Nat → Int32 → ProcFiles)
  | insert (thread : Nat)

namespace PaSystem

variable {capacity : Nat}

def init (capacity : Nat) : PaSystem capacity := ⟨.init capacity, fun _ => .idle⟩

variable (s : PaSystem capacity)

def setCall (thread : Nat) (phase : CallPhase) : PaSystem capacity :=
  { s with calls := Function.update s.calls thread phase }

/-- The start of a call. Without a start time it returns nothing. -/
def probe (boot : BootMeta) (thread : Nat) (pid : Int32) (stat : Option Bytes) : PaSystem capacity :=
  match parseStat boot stat { ProcInfo.zero with pid := pid } with
  | some info => s.setCall thread (.probed pid info.startTicks)
  | none => s.setCall thread (.returned .zero)

def lookup (thread : Nat) (pid : Int32) (startTicks : UInt64) : PaSystem capacity :=
  match s.cache.lookupLocked pid startTicks with
  | (cache, some out) => { s.setCall thread (.returned out) with cache := cache }
  | (cache, none) => { s.setCall thread (.missed pid startTicks) with cache := cache }

def step (boot : BootMeta) (s : PaSystem capacity) : PaAct → PaSystem capacity
  | .probe thread pid stat =>
    match s.calls thread with
    | .idle | .returned _ => s.probe boot thread pid stat
    | _ => s
  | .lookup thread =>
    match s.calls thread with
    | .probed pid startTicks => s.lookup thread pid startTicks
    | _ => s
  | .resolve thread proc =>
    match s.calls thread with
    | .missed pid startTicks => s.setCall thread (.resolved pid startTicks (igPaResolve boot proc pid))
    | _ => s
  | .insert thread =>
    match s.calls thread with
    | .resolved pid startTicks out =>
      { s.setCall thread (.returned out) with cache := s.cache.insertLocked pid startTicks out }
    | _ => s

end PaSystem

def runCached (boot : BootMeta) (capacity : Nat) (acts : List PaAct) : PaSystem capacity :=
  acts.foldl (PaSystem.step boot) (PaSystem.init capacity)

/-! ## The list, the flags and the counter -/

namespace PaCache

variable {capacity : Nat}

/-- The number of nodes in use. -/
def inUseCount (c : PaCache capacity) : Nat := (List.finRange capacity).countP fun n => (c.nodes n).inUse

/-- The list has exactly the nodes in use, and the counter is their number, which is not above the capacity. -/
structure Linked (c : PaCache capacity) : Prop where
  list : ∃ l, c.lru.Is l ∧ ∀ n, n ∈ l ↔ (c.nodes n).inUse
  count : c.count = c.inUseCount
  bound : c.count ≤ capacity

/-- No two nodes in use have the same pid. -/
def OnePerPid (c : PaCache capacity) : Prop :=
  ∀ m n, (c.nodes m).inUse → (c.nodes n).inUse → (c.nodes m).pid = (c.nodes n).pid → m = n

/-- The list has exactly the nodes in use, the counter is their number, and each is of another pid. -/
structure Consistent (c : PaCache capacity) : Prop extends Linked c where
  unique : c.OnePerPid

/-- The list is `l`, of the nodes in use, and the counter is its length. -/
structure Lists (c : PaCache capacity) (l : List (Fin capacity)) : Prop where
  is : c.lru.Is l
  mem : ∀ n, n ∈ l ↔ (c.nodes n).inUse
  count : c.count = l.length

variable {c : PaCache capacity} {l x y : List (Fin capacity)} {n : Fin capacity}

theorem lists_init : (init capacity).Lists [] where
  is := Links.is_empty
  mem := by simp [init]
  count := rfl

theorem Lists.linked (h : c.Lists l) : c.Linked := by
  have hperm : l.Perm ((List.finRange capacity).filter fun n => (c.nodes n).inUse) := by
    refine (List.perm_ext_iff_of_nodup h.is.nodup ((List.nodup_finRange capacity).filter _)).2 fun n => ?_
    rw [h.mem, List.mem_filter]
    simp
  have hlen : l.length = c.inUseCount := by
    rw [hperm.length_eq, inUseCount, List.countP_eq_length_filter]
  refine ⟨⟨l, h.is, h.mem⟩, by rw [h.count, hlen], ?_⟩
  have hle : c.inUseCount ≤ (List.finRange capacity).length := List.countP_le_length
  rw [List.length_finRange] at hle
  rw [h.count, hlen]
  exact_mod_cast hle

/-- What is in neither the nodes, the list nor the counter does not matter. -/
theorem Lists.congr {c' : PaCache capacity} (h : c.Lists l) (hnodes : c'.nodes = c.nodes) (hlru : c'.lru = c.lru)
    (hcount : c'.count = c.count) : c'.Lists l :=
  ⟨hlru ▸ h.is, hnodes ▸ h.mem, hcount ▸ h.count⟩

theorem Lists.release (h : c.Lists (x ++ n :: y)) : (c.release n).Lists (x ++ y) := by
  have hnodup := h.is.nodup
  have hn : n ∉ x ++ y := (List.nodup_middle.1 hnodup).notMem
  refine ⟨h.is.unlink, fun m => ?_, ?_⟩
  · unfold PaCache.release setNode
    dsimp only
    by_cases hm : m = n
    · subst hm
      simp [hn]
    · rw [Function.update_of_ne hm, ← h.mem]
      simp [hm]
  · unfold PaCache.release setNode
    dsimp only
    rw [h.count]
    simp only [List.length_append, List.length_cons]
    omega

/-- A node of the list that is moved to its front. -/
theorem Lists.touch (h : c.Lists (x ++ n :: y)) :
    ({ c with lru := (c.lru.unlink n).pushFront n } : PaCache capacity).Lists (n :: (x ++ y)) := by
  have hn : n ∉ x ++ y := (List.nodup_middle.1 h.is.nodup).notMem
  refine ⟨h.is.unlink.pushFront hn, fun m => ?_, ?_⟩
  · rw [← h.mem]
    simp [or_left_comm]
  · dsimp only
    rw [h.count]
    simp only [List.length_append, List.length_cons]
    omega

/-- A slot that is filled and put in front. -/
theorem Lists.fill (h : c.Lists l) (hn : n ∉ l) (node : CacheNode) (hnode : node.inUse = true) :
    ({ c.setNode n node with lru := c.lru.pushFront n, count := c.count + 1 } : PaCache capacity).Lists (n :: l) := by
  refine ⟨h.is.pushFront hn, fun m => ?_, ?_⟩
  · unfold setNode
    dsimp only
    by_cases hm : m = n
    · subst hm
      simp [hnode]
    · rw [Function.update_of_ne hm, ← h.mem]
      simp [hm]
  · dsimp only
    rw [h.count]
    simp

theorem cacheFind_some {pid : Int32} (h : c.cacheFind pid = some n) : (c.nodes n).inUse ∧ (c.nodes n).pid = pid := by
  have hn := List.find?_some h
  simpa using hn

/-- The first section keeps the list, and leaves the nodes as they are but for one that it may take out of use. -/
theorem Lists.lookupLocked (h : c.Lists l) (pid : Int32) (startTicks : UInt64) :
    (∃ l', (c.lookupLocked pid startTicks).1.Lists l') ∧
      ∀ m, ((c.lookupLocked pid startTicks).1.nodes m).pid = (c.nodes m).pid ∧
        (((c.lookupLocked pid startTicks).1.nodes m).inUse → (c.nodes m).inUse) := by
  unfold PaCache.lookupLocked
  dsimp only
  split
  · rename_i n hn
    obtain ⟨x, y, rfl⟩ := List.append_of_mem ((h.mem n).2 (cacheFind_some hn).1)
    split
    · exact ⟨⟨_, h.touch.congr rfl rfl rfl⟩, fun m => ⟨rfl, id⟩⟩
    · refine ⟨⟨_, h.release.congr rfl rfl rfl⟩, fun m => ?_⟩
      unfold PaCache.release setNode
      dsimp only
      rw [Function.update_apply]
      split
      · rename_i hm
        subst hm
        exact ⟨rfl, nofun⟩
      · exact ⟨rfl, id⟩
  · exact ⟨⟨l, h.congr rfl rfl rfl⟩, fun m => ⟨rfl, id⟩⟩

/-- An insertion of `pid` into a cache: no node in use has the pid, or the only one is the least recent one of a full
cache. -/
def InsertOk (c : PaCache capacity) (pid : Int32) : Prop :=
  ∀ n, (c.nodes n).inUse → (c.nodes n).pid = pid → (∀ m, (c.nodes m).inUse) ∧ c.lru.tail = some n

/-- The second section fills one slot, which was free or that of the least recent node of a full cache. -/
theorem Lists.insertLocked (h : c.Lists l) (pid : Int32) (startTicks : UInt64) (out : PidChain) :
    (c.insertLocked pid startTicks out = c ∧ ∀ n, ¬ (c.nodes n).inUse) ∨
      ∃ slot l', (c.insertLocked pid startTicks out).Lists l' ∧
        (c.insertLocked pid startTicks out).nodes = Function.update c.nodes slot ⟨pid, startTicks, out, true⟩ ∧
          (¬ (c.nodes slot).inUse ∨ (∀ m, (c.nodes m).inUse) ∧ c.lru.tail = some slot) := by
  unfold PaCache.insertLocked cacheAllocSlot
  cases hfree : (List.finRange capacity).find? fun n => !(c.nodes n).inUse with
  | some n =>
    have hn : ¬ (c.nodes n).inUse := by simpa using List.find?_some hfree
    exact Or.inr ⟨n, n :: l, h.fill (fun hmem => hn ((h.mem n).1 hmem)) _ rfl, rfl, Or.inl hn⟩
  | none =>
    have hall : ∀ m, (c.nodes m).inUse := by
      intro m
      simpa using List.find?_eq_none.1 hfree m (List.mem_finRange m)
    cases htail : c.lru.tail with
    | none =>
      refine Or.inl ⟨rfl, fun n hn => ?_⟩
      have hnil := h.is.tail
      rw [htail, eq_comm, List.getLast?_eq_none_iff] at hnil
      rw [← h.mem, hnil] at hn
      cases hn
    | some victim =>
      have hlast := h.is.tail
      rw [htail, eq_comm, List.getLast?_eq_some_iff] at hlast
      obtain ⟨x, rfl⟩ := hlast
      have hnot : victim ∉ x ++ [] := (List.nodup_middle.1 h.is.nodup).notMem
      refine Or.inr ⟨victim, victim :: (x ++ []), ?_, ?_, Or.inr ⟨hall, rfl⟩⟩
      · have hvictim : ({ c.release victim with
            stats := { c.stats with evictions := c.stats.evictions + 1 } } : PaCache capacity).Lists (x ++ []) :=
          h.release.congr rfl rfl rfl
        exact hvictim.fill hnot ⟨pid, startTicks, out, true⟩ rfl
      · exact Function.update_idem ..

/-- An insertion keeps the nodes of different pids just when it meets its condition. -/
theorem onePerPid_insert_iff (h : c.Lists l) (hc : c.OnePerPid) (pid : Int32) (startTicks : UInt64) (out : PidChain) :
    (c.insertLocked pid startTicks out).OnePerPid ↔ c.InsertOk pid := by
  rcases h.insertLocked pid startTicks out with ⟨heq, hnone⟩ | ⟨slot, -, -, hnodes, hslot⟩
  · rw [heq]
    exact iff_of_true hc fun n hn => absurd hn (hnone n)
  · constructor
    · intro hnew n hn hpid
      by_cases hns : n = slot
      · subst hns
        exact hslot.resolve_left (not_not.2 hn)
      · refine absurd (hnew n slot ?_ ?_ ?_) hns
        · rwa [hnodes, Function.update_of_ne hns]
        · rw [hnodes, Function.update_self]
        · rw [hnodes, Function.update_of_ne hns, Function.update_self, hpid]
    · intro hok
      -- a node in use other than the slot has another pid
      have hother : ∀ n, n ≠ slot → (c.nodes n).inUse → (c.nodes n).pid ≠ pid := by
        intro n hns hn hpid
        obtain ⟨hall, htail⟩ := hok n hn hpid
        rcases hslot with hfree | ⟨-, htail'⟩
        · exact hfree (hall slot)
        · rw [htail'] at htail
          exact hns (Option.some.inj htail).symm
      intro m n hm hn hpid
      rw [hnodes] at hm hn hpid
      by_cases hms : m = slot <;> by_cases hns : n = slot
      · rw [hms, hns]
      · rw [hms, Function.update_self, Function.update_of_ne hns] at hpid
        rw [Function.update_of_ne hns] at hn
        exact absurd hpid.symm (hother n hns hn)
      · rw [hns, Function.update_self, Function.update_of_ne hms] at hpid
        rw [Function.update_of_ne hms] at hm
        exact absurd hpid (hother m hms hm)
      · rw [Function.update_of_ne hms] at hm hpid
        rw [Function.update_of_ne hns] at hn hpid
        exact hc m n hm hn hpid

end PaCache

/-! ## Runs -/

namespace PaSystem

variable {capacity : Nat}

/-- An insertion meets its condition in the cache that it finds. -/
def ActOk (s : PaSystem capacity) : PaAct → Prop
  | .insert thread =>
    match s.calls thread with
    | .resolved pid _ _ => s.cache.InsertOk pid
    | _ => True
  | _ => True

variable {boot : BootMeta} {s : PaSystem capacity}

/-- What a step does to the cache: nothing, or one of the two sections. -/
theorem step_cases (boot : BootMeta) (s : PaSystem capacity) (a : PaAct) :
    (s.ActOk a ∧ (step boot s a).cache = s.cache) ∨
      (s.ActOk a ∧ ∃ pid startTicks, (step boot s a).cache = (s.cache.lookupLocked pid startTicks).1) ∨
        ∃ pid startTicks out, (s.ActOk a ↔ s.cache.InsertOk pid) ∧
          (step boot s a).cache = s.cache.insertLocked pid startTicks out := by
  cases a with
  | probe thread pid stat =>
    refine Or.inl ⟨trivial, ?_⟩
    have hprobe : (s.probe boot thread pid stat).cache = s.cache := by
      unfold probe
      split <;> rfl
    unfold step
    dsimp only
    split
    · exact hprobe
    · exact hprobe
    · rfl
  | lookup thread =>
    cases hcall : s.calls thread with
    | probed pid startTicks =>
      refine Or.inr (Or.inl ⟨trivial, pid, startTicks, ?_⟩)
      simp only [step, hcall, lookup]
      split
      · rename_i hlookup
        rw [hlookup]
      · rename_i hlookup
        rw [hlookup]
    | _ => exact Or.inl ⟨trivial, by simp only [step, hcall]⟩
  | resolve thread proc =>
    refine Or.inl ⟨trivial, ?_⟩
    unfold step
    dsimp only
    split <;> rfl
  | insert thread =>
    cases hcall : s.calls thread with
    | resolved pid startTicks out =>
      refine Or.inr (Or.inr ⟨pid, startTicks, out, ?_, ?_⟩)
      · simp only [ActOk, hcall]
      · simp only [step, hcall]
    | _ => exact Or.inl ⟨by simp only [ActOk, hcall], by simp only [step, hcall]⟩

theorem lists_step (boot : BootMeta) {s : PaSystem capacity} (h : ∃ l, s.cache.Lists l) (a : PaAct) :
    ∃ l, (step boot s a).cache.Lists l := by
  obtain ⟨l, hl⟩ := h
  rcases step_cases boot s a with ⟨-, hc⟩ | ⟨-, pid, startTicks, hc⟩ | ⟨pid, startTicks, out, -, hc⟩
  · exact ⟨l, hc ▸ hl⟩
  · rw [hc]
    exact (hl.lookupLocked pid startTicks).1
  · rw [hc]
    rcases hl.insertLocked pid startTicks out with ⟨heq, -⟩ | ⟨slot, l', hl', -, -⟩
    · exact ⟨l, heq.symm ▸ hl⟩
    · exact ⟨l', hl'⟩

theorem onePerPid_step_iff (boot : BootMeta) {s : PaSystem capacity} (h : ∃ l, s.cache.Lists l)
    (hs : s.cache.OnePerPid) (a : PaAct) : (step boot s a).cache.OnePerPid ↔ s.ActOk a := by
  obtain ⟨l, hl⟩ := h
  rcases step_cases boot s a with ⟨hok, hc⟩ | ⟨hok, pid, startTicks, hc⟩ | ⟨pid, startTicks, out, hok, hc⟩
  · rw [hc]
    exact iff_of_true hs hok
  · rw [hc]
    refine iff_of_true (fun m n hm hn hpid => ?_) hok
    obtain ⟨hpidm, hmem⟩ := (hl.lookupLocked pid startTicks).2 m
    obtain ⟨hpidn, hnen⟩ := (hl.lookupLocked pid startTicks).2 n
    rw [hpidm, hpidn] at hpid
    exact hs m n (hmem hm) (hnen hn) hpid
  · rw [hc, hok]
    exact PaCache.onePerPid_insert_iff hl hs pid startTicks out

end PaSystem

/-- After any sections of any calls the list has exactly the nodes in use and the counter is their number; and all along
a run each node is of another pid if and only if every insertion finds no node of its pid, or a full cache in which it
is the least recent one. -/
theorem cache_consistent_iff (boot : BootMeta) (capacity : Nat) (acts : List PaAct) :
    (runCached boot capacity acts).cache.Linked ∧
      ((∀ pre, pre <+: acts → (runCached boot capacity pre).cache.Consistent) ↔
        AllSteps (PaSystem.step boot) PaSystem.ActOk (PaSystem.init capacity) acts) := by
  have hinit : ∃ l, (PaSystem.init capacity).cache.Lists l := ⟨[], PaCache.lists_init⟩
  have hlists : ∀ pre, ∃ l, (runCached boot capacity pre).cache.Lists l := fun pre =>
    List.foldlRecOn (motive := fun s : PaSystem capacity => ∃ l, s.cache.Lists l) pre (PaSystem.step boot) hinit
      fun s hs a _ => PaSystem.lists_step boot hs a
  have hlinked : ∀ pre, (runCached boot capacity pre).cache.Linked := fun pre => by
    obtain ⟨l, hl⟩ := hlists pre
    exact hl.linked
  have hunique : (∀ pre, pre <+: acts → (runCached boot capacity pre).cache.OnePerPid) ↔
      AllSteps (PaSystem.step boot) PaSystem.ActOk (PaSystem.init capacity) acts :=
    forall_prefix_iff (I := fun s : PaSystem capacity => ∃ l, s.cache.Lists l)
      (P := fun s : PaSystem capacity => s.cache.OnePerPid)
      (fun s a hs => PaSystem.lists_step boot hs a) (fun s a hs hP => PaSystem.onePerPid_step_iff boot hs hP a)
      hinit nofun
  refine ⟨hlinked acts, ?_⟩
  rw [← hunique]
  exact forall₂_congr fun pre _ => ⟨fun h => h.unique, fun h => ⟨hlinked pre, h⟩⟩

section TwoMisses

/-- What `/proc/7/stat` has, and a `/proc` in which nothing is left to read. -/
def shellStat : Bytes := ascii "7 (sh) S 1 7 7 0 -1 0 0 0 0 0 0 0 0 0 20 0 1 0 500 0\n"

def emptyProc : Nat → Int32 → ProcFiles := fun _ _ => ⟨none, none, none, none⟩

/-- Two calls look process 7 up before either has inserted it. -/
def twoMisses : List PaAct :=
  [.probe 0 7 (some shellStat), .probe 1 7 (some shellStat), .lookup 0, .lookup 1, .resolve 0 emptyProc,
    .resolve 1 emptyProc, .insert 0, .insert 1]

theorem cache_twoMisses_fails : ¬ (runCached ⟨0, 100⟩ 2 twoMisses).cache.Consistent := by
  intro h
  have hnodes : ((runCached ⟨0, 100⟩ 2 twoMisses).cache.nodes 0).inUse ∧
      ((runCached ⟨0, 100⟩ 2 twoMisses).cache.nodes 1).inUse ∧
      ((runCached ⟨0, 100⟩ 2 twoMisses).cache.nodes 0).pid = ((runCached ⟨0, 100⟩ 2 twoMisses).cache.nodes 1).pid := by
    decide +kernel
  exact absurd (h.unique 0 1 hnodes.1 hnodes.2.1 hnodes.2.2) (by decide)

end TwoMisses

end KnIg.Agent
