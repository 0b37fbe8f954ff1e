/-
The ancestry that the process cache reports for a pid. The cache finds the parent of an entry by its pid
alone, so the theorem is about which fork may put a process next to entries of others: a link is right when
the entry found under a parent's pid is the parent's own, and not that of an earlier or a later process
with this pid.
-/
import KnIg.Lib.Follow
import KnIg.Lkm.ProcCache

namespace KnIg.Lkm

open Lib

/-! ## The chain -/

structure IgLkmChainEntry where
  pid : UInt32
  ppid : UInt32
  uid : UInt32
  euid : UInt32
  sid : UInt32
  comm : CStr
  tty : CStr
  startTimeNs : UInt64
  exe : CStr
  cmdline : CStr

def PcEntry.chainEntry (e : PcEntry) : IgLkmChainEntry :=
  ⟨e.pid, e.ppid, e.uid, e.euid, e.sid, e.comm, e.tty, e.startTimeNs, e.exe.cut 127, e.cmdline.cut 255⟩

namespace ProcCache

/-- What `ig_pc_find_locked` points to. -/
def lookup (c : ProcCache) (pid : UInt32) : Option (Ptr × PcEntry) :=
  (c.findLocked pid).bind fun p => (c.mem p).map (p, ·)

/-- The pid that the walk goes on with. -/
def nextPid (cur : UInt32) (x : Ptr × PcEntry) : Option UInt32 :=
  if x.2.ppid ≤ 1 ∨ x.2.ppid = cur then none else some x.2.ppid

def walk (c : ProcCache) (startPid : UInt32) (maxDepth : Nat) : List (Ptr × PcEntry) × Bool :=
  follow c.lookup nextPid maxDepth startPid

end ProcCache

/-- The entries of the chain, and whether it is truncated. -/
def igProcCacheCollectChain (c : ProcCache) (startPid : UInt32) (out : Bool) (maxDepth : Int) :
    List IgLkmChainEntry × Bool :=
  if !out || maxDepth ≤ 0 then ([], false)
  else
    let r := c.walk startPid maxDepth.toNat
    (r.1.map (·.2.chainEntry), r.2)

/-! ## Processes behind the entries -/

/-- One of the processes that had a pid, in their order. -/
structure Incarnation where
  pid : UInt32
  generation : Nat
deriving DecidableEq

/-- The cache, how many processes with each pid were forked so far, which process each entry is, which process
forked it, and when each process was started. -/
structure Ancestry where
  cache : ProcCache
  generation : UInt32 → Nat
  self : Ptr → Incarnation
  parent : Ptr → Incarnation
  startNs : Incarnation → UInt64

inductive Lifecycle where
  | fork (child : Task) (outcome : ForkOutcome)
  | exec (t : Task) (exeBuf cmdBuf : CStr)
  | exit (pid : UInt32) (nowNs : UInt64)
  | gc (nowNs : UInt64)

namespace Ancestry

def init : Ancestry := ⟨ProcCache.empty, fun _ => 0, fun _ => ⟨0, 0⟩, fun _ => ⟨0, 0⟩, fun _ => 0⟩

/-- The process that now has a pid. -/
def current (s : Ancestry) (pid : UInt32) : Incarnation := ⟨pid, s.generation pid⟩

/-- The process that a fork starts. -/
def born (s : Ancestry) (child : Task) : Incarnation := ⟨child.pid, s.generation child.pid + 1⟩

/-- A process is started, whether or not the cache gets an entry for it. -/
def start (s : Ancestry) (child : Task) : Ancestry :=
  { s with generation := Function.update s.generation child.pid (s.generation child.pid + 1),
           startNs := Function.update s.startNs (s.born child) child.startNs }

def fork (s : Ancestry) (child : Task) : ForkOutcome → Ancestry
  | .inserted => { s.start child with cache := onForkLocked s.cache child.entry,
                                      self := Function.update s.self s.cache.next (s.born child),
                                      parent := Function.update s.parent s.cache.next (s.current child.ppid) }
  | .throttled => s.start child
  | .noMemory => s.start child

def step (s : Ancestry) : Lifecycle → Ancestry
  | .fork child outcome => s.fork child outcome
  | .exec t exeBuf cmdBuf => { s with cache := onExecLocked s.cache t exeBuf cmdBuf }
  | .exit pid nowNs => { s with cache := onExitLocked s.cache pid nowNs }
  | .gc nowNs => { s with cache := (gcLocked s.cache nowNs).1 }

end Ancestry

def runAncestry (acts : List Lifecycle) : Ancestry := acts.foldl Ancestry.step Ancestry.init

/-- Each entry of every chain is the process that forked the one before it. -/
def ChainsRight (s : Ancestry) : Prop :=
  ∀ maxDepth startPid, (s.cache.walk startPid maxDepth).1.IsChain fun x y => s.self y.1 = s.parent x.1

/-- No entry of any chain was started after the one before it. -/
def ChainsOrdered (s : Ancestry) : Prop :=
  ∀ maxDepth startPid, (s.cache.walk startPid maxDepth).1.IsChain fun x y => y.2.startTimeNs ≤ x.2.startTimeNs

/-! ## The entries of the cache -/

namespace ProcCache

/-- The entry at an address, where one is linked in. -/
def entry (c : ProcCache) (p : Ptr) : Option PcEntry := if p ∈ c.table then c.mem p else none

def dropPid (c : ProcCache) (pid : UInt32) : ProcCache :=
  match c.findLocked pid with
  | some old => c.drop old
  | none => c

/-- What a fork leaves of the cache before it adds its entry: no entry of its pid, and room. -/
def makeRoom (c : ProcCache) (pid : UInt32) : ProcCache :=
  if (c.dropPid pid).count ≥ igPcMaxEntries then (c.dropPid pid).evictOneLocked else c.dropPid pid

theorem onForkLocked_eq (c : ProcCache) (e : PcEntry) : onForkLocked c e = (c.makeRoom e.pid).insert e := rfl

/-- No two entries of one pid, and none at the next address. -/
structure Distinct (c : ProcCache) : Prop where
  fresh : ∀ p e, c.entry p = some e → p < c.next
  unique : ∀ p q e f, c.entry p = some e → c.entry q = some f → e.pid = f.pid → p = q

variable {c : ProcCache} {p q : Ptr} {e f : PcEntry}

theorem entry_eq_some : c.entry p = some e ↔ p ∈ c.table ∧ c.mem p = some e := by
  unfold entry
  split <;> simp_all

theorem distinct_empty : empty.Distinct := by
  constructor
  · intro p e hp
    cases hp
  · intro p q e f hp
    cases hp

theorem entry_of_drop (h : (c.drop p).entry q = some e) : q ≠ p ∧ c.entry q = some e := by
  obtain ⟨ht, hm⟩ := entry_eq_some.1 h
  have hne : q ≠ p := by
    rintro rfl
    simp [drop] at hm
  exact ⟨hne, entry_eq_some.2 ⟨List.mem_of_mem_erase ht, mem_of_drop hm⟩⟩

theorem entry_of_evictOneLocked (h : c.evictOneLocked.entry q = some e) : c.entry q = some e := by
  unfold evictOneLocked at h
  split at h
  · exact h
  · exact (entry_of_drop h).2

theorem findLocked_some {pid : UInt32} (h : c.findLocked pid = some p) : ∃ e, c.entry p = some e ∧ e.pid = pid := by
  have hp := List.find?_some h
  obtain ⟨e, he, hpid⟩ := (Option.any_eq_true _ _).1 hp
  exact ⟨e, entry_eq_some.2 ⟨List.mem_of_find?_eq_some h, he⟩, beq_iff_eq.1 hpid⟩

theorem findLocked_none {pid : UInt32} (h : c.findLocked pid = none) (hq : c.entry q = some e) : e.pid ≠ pid := by
  obtain ⟨ht, hm⟩ := entry_eq_some.1 hq
  have hnot := List.find?_eq_none.1 h q ht
  simpa [hm] using hnot

/-- A lookup finds the entry of a pid. -/
theorem Distinct.lookup_eq_some (h : c.Distinct) {pid : UInt32} :
    c.lookup pid = some (p, e) ↔ c.entry p = some e ∧ e.pid = pid := by
  unfold lookup
  cases hf : c.findLocked pid with
  | none =>
    constructor
    · intro hx
      cases hx
    · rintro ⟨hp, hpid⟩
      exact absurd hpid (findLocked_none hf hp)
  | some q =>
    obtain ⟨f, hq, hpid⟩ := findLocked_some hf
    have hm := (entry_eq_some.1 hq).2
    simp only [Option.bind_some, hm, Option.map_some, Option.some.injEq, Prod.mk.injEq]
    constructor
    · rintro ⟨rfl, rfl⟩
      exact ⟨hq, hpid⟩
    · rintro ⟨hp, rfl⟩
      obtain rfl := h.unique q p f e hq hp hpid
      rw [hp] at hq
      exact ⟨rfl, (Option.some.inj hq).symm⟩

theorem Distinct.entry_of_dropPid (h : c.Distinct) {pid : UInt32} (hq : (c.dropPid pid).entry q = some e) :
    c.entry q = some e ∧ e.pid ≠ pid := by
  unfold dropPid at hq
  split at hq
  · next old hold =>
    obtain ⟨hne, hq⟩ := entry_of_drop hq
    obtain ⟨f, hf, hpid⟩ := findLocked_some hold
    refine ⟨hq, fun he => hne (h.unique q old e f hq hf ?_)⟩
    rw [he, hpid]
  · next hnone => exact ⟨hq, findLocked_none hnone hq⟩

/-- What is left was there, and is of another pid. -/
theorem Distinct.entry_of_makeRoom (h : c.Distinct) {pid : UInt32} (hq : (c.makeRoom pid).entry q = some e) :
    c.entry q = some e ∧ e.pid ≠ pid := by
  unfold makeRoom at hq
  split at hq
  · exact h.entry_of_dropPid (entry_of_evictOneLocked hq)
  · exact h.entry_of_dropPid hq

@[simp] theorem makeRoom_next (c : ProcCache) (pid : UInt32) : (c.makeRoom pid).next = c.next := by
  unfold makeRoom dropPid
  split <;> split <;> simp

theorem entry_insert (c : ProcCache) (e : PcEntry) (q : Ptr) :
    (c.insert e).entry q = if q = c.next then some e else c.entry q := by
  simp only [entry, insert, List.mem_cons, Function.update_apply]
  by_cases hq : q = c.next <;> simp [hq]

theorem entry_of_gcLoop {nowNs : UInt64} (ps : List Ptr) (reaped : Nat) (c : ProcCache)
    (h : (gcLoop nowNs ps reaped c).1.entry q = some e) : c.entry q = some e := by
  induction ps generalizing reaped c with
  | nil => exact h
  | cons p ps ih =>
    unfold gcLoop at h
    split at h
    · exact ih reaped c h
    split at h
    · exact ih reaped c h
    split at h
    · split at h
      · exact (entry_of_drop h).2
      · exact (entry_of_drop (ih (reaped + 1) (c.drop p) h)).2
    · exact ih reaped c h

/-- The new entry, or one that was there and is left. -/
theorem entry_of_onForkLocked (hq : (onForkLocked c f).entry q = some e) :
    (q = c.next ∧ e = f) ∨ (q ≠ c.next ∧ (c.makeRoom f.pid).entry q = some e) := by
  rw [onForkLocked_eq, entry_insert, makeRoom_next] at hq
  split at hq
  · next hnext => exact .inl ⟨hnext, (Option.some.inj hq).symm⟩
  · next hne => exact .inr ⟨hne, hq⟩

theorem entry_onForkLocked_next (c : ProcCache) (f : PcEntry) : (onForkLocked c f).entry c.next = some f := by
  rw [onForkLocked_eq, entry_insert, makeRoom_next, if_pos rfl]

theorem Distinct.fork (h : c.Distinct) (f : PcEntry) : (onForkLocked c f).Distinct := by
  have hnext : (onForkLocked c f).next = c.next + 1 := onForkLocked_next c f
  constructor
  · intro p e hp
    rw [hnext]
    rcases entry_of_onForkLocked hp with ⟨rfl, -⟩ | ⟨-, hp⟩
    · exact Nat.lt_succ_self _
    · exact Nat.lt_succ_of_lt (h.fresh p e (h.entry_of_makeRoom hp).1)
  · intro p q e₁ e₂ hp hq hpid
    rcases entry_of_onForkLocked hp with ⟨rfl, rfl⟩ | ⟨-, hp⟩ <;>
      rcases entry_of_onForkLocked hq with ⟨rfl, rfl⟩ | ⟨-, hq⟩
    · rfl
    · exact absurd hpid.symm (h.entry_of_makeRoom hq).2
    · exact absurd hpid (h.entry_of_makeRoom hp).2
    · exact h.unique p q e₁ e₂ (h.entry_of_makeRoom hp).1 (h.entry_of_makeRoom hq).1 hpid

end ProcCache

/-- What the callbacks other than the fork's leave of an entry. -/
structure PcEntry.Same (e e₀ : PcEntry) : Prop where
  pid : e.pid = e₀.pid
  ppid : e.ppid = e₀.ppid
  uid : e.uid = e₀.uid
  euid : e.euid = e₀.euid
  startTimeNs : e.startTimeNs = e₀.startTimeNs

theorem PcEntry.same_refl (e : PcEntry) : e.Same e := ⟨rfl, rfl, rfl, rfl, rfl⟩

/-- Every entry of the one cache is one of the other, of the same process. -/
def Within (c' c : ProcCache) : Prop :=
  c'.next = c.next ∧ ∀ p e, c'.entry p = some e → ∃ e₀, c.entry p = some e₀ ∧ e.Same e₀

theorem within_refl (c : ProcCache) : Within c c := ⟨rfl, fun _ e h => ⟨e, h, e.same_refl⟩⟩

theorem within_modify {c c' : ProcCache} {p : Ptr} {g : PcEntry → PcEntry} (hmem : c'.mem = (c.modify p g).mem)
    (htable : c'.table = c.table) (hnext : c'.next = c.next) (hg : ∀ e, (g e).Same e) : Within c' c := by
  refine ⟨hnext, fun q e h => ?_⟩
  obtain ⟨ht, hm⟩ := ProcCache.entry_eq_some.1 h
  rw [htable] at ht
  rw [hmem] at hm
  rcases mem_of_modify hm with ⟨rfl, e₀, he₀, rfl⟩ | ⟨-, hm⟩
  · exact ⟨e₀, ProcCache.entry_eq_some.2 ⟨ht, he₀⟩, hg e₀⟩
  · exact ⟨e, ProcCache.entry_eq_some.2 ⟨ht, hm⟩, e.same_refl⟩

/-- A change in place loses no entry either. -/
theorem modify_within {c c' : ProcCache} {p : Ptr} {g : PcEntry → PcEntry} (hmem : c'.mem = (c.modify p g).mem)
    (htable : c'.table = c.table) (hnext : c'.next = c.next) (hg : ∀ e : PcEntry, e.Same (g e)) : Within c c' := by
  refine ⟨hnext.symm, fun q e h => ?_⟩
  obtain ⟨ht, hm⟩ := ProcCache.entry_eq_some.1 h
  rw [← htable] at ht
  by_cases hq : q = p
  · refine ⟨g e, ProcCache.entry_eq_some.2 ⟨ht, ?_⟩, hg e⟩
    simp only [hmem, ProcCache.modify, ← hq, Function.update_self, hm, Option.map_some]
  · refine ⟨e, ProcCache.entry_eq_some.2 ⟨ht, ?_⟩, e.same_refl⟩
    simp only [hmem, ProcCache.modify, Function.update_of_ne hq, hm]

/-- Execs, exits and collections neither add entries nor change what links them. -/
theorem within_exec (c : ProcCache) (t : Task) (exeBuf cmdBuf : CStr) : Within (onExecLocked c t exeBuf cmdBuf) c := by
  unfold onExecLocked
  split
  · exact within_refl c
  · exact within_modify rfl rfl rfl fun e => ⟨rfl, rfl, rfl, rfl, rfl⟩

theorem exec_within (c : ProcCache) (t : Task) (exeBuf cmdBuf : CStr) : Within c (onExecLocked c t exeBuf cmdBuf) := by
  unfold onExecLocked
  split
  · exact within_refl c
  · exact modify_within (g := (·.exec t exeBuf cmdBuf)) rfl rfl rfl fun e => ⟨rfl, rfl, rfl, rfl, rfl⟩

theorem within_exit (c : ProcCache) (pid : UInt32) (nowNs : UInt64) : Within (onExitLocked c pid nowNs) c := by
  unfold onExitLocked
  split
  · exact within_refl c
  · exact within_modify rfl rfl rfl fun e => ⟨rfl, rfl, rfl, rfl, rfl⟩

theorem within_gc (c : ProcCache) (nowNs : UInt64) : Within (gcLocked c nowNs).1 c :=
  ⟨gcLoop_next _ _ _, fun _ e h => ⟨e, ProcCache.entry_of_gcLoop _ _ _ h, e.same_refl⟩⟩

theorem ProcCache.Distinct.within {c' c : ProcCache} (h : c.Distinct) (hw : Within c' c) : c'.Distinct := by
  constructor
  · intro p e hp
    obtain ⟨e₀, he₀, -⟩ := hw.2 p e hp
    rw [hw.1]
    exact h.fresh p e₀ he₀
  · intro p q e f hp hq hpid
    obtain ⟨e₀, he₀, hsame⟩ := hw.2 p e hp
    obtain ⟨f₀, hf₀, hsame'⟩ := hw.2 q f hq
    exact h.unique p q e₀ f₀ he₀ hf₀ (by rw [← hsame.pid, ← hsame'.pid, hpid])

/-! ## Links -/

/-- Entries have distinct pids, and each knows processes that were started already. -/
structure Known (s : Ancestry) : Prop where
  distinct : s.cache.Distinct
  self : ∀ p e, s.cache.entry p = some e → (s.self p).pid = e.pid ∧ (s.self p).generation ≤ s.generation e.pid
  parent : ∀ p e, s.cache.entry p = some e → (s.parent p).pid = e.ppid ∧ (s.parent p).generation ≤ s.generation e.ppid

theorem known_init : Known Ancestry.init := ⟨ProcCache.distinct_empty, nofun, nofun⟩

theorem generation_start (s : Ancestry) (child : Task) (pid : UInt32) :
    s.generation pid ≤ (s.start child).generation pid := by
  simp only [Ancestry.start, Function.update_apply]
  split
  · next h => rw [h]; exact Nat.le_succ _
  · exact le_rfl

theorem Known.start {s : Ancestry} (hs : Known s) (child : Task) : Known (s.start child) := by
  refine ⟨hs.distinct, fun p e hp => ?_, fun p e hp => ?_⟩
  · exact (hs.self p e hp).imp_right fun h => h.trans (generation_start s child e.pid)
  · exact (hs.parent p e hp).imp_right fun h => h.trans (generation_start s child e.ppid)

theorem fork_self (s : Ancestry) (child : Task) (p : Ptr) :
    (s.fork child .inserted).self p = if p = s.cache.next then s.born child else s.self p := Function.update_apply ..

theorem fork_parent (s : Ancestry) (child : Task) (p : Ptr) :
    (s.fork child .inserted).parent p = if p = s.cache.next then s.current child.ppid else s.parent p :=
  Function.update_apply ..

theorem Known.fork {s : Ancestry} (hs : Known s) (child : Task) : Known (s.fork child .inserted) := by
  have hnew : (s.start child).generation child.pid = s.generation child.pid + 1 := Function.update_self ..
  refine ⟨hs.distinct.fork child.entry, fun p e hp => ?_, fun p e hp => ?_⟩
  · rw [fork_self]
    rcases ProcCache.entry_of_onForkLocked hp with ⟨rfl, rfl⟩ | ⟨hne, hp⟩
    · rw [if_pos rfl]
      exact ⟨rfl, hnew.ge⟩
    · rw [if_neg hne]
      exact (hs.start child).self p e (hs.distinct.entry_of_makeRoom hp).1
  · rw [fork_parent]
    rcases ProcCache.entry_of_onForkLocked hp with ⟨rfl, rfl⟩ | ⟨hne, hp⟩
    · rw [if_pos rfl]
      exact ⟨rfl, generation_start s child child.ppid⟩
    · rw [if_neg hne]
      exact (hs.start child).parent p e (hs.distinct.entry_of_makeRoom hp).1

theorem Known.within {s : Ancestry} (hs : Known s) {c : ProcCache} (hw : Within c s.cache) :
    Known { s with cache := c } := by
  refine ⟨hs.distinct.within hw, fun p e hp => ?_, fun p e hp => ?_⟩
  · obtain ⟨e₀, he₀, hsame⟩ := hw.2 p e hp
    rw [hsame.pid]
    exact hs.self p e₀ he₀
  · obtain ⟨e₀, he₀, hsame⟩ := hw.2 p e hp
    rw [hsame.ppid]
    exact hs.parent p e₀ he₀

theorem known_step {s : Ancestry} {a : Lifecycle} (hs : Known s) : Known (s.step a) := by
  cases a with
  | fork child outcome =>
    cases outcome with
    | inserted => exact hs.fork child
    | throttled => exact hs.start child
    | noMemory => exact hs.start child
  | exec t exeBuf cmdBuf => exact hs.within (within_exec _ _ _ _)
  | exit pid nowNs => exact hs.within (within_exit _ _ _)
  | gc nowNs => exact hs.within (within_gc _ _)

/-- One entry names the other as its parent, so that a chain goes on from the one to the other. -/
def Names (e f : PcEntry) : Prop := 1 < e.ppid ∧ e.ppid ≠ e.pid ∧ f.pid = e.ppid

/-- Every link goes to the process that forked the entry. -/
def LinksRight (s : Ancestry) : Prop :=
  ∀ p e q f, s.cache.entry p = some e → s.cache.entry q = some f → Names e f → s.self q = s.parent p

/-- A relation along the links holds along the chains. -/
theorem isChain_walk_iff {c : ProcCache} (hc : c.Distinct) {R : Ptr × PcEntry → Ptr × PcEntry → Prop} :
    (∀ maxDepth startPid, (c.walk startPid maxDepth).1.IsChain R) ↔
      ∀ p e q f, c.entry p = some e → c.entry q = some f → Names e f → R (p, e) (q, f) := by
  unfold ProcCache.walk
  rw [← linksMeet_iff]
  have hnext : ∀ {cur p e pid}, ProcCache.nextPid cur (p, e) = some pid ↔ 1 < e.ppid ∧ e.ppid ≠ cur ∧ pid = e.ppid := by
    intro cur p e pid
    unfold ProcCache.nextPid
    by_cases h1 : e.ppid ≤ 1
    · simp [h1, UInt32.not_lt.2 h1]
    by_cases hcur : e.ppid = cur
    · simp [hcur]
    · simp [h1, hcur, UInt32.not_le.1 h1, eq_comm]
  constructor
  · rintro h p e q f hp hq ⟨h1, hne, hpid⟩
    exact h e.pid (p, e) e.ppid (q, f) (hc.lookup_eq_some.2 ⟨hp, rfl⟩) (hnext.2 ⟨h1, hne, rfl⟩)
      (hc.lookup_eq_some.2 ⟨hq, hpid⟩)
  · rintro h cur ⟨p, e⟩ pid ⟨q, f⟩ hp hl hq
    obtain ⟨hpe, rfl⟩ := hc.lookup_eq_some.1 hp
    obtain ⟨h1, hne, rfl⟩ := hnext.1 hl
    obtain ⟨hqf, hpid⟩ := hc.lookup_eq_some.1 hq
    exact h p e q f hpe hqf ⟨h1, hne, hpid⟩

theorem chainsRight_iff {s : Ancestry} (hs : Known s) : ChainsRight s ↔ LinksRight s :=
  isChain_walk_iff (R := fun x y => s.self y.1 = s.parent x.1) hs.distinct

/-! ## Which forks keep the links right -/

/-- No entry that the fork leaves names the pid of the child, and one that it leaves for the pid of the parent is
the parent's own. -/
def ForkOk (s : Ancestry) (child : Task) : Prop :=
  ∀ p ∈ (s.cache.makeRoom child.pid).table, ∀ e ∈ (s.cache.makeRoom child.pid).mem p,
    (1 < child.pid → e.ppid ≠ child.pid) ∧
      (1 < child.ppid → e.pid = child.ppid → s.self p = s.current child.ppid)

instance (s : Ancestry) (child : Task) : Decidable (ForkOk s child) :=
  inferInstanceAs
    (Decidable (∀ p ∈ (s.cache.makeRoom child.pid).table, ∀ e ∈ (s.cache.makeRoom child.pid).mem p, _ ∧ _))

def AncestryOk (s : Ancestry) : Lifecycle → Prop
  | .fork child .inserted => ForkOk s child
  | _ => True

instance (s : Ancestry) : ∀ a : Lifecycle, Decidable (AncestryOk s a)
  | .fork child .inserted => inferInstanceAs (Decidable (ForkOk s child))
  | .fork _ .throttled => inferInstanceAs (Decidable True)
  | .fork _ .noMemory => inferInstanceAs (Decidable True)
  | .exec _ _ _ => inferInstanceAs (Decidable True)
  | .exit _ _ => inferInstanceAs (Decidable True)
  | .gc _ => inferInstanceAs (Decidable True)

theorem forkOk_iff {s : Ancestry} {child : Task} :
    ForkOk s child ↔ ∀ p e, (s.cache.makeRoom child.pid).entry p = some e →
      (1 < child.pid → e.ppid ≠ child.pid) ∧
        (1 < child.ppid → e.pid = child.ppid → s.self p = s.current child.ppid) := by
  unfold ForkOk
  constructor
  · intro h p e hp
    obtain ⟨ht, hm⟩ := ProcCache.entry_eq_some.1 hp
    exact h p ht e hm
  · intro h p ht e hm
    exact h p e (ProcCache.entry_eq_some.2 ⟨ht, hm⟩)

theorem LinksRight.within {s : Ancestry} (h : LinksRight s) {c : ProcCache} (hw : Within c s.cache) :
    LinksRight { s with cache := c } := by
  rintro p e q f hp hq ⟨h1, hne, hpid⟩
  obtain ⟨e₀, he₀, hsame⟩ := hw.2 p e hp
  obtain ⟨f₀, hf₀, hsame'⟩ := hw.2 q f hq
  refine h p e₀ q f₀ he₀ hf₀ ⟨hsame.ppid ▸ h1, ?_, ?_⟩
  · rwa [← hsame.ppid, ← hsame.pid]
  · rw [← hsame'.pid, ← hsame.ppid, hpid]

/-- A fork keeps the links right just when it meets its condition: the process it starts forked no other so far. -/
theorem linksRight_fork_iff {s : Ancestry} (hs : Known s) (h : LinksRight s) (child : Task) :
    LinksRight (s.fork child .inserted) ↔ ForkOk s child := by
  have hnew := ProcCache.entry_onForkLocked_next s.cache child.entry
  have hkept : ∀ {q e}, (s.cache.makeRoom child.pid).entry q = some e →
      (onForkLocked s.cache child.entry).entry q = some e ∧ q ≠ s.cache.next := by
    intro q e hq
    have hne : q ≠ s.cache.next := (hs.distinct.fresh q e (hs.distinct.entry_of_makeRoom hq).1).ne
    refine ⟨?_, hne⟩
    rw [ProcCache.onForkLocked_eq, ProcCache.entry_insert, ProcCache.makeRoom_next, if_neg hne]
    exact hq
  rw [forkOk_iff]
  constructor
  · intro hl p e hp
    obtain ⟨hkeep, hne⟩ := hkept hp
    obtain ⟨hold, hpid⟩ := hs.distinct.entry_of_makeRoom hp
    constructor
    · -- the process of the entry would have been forked by the one that starts only now
      intro h1 hppid
      have hlink := hl p e s.cache.next child.entry hkeep hnew ⟨hppid ▸ h1, hppid ▸ hpid.symm, hppid.symm⟩
      rw [fork_self, if_pos rfl, fork_parent, if_neg hne] at hlink
      have hgen := (hs.parent p e hold).2
      rw [← hlink, hppid] at hgen
      exact absurd hgen (Nat.not_succ_le_self _)
    · intro h1 hparentPid
      have hlink := hl s.cache.next child.entry p e hnew hkeep ⟨h1, fun he => hpid (hparentPid.trans he), hparentPid⟩
      rwa [fork_self, if_neg hne, fork_parent, if_pos rfl] at hlink
  · intro hok p e q f hp hq hnames
    obtain ⟨h1, hne, hpid⟩ := hnames
    rcases ProcCache.entry_of_onForkLocked hp with ⟨rfl, rfl⟩ | ⟨hpne, hp⟩ <;>
      rcases ProcCache.entry_of_onForkLocked hq with ⟨rfl, rfl⟩ | ⟨hqne, hq⟩
    · exact absurd hpid.symm hne
    · rw [fork_self, if_neg hqne, fork_parent, if_pos rfl]
      exact (hok q f hq).2 h1 hpid
    · exact absurd hpid.symm ((hok p e hp).1 (by rw [← hpid] at h1; exact h1))
    · rw [fork_self, if_neg hqne, fork_parent, if_neg hpne]
      exact h p e q f (hs.distinct.entry_of_makeRoom hp).1 (hs.distinct.entry_of_makeRoom hq).1 ⟨h1, hne, hpid⟩

theorem linksRight_step_iff {s : Ancestry} {a : Lifecycle} (hs : Known s) (h : LinksRight s) :
    LinksRight (s.step a) ↔ AncestryOk s a := by
  have hkeep : ∀ {c}, Within c s.cache → (LinksRight { s with cache := c } ↔ True) := fun hw =>
    iff_true_intro (h.within hw)
  cases a with
  | fork child outcome =>
    cases outcome with
    | inserted => exact linksRight_fork_iff hs h child
    | throttled => exact iff_true_intro h
    | noMemory => exact iff_true_intro h
  | exec t exeBuf cmdBuf => exact hkeep (within_exec _ _ _ _)
  | exit pid nowNs => exact hkeep (within_exit _ _ _)
  | gc nowNs => exact hkeep (within_gc _ _)

/-! ## Start times -/

/-- A process is not started before the one that forks it. -/
def Causal (s : Ancestry) : Lifecycle → Prop
  | .fork child _ => s.startNs (s.current child.ppid) ≤ child.startNs
  | _ => True

instance (s : Ancestry) : ∀ a : Lifecycle, Decidable (Causal s a)
  | .fork child _ => inferInstanceAs (Decidable (_ ≤ child.startNs))
  | .exec _ _ _ => inferInstanceAs (Decidable True)
  | .exit _ _ => inferInstanceAs (Decidable True)
  | .gc _ => inferInstanceAs (Decidable True)

/-- Entries have the start times of their processes, and these are not before those of the processes that forked
them. -/
structure Timed (s : Ancestry) : Prop where
  known : Known s
  self : ∀ p e, s.cache.entry p = some e → s.startNs (s.self p) = e.startTimeNs
  parent : ∀ p e, s.cache.entry p = some e → s.startNs (s.parent p) ≤ e.startTimeNs

theorem timed_init : Timed Ancestry.init := ⟨known_init, nofun, nofun⟩

/-- A start does not touch the start times of the processes that were started already. -/
theorem startNs_start {s : Ancestry} (child : Task) {i : Incarnation} (hi : i.generation ≤ s.generation i.pid) :
    (s.start child).startNs i = s.startNs i := by
  refine Function.update_of_ne ?_ ..
  rintro rfl
  exact absurd hi (Nat.not_succ_le_self _)

theorem Timed.start {s : Ancestry} (hs : Timed s) (child : Task) : Timed (s.start child) := by
  refine ⟨hs.known.start child, fun p e hp => ?_, fun p e hp => ?_⟩
  · obtain ⟨hpid, hgen⟩ := hs.known.self p e hp
    exact (startNs_start child (hpid ▸ hgen)).trans (hs.self p e hp)
  · obtain ⟨hpid, hgen⟩ := hs.known.parent p e hp
    exact (startNs_start child (hpid ▸ hgen)).trans_le (hs.parent p e hp)

theorem Timed.fork {s : Ancestry} (hs : Timed s) {child : Task}
    (hc : s.startNs (s.current child.ppid) ≤ child.startNs) : Timed (s.fork child .inserted) := by
  have hold := hs.start child
  refine ⟨hs.known.fork child, fun p e hp => ?_, fun p e hp => ?_⟩
  · rw [fork_self]
    rcases ProcCache.entry_of_onForkLocked hp with ⟨rfl, rfl⟩ | ⟨hne, hp⟩
    · rw [if_pos rfl]
      exact Function.update_self ..
    · rw [if_neg hne]
      exact hold.self p e (hs.known.distinct.entry_of_makeRoom hp).1
  · rw [fork_parent]
    rcases ProcCache.entry_of_onForkLocked hp with ⟨rfl, rfl⟩ | ⟨hne, hp⟩
    · rw [if_pos rfl]
      exact (startNs_start child le_rfl).trans_le hc
    · rw [if_neg hne]
      exact hold.parent p e (hs.known.distinct.entry_of_makeRoom hp).1

theorem Timed.within {s : Ancestry} (hs : Timed s) {c : ProcCache} (hw : Within c s.cache) :
    Timed { s with cache := c } := by
  refine ⟨hs.known.within hw, fun p e hp => ?_, fun p e hp => ?_⟩
  · obtain ⟨e₀, he₀, hsame⟩ := hw.2 p e hp
    rw [hsame.startTimeNs]
    exact hs.self p e₀ he₀
  · obtain ⟨e₀, he₀, hsame⟩ := hw.2 p e hp
    rw [hsame.startTimeNs]
    exact hs.parent p e₀ he₀

theorem timed_step {s : Ancestry} {a : Lifecycle} (hs : Timed s) (hc : Causal s a) : Timed (s.step a) := by
  cases a with
  | fork child outcome =>
    cases outcome with
    | inserted => exact hs.fork hc
    | throttled => exact hs.start child
    | noMemory => exact hs.start child
  | exec t exeBuf cmdBuf => exact hs.within (within_exec _ _ _ _)
  | exit pid nowNs => exact hs.within (within_exit _ _ _)
  | gc nowNs => exact hs.within (within_gc _ _)

theorem chainsOrdered_of_right {s : Ancestry} (hs : Timed s) (hr : LinksRight s) : ChainsOrdered s := by
  rw [ChainsOrdered, isChain_walk_iff hs.known.distinct]
  intro p e q f hp hq hnames
  calc f.startTimeNs = s.startNs (s.self q) := (hs.self q f hq).symm
    _ = s.startNs (s.parent p) := by rw [hr p e q f hp hq hnames]
    _ ≤ e.startTimeNs := hs.parent p e hp

/-! ## Runs -/

/-- Along a run the chains go from each process to the one that forked it exactly if every fork that gets an
entry leaves no other entry naming the child's pid and, for the parent's pid, no entry but the parent's own;
and then no process of a chain was started after the one before it. -/
theorem chains_right_iff (acts : List Lifecycle) :
    ((∀ pre, pre <+: acts → ChainsRight (runAncestry pre)) ↔ AllSteps Ancestry.step AncestryOk Ancestry.init acts) ∧
      (AllSteps Ancestry.step AncestryOk Ancestry.init acts → AllSteps Ancestry.step Causal Ancestry.init acts →
        ∀ pre, pre <+: acts → ChainsOrdered (runAncestry pre)) := by
  have hlinks : (∀ pre, pre <+: acts → LinksRight (runAncestry pre)) ↔
      AllSteps Ancestry.step AncestryOk Ancestry.init acts :=
    forall_prefix_iff (fun s a hs => known_step hs) (fun s a hs hr => linksRight_step_iff hs hr) known_init nofun
  have hknown : ∀ pre, Known (runAncestry pre) := fun pre =>
    List.foldlRecOn pre Ancestry.step known_init fun s hs a _ => known_step hs
  constructor
  · rw [← hlinks]
    exact forall₂_congr fun pre _ => chainsRight_iff (hknown pre)
  · intro hok hcausal pre hpre
    have htimed : Timed (runAncestry pre) :=
      foldl_invariant (fun s a hs hc => timed_step hs hc) pre _ timed_init (hcausal.of_isPrefix hpre)
    exact chainsOrdered_of_right htimed (hlinks.2 hok pre hpre)

/-- A process with a pid, forked by another at a time. -/
def task (pid ppid : UInt32) (startNs : UInt64) : Task :=
  ⟨pid, ppid, 0, 0, pid, ⟨ascii "sh", shell_noZero⟩, ⟨[], zero_notMem_nil⟩, startNs⟩

/-- Process 7 forks process 8 and exits. -/
def orphaned : List Lifecycle :=
  [.fork (task 7 1 1000) .inserted, .fork (task 8 7 2000) .inserted, .exit 7 1000000000000]

theorem chains_right_orphaned :
    (∀ pre, pre <+: orphaned → ChainsRight (runAncestry pre)) ∧
      ∀ pre, pre <+: orphaned → ChainsOrdered (runAncestry pre) :=
  ⟨(chains_right_iff orphaned).1.2 (by decide), (chains_right_iff orphaned).2 (by decide) (by decide)⟩

/-- Then a new process gets pid 7. -/
def reused : List Lifecycle := orphaned ++ [.fork (task 7 1 3000) .inserted]

/-- The older process 8 is reported as a child of the new process 7. -/
theorem chains_reused_fail : ¬ (ChainsRight (runAncestry reused) ∨ ChainsOrdered (runAncestry reused)) := by
  rintro (h | h)
  · have hchain := h 16 8
    revert hchain
    decide
  · have hchain := h 16 8
    revert hchain
    decide

end KnIg.Lkm
