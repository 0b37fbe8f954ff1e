/-
The kernel module's process cache: entries allocated on the heap and linked into the pid hash
table and the LRU list, the locked sections of the fork, exec and exit callbacks, the preload and
the collection of tombstones. The clock readings of the exit callback and of the collector are
taken before the lock, so they are steps of their own. A tombstone is collected by comparing a
64-bit difference, so the theorem asks that no tombstone lies ahead of the collector's reading
by less than a wrap, and that no exec finds the tombstone of an earlier process with its pid.
-/
import KnIg.Lib.Bytes
import KnIg.Lib.Run

namespace KnIg.Lkm

open Lib

/-! ## Entries and the cache -/

abbrev Ptr := Nat

def igPcMaxEntries : Int := 8192

/-- `IG_PC_GRACE_NS`, five minutes. -/
def igPcGraceNs : UInt64 := 5 * 60 * 1000000000

/-- How many entries one collection frees at most. -/
def igPcReapMax : Nat := 256

structure PcEntry where
  pid : UInt32
  ppid : UInt32
  uid : UInt32
  euid : UInt32
  sid : UInt32
  comm : CStr
  tty : CStr
  startTimeNs : UInt64
  exe : CStr
  cmdline : CStr
  exitTimeNs : UInt64

/-- `IG_PC` state behind `ig_pc_lock`. The buckets of `ig_pc_table` are one list, newest first: a
bucket only narrows the search to entries whose pid can match. -/
structure ProcCache where
  mem : Ptr → Option PcEntry
  next : Ptr
  table : List Ptr
  lru : List Ptr
  count : Int

namespace ProcCache

def empty : ProcCache := ⟨fun _ => none, 0, [], [], 0⟩

def findLocked (c : ProcCache) (pid : UInt32) : Option Ptr :=
  c.table.find? fun p => (c.mem p).any (·.pid == pid)

/-- `hash_del`, `list_del`, `atomic_dec` and `kfree` of one entry. -/
def drop (c : ProcCache) (p : Ptr) : ProcCache :=
  { c with mem := Function.update c.mem p none, table := c.table.erase p, lru := c.lru.erase p,
           count := c.count - 1 }

def evictOneLocked (c : ProcCache) : ProcCache :=
  match c.lru.getLast? with
  | none => c
  | some victim => c.drop victim

/-- `hash_add`, `list_add` and `atomic_inc` of a new entry. -/
def insert (c : ProcCache) (e : PcEntry) : ProcCache :=
  { mem := Function.update c.mem c.next (some e), next := c.next + 1, table := c.next :: c.table,
    lru := c.next :: c.lru, count := c.count + 1 }

/-- An update of an entry in place. -/
def modify (c : ProcCache) (p : Ptr) (f : PcEntry → PcEntry) : ProcCache :=
  { c with mem := Function.update c.mem p ((c.mem p).map f) }

/-- `list_move` to the head of the LRU list. -/
def moveHead (c : ProcCache) (p : Ptr) : ProcCache := { c with lru := p :: c.lru.erase p }

/-- `list_move_tail`. -/
def moveTail (c : ProcCache) (p : Ptr) : ProcCache := { c with lru := c.lru.erase p ++ [p] }

end ProcCache

/-! ## The callbacks -/

/-- What a callback reads of a task. -/
structure Task where
  pid : UInt32
  ppid : UInt32
  uid : UInt32
  euid : UInt32
  sid : UInt32
  comm : CStr
  tty : CStr
  startNs : UInt64

/-- The zeroed entry a fork or the preload fills in. -/
def Task.entry (t : Task) : PcEntry where
  pid := t.pid
  ppid := t.ppid
  uid := t.uid
  euid := t.euid
  sid := t.sid
  comm := t.comm.cut 15
  tty := t.tty.cut 15
  startTimeNs := t.startNs
  exe := ⟨[], zero_notMem_nil⟩
  cmdline := ⟨[], zero_notMem_nil⟩
  exitTimeNs := 0

/-- The locked section of `ig_pc_on_fork`. -/
def onForkLocked (c : ProcCache) (e : PcEntry) : ProcCache :=
  let c := match c.findLocked e.pid with
    | some old => c.drop old
    | none => c
  let c := if c.count ≥ igPcMaxEntries then c.evictOneLocked else c
  c.insert e

/-- The entry after an exec: the captured path and command line where there are any, and the new
names; the exit time is left as it is. -/
def PcEntry.exec (t : Task) (exeBuf cmdBuf : CStr) (e : PcEntry) : PcEntry :=
  { e with
    exe := if exeBuf.bytes = [] then e.exe else exeBuf.cut 255
    cmdline := if cmdBuf.bytes = [] then e.cmdline else cmdBuf.cut 511
    comm := t.comm.cut 15
    tty := t.tty.cut 15 }

/-- The locked section of `ig_pc_on_exec`. -/
def onExecLocked (c : ProcCache) (t : Task) (exeBuf cmdBuf : CStr) : ProcCache :=
  match c.findLocked t.pid with
  | none => c
  | some p => (c.modify p (·.exec t exeBuf cmdBuf)).moveHead p

/-- The locked section of `ig_pc_on_exit`. -/
def onExitLocked (c : ProcCache) (pid : UInt32) (nowNs : UInt64) : ProcCache :=
  match c.findLocked pid with
  | none => c
  | some p => (c.modify p ({ · with exitTimeNs := nowNs })).moveTail p

/-- The locked section of `ig_pc_preload` for one task. -/
def preloadLocked (c : ProcCache) (e : PcEntry) : ProcCache :=
  if c.count ≥ igPcMaxEntries then c
  else
    match c.findLocked e.pid with
    | some _ => c
    | none => c.insert e

/-- The collector's test on a tombstone. -/
def pastGrace (nowNs exitNs : UInt64) : Bool := ¬ nowNs - exitNs < igPcGraceNs

/-- The collector's loop over the LRU list from its tail; the entries it frees are returned. -/
def gcLoop (nowNs : UInt64) : List Ptr → Nat → ProcCache → ProcCache × List (Ptr × PcEntry)
  | [], _, c => (c, [])
  | p :: ps, reaped, c =>
    match c.mem p with
    | none => gcLoop nowNs ps reaped c
    | some e =>
      if e.exitTimeNs = 0 then gcLoop nowNs ps reaped c
      else if pastGrace nowNs e.exitTimeNs then
        if reaped + 1 ≥ igPcReapMax then (c.drop p, [(p, e)])
        else
          let (c', freed) := gcLoop nowNs ps (reaped + 1) (c.drop p)
          (c', (p, e) :: freed)
      else gcLoop nowNs ps reaped c

/-- The locked section of `ig_pc_gc_work`. -/
def gcLocked (c : ProcCache) (nowNs : UInt64) : ProcCache × List (Ptr × PcEntry) :=
  gcLoop nowNs c.lru.reverse 0 c

/-! ## The system -/

/-- A clock reading taken and not yet used under the lock. -/
inductive Reading where
  | exit (pid : UInt32) (nowNs : UInt64)
  | gc (nowNs : UInt64)

/-- What becomes of the allocation a fork makes before it takes the lock. -/
inductive ForkOutcome where
  | inserted
  | throttled
  | noMemory

/-- An entry that `ig_pc_gc_work` freed, with the reading it used and whether the process the
entry describes had exited. -/
structure Freed where
  entry : PcEntry
  ended : Bool
  nowNs : UInt64

/-- The cache, the readings pending in each thread, whether the process each entry describes has
exited, and the entries the collector has freed. -/
structure Sys where
  cache : ProcCache
  pending : Nat → Option Reading
  ended : Ptr → Bool
  freed : List Freed

def Sys.init : Sys := ⟨ProcCache.empty, fun _ => none, fun _ => false, []⟩

inductive Act where
  | fork (child : Task) (outcome : ForkOutcome)
  | exec (t : Task) (exeBuf cmdBuf : CStr)
  | exitClock (thread : Nat) (pid : UInt32) (nowNs : UInt64)
  | gcClock (thread : Nat) (nowNs : UInt64)
  | locked (thread : Nat)
  | preload (t : Task)

namespace Sys

/-- A fork adds an entry for a process that runs. -/
def fork (s : Sys) (child : Task) : ForkOutcome → Sys
  | .inserted => { s with cache := onForkLocked s.cache child.entry,
                          ended := Function.update s.ended s.cache.next false }
  | .throttled => s
  | .noMemory => s

/-- An exec makes the entry it finds describe the process that executes. -/
def exec (s : Sys) (t : Task) (exeBuf cmdBuf : CStr) : Sys :=
  match s.cache.findLocked t.pid with
  | none => s
  | some p => { s with cache := onExecLocked s.cache t exeBuf cmdBuf, ended := Function.update s.ended p false }

/-- The exit callback's locked section ends the process of the entry it finds. -/
def exit (s : Sys) (pid : UInt32) (nowNs : UInt64) : Sys :=
  match s.cache.findLocked pid with
  | none => s
  | some p => { s with cache := onExitLocked s.cache pid nowNs, ended := Function.update s.ended p true }

def collect (s : Sys) (nowNs : UInt64) : Sys :=
  { s with cache := (gcLocked s.cache nowNs).1,
           freed := s.freed ++ (gcLocked s.cache nowNs).2.map fun (p, e) => ⟨e, s.ended p, nowNs⟩ }

def preload (s : Sys) (t : Task) : Sys :=
  { s with cache := preloadLocked s.cache t.entry, ended := Function.update s.ended s.cache.next false }

def step (s : Sys) : Act → Sys
  | .fork child outcome => s.fork child outcome
  | .exec t exeBuf cmdBuf => s.exec t exeBuf cmdBuf
  | .exitClock thread pid nowNs =>
    { s with pending := Function.update s.pending thread (some (.exit pid nowNs)) }
  | .gcClock thread nowNs => { s with pending := Function.update s.pending thread (some (.gc nowNs)) }
  | .locked thread =>
    let s' := { s with pending := Function.update s.pending thread none }
    match s.pending thread with
    | none => s
    | some (.exit pid nowNs) => s'.exit pid nowNs
    | some (.gc nowNs) => s'.collect nowNs
  | .preload t => s.preload t

end Sys

def runCache (acts : List Act) : Sys := acts.foldl Sys.step Sys.init

/-! ## What the sections leave on the heap -/

namespace ProcCache

theorem mem_of_drop {c : ProcCache} {p q : Ptr} {e : PcEntry} (h : (c.drop p).mem q = some e) :
    c.mem q = some e := by
  simp only [drop, Function.update_apply] at h
  split at h
  · cases h
  · exact h

theorem mem_of_evictOneLocked {c : ProcCache} {q : Ptr} {e : PcEntry}
    (h : c.evictOneLocked.mem q = some e) : c.mem q = some e := by
  unfold evictOneLocked at h
  split at h
  · exact h
  · exact mem_of_drop h

@[simp] theorem drop_next (c : ProcCache) (p : Ptr) : (c.drop p).next = c.next := rfl

@[simp] theorem evictOneLocked_next (c : ProcCache) : c.evictOneLocked.next = c.next := by
  unfold evictOneLocked; split <;> rfl

end ProcCache

open ProcCache

theorem mem_of_insert {c : ProcCache} {e e' : PcEntry} {q : Ptr} (h : (c.insert e).mem q = some e') :
    (q = c.next ∧ e' = e) ∨ (q ≠ c.next ∧ c.mem q = some e') := by
  simp only [ProcCache.insert, Function.update_apply] at h
  split at h
  · rename_i hq; cases h; exact .inl ⟨hq, rfl⟩
  · rename_i hq; exact .inr ⟨hq, h⟩

/-- After a fork the new entry sits at the new address and every other entry was there before. -/
theorem mem_of_onForkLocked {c : ProcCache} {e e' : PcEntry} {q : Ptr}
    (h : (onForkLocked c e).mem q = some e') :
    (q = c.next ∧ e' = e) ∨ (q ≠ c.next ∧ c.mem q = some e') := by
  unfold onForkLocked at h
  have hold : ∀ q e', (match c.findLocked e.pid with | some old => c.drop old | none => c).mem q = some e' →
      c.mem q = some e' := by
    intro q e' h
    split at h
    · exact mem_of_drop h
    · exact h
  have hnext : (match c.findLocked e.pid with | some old => c.drop old | none => c).next = c.next := by
    split <;> rfl
  revert hold hnext h
  generalize (match c.findLocked e.pid with | some old => c.drop old | none => c) = c₁
  intro h hold hnext
  dsimp only at h
  split at h
  · rcases mem_of_insert h with ⟨hq, he⟩ | ⟨hq, hm⟩
    · rw [evictOneLocked_next, hnext] at hq; exact .inl ⟨hq, he⟩
    · rw [evictOneLocked_next, hnext] at hq; exact .inr ⟨hq, hold q e' (mem_of_evictOneLocked hm)⟩
  · rcases mem_of_insert h with ⟨hq, he⟩ | ⟨hq, hm⟩
    · rw [hnext] at hq; exact .inl ⟨hq, he⟩
    · rw [hnext] at hq; exact .inr ⟨hq, hold q e' hm⟩

theorem onForkLocked_next (c : ProcCache) (e : PcEntry) : (onForkLocked c e).next = c.next + 1 := by
  unfold onForkLocked
  dsimp only [ProcCache.insert]
  split <;> split <;> simp

theorem preloadLocked_cases (c : ProcCache) (e : PcEntry) :
    preloadLocked c e = c ∨ preloadLocked c e = c.insert e := by
  unfold preloadLocked
  split
  · exact .inl rfl
  · split
    · exact .inl rfl
    · exact .inr rfl

theorem mem_of_modify {c : ProcCache} {p q : Ptr} {f : PcEntry → PcEntry} {e' : PcEntry}
    (h : (c.modify p f).mem q = some e') :
    (q = p ∧ ∃ e, c.mem p = some e ∧ e' = f e) ∨ (q ≠ p ∧ c.mem q = some e') := by
  simp only [ProcCache.modify, Function.update_apply] at h
  split at h
  · rename_i hq
    obtain ⟨e, he, rfl⟩ := Option.map_eq_some_iff.1 h
    exact .inl ⟨hq, e, he, rfl⟩
  · rename_i hq; exact .inr ⟨hq, h⟩

/-! ## The collector -/

/-- Past the grace period by the 64-bit difference: really past it, or recorded ahead of the
reading and wrapped around. -/
theorem pastGrace_iff (nowNs exitNs : UInt64) :
    pastGrace nowNs exitNs = true ↔
      exitNs.toNat + igPcGraceNs.toNat ≤ nowNs.toNat ∨
        (nowNs.toNat < exitNs.toNat ∧ exitNs.toNat + igPcGraceNs.toNat ≤ nowNs.toNat + 2 ^ 64) := by
  have hg : igPcGraceNs.toNat = 300000000000 := rfl
  have hn := nowNs.toNat_lt
  have he := exitNs.toNat_lt
  unfold pastGrace
  rw [decide_eq_true_iff, UInt64.lt_iff_toNat_lt, UInt64.toNat_sub, hg]
  omega

/-- What the collector frees was on the list, had an exit time and was past the grace period. -/
theorem gcLoop_freed {nowNs : UInt64} : ∀ (ps : List Ptr) (reaped : Nat) (c : ProcCache) {p : Ptr} {e : PcEntry},
    (p, e) ∈ (gcLoop nowNs ps reaped c).2 →
    p ∈ ps ∧ c.mem p = some e ∧ e.exitTimeNs ≠ 0 ∧ pastGrace nowNs e.exitTimeNs = true
  | [], _, _, _, _, h => by cases h
  | q :: ps, reaped, c, p, e, h => by
    unfold gcLoop at h
    split at h
    · exact (gcLoop_freed ps reaped c h).imp_left (List.mem_cons_of_mem q)
    · rename_i e₁ hq
      split at h
      · exact (gcLoop_freed ps reaped c h).imp_left (List.mem_cons_of_mem q)
      · rename_i hexit
        split at h
        · rename_i hgrace
          have hhead : ∀ {p e}, (p, e) = (q, e₁) →
              p ∈ q :: ps ∧ c.mem p = some e ∧ e.exitTimeNs ≠ 0 ∧ pastGrace nowNs e.exitTimeNs = true := by
            intro p e h
            cases h
            exact ⟨List.mem_cons_self, hq, hexit, hgrace⟩
          split at h
          · exact hhead (List.mem_singleton.1 h)
          · rcases List.mem_cons.1 h with h | h
            · exact hhead h
            -- the heap only shrinks along the loop: what is freed later was there before
            · obtain ⟨hl, hm, hrest⟩ := gcLoop_freed ps (reaped + 1) (c.drop q) h
              exact ⟨List.mem_cons_of_mem q hl, mem_of_drop hm, hrest⟩
        · exact (gcLoop_freed ps reaped c h).imp_left (List.mem_cons_of_mem q)

/-- The collector adds nothing to the heap. -/
theorem gcLoop_mem {nowNs : UInt64} : ∀ (ps : List Ptr) (reaped : Nat) (c : ProcCache) {p : Ptr} {e : PcEntry},
    (gcLoop nowNs ps reaped c).1.mem p = some e → c.mem p = some e
  | [], _, _, _, _, h => h
  | q :: ps, reaped, c, p, e, h => by
    unfold gcLoop at h
    split at h
    · exact gcLoop_mem ps reaped c h
    · split at h
      · exact gcLoop_mem ps reaped c h
      · split at h
        · split at h
          · exact mem_of_drop h
          · exact mem_of_drop (gcLoop_mem ps (reaped + 1) (c.drop q) h)
        · exact gcLoop_mem ps reaped c h

theorem gcLoop_next {nowNs : UInt64} : ∀ (ps : List Ptr) (reaped : Nat) (c : ProcCache),
    (gcLoop nowNs ps reaped c).1.next = c.next
  | [], _, _ => rfl
  | q :: ps, reaped, c => by
    unfold gcLoop
    split
    · exact gcLoop_next ps reaped c
    · split
      · exact gcLoop_next ps reaped c
      · split
        · split
          · rfl
          · exact gcLoop_next ps (reaped + 1) (c.drop q)
        · exact gcLoop_next ps reaped c

/-! ## Collections are justified -/

/-- The process had exited, and the grace period lies between its recorded exit and the reading. -/
def Freed.Justified (f : Freed) : Prop :=
  f.ended = true ∧ f.entry.exitTimeNs.toNat + igPcGraceNs.toNat ≤ f.nowNs.toNat

/-- The tombstone is not ahead of the reading by so much that their difference wraps past the
grace period. -/
def NotAhead (nowNs : UInt64) (e : PcEntry) : Prop :=
  e.exitTimeNs ≠ 0 → nowNs.toNat < e.exitTimeNs.toNat →
    nowNs.toNat + 2 ^ 64 < e.exitTimeNs.toNat + igPcGraceNs.toNat

instance (nowNs : UInt64) (e : PcEntry) : Decidable (NotAhead nowNs e) :=
  inferInstanceAs (Decidable (_ → _ → _))

/-- No tombstone on the list is ahead of the collector's reading. -/
def Reading.Ok (c : ProcCache) : Reading → Prop
  | .exit _ _ => True
  | .gc nowNs => ∀ p ∈ c.lru, ∀ e ∈ c.mem p, NotAhead nowNs e

/-- What a step is asked for: an exec finds no tombstone, and a collection has a reading that no
tombstone is ahead of. -/
def StepOk (s : Sys) : Act → Prop
  | .exec t _ _ => ∀ p ∈ s.cache.findLocked t.pid, ∀ e ∈ s.cache.mem p, e.exitTimeNs = 0
  | .locked thread => ∀ r ∈ s.pending thread, r.Ok s.cache
  | _ => True

/-- Entries lie below the next address, every tombstone is one of a process that has exited, and
every collection so far was justified. -/
structure Sound (s : Sys) : Prop where
  fresh : ∀ p e, s.cache.mem p = some e → p < s.cache.next
  tomb : ∀ p e, s.cache.mem p = some e → e.exitTimeNs ≠ 0 → s.ended p = true
  just : ∀ f ∈ s.freed, f.Justified

theorem sound_init : Sound Sys.init := ⟨nofun, nofun, nofun⟩

/-- The invariant does not depend on the pending readings. -/
theorem Sound.pending {s : Sys} (hs : Sound s) (pending : Nat → Option Reading) :
    Sound { s with pending := pending } := ⟨hs.fresh, hs.tomb, hs.just⟩

/-- A new live entry at the next address keeps the invariant. -/
theorem Sound.insert {s : Sys} (hs : Sound s) {e : PcEntry} (he : e.exitTimeNs = 0) {c : ProcCache}
    (hmem : ∀ q e', c.mem q = some e' →
      (q = s.cache.next ∧ e' = e) ∨ (q ≠ s.cache.next ∧ s.cache.mem q = some e'))
    (hnext : c.next = s.cache.next + 1) :
    Sound { s with cache := c, ended := Function.update s.ended s.cache.next false } := by
  refine ⟨fun p e' hp => ?_, fun p e' hp hexit => ?_, hs.just⟩
  · show p < c.next
    rw [hnext]
    rcases hmem p e' hp with ⟨rfl, -⟩ | ⟨-, hm⟩
    · exact Nat.lt_succ_self _
    · exact Nat.lt_succ_of_lt (hs.fresh p e' hm)
  · rcases hmem p e' hp with ⟨-, rfl⟩ | ⟨hne, hm⟩
    · exact absurd he hexit
    · show Function.update s.ended s.cache.next false p = true
      rw [Function.update_of_ne hne]
      exact hs.tomb p e' hm hexit

/-- An entry changed in place keeps the invariant when a tombstone is noted as ended. -/
theorem Sound.modify {s : Sys} (hs : Sound s) {p : Ptr} {f : PcEntry → PcEntry} {b : Bool} {c : ProcCache}
    (hc : c.mem = (s.cache.modify p f).mem) (hnext : c.next = s.cache.next)
    (hb : ∀ e, s.cache.mem p = some e → (f e).exitTimeNs ≠ 0 → b = true) :
    Sound { s with cache := c, ended := Function.update s.ended p b } := by
  refine ⟨fun q e' hq => ?_, fun q e' hq hexit => ?_, hs.just⟩
  · show q < c.next
    rw [hnext]
    rcases mem_of_modify (hc ▸ hq) with ⟨rfl, e, he, -⟩ | ⟨-, hm⟩
    · exact hs.fresh q e he
    · exact hs.fresh q e' hm
  · show Function.update s.ended p b q = true
    rcases mem_of_modify (hc ▸ hq) with ⟨rfl, e, he, rfl⟩ | ⟨hne, hm⟩
    · rw [Function.update_self]
      exact hb e he hexit
    · rw [Function.update_of_ne hne]
      exact hs.tomb q e' hm hexit

theorem Sound.exec {s : Sys} (hs : Sound s) {t : Task} {exeBuf cmdBuf : CStr}
    (ha : StepOk s (.exec t exeBuf cmdBuf)) : Sound (s.exec t exeBuf cmdBuf) := by
  unfold Sys.exec onExecLocked
  cases hf : s.cache.findLocked t.pid with
  | none => exact hs
  | some p => exact hs.modify (f := (·.exec t exeBuf cmdBuf)) rfl rfl fun e he hexit => absurd (ha p hf e he) hexit

theorem Sound.exit {s : Sys} (hs : Sound s) (pid : UInt32) (nowNs : UInt64) : Sound (s.exit pid nowNs) := by
  unfold Sys.exit onExitLocked
  cases hf : s.cache.findLocked pid with
  | none => exact hs
  | some p => exact hs.modify (f := ({ · with exitTimeNs := nowNs })) rfl rfl fun _ _ _ => rfl

/-- A collection whose reading no tombstone is ahead of frees justified entries only. -/
theorem Sound.collect {s : Sys} (hs : Sound s) {nowNs : UInt64}
    (hahead : (Reading.gc nowNs).Ok s.cache) : Sound (s.collect nowNs) := by
  refine ⟨fun p e hp => ?_, fun p e hp => hs.tomb p e (gcLoop_mem _ _ _ hp), fun f hf => ?_⟩
  · show p < (gcLocked s.cache nowNs).1.next
    rw [show (gcLocked s.cache nowNs).1.next = s.cache.next from gcLoop_next _ _ _]
    exact hs.fresh p e (gcLoop_mem _ _ _ hp)
  · rcases List.mem_append.1 hf with hf | hf
    · exact hs.just f hf
    · obtain ⟨⟨p, e⟩, hpe, rfl⟩ := List.mem_map.1 hf
      obtain ⟨hl, hm, hexit, hgrace⟩ := gcLoop_freed _ _ _ hpe
      refine ⟨hs.tomb p e hm hexit, ?_⟩
      rcases (pastGrace_iff nowNs e.exitTimeNs).1 hgrace with h | ⟨hlt, hwrap⟩
      · exact h
      · have := hahead p (List.mem_reverse.1 hl) e hm hexit hlt
        omega

theorem Sound.preload {s : Sys} (hs : Sound s) (t : Task) : Sound (s.preload t) := by
  unfold Sys.preload
  rcases preloadLocked_cases s.cache t.entry with hc | hc
  · rw [hc]
    refine ⟨hs.fresh, fun p e hp hexit => ?_, hs.just⟩
    show Function.update s.ended s.cache.next false p = true
    rw [Function.update_of_ne (Nat.ne_of_lt (hs.fresh p e hp))]
    exact hs.tomb p e hp hexit
  · rw [hc]
    exact hs.insert rfl (fun q e' => mem_of_insert) rfl

theorem sound_step {s : Sys} {a : Act} (hs : Sound s) (ha : StepOk s a) : Sound (s.step a) := by
  cases a with
  | fork child outcome =>
    cases outcome with
    | inserted =>
      exact hs.insert rfl (fun q e' => mem_of_onForkLocked) (onForkLocked_next s.cache child.entry)
    | throttled => exact hs
    | noMemory => exact hs
  | exec t exeBuf cmdBuf => exact hs.exec ha
  | exitClock thread pid nowNs => exact hs.pending _
  | gcClock thread nowNs => exact hs.pending _
  | locked thread =>
    cases hp : s.pending thread with
    | none => simpa only [Sys.step, hp] using hs
    | some r =>
      cases r with
      | exit pid nowNs =>
        simp only [Sys.step, hp]
        exact (hs.pending _).exit pid nowNs
      | gc nowNs =>
        simp only [Sys.step, hp]
        exact (hs.pending _).collect (ha (.gc nowNs) hp)
  | preload t => exact hs.preload t

/-- In every run whose execs find no tombstone and whose collections have a reading that no
tombstone is ahead of, the collector frees an entry only when its process has exited and the
grace period has passed since the recorded exit. -/
theorem freed_justified (acts : List Act) (h : AllSteps Sys.step StepOk Sys.init acts) :
    ∀ f ∈ (runCache acts).freed, f.Justified :=
  (foldl_invariant (fun _ _ hs ha => sound_step hs ha) acts Sys.init sound_init h).just

instance (c : ProcCache) : ∀ r : Reading, Decidable (r.Ok c)
  | .exit _ _ => inferInstanceAs (Decidable True)
  | .gc nowNs => inferInstanceAs (Decidable (∀ p ∈ c.lru, ∀ e ∈ c.mem p, NotAhead nowNs e))

instance (s : Sys) : ∀ a : Act, Decidable (StepOk s a)
  | .fork _ _ => inferInstanceAs (Decidable True)
  | .exec t _ _ => inferInstanceAs (Decidable (∀ p ∈ s.cache.findLocked t.pid, ∀ e ∈ s.cache.mem p, e.exitTimeNs = 0))
  | .exitClock _ _ _ => inferInstanceAs (Decidable True)
  | .gcClock _ _ => inferInstanceAs (Decidable True)
  | .locked thread => inferInstanceAs (Decidable (∀ r ∈ s.pending thread, r.Ok s.cache))
  | .preload _ => inferInstanceAs (Decidable True)

instance (f : Freed) : Decidable f.Justified := inferInstanceAs (Decidable (_ ∧ _))

theorem shell_noZero : 0 ∉ ascii "sh" := by decide

/-- A shell with pid 7. -/
def shell : Task := ⟨7, 1, 0, 0, 7, ⟨ascii "sh", shell_noZero⟩, ⟨[], zero_notMem_nil⟩, 1000⟩

/-- The shell exits at 1000 s and a collection reads the clock five minutes later. -/
def laterCollection : List Act :=
  [.fork shell .inserted, .exitClock 0 7 1000000000000, .locked 0, .gcClock 1 1300000000000, .locked 1]

theorem freed_justified_laterCollection :
    (runCache laterCollection).freed.length = 1 ∧ ∀ f ∈ (runCache laterCollection).freed, f.Justified :=
  ⟨by decide, freed_justified laterCollection (by decide)⟩

/-- The collector reads the clock at 1000 s, the shell exits a millisecond later on another CPU,
and only then the collector takes the lock. -/
def racingCollection : List Act :=
  [.fork shell .inserted, .gcClock 1 1000000000000, .exitClock 0 7 1000001000000, .locked 0, .locked 1]

/-- The racing collection frees the entry at once. -/
theorem freed_unjustified_racingCollection : ¬ ∀ f ∈ (runCache racingCollection).freed, f.Justified := by
  decide

/-- The leader of pid 7 has exited and another of its threads executes a program: the collection
five minutes later frees the entry of a process that runs. -/
def tombstoneExec : List Act :=
  [.fork shell .inserted, .exitClock 0 7 1000000000000, .locked 0,
    .exec shell ⟨ascii "/bin/sh", by decide⟩ ⟨ascii "sh", shell_noZero⟩, .gcClock 1 1300000000000, .locked 1]

example : ¬ ∀ f ∈ (runCache tombstoneExec).freed, f.Justified := by decide

end KnIg.Lkm
