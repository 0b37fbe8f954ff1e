/-
The hash table, the LRU list and the counter of the process cache. Each locked section of its callbacks adds an
entry to all three, takes one from all three or moves one within the list, so after any sequence of sections they
record the same entries, one for a pid, and never more than the cache may hold.
-/
import KnIg.Lkm.Chain

namespace KnIg.Lkm

open Lib

/-! ## The locked sections -/

inductive CacheOp where
  | fork (child : Task) (outcome : ForkOutcome)
  | exec (t : Task) (exeBuf cmdBuf : CStr)
  | exit (pid : UInt32) (nowNs : UInt64)
  /-- one task of the preload, for which `kzalloc` may fail -/
  | preload (t : Task) (allocated : Bool)
  | collectChain (startPid : UInt32) (maxDepth : Int)
  | gc (nowNs : UInt64)

namespace ProcCache

def step (c : ProcCache) : CacheOp → ProcCache
  | .fork child .inserted => onForkLocked c child.entry
  | .fork _ .throttled => c
  | .fork _ .noMemory => c
  | .exec t exeBuf cmdBuf => onExecLocked c t exeBuf cmdBuf
  | .exit pid nowNs => onExitLocked c pid nowNs
  | .preload t allocated => if allocated then preloadLocked c t.entry else c
  | .collectChain _ _ => c
  | .gc nowNs => (gcLocked c nowNs).1

def runOps (ops : List CacheOp) : ProcCache := ops.foldl step empty

/-! ## Table, list and heap -/

/-- The list and the table hold the same addresses, each once; these are the allocated ones, and the counter is
their number. -/
structure Linked (c : ProcCache) : Prop where
  same : c.lru.Perm c.table
  nodup : c.table.Nodup
  heap : ∀ p, p ∈ c.table ↔ (c.mem p).isSome
  count : c.count = c.table.length

variable {c : ProcCache} {p q : Ptr} {e : PcEntry}

theorem linked_empty : empty.Linked where
  same := List.Perm.refl []
  nodup := List.nodup_nil
  heap := by simp [empty]
  count := rfl

theorem Linked.mem_lru (h : c.Linked) : p ∈ c.lru ↔ p ∈ c.table := h.same.mem_iff

theorem Linked.mem_table (h : c.Linked) (hp : c.mem p = some e) : p ∈ c.table := (h.heap p).2 (by rw [hp]; rfl)

theorem mem_table_of_findLocked {pid : UInt32} (h : c.findLocked pid = some p) : p ∈ c.table :=
  List.mem_of_find?_eq_some h

theorem Linked.drop (h : c.Linked) (hp : p ∈ c.table) : (c.drop p).Linked where
  same := h.same.erase p
  nodup := h.nodup.erase p
  heap q := by
    show q ∈ c.table.erase p ↔ (Function.update c.mem p none q).isSome
    by_cases hq : q = p
    · subst hq
      simp [h.nodup.not_mem_erase]
    · rw [List.mem_erase_of_ne hq, Function.update_of_ne hq]
      exact h.heap q
  count := by
    show c.count - 1 = ((c.table.erase p).length : Int)
    have hpos : 0 < c.table.length := List.length_pos_of_mem hp
    rw [List.length_erase_of_mem hp, h.count]
    omega

theorem Linked.evictOneLocked (h : c.Linked) : c.evictOneLocked.Linked := by
  unfold ProcCache.evictOneLocked
  cases hv : c.lru.getLast? with
  | none => exact h
  | some victim => exact h.drop (h.mem_lru.1 (List.mem_of_getLast? hv))

theorem Linked.insert (h : c.Linked) (hfresh : c.next ∉ c.table) (e : PcEntry) : (c.insert e).Linked where
  same := h.same.cons c.next
  nodup := List.nodup_cons.2 ⟨hfresh, h.nodup⟩
  heap q := by
    show q ∈ c.next :: c.table ↔ (Function.update c.mem c.next (some e) q).isSome
    by_cases hq : q = c.next
    · subst hq
      simp
    · rw [List.mem_cons, Function.update_of_ne hq, h.heap q]
      exact or_iff_right hq
  count := by
    show c.count + 1 = ((c.next :: c.table).length : Int)
    rw [List.length_cons, h.count]
    rfl

theorem Linked.modify (h : c.Linked) (p : Ptr) (f : PcEntry → PcEntry) : (c.modify p f).Linked where
  same := h.same
  nodup := h.nodup
  heap q := by
    show q ∈ c.table ↔ (Function.update c.mem p ((c.mem p).map f) q).isSome
    rw [h.heap q]
    by_cases hq : q = p
    · subst hq
      simp
    · rw [Function.update_of_ne hq]
  count := h.count

theorem Linked.moveHead (h : c.Linked) (hp : p ∈ c.table) : (c.moveHead p).Linked :=
  { h with same := (List.perm_cons_erase (h.mem_lru.2 hp)).symm.trans h.same }

theorem Linked.moveTail (h : c.Linked) (hp : p ∈ c.table) : (c.moveTail p).Linked :=
  { h with same := (List.perm_append_singleton p _).trans (h.moveHead hp).same }

theorem Linked.gcLoop {nowNs : UInt64} (ps : List Ptr) (reaped : Nat) (h : c.Linked) :
    (gcLoop nowNs ps reaped c).1.Linked := by
  induction ps generalizing reaped c with
  | nil => exact h
  | cons p ps ih =>
    unfold Lkm.gcLoop
    split
    · exact ih reaped h
    next e he =>
    split
    · exact ih reaped h
    split
    · split
      · exact h.drop (h.mem_table he)
      · exact ih (reaped + 1) (h.drop (h.mem_table he))
    · exact ih reaped h

/-! ## How many entries -/

theorem count_gcLoop_le {nowNs : UInt64} (ps : List Ptr) (reaped : Nat) (c : ProcCache) :
    (Lkm.gcLoop nowNs ps reaped c).1.count ≤ c.count := by
  induction ps generalizing reaped c with
  | nil => exact le_rfl
  | cons p ps ih =>
    have hdrop : (c.drop p).count ≤ c.count := Int.sub_le_self c.count (by decide)
    unfold Lkm.gcLoop
    split
    · exact ih reaped c
    split
    · exact ih reaped c
    split
    · split
      · exact hdrop
      · exact (ih (reaped + 1) (c.drop p)).trans hdrop
    · exact ih reaped c

theorem Linked.dropPid (h : c.Linked) (pid : UInt32) : (c.dropPid pid).Linked := by
  unfold ProcCache.dropPid
  cases hf : c.findLocked pid with
  | none => exact h
  | some old => exact h.drop (mem_table_of_findLocked hf)

theorem count_dropPid_le (c : ProcCache) (pid : UInt32) : (c.dropPid pid).count ≤ c.count := by
  unfold ProcCache.dropPid
  cases c.findLocked pid with
  | none => exact le_rfl
  | some old => exact Int.sub_le_self c.count (by decide)

theorem Linked.makeRoom (h : c.Linked) (pid : UInt32) : (c.makeRoom pid).Linked := by
  unfold ProcCache.makeRoom
  split
  · exact (h.dropPid pid).evictOneLocked
  · exact h.dropPid pid

/-- A cache with too many entries has one to evict. -/
theorem Linked.count_evictOneLocked (h : c.Linked) (hc : 0 < c.count) : c.evictOneLocked.count = c.count - 1 := by
  unfold ProcCache.evictOneLocked
  cases hv : c.lru.getLast? with
  | none =>
    have hnil : c.lru = [] := List.getLast?_eq_none_iff.1 hv
    have hlen := h.same.length_eq
    rw [hnil, List.length_nil] at hlen
    rw [h.count, ← hlen] at hc
    exact absurd hc (by decide)
  | some victim => rfl

theorem Linked.count_makeRoom_lt (h : c.Linked) (hc : c.count ≤ igPcMaxEntries) (pid : UInt32) :
    (c.makeRoom pid).count < igPcMaxEntries := by
  have hle := (count_dropPid_le c pid).trans hc
  unfold ProcCache.makeRoom
  split
  · next hfull =>
    have hmax : 0 < igPcMaxEntries := by decide
    rw [(h.dropPid pid).count_evictOneLocked (lt_of_lt_of_le hmax hfull)]
    omega
  · next hroom => exact lt_of_not_ge hroom

/-! ## Every section -/

/-- The table and the list hold the same entries, no two of one pid, and the counter is their number and within
the limit. -/
structure Consistent (c : ProcCache) : Prop where
  linked : c.Linked
  distinct : c.Distinct
  bounded : c.count ≤ igPcMaxEntries

theorem consistent_empty : empty.Consistent := ⟨linked_empty, distinct_empty, by decide⟩

theorem Consistent.next_not_mem (h : c.Consistent) : c.next ∉ c.table := by
  intro hmem
  obtain ⟨e, he⟩ := Option.isSome_iff_exists.1 ((h.linked.heap c.next).1 hmem)
  exact absurd (h.distinct.fresh c.next e (entry_eq_some.2 ⟨hmem, he⟩)) (lt_irrefl _)

theorem Consistent.fork (h : c.Consistent) (e : PcEntry) : (onForkLocked c e).Consistent where
  linked := by
    have hroom := h.linked.makeRoom e.pid
    rw [onForkLocked_eq]
    refine hroom.insert ?_ e
    intro hmem
    -- what the fork leaves lies below the next address
    obtain ⟨f, hf⟩ := Option.isSome_iff_exists.1 ((hroom.heap _).1 hmem)
    have hold := (h.distinct.entry_of_makeRoom (entry_eq_some.2 ⟨hmem, hf⟩)).1
    rw [makeRoom_next] at hold
    exact absurd (h.distinct.fresh _ f hold) (lt_irrefl _)
  distinct := h.distinct.fork e
  bounded := by
    show (c.makeRoom e.pid).count + 1 ≤ igPcMaxEntries
    have hlt := h.linked.count_makeRoom_lt h.bounded e.pid
    omega

theorem Consistent.exec (h : c.Consistent) (t : Task) (exeBuf cmdBuf : CStr) :
    (onExecLocked c t exeBuf cmdBuf).Consistent := by
  refine ⟨?_, h.distinct.within (within_exec c t exeBuf cmdBuf), ?_⟩
  · unfold onExecLocked
    cases hf : c.findLocked t.pid with
    | none => exact h.linked
    | some p =>
      have hp : p ∈ c.table := mem_table_of_findLocked hf
      exact (h.linked.modify p _).moveHead hp
  · unfold onExecLocked
    cases c.findLocked t.pid <;> exact h.bounded

theorem Consistent.exit (h : c.Consistent) (pid : UInt32) (nowNs : UInt64) :
    (onExitLocked c pid nowNs).Consistent := by
  refine ⟨?_, h.distinct.within (within_exit c pid nowNs), ?_⟩
  · unfold onExitLocked
    cases hf : c.findLocked pid with
    | none => exact h.linked
    | some p =>
      have hp : p ∈ c.table := mem_table_of_findLocked hf
      exact (h.linked.modify p _).moveTail hp
  · unfold onExitLocked
    cases c.findLocked pid <;> exact h.bounded

/-- An entry whose pid the cache does not have. -/
theorem Distinct.insert (h : c.Distinct) (hnew : c.findLocked e.pid = none) : (c.insert e).Distinct := by
  have hold : ∀ {q f}, (c.insert e).entry q = some f → q = c.next ∧ f = e ∨ c.entry q = some f ∧ f.pid ≠ e.pid := by
    intro q f hq
    rw [entry_insert] at hq
    split at hq
    · next hnext => exact .inl ⟨hnext, (Option.some.inj hq).symm⟩
    · exact .inr ⟨hq, findLocked_none hnew hq⟩
  constructor
  · intro p f hp
    show p < c.next + 1
    rcases hold hp with ⟨rfl, -⟩ | ⟨hp, -⟩
    · exact Nat.lt_succ_self _
    · exact Nat.lt_succ_of_lt (h.fresh p f hp)
  · intro p q e₁ e₂ hp hq hpid
    rcases hold hp with ⟨rfl, rfl⟩ | ⟨hp, hpe⟩ <;> rcases hold hq with ⟨rfl, rfl⟩ | ⟨hq, hqe⟩
    · rfl
    · exact absurd hpid.symm hqe
    · exact absurd hpid hpe
    · exact h.unique p q e₁ e₂ hp hq hpid

theorem Consistent.preload (h : c.Consistent) (e : PcEntry) : (preloadLocked c e).Consistent := by
  unfold preloadLocked
  split
  · exact h
  next hroom =>
  cases hf : c.findLocked e.pid with
  | some old => exact h
  | none =>
    refine ⟨h.linked.insert h.next_not_mem e, h.distinct.insert hf, ?_⟩
    show c.count + 1 ≤ igPcMaxEntries
    omega

theorem Consistent.gc (h : c.Consistent) (nowNs : UInt64) : (gcLocked c nowNs).1.Consistent :=
  ⟨h.linked.gcLoop _ _, h.distinct.within (within_gc c nowNs), (count_gcLoop_le _ _ c).trans h.bounded⟩

theorem Consistent.step (h : c.Consistent) (op : CacheOp) : (c.step op).Consistent := by
  cases op with
  | fork child outcome =>
    cases outcome with
    | inserted => exact h.fork child.entry
    | throttled => exact h
    | noMemory => exact h
  | exec t exeBuf cmdBuf => exact h.exec t exeBuf cmdBuf
  | exit pid nowNs => exact h.exit pid nowNs
  | preload t allocated =>
    cases allocated with
    | true => exact h.preload t.entry
    | false => exact h
  | collectChain startPid maxDepth => exact h
  | gc nowNs => exact h.gc nowNs

theorem consistent_runOps (ops : List CacheOp) : (runOps ops).Consistent :=
  List.foldlRecOn ops step consistent_empty fun _ hc op _ => hc.step op

/-- With the clock readings taken outside the lock, too, every step is one locked section or none. -/
theorem cache_step (s : Sys) (a : Act) : (s.step a).cache = s.cache ∨ ∃ op, (s.step a).cache = s.cache.step op := by
  cases a with
  | fork child outcome =>
    cases outcome with
    | inserted => exact .inr ⟨.fork child .inserted, rfl⟩
    | throttled => exact .inl rfl
    | noMemory => exact .inl rfl
  | exec t exeBuf cmdBuf =>
    refine .inr ⟨.exec t exeBuf cmdBuf, ?_⟩
    show (s.exec t exeBuf cmdBuf).cache = onExecLocked s.cache t exeBuf cmdBuf
    unfold Sys.exec onExecLocked
    cases s.cache.findLocked t.pid <;> rfl
  | exitClock thread pid nowNs => exact .inl rfl
  | gcClock thread nowNs => exact .inl rfl
  | locked thread =>
    cases hp : s.pending thread with
    | none => exact .inl (by simp only [Sys.step, hp])
    | some r =>
      cases r with
      | exit pid nowNs =>
        refine .inr ⟨.exit pid nowNs, ?_⟩
        simp only [Sys.step, hp, Sys.exit, step, onExitLocked]
        cases s.cache.findLocked pid <;> rfl
      | gc nowNs => exact .inr ⟨.gc nowNs, by simp only [Sys.step, hp, Sys.collect, step]⟩
  | preload t => exact .inr ⟨.preload t true, rfl⟩

theorem consistent_runCache (acts : List Act) : (runCache acts).cache.Consistent := by
  refine List.foldlRecOn (motive := fun s : Sys => s.cache.Consistent) acts Sys.step consistent_empty fun s hs a _ => ?_
  rcases cache_step s a with heq | ⟨op, heq⟩
  · rw [heq]
    exact hs
  · rw [heq]
    exact hs.step op

/-- After any sequence of locked sections the hash table and the LRU list hold the same entries, each once and no
two of one pid, and the counter is their number and at most `igPcMaxEntries`. -/
theorem table_lru_count (ops : List CacheOp) :
    let c := runOps ops
    (∀ p, p ∈ c.table ↔ p ∈ c.lru) ∧ c.table.Nodup ∧ c.lru.Nodup ∧
      (∀ p, p ∈ c.table ↔ ∃ e, c.mem p = some e) ∧
      (∀ p q e f, c.mem p = some e → c.mem q = some f → e.pid = f.pid → p = q) ∧
      c.count = c.table.length ∧ c.count = c.lru.length ∧ c.count ≤ igPcMaxEntries := by
  have h := consistent_runOps ops
  refine ⟨fun p => h.linked.mem_lru.symm, h.linked.nodup, h.linked.same.nodup_iff.2 h.linked.nodup, ?_, ?_,
    h.linked.count, ?_, h.bounded⟩
  · exact fun p => (h.linked.heap p).trans Option.isSome_iff_exists
  · intro p q e f hp hq hpid
    have hep := entry_eq_some.2 ⟨h.linked.mem_table hp, hp⟩
    have hfq := entry_eq_some.2 ⟨h.linked.mem_table hq, hq⟩
    exact h.distinct.unique p q e f hep hfq hpid
  · rw [h.linked.count, h.linked.same.length_eq]

end ProcCache

end KnIg.Lkm
