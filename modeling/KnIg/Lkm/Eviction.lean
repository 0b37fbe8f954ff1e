/-
The entry that the process cache evicts. The list is moved about so that its tail is the entry to go first: a
tombstone before a live entry, then the one that exited first, then the one whose process was forked or executed a
program longest ago. An exit puts its tombstone behind the earlier ones, so the list keeps that order exactly as
long as no exit finds another tombstone with an earlier exit time, an exec finds none at all, and the preload adds
no entry after a fork or an exec.
-/
import KnIg.Lkm.CacheShape

namespace KnIg.Lkm

open Lib ProcCache

/-! ## Candidates -/

/-- The recorded exit time; 0 for an entry that is alive. -/
def ProcCache.exitAt (c : ProcCache) (p : Ptr) : UInt64 := ((c.mem p).map PcEntry.exitTimeNs).getD 0

/-- The cache, the number of sections so far, and the one that last forked or executed the process of an entry: 0
for a process that the preload found. -/
structure Dated where
  cache : ProcCache
  now : Nat
  used : Ptr → Nat

namespace Dated

def init : Dated := ⟨.empty, 0, fun _ => 0⟩

variable (d : Dated)

def usedAfter : CacheOp → Ptr → Nat
  | .fork _ .inserted => Function.update d.used d.cache.next (d.now + 1)
  | .preload _ _ => Function.update d.used d.cache.next 0
  | .exec t _ _ =>
    match d.cache.findLocked t.pid with
    | none => d.used
    | some p => Function.update d.used p (d.now + 1)
  | _ => d.used

def step (op : CacheOp) : Dated := ⟨d.cache.step op, d.now + 1, d.usedAfter op⟩

def run (ops : List CacheOp) : Dated := ops.foldl step init

/-- The entry that `ig_pc_evict_one_locked` removes is the tombstone with the earliest exit time if there is a
tombstone, and else the entry forked or executed the longest ago. -/
def EvictsOldest : Prop :=
  ∀ victim ∈ d.cache.lru, victim ∉ d.cache.evictOneLocked.lru →
    (∀ p ∈ d.cache.lru, d.cache.exitAt p ≠ 0 →
      d.cache.exitAt victim ≠ 0 ∧ d.cache.exitAt victim ≤ d.cache.exitAt p) ∧
    ((∀ p ∈ d.cache.lru, d.cache.exitAt p = 0) → ∀ p ∈ d.cache.lru, d.used victim ≤ d.used p)

instance : Decidable d.EvictsOldest := List.decidableBAll _ _

end Dated

/-- With the given exit times and uses, `p` is to go before `q`, or they are even. -/
def GoesBefore (exitAt : Ptr → UInt64) (used : Ptr → Nat) (p q : Ptr) : Prop :=
  (exitAt q ≠ 0 → exitAt p ≠ 0 ∧ exitAt p ≤ exitAt q) ∧ (exitAt q = 0 → exitAt p = 0 → used p ≤ used q)

instance (exitAt : Ptr → UInt64) (used : Ptr → Nat) (p q : Ptr) : Decidable (GoesBefore exitAt used p q) :=
  inferInstanceAs (Decidable (_ ∧ _))

namespace Dated

/-- Each entry of the list is to go before those that lie nearer to its head. -/
def InOrder (d : Dated) : Prop := d.cache.lru.Pairwise fun q p => GoesBefore d.cache.exitAt d.used p q

/-- What a section is asked for. -/
def OpOk (d : Dated) : CacheOp → Prop
  | .exec t _ _ => ∀ p ∈ d.cache.findLocked t.pid, d.cache.exitAt p ≠ 0 →
      ∀ q ∈ d.cache.lru, q ≠ p → d.cache.exitAt q ≠ 0 ∧ d.cache.exitAt q ≤ d.cache.exitAt p
  | .exit pid nowNs => ∀ p ∈ d.cache.findLocked pid, ∀ q ∈ d.cache.lru, q ≠ p →
      (d.cache.exitAt q ≠ 0 → nowNs ≠ 0 ∧ nowNs ≤ d.cache.exitAt q) ∧
        (d.cache.exitAt q = 0 → nowNs = 0 → d.used p ≤ d.used q)
  | .preload t allocated => allocated → d.cache.count < igPcMaxEntries → d.cache.findLocked t.pid = none →
      ∀ q ∈ d.cache.lru, d.cache.exitAt q = 0 → d.used q = 0
  | _ => True

variable {d : Dated}

/-! ## The tail of the list -/

theorem goesBefore_refl (exitAt : Ptr → UInt64) (used : Ptr → Nat) (p : Ptr) : GoesBefore exitAt used p p :=
  ⟨fun h => ⟨h, UInt64.le_refl _⟩, fun _ _ => le_rfl⟩

/-- What an eviction removes is the tail. -/
theorem eq_getLast_of_evicted {c : ProcCache} {victim : Ptr} (hv : victim ∈ c.lru)
    (hgone : victim ∉ c.evictOneLocked.lru) : c.lru.getLast? = some victim := by
  unfold evictOneLocked at hgone
  cases hl : c.lru.getLast? with
  | none =>
    rw [hl] at hgone
    exact absurd hv hgone
  | some last =>
    rw [hl] at hgone
    by_contra hne
    exact hgone ((List.mem_erase_of_ne fun h => hne (congrArg some h.symm)).2 hv)

theorem InOrder.evictsOldest (h : d.InOrder) : d.EvictsOldest := by
  intro victim hv hgone
  -- the victim lies behind all others
  obtain ⟨front, hfront⟩ := List.getLast?_eq_some_iff.1 (eq_getLast_of_evicted hv hgone)
  have hlast : ∀ p ∈ d.cache.lru, GoesBefore d.cache.exitAt d.used victim p := by
    intro p hp
    rw [InOrder, hfront, List.pairwise_append] at h
    rw [hfront, List.mem_append, List.mem_singleton] at hp
    rcases hp with hp | rfl
    · exact h.2.2 p hp victim (List.mem_singleton_self victim)
    · exact goesBefore_refl d.cache.exitAt d.used p
  constructor
  · exact fun p hp hexit => (hlast p hp).1 hexit
  · exact fun halive p hp => (hlast p hp).2 (halive p hp) (halive victim hv)

/-! ## What is left in place -/

/-- The entries still on the list are as they were, and in the order in which they were. -/
structure Thinned (c' c : ProcCache) : Prop where
  sublist : c'.lru.Sublist c.lru
  exitAt : ∀ p ∈ c'.lru, c'.exitAt p = c.exitAt p

theorem thinned_refl (c : ProcCache) : Thinned c c := ⟨List.Sublist.refl _, fun _ _ => rfl⟩

theorem Thinned.trans {a b c : ProcCache} (h : Thinned a b) (h' : Thinned b c) : Thinned a c :=
  ⟨h.sublist.trans h'.sublist, fun p hp => (h.exitAt p hp).trans (h'.exitAt p (h.sublist.subset hp))⟩

theorem thinned_drop {c : ProcCache} (h : c.lru.Nodup) (p : Ptr) : Thinned (c.drop p) c := by
  refine ⟨List.erase_sublist, fun q hq => ?_⟩
  have hne : q ≠ p := (h.mem_erase_iff.1 hq).1
  show ((Function.update c.mem p none q).map _).getD 0 = _
  rw [Function.update_of_ne hne]
  rfl

theorem thinned_makeRoom {c : ProcCache} (h : c.Linked) (pid : UInt32) : Thinned (c.makeRoom pid) c := by
  have hdrop : ∀ {c : ProcCache}, c.Linked → ∀ p, Thinned (c.drop p) c := fun h p =>
    thinned_drop (h.same.nodup_iff.2 h.nodup) p
  have hpid : Thinned (c.dropPid pid) c := by
    unfold dropPid
    split
    · exact hdrop h _
    · exact thinned_refl c
  unfold makeRoom
  split
  · refine Thinned.trans ?_ hpid
    unfold evictOneLocked
    split
    · exact thinned_refl _
    · exact hdrop (h.dropPid pid) _
  · exact hpid

theorem thinned_gcLoop {nowNs : UInt64} (ps : List Ptr) (reaped : Nat) {c : ProcCache} (h : c.lru.Nodup) :
    Thinned (gcLoop nowNs ps reaped c).1 c := by
  induction ps generalizing reaped c with
  | nil => exact thinned_refl c
  | cons p ps ih =>
    have hdrop := thinned_drop h p
    unfold gcLoop
    split
    · exact ih reaped h
    split
    · exact ih reaped h
    split
    · split
      · exact hdrop
      · exact (ih (reaped + 1) (h.erase p)).trans hdrop
    · exact ih reaped h

/-- An order depends on the exit times and uses of its entries alone. -/
theorem pairwise_congr {l : List Ptr} {exitAt exitAt' : Ptr → UInt64} {used used' : Ptr → Nat}
    (hexit : ∀ p ∈ l, exitAt' p = exitAt p) (hused : ∀ p ∈ l, used' p = used p) :
    (l.Pairwise fun q p => GoesBefore exitAt' used' p q) ↔ l.Pairwise fun q p => GoesBefore exitAt used p q := by
  refine List.Pairwise.iff_of_mem fun {q p} hq hp => ?_
  unfold GoesBefore
  rw [hexit q hq, hexit p hp, hused q hq, hused p hp]

theorem InOrder.thinned (h : d.InOrder) {c : ProcCache} (ht : Thinned c d.cache) :
    c.lru.Pairwise fun q p => GoesBefore c.exitAt d.used p q :=
  (pairwise_congr ht.exitAt fun _ _ => rfl).2 (h.sublist ht.sublist)

/-! ## One section -/

section Steps

variable {t : Task} {exeBuf cmdBuf : CStr} {pid : UInt32} {nowNs : UInt64} {p : Ptr}

theorem step_exec_none (hf : d.cache.findLocked t.pid = none) :
    d.step (.exec t exeBuf cmdBuf) = { d with now := d.now + 1 } := by
  simp only [Dated.step, ProcCache.step, onExecLocked, usedAfter, hf]

theorem step_exec_some (hf : d.cache.findLocked t.pid = some p) :
    d.step (.exec t exeBuf cmdBuf) =
      ⟨(d.cache.modify p (·.exec t exeBuf cmdBuf)).moveHead p, d.now + 1, Function.update d.used p (d.now + 1)⟩ := by
  simp only [Dated.step, ProcCache.step, onExecLocked, usedAfter, hf]

theorem step_exit_none (hf : d.cache.findLocked pid = none) :
    d.step (.exit pid nowNs) = { d with now := d.now + 1 } := by
  simp only [Dated.step, ProcCache.step, onExitLocked, usedAfter, hf]

theorem step_exit_some (hf : d.cache.findLocked pid = some p) :
    d.step (.exit pid nowNs) =
      ⟨(d.cache.modify p ({ · with exitTimeNs := nowNs })).moveTail p, d.now + 1, d.used⟩ := by
  simp only [Dated.step, ProcCache.step, onExitLocked, usedAfter, hf]

theorem step_preload_inserted (hroom : d.cache.count < igPcMaxEntries) (hf : d.cache.findLocked t.pid = none) :
    d.step (.preload t true) = ⟨d.cache.insert t.entry, d.now + 1, Function.update d.used d.cache.next 0⟩ := by
  have hpid : d.cache.findLocked t.entry.pid = none := hf
  simp only [Dated.step, ProcCache.step, preloadLocked, usedAfter, hpid, if_true, if_neg (not_le.2 hroom)]

/-- A full cache, a pid that it has or a failed allocation leave it as it is. -/
theorem step_preload_refused {allocated : Bool}
    (h : ¬ (allocated = true ∧ d.cache.count < igPcMaxEntries ∧ d.cache.findLocked t.pid = none)) :
    d.step (.preload t allocated) = ⟨d.cache, d.now + 1, Function.update d.used d.cache.next 0⟩ := by
  have hsame : d.cache.step (.preload t allocated) = d.cache := by
    show (if allocated then preloadLocked d.cache t.entry else d.cache) = d.cache
    unfold preloadLocked
    split
    · next ha =>
      split
      · rfl
      next hroom =>
      cases hf : d.cache.findLocked t.entry.pid with
      | none => exact absurd ⟨ha, not_le.1 hroom, hf⟩ h
      | some old => rfl
    · rfl
  simp only [Dated.step, hsame, usedAfter]

end Steps

/-- The cache is consistent, and nothing was used later than now. -/
structure Sound (d : Dated) : Prop where
  consistent : d.cache.Consistent
  used : ∀ p, d.used p ≤ d.now

theorem Sound.nodup (h : d.Sound) : d.cache.lru.Nodup :=
  h.consistent.linked.same.nodup_iff.2 h.consistent.linked.nodup

/-- No entry lies at the next address. -/
theorem Sound.ne_next (h : d.Sound) : ∀ q ∈ d.cache.lru, q ≠ d.cache.next := by
  rintro q hq rfl
  exact h.consistent.next_not_mem (h.consistent.linked.mem_lru.1 hq)

theorem sound_init : init.Sound := ⟨consistent_empty, fun _ => le_rfl⟩

theorem update_used_le {used : Ptr → Nat} {n m : Nat} (h : ∀ p, used p ≤ n) (hm : m ≤ n + 1) (p q : Ptr) :
    Function.update used p m q ≤ n + 1 := by
  rw [Function.update_apply]
  split
  · exact hm
  · exact (h q).trans (Nat.le_succ n)

theorem Sound.step (h : d.Sound) (op : CacheOp) : (d.step op).Sound := by
  refine ⟨h.consistent.step op, fun p => ?_⟩
  show d.usedAfter op p ≤ d.now + 1
  have hold := (h.used p).trans (Nat.le_succ d.now)
  cases op with
  | fork child outcome =>
    cases outcome with
    | inserted => exact update_used_le h.used le_rfl _ p
    | throttled => exact hold
    | noMemory => exact hold
  | exec t exeBuf cmdBuf =>
    cases hf : d.cache.findLocked t.pid with
    | none =>
      simp only [usedAfter, hf]
      exact hold
    | some q =>
      simp only [usedAfter, hf]
      exact update_used_le h.used le_rfl q p
  | exit pid nowNs => exact hold
  | preload t allocated => exact update_used_le h.used (Nat.zero_le _) _ p
  | collectChain startPid maxDepth => exact hold
  | gc nowNs => exact hold

/-- The entries behind a new head keep their order if it goes after all of them, and only then. -/
theorem inOrder_cons_iff {l : List Ptr} {p : Ptr} {exitAt exitAt' : Ptr → UInt64} {used used' : Ptr → Nat}
    (hexit : ∀ q ∈ l, exitAt' q = exitAt q) (hused : ∀ q ∈ l, used' q = used q)
    (hl : l.Pairwise fun q p => GoesBefore exitAt used p q) :
    ((p :: l).Pairwise fun q p => GoesBefore exitAt' used' p q) ↔ ∀ q ∈ l, GoesBefore exitAt' used' q p := by
  rw [List.pairwise_cons, pairwise_congr hexit hused]
  exact and_iff_left hl

theorem exitAt_insert (c : ProcCache) (e : PcEntry) (p : Ptr) :
    (c.insert e).exitAt p = if p = c.next then e.exitTimeNs else c.exitAt p := by
  simp only [ProcCache.exitAt, ProcCache.insert, Function.update_apply]
  split <;> rfl

/-- A change of one entry leaves the exit times of the others. -/
theorem Sound.exitAt_modify (h : d.Sound) (p : Ptr) (f : PcEntry → PcEntry) :
    ∀ q ∈ d.cache.lru.erase p, (d.cache.modify p f).exitAt q = d.cache.exitAt q := by
  intro q hq
  have hne : q ≠ p := (h.nodup.mem_erase_iff.1 hq).1
  simp only [ProcCache.exitAt, ProcCache.modify, Function.update_of_ne hne]

/-- A live entry that is used now goes after every other. -/
theorem goesBefore_used {exitAt : Ptr → UInt64} {used : Ptr → Nat} {p q : Ptr} (hp : exitAt p = 0)
    (hq : used q ≤ used p) : GoesBefore exitAt used q p :=
  ⟨fun h => absurd hp h, fun _ _ => hq⟩

theorem InOrder.fork (h : d.InOrder) (hs : d.Sound) (child : Task) : (d.step (.fork child .inserted)).InOrder := by
  have hthin := thinned_makeRoom hs.consistent.linked child.pid
  have hne : ∀ q ∈ (d.cache.makeRoom child.pid).lru, q ≠ d.cache.next := fun q hq =>
    hs.ne_next q (hthin.sublist.subset hq)
  show ((d.cache.makeRoom child.pid).next :: (d.cache.makeRoom child.pid).lru).Pairwise _
  have hexit : ∀ q ∈ (d.cache.makeRoom child.pid).lru, ((d.cache.makeRoom child.pid).insert child.entry).exitAt q =
      (d.cache.makeRoom child.pid).exitAt q := by
    intro q hq
    rw [exitAt_insert, makeRoom_next, if_neg (hne q hq)]
  have hused : ∀ q ∈ (d.cache.makeRoom child.pid).lru,
      Function.update d.used d.cache.next (d.now + 1) q = d.used q := fun q hq => Function.update_of_ne (hne q hq) ..
  refine (inOrder_cons_iff hexit hused (h.thinned hthin)).2 fun q hq => goesBefore_used ?_ ?_
  · rw [exitAt_insert, if_pos rfl]
    rfl
  · rw [hused q hq, makeRoom_next, Function.update_self]
    exact (hs.used q).trans (Nat.le_succ d.now)

/-- The list without one of its entries. -/
theorem InOrder.erase (h : d.InOrder) (p : Ptr) :
    (d.cache.lru.erase p).Pairwise fun q p => GoesBefore d.cache.exitAt d.used p q :=
  h.sublist List.erase_sublist

theorem inOrder_exec_iff (h : d.InOrder) (hs : d.Sound) (t : Task) (exeBuf cmdBuf : CStr) :
    (d.step (.exec t exeBuf cmdBuf)).InOrder ↔ d.OpOk (.exec t exeBuf cmdBuf) := by
  cases hf : d.cache.findLocked t.pid with
  | none =>
    rw [step_exec_none hf]
    exact iff_of_true h (by simp [OpOk, hf])
  | some p =>
    have hnodup := hs.nodup
    obtain ⟨e, he, -⟩ := findLocked_some hf
    have hexitp : (d.cache.modify p (·.exec t exeBuf cmdBuf)).exitAt p = d.cache.exitAt p := by
      simp [ProcCache.exitAt, ProcCache.modify, (entry_eq_some.1 he).2, PcEntry.exec]
    have hexit := hs.exitAt_modify p (·.exec t exeBuf cmdBuf)
    have hused : ∀ q ∈ d.cache.lru.erase p, Function.update d.used p (d.now + 1) q = d.used q := fun q hq =>
      Function.update_of_ne (hnodup.mem_erase_iff.1 hq).1 ..
    rw [step_exec_some hf]
    -- the entry is put before all others, so each of them has to go before it
    refine (inOrder_cons_iff hexit hused (h.erase p)).trans ?_
    simp only [OpOk, hf, Option.mem_def, Option.some.injEq, forall_eq']
    constructor
    · intro hbefore hp q hq hne
      have hq' : q ∈ d.cache.lru.erase p := hnodup.mem_erase_iff.2 ⟨hne, hq⟩
      have hgo := (hbefore q hq').1
      rw [hexitp, hexit q hq'] at hgo
      exact hgo hp
    · intro hok q hq'
      obtain ⟨hne, hq⟩ := hnodup.mem_erase_iff.1 hq'
      unfold GoesBefore
      rw [hexitp, hexit q hq', hused q hq', Function.update_self]
      exact ⟨fun hp => hok hp q hq hne, fun _ _ => (hs.used q).trans (Nat.le_succ d.now)⟩

theorem inOrder_exit_iff (h : d.InOrder) (hs : d.Sound) (pid : UInt32) (nowNs : UInt64) :
    (d.step (.exit pid nowNs)).InOrder ↔ d.OpOk (.exit pid nowNs) := by
  cases hf : d.cache.findLocked pid with
  | none =>
    rw [step_exit_none hf]
    exact iff_of_true h (by simp [OpOk, hf])
  | some p =>
    have hnodup := hs.nodup
    obtain ⟨e, he, -⟩ := findLocked_some hf
    have hexitp : (d.cache.modify p ({ · with exitTimeNs := nowNs })).exitAt p = nowNs := by
      simp [ProcCache.exitAt, ProcCache.modify, (entry_eq_some.1 he).2]
    have hexit := hs.exitAt_modify p ({ · with exitTimeNs := nowNs })
    -- the entry is put behind all others, so it has to go before each of them
    have hgo : ∀ q ∈ d.cache.lru.erase p,
        (GoesBefore (d.cache.modify p ({ · with exitTimeNs := nowNs })).exitAt d.used p q ↔
          (d.cache.exitAt q ≠ 0 → nowNs ≠ 0 ∧ nowNs ≤ d.cache.exitAt q) ∧
            (d.cache.exitAt q = 0 → nowNs = 0 → d.used p ≤ d.used q)) := by
      intro q hq
      unfold GoesBefore
      rw [hexitp, hexit q hq]
    rw [step_exit_some hf]
    show (d.cache.lru.erase p ++ [p]).Pairwise _ ↔ _
    rw [List.pairwise_append]
    simp only [OpOk, hf, Option.mem_def, Option.some.injEq, forall_eq', List.mem_singleton, forall_eq]
    constructor
    · rintro ⟨-, -, hbefore⟩ q hq hne
      have hq' : q ∈ d.cache.lru.erase p := hnodup.mem_erase_iff.2 ⟨hne, hq⟩
      exact (hgo q hq').1 (hbefore q hq')
    · intro hok
      refine ⟨(pairwise_congr hexit fun _ _ => rfl).2 (h.erase p), List.pairwise_singleton .., fun q hq' => ?_⟩
      obtain ⟨hne, hq⟩ := hnodup.mem_erase_iff.1 hq'
      exact (hgo q hq').2 (hok q hq hne)

/-- The preload adds an entry for a process that no section has used so far. -/
theorem inOrder_preload_iff (h : d.InOrder) (hs : d.Sound) (t : Task) (allocated : Bool) :
    (d.step (.preload t allocated)).InOrder ↔ d.OpOk (.preload t allocated) := by
  have hused : ∀ q ∈ d.cache.lru, Function.update d.used d.cache.next 0 q = d.used q := fun q hq =>
    Function.update_of_ne (hs.ne_next q hq) ..
  by_cases hadds : allocated = true ∧ d.cache.count < igPcMaxEntries ∧ d.cache.findLocked t.pid = none
  · obtain ⟨rfl, hroom, hf⟩ := hadds
    have hexit : ∀ q ∈ d.cache.lru, (d.cache.insert t.entry).exitAt q = d.cache.exitAt q := fun q hq => by
      rw [exitAt_insert, if_neg (hs.ne_next q hq)]
    have hexitp : (d.cache.insert t.entry).exitAt d.cache.next = 0 := by
      rw [exitAt_insert, if_pos rfl]
      rfl
    rw [step_preload_inserted hroom hf]
    refine (inOrder_cons_iff hexit hused h).trans ?_
    simp only [OpOk, hroom, hf, true_implies]
    -- the new entry counts as never used: a live one must not have been used either
    refine forall₂_congr fun q hq => ?_
    unfold GoesBefore
    rw [hexitp, hexit q hq, hused q hq, Function.update_self, Nat.le_zero]
    simp
  · rw [step_preload_refused hadds]
    refine iff_of_true ?_ fun ha hroom hf => absurd ⟨ha, hroom, hf⟩ hadds
    exact (pairwise_congr (fun _ _ => rfl) hused).2 h

theorem inOrder_step_iff (hs : d.Sound) (h : d.InOrder) (op : CacheOp) : (d.step op).InOrder ↔ d.OpOk op := by
  cases op with
  | fork child outcome =>
    cases outcome with
    | inserted => exact iff_true_intro (h.fork hs child)
    | throttled => exact iff_true_intro h
    | noMemory => exact iff_true_intro h
  | exec t exeBuf cmdBuf => exact inOrder_exec_iff h hs t exeBuf cmdBuf
  | exit pid nowNs => exact inOrder_exit_iff h hs pid nowNs
  | preload t allocated => exact inOrder_preload_iff h hs t allocated
  | collectChain startPid maxDepth => exact iff_true_intro h
  | gc nowNs => exact iff_true_intro (h.thinned (thinned_gcLoop _ _ hs.nodup))

/-! ## Runs -/

/-- In a run whose sections meet their condition every eviction, in every state, removes the oldest candidate; and
these are the runs along which the whole list is in the order in which its entries should go. -/
theorem evictsOldest_run (ops : List CacheOp) :
    (AllSteps Dated.step OpOk init ops → ∀ pre, pre <+: ops → (run pre).EvictsOldest) ∧
      ((∀ pre, pre <+: ops → (run pre).InOrder) ↔ AllSteps Dated.step OpOk init ops) := by
  have horder : (∀ pre, pre <+: ops → (run pre).InOrder) ↔ AllSteps Dated.step OpOk init ops :=
    forall_prefix_iff (I := Sound) (P := InOrder) (fun d op hs => Sound.step hs op)
      (fun d op hs h => inOrder_step_iff hs h op) sound_init List.Pairwise.nil
  exact ⟨fun hok pre hpre => (horder.2 hok pre hpre).evictsOldest, horder⟩

/-- Process 7 exits, and then process 8. -/
def twoExits : List CacheOp :=
  [.fork (task 7 1 1000) .inserted, .fork (task 8 1 2000) .inserted, .exit 7 1000000000000, .exit 8 2000000000000]

/-- The tombstone of process 8 is the one to be evicted. -/
theorem evictsOldest_twoExits_fails : ¬ ∀ pre, pre <+: twoExits → (run pre).EvictsOldest := by
  intro h
  exact absurd (h twoExits (List.prefix_refl _)) (by decide)

end Dated

end KnIg.Lkm
