/-
The three walks up a process's ancestry, over the cache of the kernel module, over the eBPF programs' map and over
`/proc`, keep to one law. They are written separately; each stops at a process it has no entry for, at one whose parent
is init, the kernel or itself, or when there is no room left, and says so in the same way.
-/
import KnIg.Ebpf.ChainCollect
import KnIg.Lkm.Chain

namespace KnIg.Lkm

open Lib KnIg.Agent

/-- The entries of a chain, each as its pid and its parent's. -/
def chainLinks (chain : List IgLkmChainEntry) : List (Int × Int) :=
  chain.map fun e => ((e.pid.toNat : Int), (e.ppid.toNat : Int))

theorem ProcCache.lookup_pid {c : ProcCache} {pid : UInt32} {x : Ptr × PcEntry} (h : c.lookup pid = some x) :
    x.2.pid = pid := by
  unfold ProcCache.lookup at h
  obtain ⟨p, hp, hx⟩ := Option.bind_eq_some_iff.1 h
  obtain ⟨e, he, hpid⟩ := ProcCache.findLocked_some hp
  rw [(ProcCache.entry_eq_some.1 he).2] at hx
  cases hx
  exact hpid

theorem ProcCache.nextPid_eq_none {cur : UInt32} {x : Ptr × PcEntry} :
    ProcCache.nextPid cur x = none ↔ x.2.ppid ≤ 1 ∨ x.2.ppid = cur := by
  unfold ProcCache.nextPid
  split
  · rename_i h
    simp [h]
  · rename_i h
    simp [h]

/-- The chain from the module's cache keeps to the law, with no room where the length is negative. -/
theorem igProcCacheCollectChain_lawful (c : ProcCache) (startPid : UInt32) (out : Bool) (maxDepth : Int) :
    let r := igProcCacheCollectChain c startPid out maxDepth
    AncestryLaw startPid.toNat (max maxDepth 0) r.1.length (chainLinks r.1) r.2 := by
  unfold igProcCacheCollectChain
  split
  · exact ⟨rfl, le_max_right _ _, nofun, List.isChain_nil, nofun⟩
  · rename_i hroom
    have hpos : 0 < maxDepth := by
      by_contra hle
      exact hroom (by simp [not_lt.1 hle])
    have hle : (c.walk startPid maxDepth.toNat).1.length ≤ maxDepth.toNat := length_follow_le _ _
    have hlinks : chainLinks ((c.walk startPid maxDepth.toNat).1.map (·.2.chainEntry)) =
        (c.walk startPid maxDepth.toNat).1.map fun x => ((x.2.pid.toNat : Int), (x.2.ppid.toNat : Int)) := by
      unfold chainLinks
      rw [List.map_map]
      rfl
    dsimp only
    rw [hlinks, List.length_map]
    constructor
    · rw [List.length_map]
    · omega
    · intro l hl
      rw [List.head?_map] at hl
      obtain ⟨x, hx, rfl⟩ := Option.mem_map.1 hl
      rw [ProcCache.lookup_pid (find_of_mem_head? hx)]
    · rw [List.isChain_map]
      refine isChain_follow (R := fun x y : Ptr × PcEntry => (y.2.pid.toNat : Int) = x.2.ppid.toNat) ?_ _ _
      intro k x k' y hx hl hy
      unfold ProcCache.nextPid at hl
      split at hl
      · cases hl
      · cases hl
        rw [ProcCache.lookup_pid hy]
    · intro l hl
      rw [List.getLast?_map] at hl
      obtain ⟨x, hx, rfl⟩ := Option.mem_map.1 hl
      have hends : ∀ k x, c.lookup k = some x → (ProcCache.nextPid k x = none ↔
          (x.2.ppid.toNat : Int) ≤ 1 ∨ (x.2.ppid.toNat : Int) = x.2.pid.toNat) := by
        intro k x hk
        rw [ProcCache.lookup_pid hk, ProcCache.nextPid_eq_none, UInt32.le_iff_toNat_le, ← UInt32.toNat_inj]
        norm_cast
      exact follow_complete_iff hends _ _ hx

end KnIg.Lkm

namespace KnIg.Link

open Agent Lkm Ebpf

/-- Every walk keeps to the law: for every content of the module's cache, and whatever the programs' map and `/proc`
have at each step. -/
theorem ancestry_lawful :
    (∀ (c : ProcCache) (startPid : UInt32) (out : Bool) (maxDepth : Int),
      let r := igProcCacheCollectChain c startPid out maxDepth
      AncestryLaw startPid.toNat (max maxDepth 0) r.1.length (chainLinks r.1) r.2) ∧
    (∀ (boot : BootMeta) (proc : Nat → Int32 → ProcFiles) (pid : Int32), (igPaResolve boot proc pid).Lawful pid) ∧
    ∀ (boot : BootMeta) (procMap : Option (Nat → ProcTable)) (proc : Nat → Nat → Int32 → ProcFiles) (startPid : Int32),
      (igEbpfChainCollect boot procMap proc startPid).Lawful startPid :=
  ⟨igProcCacheCollectChain_lawful, igPaResolve_lawful, igEbpfChainCollect_lawful⟩

/-- A negative length is no bound: the chain is empty. -/
theorem ancestry_negative_fails :
    let r := igProcCacheCollectChain ProcCache.empty 7 true (-1)
    ¬ AncestryLaw 7 (-1) r.1.length (chainLinks r.1) r.2 := by
  intro r h
  have hdepth := h.depth
  revert hdepth
  decide

end KnIg.Link
