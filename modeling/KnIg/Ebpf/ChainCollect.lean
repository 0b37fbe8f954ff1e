/-
The ancestry that the agent puts together from the process map of the eBPF programs. An entry of the map stands under
its own pid, whatever was forked, executed and exited before; a process that is not in the map is looked up in `/proc`.
-/
import KnIg.Agent.Ancestry
import KnIg.Ebpf.ProcMap
import KnIg.Lkm.EventPath

namespace KnIg.Ebpf

open Lib KnIg.Agent

/-! ## The table -/

/-- The entries of a map stand under their own pids. -/
def KeyedByPid (m : ProcMap) : Prop := ∀ k e, m k = some e → e.pid = k

structure ProcTable where
  map : ProcMap
  keyed : KeyedByPid map

theorem keyedByPid_update {m : ProcMap} (h : KeyedByPid m) {k : UInt32} {e : IgProcEntry} (he : e.pid = k) :
    KeyedByPid (Function.update m k (some e)) := by
  intro k' e' hk'
  rw [Function.update_apply] at hk'
  split at hk'
  · rename_i hk
    cases hk'
    rw [hk, he]
  · exact h k' e' hk'

theorem keyedByPid_step {s : Traced} (h : KeyedByPid s.procMap) (a : TraceAct) : KeyedByPid (s.step a).procMap := by
  cases a with
  | fork child =>
    unfold Traced.step
    dsimp only
    split
    · exact keyedByPid_update h rfl
    · exact h
  | exec tid comm mm =>
    unfold Traced.step
    dsimp only
    split
    · exact h
    split
    · rename_i t _ _
      refine keyedByPid_update h ?_
      cases he : s.procMap t.tgid with
      | none => rfl
      | some e => exact h _ e he
    · exact h
  | exit tid =>
    unfold Traced.step
    dsimp only
    split
    · exact h
    · intro k e hk
      unfold Traced.exit onSchedExit at hk
      dsimp only at hk
      rw [Function.update_apply] at hk
      split at hk
      · cases hk
      · exact h k e hk

theorem keyedByPid_run (threads : List Thread) (acts : List TraceAct) :
    KeyedByPid (runTraced threads acts).procMap := by
  have hattach : KeyedByPid (Traced.attach threads).procMap := by
    intro k e hk
    cases hk
  exact List.foldlRecOn (motive := fun s : Traced => KeyedByPid s.procMap) acts Traced.step hattach
    fun _ hs a _ => keyedByPid_step hs a

/-- The map that a run of the programs leaves. -/
def ProcTable.ofRun (threads : List Thread) (acts : List TraceAct) : ProcTable where
  map := (runTraced threads acts).procMap
  keyed := keyedByPid_run threads acts

/-! ## The walk -/

/-- The entry filled in from the map. -/
def entryInfo (e : IgProcEntry) : ProcInfo :=
  { ProcInfo.zero with
    pid := e.pid.toInt32
    ppid := e.ppid.toInt32
    uid := e.uid
    euid := e.euid
    sid := e.sid.toInt32
    startTimeNs := e.startTimeNs
    comm := CharArr.copy 16 e.comm
    tty := CharArr.copy 32 e.tty
    cmdline := CharArr.copy 512 e.cmdline }

/-- What `ig_pa_enrich_entry` reads of a process. -/
def procFs (proc : Int32 → ProcFiles) : Lkm.ProcFs where
  exe pid := (parseExe (proc pid).exe ProcInfo.zero).exe
  cmdline pid := (parseCmdline (proc pid).cmdline ProcInfo.zero).cmdline

/-- One entry: from the map, or from what `/proc` has of the process. -/
def loadEntry (boot : BootMeta) (procMap : Option ProcTable) (proc : Nat → Int32 → ProcFiles) (cur : Int32) :
    ProcInfo × Bool :=
  match procMap.bind fun table => table.map cur.toUInt32 with
  | some e => (Lkm.igPaEnrichEntry (procFs (proc 0)) (entryInfo e), true)
  | none =>
    let tmp := igPaResolve boot proc cur
    if tmp.depth > 0 then (tmp.chain ⟨0, igPaMaxDepth_pos⟩, true) else (ProcInfo.zero, false)

/-- `ig_ebpf_chain_collect`, with the map, if there is one, and `/proc` as they are when entry `i` is filled in. -/
def igEbpfChainCollect (boot : BootMeta) (procMap : Option (Nat → ProcTable)) (proc : Nat → Nat → Int32 → ProcFiles)
    (startPid : Int32) : PidChain :=
  if startPid ≤ 0 then .zero
  else chainLoop (fun i cur => loadEntry boot (procMap.map (· i)) (proc i) cur) igPaMaxDepth 0 startPid .zero

theorem igPaEnrichEntry_pid (proc : Lkm.ProcFs) (info : ProcInfo) : (Lkm.igPaEnrichEntry proc info).pid = info.pid := by
  unfold Lkm.igPaEnrichEntry
  split <;> rfl

theorem loadEntry_pid {boot : BootMeta} {procMap : Option ProcTable} {proc : Nat → Int32 → ProcFiles} {cur : Int32}
    (h : (loadEntry boot procMap proc cur).2 = true) : (loadEntry boot procMap proc cur).1.pid = cur := by
  unfold loadEntry at h ⊢
  split at h
  · rename_i e he
    obtain ⟨table, -, hmap⟩ := Option.bind_eq_some_iff.1 he
    have hpid : e.pid = cur.toUInt32 := table.keyed _ _ hmap
    rw [igPaEnrichEntry_pid]
    show e.pid.toInt32 = cur
    rw [hpid]
    exact Int32.toInt32_toUInt32 cur
  · dsimp only at h ⊢
    split at h
    · rename_i hpos
      rw [if_pos hpos]
      exact (igPaResolve_lawful boot proc cur).pid_eq hpos
    · cases h

/-- `ig_ebpf_chain_collect` keeps to the law, whatever the map and `/proc` have at each step. -/
theorem igEbpfChainCollect_lawful (boot : BootMeta) (procMap : Option (Nat → ProcTable))
    (proc : Nat → Nat → Int32 → ProcFiles) (startPid : Int32) :
    (igEbpfChainCollect boot procMap proc startPid).Lawful startPid := by
  unfold igEbpfChainCollect
  split
  · exact PidChain.lawful_zero startPid
  · exact chainLoop_lawful (fun _ _ => loadEntry_pid) startPid

end KnIg.Ebpf
