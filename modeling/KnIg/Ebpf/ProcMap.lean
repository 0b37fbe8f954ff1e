/-
The process map of the eBPF programs. Its key is the thread group, and the programs run for every thread:
the creation of a thread writes the group's entry anew, without the command line, and the exit of any thread
deletes it. The theorem says which creations, execs and exits a run may have for the map to hold the command
line of every process that still has a thread.
-/
import KnIg.Lib.Bytes
import KnIg.Lib.Run
import Mathlib.Logic.Function.Basic

namespace KnIg.Ebpf

open Lib

/-! ## The programs -/

/-- The size of `cmdline` in `struct ig_proc_entry`. -/
def igProcCmdlineLen : Nat := 160

structure IgProcEntry where
  pid : UInt32
  ppid : UInt32
  uid : UInt32
  euid : UInt32
  sid : UInt32
  comm : CStr
  tty : CStr
  startTimeNs : UInt64
  cmdline : CStr

/-- What `task->signal` has: the session and the name of the terminal. -/
structure Signal where
  sid : UInt32
  tty : Option CStr
deriving DecidableEq

/-- What the programs read of a task. -/
structure Thread where
  tid : UInt32
  tgid : UInt32
  realParent : Option UInt32
  uid : UInt32
  euid : UInt32
  signal : Option Signal
  startBoottime : UInt64
  comm : CStr
deriving DecidableEq

/-- The memory of a task: where its arguments lie, and the bytes that can be read. -/
structure Mm where
  argStart : UInt64
  argEnd : UInt64
  byte : Nat → Option UInt8

def noBytes : CStr := ⟨[], zero_notMem_nil⟩

def fillEntryFromTask (t : Thread) : IgProcEntry where
  pid := t.tgid
  ppid := t.realParent.getD 0
  uid := t.uid
  euid := t.euid
  sid := (t.signal.map (·.sid)).getD 0
  startTimeNs := t.startBoottime
  comm := t.comm.cut 15
  tty := ((t.signal.bind (·.tty)).getD noBytes).cut 15
  cmdline := noBytes

/-- `bpf_probe_read_user`: zeros where a byte cannot be read. -/
def bpfProbeReadUser (mm : Mm) (len addr : Nat) : Bytes :=
  ((List.range len).mapM fun i => mm.byte (addr + i)).getD (List.replicate len 0)

/-- The command line that `on_sched_exec` writes, if it comes to that. -/
def captureCmdline : Option Mm → Option CStr
  | none => none
  | some mm =>
    if mm.argEnd ≤ mm.argStart then none
    else
      let len := min (mm.argEnd - mm.argStart).toNat (igProcCmdlineLen - 1)
      some ⟨(bpfProbeReadUser mm len mm.argStart.toNat).map fun b => if b = 0 then 32 else b, by
        rw [List.mem_map]
        rintro ⟨b, -, hb⟩
        split at hb <;> simp_all⟩

/-- `proc_map`, by thread group, as long as nothing is evicted. -/
abbrev ProcMap := UInt32 → Option IgProcEntry

def onSchedFork (m : ProcMap) (child : Thread) : ProcMap :=
  Function.update m child.tgid (some (fillEntryFromTask child))

def onSchedExec (m : ProcMap) (t : Thread) (mm : Option Mm) : ProcMap :=
  let e := (m t.tgid).getD (fillEntryFromTask t)
  Function.update m t.tgid
    (some { e with comm := t.comm.cut 15, cmdline := (captureCmdline mm).getD e.cmdline })

def onSchedExit (m : ProcMap) (t : Thread) : ProcMap := Function.update m t.tgid none

/-! ## The system -/

/-- The threads, the map, which processes were forked or executed a program since the programs were attached, and
the command line captured at the last exec of each. -/
structure Traced where
  threads : List Thread
  procMap : ProcMap
  observed : UInt32 → Bool
  captured : UInt32 → CStr

/-- A fork starts a process when the child is its own group, and adds a thread to a group otherwise. -/
inductive TraceAct where
  | fork (child : Thread)
  | exec (tid : UInt32) (comm : CStr) (mm : Option Mm)
  | exit (tid : UInt32)

namespace Traced

/-- The programs are attached. -/
def attach (threads : List Thread) : Traced := ⟨threads, fun _ => none, fun _ => false, fun _ => noBytes⟩

def find (s : Traced) (tid : UInt32) : Option Thread := s.threads.find? (·.tid = tid)

/-- The child has a number of its own, and a group that runs unless it starts one. -/
def CanFork (s : Traced) (child : Thread) : Prop :=
  (∀ t ∈ s.threads, t.tid ≠ child.tid ∧ t.tgid ≠ child.tid) ∧
    (child.tgid ≠ child.tid → ∃ t ∈ s.threads, t.tgid = child.tgid)

instance (s : Traced) (child : Thread) : Decidable (s.CanFork child) := inferInstanceAs (Decidable (_ ∧ (_ → _)))

/-- The other threads of the group have exited. -/
def Alone (s : Traced) (t : Thread) : Prop := ∀ u ∈ s.threads, u.tgid = t.tgid → u.tid = t.tid

instance (s : Traced) (t : Thread) : Decidable (s.Alone t) := inferInstanceAs (Decidable (∀ u ∈ s.threads, _))

def fork (s : Traced) (child : Thread) : Traced where
  threads := child :: s.threads
  procMap := onSchedFork s.procMap child
  observed := if child.tgid = child.tid then Function.update s.observed child.tgid true else s.observed
  captured := if child.tgid = child.tid then Function.update s.captured child.tgid noBytes else s.captured

/-- The thread that executes a program leads its group from then on. -/
def exec (s : Traced) (t : Thread) (comm : CStr) (mm : Option Mm) : Traced :=
  let t' := { t with tid := t.tgid, comm := comm }
  { threads := s.threads.map fun u => if u.tid = t.tid then t' else u
    procMap := onSchedExec s.procMap t' mm
    observed := Function.update s.observed t.tgid true
    captured := Function.update s.captured t.tgid ((captureCmdline mm).getD noBytes) }

def exit (s : Traced) (t : Thread) : Traced :=
  { s with threads := s.threads.filter (·.tid ≠ t.tid), procMap := onSchedExit s.procMap t }

def step (s : Traced) : TraceAct → Traced
  | .fork child => if s.CanFork child then s.fork child else s
  | .exec tid comm mm =>
    match s.find tid with
    | none => s
    | some t => if s.Alone t then s.exec t comm mm else s
  | .exit tid =>
    match s.find tid with
    | none => s
    | some t => s.exit t

end Traced

def runTraced (threads : List Thread) (acts : List TraceAct) : Traced :=
  acts.foldl Traced.step (Traced.attach threads)

/-- Every process that was seen and has a thread is in the map, with the command line of its last exec. -/
def Covered (s : Traced) : Prop :=
  ∀ t ∈ s.threads, s.observed t.tgid = true → ∃ e, s.procMap t.tgid = some e ∧ e.cmdline = s.captured t.tgid

/-! ## Which steps keep the map right -/

/-- No thread joins a process with a command line, no exec without arguments finds one, and no thread of a process
that was seen exits before the last one. -/
def TraceOk (s : Traced) : TraceAct → Prop
  | .fork child =>
    s.CanFork child → child.tgid ≠ child.tid → s.observed child.tgid = true → s.captured child.tgid = noBytes
  | .exec tid _ mm =>
    ∀ t ∈ s.find tid, s.Alone t → captureCmdline mm = none → ∀ e ∈ s.procMap t.tgid, e.cmdline = noBytes
  | .exit tid =>
    ∀ t ∈ s.find tid, ∀ u ∈ s.threads, u.tid ≠ t.tid → u.tgid = t.tgid → s.observed u.tgid = false

instance (s : Traced) : ∀ a : TraceAct, Decidable (TraceOk s a)
  | .fork _ => inferInstanceAs (Decidable (_ → _ → _ → _))
  | .exec tid _ mm =>
    inferInstanceAs (Decidable (∀ t ∈ s.find tid, s.Alone t → captureCmdline mm = none → ∀ e ∈ s.procMap t.tgid, _))
  | .exit tid => inferInstanceAs (Decidable (∀ t ∈ s.find tid, ∀ u ∈ s.threads, _ → _ → _))

variable {s : Traced}

/-- A process starts without a command line; the groups of the other threads are others. -/
theorem covered_fork_process (h : Covered s) {child : Thread} (hfree : s.CanFork child)
    (hnew : child.tgid = child.tid) : Covered (s.fork child) := by
  intro t ht hobs
  simp only [Traced.fork, onSchedFork, if_pos hnew, Function.update_apply] at hobs ⊢
  rcases List.mem_cons.1 ht with rfl | ht
  · exact ⟨_, if_pos rfl, by rw [if_pos rfl]; rfl⟩
  · have hne : t.tgid ≠ child.tgid := hnew ▸ (hfree.1 t ht).2
    rw [if_neg hne] at hobs ⊢
    rw [if_neg hne]
    exact h t ht hobs

/-- A thread's creation drops the command line of its process. -/
theorem covered_fork_thread_iff (h : Covered s) {child : Thread} (hnew : child.tgid ≠ child.tid) :
    Covered (s.fork child) ↔ (s.observed child.tgid = true → s.captured child.tgid = noBytes) := by
  have hobs' : (s.fork child).observed = s.observed := if_neg hnew
  have hcap' : (s.fork child).captured = s.captured := if_neg hnew
  constructor
  · intro hc hobs
    obtain ⟨e, he, hcmd⟩ := hc child List.mem_cons_self (hobs' ▸ hobs)
    have hnewEntry : (s.fork child).procMap child.tgid = some (fillEntryFromTask child) := Function.update_self ..
    rw [hnewEntry] at he
    cases he
    rw [hcap'] at hcmd
    exact hcmd.symm
  · intro hok t ht hobs
    rw [hobs'] at hobs
    rw [hcap']
    by_cases hg : t.tgid = child.tgid
    · rw [hg] at hobs ⊢
      exact ⟨_, Function.update_self .., (hok hobs).symm⟩
    · rcases List.mem_cons.1 ht with rfl | ht
      · exact absurd rfl hg
      · obtain ⟨e, he, hcmd⟩ := h t ht hobs
        exact ⟨e, (Function.update_of_ne hg ..).trans he, hcmd⟩

theorem covered_exec_iff (h : Covered s) {t : Thread} (ht : t ∈ s.threads) (halone : s.Alone t) (comm : CStr)
    (mm : Option Mm) :
    Covered (s.exec t comm mm) ↔ (captureCmdline mm = none → ∀ e ∈ s.procMap t.tgid, e.cmdline = noBytes) := by
  -- the command line in the entry, and the one that the exec captured
  have hentry : ∃ e, (s.exec t comm mm).procMap t.tgid = some e ∧
      e.cmdline = (captureCmdline mm).getD (((s.procMap t.tgid).map (·.cmdline)).getD noBytes) := by
    refine ⟨_, Function.update_self .., ?_⟩
    cases hm : s.procMap t.tgid <;> simp [fillEntryFromTask]
  have hcaptured : (s.exec t comm mm).captured t.tgid = (captureCmdline mm).getD noBytes := Function.update_self ..
  obtain ⟨e, he, hcmd⟩ := hentry
  have hgroup : (∃ e, (s.exec t comm mm).procMap t.tgid = some e ∧ e.cmdline = (s.exec t comm mm).captured t.tgid) ↔
      (captureCmdline mm = none → ∀ e ∈ s.procMap t.tgid, e.cmdline = noBytes) := by
    simp only [he, Option.some.injEq, exists_eq_left', hcmd, hcaptured]
    cases captureCmdline mm with
    | some c => simp
    | none => cases s.procMap t.tgid <;> simp
  rw [← hgroup]
  constructor
  · intro hc
    have hmem : { t with tid := t.tgid, comm := comm } ∈ (s.exec t comm mm).threads :=
      List.mem_map.2 ⟨t, ht, if_pos rfl⟩
    exact hc { t with tid := t.tgid, comm := comm } hmem (Function.update_self ..)
  · intro hok u hu hobs
    obtain ⟨v, hv, rfl⟩ := List.mem_map.1 hu
    by_cases htid : v.tid = t.tid
    · rw [if_pos htid]
      exact hok
    · rw [if_neg htid] at hobs ⊢
      have hg : v.tgid ≠ t.tgid := fun hg => htid (halone v hv hg)
      simp only [Traced.exec, onSchedExec, Function.update_of_ne hg] at hobs ⊢
      exact h v hv hobs

/-- An exit takes the entry away from the threads that are left. -/
theorem covered_exit_iff (h : Covered s) (t : Thread) :
    Covered (s.exit t) ↔ ∀ u ∈ s.threads, u.tid ≠ t.tid → u.tgid = t.tgid → s.observed u.tgid = false := by
  constructor
  · intro hc u hu htid hg
    by_contra hobs
    obtain ⟨e, he, -⟩ := hc u (List.mem_filter.2 ⟨hu, by simpa using htid⟩) (Bool.eq_true_of_not_eq_false hobs)
    rw [hg] at he
    have hgone : (s.exit t).procMap t.tgid = none := Function.update_self ..
    rw [hgone] at he
    cases he
  · intro hok u hu hobs
    obtain ⟨hu, htid⟩ := List.mem_filter.1 hu
    have hg : u.tgid ≠ t.tgid := by
      intro hg
      have hunseen : (s.exit t).observed u.tgid = false := hok u hu (by simpa using htid) hg
      rw [hunseen] at hobs
      cases hobs
    obtain ⟨e, he, hcmd⟩ := h u hu hobs
    exact ⟨e, (Function.update_of_ne hg ..).trans he, hcmd⟩

/-- A step keeps the map right just when it meets its condition. -/
theorem covered_step_iff (h : Covered s) (a : TraceAct) : Covered (s.step a) ↔ TraceOk s a := by
  cases a with
  | fork child =>
    simp only [Traced.step, TraceOk]
    by_cases hcan : s.CanFork child
    · rw [if_pos hcan]
      by_cases hnew : child.tgid = child.tid
      · simp [hnew, covered_fork_process h hcan hnew]
      · simpa [hcan, hnew] using covered_fork_thread_iff h hnew
    · simp [hcan, h]
  | exec tid comm mm =>
    simp only [Traced.step, TraceOk]
    cases hf : s.find tid with
    | none => simp [h]
    | some t =>
      by_cases halone : s.Alone t
      · simpa [halone] using covered_exec_iff h (List.mem_of_find?_eq_some hf) halone comm mm
      · simp [halone, h]
  | exit tid =>
    simp only [Traced.step, TraceOk]
    cases hf : s.find tid with
    | none => simp [h]
    | some t => simpa using covered_exit_iff h t

/-! ## Runs -/

theorem covered_attach (threads : List Thread) : Covered (Traced.attach threads) := by
  intro t _ hobs
  cases hobs

/-- All along a run the map has every process that was seen and still has a thread, with the command line of its
last exec, exactly if no thread joins a process that has a command line, no exec without arguments finds one in
the map, and no thread of a process that was seen exits while others of it run. -/
theorem proc_map_covers_iff (threads : List Thread) (acts : List TraceAct) :
    (∀ pre, pre <+: acts → Covered (runTraced threads pre)) ↔
      AllSteps Traced.step TraceOk (Traced.attach threads) acts :=
  forall_prefix_iff (I := fun _ => True) (P := Covered) (fun _ _ _ => trivial)
    (fun _ a _ h => covered_step_iff h a) trivial (covered_attach threads)

/-- A thread of a group. -/
def thread (tid tgid : UInt32) : Thread := ⟨tid, tgid, some 1, 0, 0, none, 1000, ⟨ascii "sh", by decide⟩⟩

/-- A process whose arguments are `sh` and `-c`. -/
def shellMm : Mm := ⟨4096, 4102, fun a => (ascii "sh" ++ 0 :: ascii "-c" ++ [0])[a - 4096]?⟩

/-- Process 7 is forked and executes a program. -/
def execed : List TraceAct := [.fork (thread 7 7), .exec 7 ⟨ascii "sh", by decide⟩ (some shellMm)]

theorem proc_map_covers_execed : ∀ pre, pre <+: execed → Covered (runTraced [thread 1 1] pre) :=
  (proc_map_covers_iff [thread 1 1] execed).2 (by decide)

/-- A thread of process 7 is created and exits. -/
def joined : List TraceAct := execed ++ [.fork (thread 8 7), .exit 8]

/-- The process still runs and has no entry. -/
theorem proc_map_joined_fails : ¬ Covered (runTraced [thread 1 1] joined) := by
  intro h
  obtain ⟨e, he, -⟩ := h (thread 7 7) (by decide) (by decide)
  have hgone : ((runTraced [thread 1 1] joined).procMap 7).isNone := by decide
  rw [show (7 : UInt32) = (thread 7 7).tgid from rfl, he] at hgone
  cases hgone

end KnIg.Ebpf
