/-
The acting process of the module's events. An event names the thread group and the credentials of the task
that runs, and its chain starts with what the process cache has under the thread's own pid: the credentials
of the fork. The first entry of the chain describes the actor just when the task leads its group and its
credentials are still those in the cache.
-/
import KnIg.Lkm.Chain
import KnIg.Lkm.Policy

namespace KnIg.Lkm

open Lib

/-- `IG_LKM_CHAIN_MAX`. -/
def igLkmChainMax : Nat := 16

/-! ## Tasks -/

/-- A `task_struct` that may still run. -/
structure LiveTask where
  pid : UInt32
  tgid : UInt32
  realParent : UInt32
  uid : UInt32
  euid : UInt32
  sid : UInt32
  comm : CStr
  tty : CStr
  startNs : UInt64
deriving DecidableEq

namespace LiveTask

/-- What the callbacks read of the task. -/
def task (t : LiveTask) (parent : UInt32) : Task := ⟨t.pid, parent, t.uid, t.euid, t.sid, t.comm, t.tty, t.startNs⟩

/-- The process that the task forks, as its child or, with `CLONE_PARENT`, as its sibling. -/
def forked (t : LiveTask) (pid : UInt32) (cloneParent : Bool) (startNs : UInt64) : LiveTask :=
  { t with pid := pid, tgid := pid, realParent := if cloneParent then t.realParent else t.pid, startNs := startNs }

/-- The thread that the task creates. -/
def cloned (t : LiveTask) (pid : UInt32) (startNs : UInt64) : LiveTask := { t with pid := pid, startNs := startNs }

/-- The task after an exec: it leads its group. -/
def execed (t : LiveTask) (uid euid : UInt32) (comm : CStr) : LiveTask :=
  { t with pid := t.tgid, uid := uid, euid := euid, comm := comm }

end LiveTask

structure Machine where
  tasks : List LiveTask
  cache : ProcCache

/-- A fork and a thread's creation both fire `sched_process_fork`; a change of credentials fires nothing. -/
inductive TaskAct where
  | fork (creator pid : UInt32) (cloneParent : Bool) (startNs : UInt64) (outcome : ForkOutcome)
  | thread (creator pid : UInt32) (startNs : UInt64) (outcome : ForkOutcome)
  | setuid (pid uid euid : UInt32)
  | exec (pid uid euid : UInt32) (comm exeBuf cmdBuf : CStr)
  | exit (pid : UInt32) (nowNs : UInt64)
  | gc (nowNs : UInt64)

theorem initComm_noZero : 0 ∉ ascii "init" := by decide

namespace Machine

/-- The first task, before the module sees any other. -/
def boot : Machine := ⟨[⟨1, 1, 0, 0, 0, 1, ⟨ascii "init", initComm_noZero⟩, ⟨[], zero_notMem_nil⟩, 0⟩], ProcCache.empty⟩

def find (m : Machine) (pid : UInt32) : Option LiveTask := m.tasks.find? (·.pid = pid)

/-- No task and no group has the pid. -/
def Free (m : Machine) (pid : UInt32) : Prop := ∀ t ∈ m.tasks, t.pid ≠ pid ∧ t.tgid ≠ pid

instance (m : Machine) (pid : UInt32) : Decidable (m.Free pid) := inferInstanceAs (Decidable (∀ t ∈ m.tasks, _))

/-- The other threads of the task's group have exited. -/
def Alone (m : Machine) (t : LiveTask) : Prop := ∀ u ∈ m.tasks, u.tgid = t.tgid → u.pid = t.pid

instance (m : Machine) (t : LiveTask) : Decidable (m.Alone t) := inferInstanceAs (Decidable (∀ u ∈ m.tasks, _))

def add (m : Machine) (creator child : LiveTask) : ForkOutcome → Machine
  | .inserted => ⟨child :: m.tasks, onForkLocked m.cache (child.task creator.pid).entry⟩
  | .throttled => { m with tasks := child :: m.tasks }
  | .noMemory => { m with tasks := child :: m.tasks }

def setCreds (m : Machine) (pid uid euid : UInt32) : Machine :=
  { m with tasks := m.tasks.map fun t => if t.pid = pid then { t with uid := uid, euid := euid } else t }

def exec (m : Machine) (t : LiveTask) (uid euid : UInt32) (comm exeBuf cmdBuf : CStr) : Machine where
  tasks := m.tasks.map fun u => if u.pid = t.pid then t.execed uid euid comm else u
  cache := onExecLocked m.cache ((t.execed uid euid comm).task t.realParent) exeBuf cmdBuf

def step (m : Machine) : TaskAct → Machine
  | .fork creator pid cloneParent startNs outcome =>
    match m.find creator with
    | none => m
    | some t => if m.Free pid then m.add t (t.forked pid cloneParent startNs) outcome else m
  | .thread creator pid startNs outcome =>
    match m.find creator with
    | none => m
    | some t => if m.Free pid then m.add t (t.cloned pid startNs) outcome else m
  | .setuid pid uid euid => m.setCreds pid uid euid
  | .exec pid uid euid comm exeBuf cmdBuf =>
    match m.find pid with
    | none => m
    | some t => if m.Alone t then m.exec t uid euid comm exeBuf cmdBuf else m
  | .exit pid nowNs => ⟨m.tasks.filter (·.pid ≠ pid), onExitLocked m.cache pid nowNs⟩
  | .gc nowNs => { m with cache := (gcLocked m.cache nowNs).1 }

end Machine

def runMachine (acts : List TaskAct) : Machine := acts.foldl Machine.step Machine.boot

/-! ## Events -/

structure IgLkmEvent where
  id : FileId
  op : UInt32
  blocked : UInt32
  pid : UInt32
  uid : UInt32
  comm : CStr
  path : CStr
  timestampNs : Int64
  chainTruncated : Bool
  chain : List IgLkmChainEntry

namespace Machine

/-- `real_parent`. -/
def parentOf (m : Machine) (t : LiveTask) : Option LiveTask := m.find t.realParent

/-- An entry of the chain of live tasks. -/
def chainEntry (m : Machine) (t : LiveTask) : IgLkmChainEntry :=
  ⟨t.pid, ((m.parentOf t).map (·.pid)).getD 0, t.uid, t.euid, t.sid, t.comm.cut 15, ⟨[], zero_notMem_nil⟩, t.startNs,
    ⟨[], zero_notMem_nil⟩, ⟨[], zero_notMem_nil⟩⟩

/-- The task that the walk goes on with. -/
def nextTask (m : Machine) (_ t : LiveTask) : Option LiveTask :=
  match m.parentOf t with
  | none => none
  | some parent => if parent.pid ≤ 1 ∨ parent.pid = t.pid then none else some parent

/-- `ig_collect_chain`: from the cache, or, when it has nothing for the pid, from the live tasks. -/
def igCollectChain (m : Machine) (current : LiveTask) : List IgLkmChainEntry × Bool :=
  let cached := igProcCacheCollectChain m.cache current.pid true igLkmChainMax
  if cached.1.length > 0 then cached
  else
    let r := follow some m.nextTask igLkmChainMax current
    (r.1.map m.chainEntry, r.2)

/-- The event that `ig_event_enqueue` queues, when it gets the memory for it. -/
def igEventEnqueue (m : Machine) (kmalloc : Bool) (policies : PolicyTable) (current : LiveTask) (id : FileId)
    (op blocked : UInt32) (nowNs : Int64) : Option IgLkmEvent :=
  if !kmalloc then none
  else
    let chain := m.igCollectChain current
    some
      { id := id
        op := op
        blocked := blocked
        pid := current.tgid
        uid := current.uid
        comm := current.comm.cut 15
        path := (inodePolicyPath policies id).cut (igMaxLkmPath - 1)
        timestampNs := nowNs
        chainTruncated := chain.2
        chain := chain.1 }

/-- The first entry of the chain of every event that the task causes has the event's pid and the task's
credentials. -/
def ActorRight (m : Machine) (t : LiveTask) : Prop :=
  ∀ policies id op blocked nowNs, ∀ ev ∈ m.igEventEnqueue true policies t id op blocked nowNs,
    ∀ actor ∈ ev.chain.head?, actor.pid = ev.pid ∧ actor.uid = t.uid ∧ actor.euid = t.euid

end Machine

/-! ## Credentials in the cache -/

/-- What the cache has for the pid, if anything, has these credentials. -/
def CredsCached (c : ProcCache) (pid uid euid : UInt32) : Prop :=
  ∀ x ∈ c.lookup pid, x.2.uid = uid ∧ x.2.euid = euid

instance (c : ProcCache) (pid uid euid : UInt32) : Decidable (CredsCached c pid uid euid) :=
  inferInstanceAs (Decidable (∀ x ∈ c.lookup pid, _))

section Cached

variable {c c' : ProcCache} {pid uid euid : UInt32}

theorem CredsCached.within (h : CredsCached c pid uid euid) (hc : c.Distinct) (hw : Within c' c) :
    CredsCached c' pid uid euid := by
  rintro ⟨p, e⟩ hx
  obtain ⟨hp, hpid⟩ := (hc.within hw).lookup_eq_some.1 hx
  obtain ⟨e₀, he₀, hsame⟩ := hw.2 p e hp
  have hcreds := h (p, e₀) (hc.lookup_eq_some.2 ⟨he₀, by rw [← hsame.pid, hpid]⟩)
  exact ⟨hsame.uid.trans hcreds.1, hsame.euid.trans hcreds.2⟩

/-- A fork's entry has the child's credentials. -/
theorem credsCached_fork_self (hc : c.Distinct) (t : LiveTask) (parent : UInt32) :
    CredsCached (onForkLocked c (t.task parent).entry) t.pid t.uid t.euid := by
  rintro ⟨p, e⟩ hx
  obtain ⟨hp, hpid⟩ := (hc.fork _).lookup_eq_some.1 hx
  rcases ProcCache.entry_of_onForkLocked hp with ⟨-, rfl⟩ | ⟨-, hp⟩
  · exact ⟨rfl, rfl⟩
  · exact absurd hpid (hc.entry_of_makeRoom hp).2

theorem CredsCached.fork (h : CredsCached c pid uid euid) (hc : c.Distinct) {f : PcEntry} (hne : f.pid ≠ pid) :
    CredsCached (onForkLocked c f) pid uid euid := by
  rintro ⟨p, e⟩ hx
  obtain ⟨hp, hpid⟩ := (hc.fork _).lookup_eq_some.1 hx
  rcases ProcCache.entry_of_onForkLocked hp with ⟨-, rfl⟩ | ⟨-, hp⟩
  · exact absurd hpid hne
  · exact h (p, e) (hc.lookup_eq_some.2 ⟨(hc.entry_of_makeRoom hp).1, hpid⟩)

/-- An exec leaves what the cache has of credentials. -/
theorem credsCached_exec_iff (hc : c.Distinct) (t : Task) (exeBuf cmdBuf : CStr) :
    CredsCached (onExecLocked c t exeBuf cmdBuf) pid uid euid ↔ CredsCached c pid uid euid := by
  constructor
  · intro h
    exact h.within (hc.within (within_exec c t exeBuf cmdBuf)) (exec_within c t exeBuf cmdBuf)
  · intro h
    exact h.within hc (within_exec c t exeBuf cmdBuf)

end Cached

/-! ## The first entry of the chain -/

theorem findLocked_pid {c : ProcCache} {pid : UInt32} {x : Ptr × PcEntry} (h : c.lookup pid = some x) :
    x.2.pid = pid := by
  obtain ⟨p, hp, hx⟩ := Option.bind_eq_some_iff.1 h
  obtain ⟨e, he, rfl⟩ := Option.map_eq_some_iff.1 hx
  obtain ⟨e', he', hpid⟩ := ProcCache.findLocked_some hp
  rw [(ProcCache.entry_eq_some.1 he').2, Option.some.injEq] at he
  rw [← he]
  exact hpid

/-- The chain starts with what the cache has for the pid, or with the task itself. -/
theorem head?_igCollectChain (m : Machine) (t : LiveTask) :
    (m.igCollectChain t).1.head? =
      some (match m.cache.lookup t.pid with | some x => x.2.chainEntry | none => m.chainEntry t) := by
  have hcached : (igProcCacheCollectChain m.cache t.pid true igLkmChainMax).1 =
      (follow m.cache.lookup ProcCache.nextPid igLkmChainMax t.pid).1.map (·.2.chainEntry) := rfl
  have hhead : ((follow m.cache.lookup ProcCache.nextPid igLkmChainMax t.pid).1.map (·.2.chainEntry)).head? =
      (m.cache.lookup t.pid).map (·.2.chainEntry) := by
    rw [List.head?_map]
    exact congrArg _ (head?_follow 15 t.pid)
  unfold Machine.igCollectChain
  dsimp only
  rw [hcached]
  cases hl : m.cache.lookup t.pid with
  | none =>
    rw [hl, Option.map_none, List.head?_eq_none_iff] at hhead
    rw [hhead, if_neg (by simp), List.head?_map]
    exact congrArg (Option.map m.chainEntry) (head?_follow 15 t)
  | some x =>
    rw [hl, Option.map_some] at hhead
    rw [if_pos, hcached, hhead]
    exact List.length_pos_of_mem (List.mem_of_mem_head? hhead)

/-- The events of a task have the right actor just when it leads its group and the cache has no other credentials
for it. -/
theorem actorRight_iff {m : Machine} {t : LiveTask} :
    m.ActorRight t ↔ t.pid = t.tgid ∧ CredsCached m.cache t.pid t.uid t.euid := by
  have hev : m.ActorRight t ↔ ∀ actor ∈ (m.igCollectChain t).1.head?,
      actor.pid = t.tgid ∧ actor.uid = t.uid ∧ actor.euid = t.euid := by
    constructor
    · intro h
      exact h [] ⟨0, 0⟩ 0 0 0 _ rfl
    · rintro h policies id op blocked nowNs ev hev
      cases hev
      exact h
  rw [hev, head?_igCollectChain]
  unfold CredsCached
  cases hl : m.cache.lookup t.pid with
  | none => simp [Machine.chainEntry]
  | some x =>
    have hpid := findLocked_pid hl
    simp [PcEntry.chainEntry, hpid]

/-! ## Which steps keep the credentials -/

/-- A step that gives a process credentials or a pid leaves in the cache no others for its pid. -/
def CredsKept (m : Machine) : TaskAct → Prop
  | .fork _ _ _ _ .inserted => True
  | .fork creator pid _ _ _ => ∀ t ∈ m.find creator, m.Free pid → CredsCached m.cache pid t.uid t.euid
  | .setuid pid uid euid => ∀ t ∈ m.tasks, t.pid = pid → t.pid = t.tgid → CredsCached m.cache pid uid euid
  | .exec pid uid euid _ _ _ => ∀ t ∈ m.find pid, m.Alone t → CredsCached m.cache t.tgid uid euid
  | _ => True

instance (m : Machine) : ∀ a : TaskAct, Decidable (CredsKept m a)
  | .fork _ _ _ _ .inserted => inferInstanceAs (Decidable True)
  | .fork creator pid _ _ .throttled =>
    inferInstanceAs (Decidable (∀ t ∈ m.find creator, m.Free pid → CredsCached m.cache pid t.uid t.euid))
  | .fork creator pid _ _ .noMemory =>
    inferInstanceAs (Decidable (∀ t ∈ m.find creator, m.Free pid → CredsCached m.cache pid t.uid t.euid))
  | .thread _ _ _ _ => inferInstanceAs (Decidable True)
  | .setuid pid uid euid =>
    inferInstanceAs (Decidable (∀ t ∈ m.tasks, t.pid = pid → t.pid = t.tgid → CredsCached m.cache pid uid euid))
  | .exec pid uid euid _ _ _ =>
    inferInstanceAs (Decidable (∀ t ∈ m.find pid, m.Alone t → CredsCached m.cache t.tgid uid euid))
  | .exit _ _ => inferInstanceAs (Decidable True)
  | .gc _ => inferInstanceAs (Decidable True)

/-- The cache has no other credentials for the tasks that lead their groups. -/
def LeadersCached (m : Machine) : Prop := ∀ t ∈ m.tasks, t.pid = t.tgid → CredsCached m.cache t.pid t.uid t.euid

theorem LeadersCached.within {m : Machine} (h : LeadersCached m) (hc : m.cache.Distinct) {c : ProcCache}
    (hw : Within c m.cache) {tasks : List LiveTask} (hsub : ∀ t ∈ tasks, t ∈ m.tasks) : LeadersCached ⟨tasks, c⟩ :=
  fun t ht hlead => (h t (hsub t ht) hlead).within hc hw

/-- A cached child with a new pid changes nothing for the others. -/
theorem LeadersCached.insert {m : Machine} (h : LeadersCached m) (hc : m.cache.Distinct) {creator child : LiveTask}
    (hfree : m.Free child.pid) : LeadersCached (m.add creator child .inserted) := by
  intro t ht hlead
  rcases List.mem_cons.1 ht with rfl | ht
  · exact credsCached_fork_self hc t creator.pid
  · exact (h t ht hlead).fork hc (hfree t ht).1.symm

theorem leadersCached_add_iff {m : Machine} (h : LeadersCached m) (tasks : List LiveTask) (child : LiveTask)
    (htasks : tasks = child :: m.tasks) :
    LeadersCached { m with tasks := tasks } ↔
      (child.pid = child.tgid → CredsCached m.cache child.pid child.uid child.euid) := by
  unfold LeadersCached
  rw [htasks]
  constructor
  · intro hl
    exact hl child List.mem_cons_self
  · intro hchild t ht
    rcases List.mem_cons.1 ht with rfl | ht
    · exact hchild
    · exact h t ht

theorem leadersCached_setCreds_iff {m : Machine} (h : LeadersCached m) (pid uid euid : UInt32) :
    LeadersCached (m.setCreds pid uid euid) ↔ CredsKept m (.setuid pid uid euid) := by
  constructor
  · rintro hl t ht rfl hlead
    have hmem : { t with uid := uid, euid := euid } ∈ (m.setCreds t.pid uid euid).tasks :=
      List.mem_map.2 ⟨t, ht, if_pos rfl⟩
    exact hl _ hmem hlead
  · intro hok t ht hlead
    obtain ⟨u, hu, rfl⟩ := List.mem_map.1 ht
    by_cases hpid : u.pid = pid
    · rw [if_pos hpid] at hlead ⊢
      have hcached := hok u hu hpid hlead
      rw [← hpid] at hcached
      exact hcached
    · rw [if_neg hpid] at hlead ⊢
      exact h u hu hlead

theorem leadersCached_exec_iff {m : Machine} (h : LeadersCached m) (hc : m.cache.Distinct) {t : LiveTask}
    (ht : t ∈ m.tasks) (uid euid : UInt32) (comm exeBuf cmdBuf : CStr) :
    LeadersCached (m.exec t uid euid comm exeBuf cmdBuf) ↔ CredsCached m.cache t.tgid uid euid := by
  constructor
  · intro hl
    have hmem : t.execed uid euid comm ∈ (m.exec t uid euid comm exeBuf cmdBuf).tasks :=
      List.mem_map.2 ⟨t, ht, if_pos rfl⟩
    exact (credsCached_exec_iff hc _ exeBuf cmdBuf).1 (hl _ hmem rfl)
  · intro hcached u hu hlead
    apply (credsCached_exec_iff hc _ exeBuf cmdBuf).2
    obtain ⟨v, hv, rfl⟩ := List.mem_map.1 hu
    by_cases hpid : v.pid = t.pid
    · rw [if_pos hpid] at hlead ⊢
      exact hcached
    · rw [if_neg hpid] at hlead ⊢
      exact h v hv hlead

/-- A step keeps the cached credentials of the leaders just when it meets its condition. -/
theorem leadersCached_step_iff {m : Machine} {a : TaskAct} (hc : m.cache.Distinct) (h : LeadersCached m) :
    LeadersCached (m.step a) ↔ CredsKept m a := by
  cases a with
  | fork creator pid cloneParent startNs outcome =>
    cases hf : m.find creator with
    | none => cases outcome <;> simp [Machine.step, CredsKept, hf, h]
    | some t =>
      by_cases hfree : m.Free pid
      · have hstep : m.step (.fork creator pid cloneParent startNs outcome) =
            m.add t (t.forked pid cloneParent startNs) outcome := by simp [Machine.step, hf, hfree]
        have hadd := leadersCached_add_iff h _ (t.forked pid cloneParent startNs) rfl
        rw [hstep]
        cases outcome with
        | inserted => exact iff_true_intro (h.insert hc hfree)
        | throttled =>
          refine hadd.trans ?_
          simp [CredsKept, hf, hfree, LiveTask.forked]
        | noMemory =>
          refine hadd.trans ?_
          simp [CredsKept, hf, hfree, LiveTask.forked]
      · cases outcome <;> simp [Machine.step, CredsKept, hf, hfree, h]
  | thread creator pid startNs outcome =>
    refine iff_true_intro ?_
    cases hf : m.find creator with
    | none => simpa [Machine.step, hf] using h
    | some t =>
      by_cases hfree : m.Free pid
      · have hstep : m.step (.thread creator pid startNs outcome) = m.add t (t.cloned pid startNs) outcome := by
          simp [Machine.step, hf, hfree]
        have hadd := leadersCached_add_iff h _ (t.cloned pid startNs) rfl
        -- a thread has another pid than its group
        have hthread : ¬ (t.cloned pid startNs).pid = (t.cloned pid startNs).tgid :=
          fun he => (hfree t (List.mem_of_find?_eq_some hf)).2 he.symm
        rw [hstep]
        cases outcome with
        | inserted => exact h.insert hc hfree
        | throttled => exact hadd.2 fun he => absurd he hthread
        | noMemory => exact hadd.2 fun he => absurd he hthread
      · simpa [Machine.step, hf, hfree] using h
  | setuid pid uid euid => exact leadersCached_setCreds_iff h pid uid euid
  | exec pid uid euid comm exeBuf cmdBuf =>
    simp only [Machine.step, CredsKept]
    cases hf : m.find pid with
    | none => simp [h]
    | some t =>
      by_cases halone : m.Alone t
      · simp only [Option.mem_def, Option.some.injEq, forall_eq', halone, if_true, true_imp_iff]
        exact leadersCached_exec_iff h hc (List.mem_of_find?_eq_some hf) uid euid comm exeBuf cmdBuf
      · simp [halone, h]
  | exit pid nowNs =>
    exact iff_true_intro (h.within hc (within_exit _ _ _) fun t ht => (List.mem_filter.1 ht).1)
  | gc nowNs => exact iff_true_intro (h.within hc (within_gc _ _) fun t ht => ht)

theorem distinct_add {m : Machine} (hc : m.cache.Distinct) (creator child : LiveTask) (outcome : ForkOutcome) :
    (m.add creator child outcome).cache.Distinct := by
  cases outcome with
  | inserted => exact hc.fork _
  | throttled => exact hc
  | noMemory => exact hc

theorem distinct_step {m : Machine} {a : TaskAct} (hc : m.cache.Distinct) : (m.step a).cache.Distinct := by
  cases a with
  | fork creator pid cloneParent startNs outcome =>
    simp only [Machine.step]
    split
    · exact hc
    split
    · exact distinct_add hc _ _ _
    · exact hc
  | thread creator pid startNs outcome =>
    simp only [Machine.step]
    split
    · exact hc
    split
    · exact distinct_add hc _ _ _
    · exact hc
  | setuid pid uid euid => exact hc
  | exec pid uid euid comm exeBuf cmdBuf =>
    simp only [Machine.step]
    split
    · exact hc
    split
    · exact hc.within (within_exec _ _ _ _)
    · exact hc
  | exit pid nowNs => exact hc.within (within_exit _ _ _)
  | gc nowNs => exact hc.within (within_gc _ _)

/-! ## Runs -/

theorem leadersCached_boot : LeadersCached Machine.boot := by
  intro t _ _ x hx
  cases hx

/-- All along a run the events of the tasks that lead their groups have the right actor exactly if every step that
gives a process credentials or a pid leaves no others in the cache for its pid; and the events of a thread that
does not lead its group never have. -/
theorem actor_right_iff (acts : List TaskAct) :
    ((∀ pre, pre <+: acts → ∀ t ∈ (runMachine pre).tasks, t.pid = t.tgid → (runMachine pre).ActorRight t) ↔
      AllSteps Machine.step CredsKept Machine.boot acts) ∧
      ∀ t ∈ (runMachine acts).tasks, t.pid ≠ t.tgid → ¬ (runMachine acts).ActorRight t := by
  have hleaders : (∀ pre, pre <+: acts → LeadersCached (runMachine pre)) ↔
      AllSteps Machine.step CredsKept Machine.boot acts :=
    forall_prefix_iff (I := fun m => m.cache.Distinct) (fun m a hc => distinct_step hc)
      (fun m a hc h => leadersCached_step_iff hc h) ProcCache.distinct_empty leadersCached_boot
  constructor
  · rw [← hleaders]
    refine forall₂_congr fun pre _ => forall₂_congr fun t _ => ?_
    constructor
    · intro h hlead
      exact (actorRight_iff.1 (h hlead)).2
    · intro h hlead
      exact actorRight_iff.2 ⟨hlead, h hlead⟩
  · intro t _ hthread h
    exact hthread (actorRight_iff.1 h).1

/-- Task 1 forks process 7, which executes a program. -/
def service : List TaskAct :=
  [.fork 1 7 false 1000 .inserted, .exec 7 0 0 ⟨ascii "httpd", by decide⟩ ⟨ascii "/usr/sbin/httpd", by decide⟩
    ⟨ascii "httpd", by decide⟩]

theorem actor_right_service :
    ∀ pre, pre <+: service → ∀ t ∈ (runMachine pre).tasks, t.pid = t.tgid → (runMachine pre).ActorRight t :=
  (actor_right_iff service).1.2 (by decide)

/-- Then the process drops its privileges. -/
def dropped : List TaskAct := service ++ [.setuid 7 1000 1000]

/-- The events of the process then have an actor with the credentials of root. -/
theorem actor_dropped_fails : ¬ ∀ t ∈ (runMachine dropped).tasks, (runMachine dropped).ActorRight t := by
  intro h
  have hright := (actorRight_iff.1 (h _ List.mem_cons_self)).2
  revert hright
  decide

end KnIg.Lkm
