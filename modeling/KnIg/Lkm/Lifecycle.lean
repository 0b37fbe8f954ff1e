/-
The kernel module among everything else that goes on: other modules register and take back entries of their own and
store into the system call table, the callbacks that the module has registered run on its process cache, the device
takes requests for its policies and the hooks raise events, all between any two calls of `ig_lkm_init` and
`ig_lkm_exit`. Whatever the order, and however often the module is loaded, fails to load and is unloaded: what it has
registered stands on what it needs, once it is gone the kernel's lists are what the others alone make of them, and its
memory is free but for what two of the failing paths leave. A store into the table is lost if it falls between `HOOK`
and `UNHOOK` of its entry, and only then.
-/
import KnIg.Lib.Run
import KnIg.Lkm.Startup

namespace KnIg.Lkm.Lifecycle

open Lib

/-! ## The machine -/

/-- Whose entry a list of the kernel has. -/
inductive Owner where
  | ig
  | other (n : Nat)
deriving DecidableEq

/-- What an entry of the system call table points to. -/
inductive Handler where
  | ig (nr : Nr)
  | other (n : Nat)
deriving DecidableEq

def Handler.isIg : Handler → Bool
  | ig _ => true
  | other _ => false

/-- What the module shares with the rest of the kernel. -/
structure Host where
  lists : Slot → List Owner
  table : Nr → Handler

inductive Phase where
  | loading (code : Code Int)
  | loaded
  | unloading (code : Code Int)

/-- A request of `ig_ioctl`. -/
inductive IoctlReq where
  | addInode (kzallocOk : Bool) (id : FileId) (mask block : UInt32) (path : CStr)
  | removeInode (id : FileId)
  | clearAll

def igIoctl (t : PolicyTable) : IoctlReq → PolicyTable
  | .addInode kzallocOk id mask block path => (inodePolicyAdd kzallocOk t id mask block (some path)).2
  | .removeInode id => inodePolicyRemove t id
  | .clearAll => inodePolicyClear t

/-- The module in memory. -/
structure Module where
  phase : Phase
  own : Own
  /-- `orig_sys_*` -/
  orig : Nr → Handler
  cache : ProcCache
  policies : PolicyTable
  /-- `ig_flush_work` is queued -/
  flush : Bool
  /-- the callbacks and the collector that have started and are still to take the lock -/
  flight : List CacheOp
  /-- the calls that are inside one of the hooks -/
  inside : Nat
  /-- how many were when the flush work was last cancelled -/
  insideAtCancel : Nat

/-- The module once loaded is `some`; `kept` is the system call table with the stores of the others, but for those
between `HOOK` and `UNHOOK` of their entry; `alone` is the kernel as the others alone make it. -/
structure Machine where
  host : Host
  igLkm : Option Module
  kept : Nr → Handler
  alone : Host
  /-- the modules that failed to load or were unloaded, as they were last -/
  gone : List Module

/-- The tracepoint that runs a section of the cache. -/
def opProbe : CacheOp → Option Probe
  | .fork _ _ => some .fork
  | .exec _ _ _ => some .exec
  | .exit _ _ => some .exit
  | .preload _ _ => none
  | .collectChain _ _ => none
  | .gc _ => none

def opIsGc : CacheOp → Bool
  | .gc _ => true
  | _ => false

/-! ## The module's calls -/

namespace Host

def add (h : Host) (s : Slot) (o : Owner) : Host := { h with lists := Function.update h.lists s (h.lists s ++ [o]) }

def remove (h : Host) (s : Slot) (o : Owner) : Host :=
  { h with lists := Function.update h.lists s ((h.lists s).erase o) }

def store (h : Host) (nr : Nr) (f : Handler) : Host := { h with table := Function.update h.table nr f }

/-- What a call of the module does to the rest of the kernel. -/
def perform (h : Host) (m : Module) (c : KernelCall) (r : Int) : Host :=
  match c with
  | .register s => if r = 0 then h.add s .ig else h
  | .unregister s => h.remove s .ig
  | .install nr => h.store nr (.ig nr)
  | .restore nr => h.store nr (m.orig nr)
  | _ => h

theorem lists_add (h : Host) (s : Slot) (o : Owner) (s' : Slot) :
    (h.add s o).lists s' = if s' = s then h.lists s' ++ [o] else h.lists s' := by
  show Function.update h.lists s (h.lists s ++ [o]) s' = _
  rw [Function.update_apply]
  split
  · next hs => rw [hs]
  · rfl

theorem lists_remove (h : Host) (s : Slot) (o : Owner) (s' : Slot) :
    (h.remove s o).lists s' = if s' = s then (h.lists s').erase o else h.lists s' := by
  show Function.update h.lists s ((h.lists s).erase o) s' = _
  rw [Function.update_apply]
  split
  · next hs => rw [hs]
  · rfl

end Host

/-- The loop of `ig_proc_cache_exit` and the counter it sets. -/
def freeAll (c : ProcCache) : ProcCache := { c.table.foldl ProcCache.drop c with count := 0 }

namespace Module

def fresh (b : Build) (tasks : List (Task × Bool)) : Module :=
  ⟨.loading (igLkmInit b tasks), .fresh, fun _ => .other 0, .empty, [], false, [], 0, 0⟩

/-- The answers that the module can get now: two calls wait for what is under way. -/
def mayAnswer (m : Module) (c : KernelCall) (r : Int) : Bool :=
  m.own.answers c r &&
    match c with
    | .preload _ => r == if m.cache.count ≥ igPcMaxEntries then 1 else 0
    | .synchronizeProbes => m.flight.all fun op => (opProbe op).isNone
    | .cancelGc => m.flight.all fun op => !opIsGc op
    | _ => true

/-- What a call does to the module's memory. -/
def perform (m : Module) (h : Host) (c : KernelCall) (r : Int) : Module :=
  match c with
  | .saveOriginal nr => { m with own := m.own.after c r, orig := Function.update m.orig nr (h.table nr) }
  | .hashInitPolicies => { m with own := m.own.after c r, policies := [] }
  | .hashInitCache => { m with own := m.own.after c r, cache := { m.cache with table := [], lru := [] } }
  | .preload t => { m with own := m.own.after c r, cache := preloadLocked m.cache t.entry }
  | .freeCache => { m with own := m.own.after c r, cache := freeAll m.cache }
  | .clearPolicies => { m with own := m.own.after c r, policies := inodePolicyClear m.policies }
  | .cancelFlush => { m with own := m.own.after c r, flush := false, insideAtCancel := m.inside }
  | _ => { m with own := m.own.after c r }

/-- A callback can start where it is registered, and the collector when it is scheduled. -/
def mayEnter (m : Module) (h : Host) (op : CacheOp) : Bool :=
  match opProbe op with
  | some p => .ig ∈ h.lists (.probe p)
  | none => opIsGc op && m.own.gc

def enter (m : Module) (h : Host) (op : CacheOp) : Module :=
  if m.mayEnter h op then { m with flight := m.flight ++ [op] } else m

/-- A callback takes the lock, does its section and ends. -/
def leave (m : Module) (i : Nat) : Module :=
  match m.flight[i]? with
  | some op => { m with cache := m.cache.step op, flight := m.flight.eraseIdx i }
  | none => m

def ioctl (m : Module) (h : Host) (req : IoctlReq) : Module :=
  if Owner.ig ∈ h.lists .cdev then { m with policies := igIoctl m.policies req } else m

def callIn (m : Module) (hooked : Bool) : Module := if hooked then { m with inside := m.inside + 1 } else m

/-- A call inside a hook raises an event. -/
def callEnqueue (m : Module) : Module := if 0 < m.inside then { m with flush := true } else m

end Module

/-! ## Steps -/

inductive MachineAct where
  | insmod (tasks : List (Task × Bool))
  | rmmod
  /-- the code of the module goes on, with the answer to its call -/
  | proceed (answer : Int)
  /-- another module registers, takes back, stores -/
  | add (s : Slot) (n : Nat)
  | remove (s : Slot) (n : Nat)
  | store (nr : Nr) (f : Handler)
  | enter (op : CacheOp)
  | leave (i : Nat)
  | ioctl (req : IoctlReq)
  /-- a system call runs into a hook of the lists, or of the table -/
  | callHook (h : LsmHook)
  | callEntry (nr : Nr)
  | callEnqueue
  | callOut
  | flushWork

namespace Machine

/-- A kernel in which the module was never loaded. -/
def boot (lists : Slot → List Nat) (table : Nr → Nat) : Machine :=
  let host : Host := ⟨fun s => (lists s).map .other, fun nr => .other (table nr)⟩
  ⟨host, none, host.table, host, []⟩

def setModule (x : Machine) (f : Module → Module) : Machine := { x with igLkm := x.igLkm.map f }

def window (x : Machine) : List Nr :=
  match x.igLkm with
  | some m => m.own.window
  | none => []

/-- The module's code makes a call and gets the answer. -/
def answer (x : Machine) (m : Module) (phase : Code Int → Phase) (c : KernelCall) (k : Int → Code Int) (r : Int) :
    Machine :=
  if m.mayAnswer c r then
    { x with host := x.host.perform m c r, igLkm := some { m.perform x.host c r with phase := phase (k r) } }
  else x

def leaves (x : Machine) (m : Module) : Machine := { x with igLkm := none, gone := m :: x.gone }

def proceed (x : Machine) (m : Module) (r : Int) : Machine :=
  match m.phase with
  | .loading (.done ret) => if ret = 0 then { x with igLkm := some { m with phase := .loaded } } else x.leaves m
  | .loading (.call c k) => x.answer m .loading c k r
  | .loaded => x
  | .unloading (.done _) => x.leaves m
  | .unloading (.call c k) => x.answer m .unloading c k r

def rmmod (b : Build) (m : Module) : Module :=
  match m.phase with
  | .loading _ => m
  | .loaded => { m with phase := .unloading (igLkmExit b) }
  | .unloading _ => m

/-- A store into the table. The others store handlers of their own, or put back the module's while it has the entry. -/
def store (x : Machine) (nr : Nr) (f : Handler) : Machine :=
  if f.isIg then if nr ∈ x.window then { x with host := x.host.store nr f } else x
  else
    { x with
      host := x.host.store nr f
      kept := if nr ∈ x.window then x.kept else Function.update x.kept nr f
      alone := x.alone.store nr f }

def step (b : Build) (x : Machine) : MachineAct → Machine
  | .insmod tasks =>
    match x.igLkm with
    | none => { x with igLkm := some (Module.fresh b tasks) }
    | some _ => x
  | .rmmod => x.setModule (rmmod b)
  | .proceed r =>
    match x.igLkm with
    | none => x
    | some m => x.proceed m r
  | .add s n => { x with host := x.host.add s (.other n), alone := x.alone.add s (.other n) }
  | .remove s n => { x with host := x.host.remove s (.other n), alone := x.alone.remove s (.other n) }
  | .store nr f => x.store nr f
  | .enter op => x.setModule fun m => m.enter x.host op
  | .leave i => x.setModule fun m => m.leave i
  | .ioctl req => x.setModule fun m => m.ioctl x.host req
  | .callHook h => x.setModule fun m => m.callIn (.ig ∈ x.host.lists (.hook h))
  | .callEntry nr => x.setModule fun m => m.callIn (x.host.table nr).isIg
  | .callEnqueue => x.setModule fun m => m.callEnqueue
  | .callOut => x.setModule fun m => { m with inside := m.inside - 1 }
  | .flushWork => x.setModule fun m => { m with flush := false }

end Machine

/-- What the other parties alone do. -/
def Host.others (h : Host) : MachineAct → Host
  | .add s n => h.add s (.other n)
  | .remove s n => h.remove s (.other n)
  | .store nr f => if f.isIg then h else h.store nr f
  | _ => h

theorem alone_proceed (x : Machine) (m : Module) (r : Int) : (x.proceed m r).alone = x.alone := by
  unfold Machine.proceed Machine.answer Machine.leaves
  split
  · split <;> rfl
  · split <;> rfl
  · rfl
  · rfl
  · split <;> rfl

theorem alone_step (b : Build) (x : Machine) (a : MachineAct) : (x.step b a).alone = x.alone.others a := by
  cases a with
  | insmod tasks =>
    unfold Machine.step
    cases x.igLkm <;> rfl
  | proceed r =>
    unfold Machine.step
    cases x.igLkm with
    | none => rfl
    | some m => exact alone_proceed x m r
  | store nr f =>
    show (x.store nr f).alone = if f.isIg then x.alone else x.alone.store nr f
    unfold Machine.store
    split
    · split <;> rfl
    · rfl
  | _ => rfl

def runMachine (b : Build) (lists : Slot → List Nat) (table : Nr → Nat) (acts : List MachineAct) : Machine :=
  acts.foldl (Machine.step b) (Machine.boot lists table)

/-! ## What the module and the kernel agree on -/

section Invariants

variable {b : Build} {m : Module} {h : Host} {kept : Nr → Handler} {c : KernelCall} {r : Int}

/-- The kernel's lists have the module's registrations, and the table the stores of the others, but for the entries
that the module has, whose handlers it keeps. -/
structure Shares (own : Own) (orig : Nr → Handler) (h : Host) (kept : Nr → Handler) : Prop where
  held : ∀ s, (h.lists s).count .ig = own.held.count s
  orig : ∀ nr ∈ own.window, orig nr = kept nr
  outside : ∀ nr ∉ own.window, h.table nr = kept nr

/-- What the module's memory has, by what the module holds. -/
structure Holds (m : Module) : Prop where
  cache : m.cache.Consistent
  kinds : ∀ op ∈ m.flight, (opProbe op).isSome ∨ opIsGc op = true
  probes : m.own.settled = true → ∀ op ∈ m.flight, opProbe op = none
  gc : m.own.gc = false → ∀ op ∈ m.flight, opIsGc op = false
  empty : m.own.cleared = true → ∀ p, m.cache.mem p = none
  policies : m.own.noPolicies = true → m.policies = []
  quiet : m.own.cancelled = true → m.insideAtCancel = 0 → m.inside = 0 ∧ m.flush = false

theorem own_perform (m : Module) (h : Host) (c : KernelCall) (r : Int) : (m.perform h c r).own = m.own.after c r := by
  cases c <;> rfl

theorem Shares.register (hsh : Shares m.own m.orig h kept) (s : Slot) :
    Shares (m.own.registered s) m.orig (h.add s .ig) kept where
  held s' := by
    show ((h.add s .ig).lists s').count .ig = (s :: m.own.held).count s'
    rw [Host.lists_add]
    split
    · next hs =>
      subst hs
      rw [List.count_append, hsh.held, List.count_singleton_self, List.count_cons_self]
    · next hs => rw [hsh.held, List.count_cons_of_ne (Ne.symm hs)]
  orig := hsh.orig
  outside := hsh.outside

theorem Shares.unregister (hsh : Shares m.own m.orig h kept) (s : Slot) :
    Shares (m.own.after (.unregister s) r) m.orig (h.remove s .ig) kept where
  held s' := by
    show ((h.remove s .ig).lists s').count .ig = (m.own.held.erase s).count s'
    rw [Host.lists_remove]
    split
    · next hs =>
      subst hs
      rw [List.count_erase_self, List.count_erase_self, hsh.held]
    · next hs => rw [List.count_erase_of_ne hs, hsh.held]
  orig := hsh.orig
  outside := hsh.outside

theorem Shares.save (hsh : Shares m.own m.orig h kept) {nr : Nr} (hnr : nr ∉ m.own.window) :
    Shares (m.own.after (.saveOriginal nr) r) (Function.update m.orig nr (h.table nr)) h kept where
  held := hsh.held
  orig nr' hnr' := by
    rcases List.mem_cons.1 hnr' with rfl | hnr'
    · rw [Function.update_self]
      exact hsh.outside nr' hnr
    · rw [Function.update_of_ne (ne_of_mem_of_not_mem hnr' hnr)]
      exact hsh.orig nr' hnr'
  outside nr' hnr' := hsh.outside nr' fun hmem => hnr' (List.mem_cons_of_mem nr hmem)

theorem Shares.install (hsh : Shares m.own m.orig h kept) {nr : Nr} (hnr : nr ∈ m.own.window) (f : Handler) :
    Shares m.own m.orig (h.store nr f) kept where
  held := hsh.held
  orig := hsh.orig
  outside nr' hnr' := by
    show Function.update h.table nr f nr' = kept nr'
    rw [Function.update_of_ne (ne_of_mem_of_not_mem hnr hnr').symm]
    exact hsh.outside nr' hnr'

/-- A store into an entry that the module does not have. -/
theorem Shares.storeOutside (hsh : Shares m.own m.orig h kept) {nr : Nr} (hnr : nr ∉ m.own.window) (f : Handler) :
    Shares m.own m.orig (h.store nr f) (Function.update kept nr f) where
  held := hsh.held
  orig nr' hnr' := by
    rw [Function.update_of_ne (ne_of_mem_of_not_mem hnr' hnr)]
    exact hsh.orig nr' hnr'
  outside nr' hnr' := by
    show Function.update h.table nr f nr' = Function.update kept nr f nr'
    rw [Function.update_apply, Function.update_apply, hsh.outside nr' hnr']

theorem Shares.restore (hsh : Shares m.own m.orig h kept) {nr : Nr} (hnr : nr ∈ m.own.window) :
    Shares (m.own.after (.restore nr) r) m.orig (h.store nr (m.orig nr)) kept where
  held := hsh.held
  orig nr' hnr' := hsh.orig nr' (List.mem_of_mem_erase hnr')
  outside nr' hnr' := by
    show Function.update h.table nr (m.orig nr) nr' = kept nr'
    by_cases hne : nr' = nr
    · subst hne
      rw [Function.update_self]
      exact hsh.orig nr' hnr
    · rw [Function.update_of_ne hne]
      exact hsh.outside nr' fun hmem => hnr' ((List.mem_erase_of_ne hne).2 hmem)

/-- A call of the module, made as it relies on, keeps what the module and the kernel agree on. -/
theorem Shares.perform (hsh : Shares m.own m.orig h kept) (hok : m.own.Ok b c) :
    Shares (m.perform h c r).own (m.perform h c r).orig (h.perform m c r) kept := by
  cases c with
  | register s =>
    show Shares (if r = 0 then m.own.registered s else m.own.fail) m.orig (if r = 0 then h.add s .ig else h) kept
    split
    · exact hsh.register s
    · exact ⟨hsh.held, hsh.orig, hsh.outside⟩
  | unregister s =>
    show Shares (m.own.after (.unregister s) r) m.orig (h.remove s .ig) kept
    exact hsh.unregister s
  | lookup sym =>
    show Shares (if r = 0 then m.own.fail else { m.own with globals := .pointer sym :: m.own.globals }) m.orig h kept
    split <;> exact ⟨hsh.held, hsh.orig, hsh.outside⟩
  | setReg p value => cases value <;> exact ⟨hsh.held, hsh.orig, hsh.outside⟩
  | saveOriginal nr =>
    show Shares (m.own.after (.saveOriginal nr) r) (Function.update m.orig nr (h.table nr)) h kept
    exact hsh.save hok.1
  | install nr => exact hsh.install hok _
  | restore nr =>
    show Shares (m.own.after (.restore nr) r) m.orig (h.store nr (m.orig nr)) kept
    exact hsh.restore hok
  | read g => exact hsh
  | hashInitPolicies => exact hsh
  | hashInitCache => exact hsh
  | preload t => exact ⟨hsh.held, hsh.orig, hsh.outside⟩
  | scheduleGc => exact ⟨hsh.held, hsh.orig, hsh.outside⟩
  | synchronizeProbes => exact ⟨hsh.held, hsh.orig, hsh.outside⟩
  | cancelGc => exact ⟨hsh.held, hsh.orig, hsh.outside⟩
  | freeCache => exact ⟨hsh.held, hsh.orig, hsh.outside⟩
  | clearPolicies => exact ⟨hsh.held, hsh.orig, hsh.outside⟩
  | cancelFlush => exact ⟨hsh.held, hsh.orig, hsh.outside⟩
  | synchronizeRcu => exact hsh

end Invariants

/-! ## The module's memory -/

section Memory

variable {b : Build} {m : Module} {h : Host} {c : KernelCall} {r : Int}

/-- A cache without entries has nothing in the table or the list. -/
theorem table_of_empty {c : ProcCache} (hc : c.Linked) (hmem : ∀ p, c.mem p = none) : c.table = [] ∧ c.lru = [] := by
  have htable : c.table = [] := List.eq_nil_iff_forall_not_mem.2 fun p hp => by simpa [hmem p] using (hc.heap p).1 hp
  exact ⟨htable, List.perm_nil.1 (htable ▸ hc.same)⟩

theorem consistent_of_empty {c : ProcCache} (hlinked : c.Linked) (hmem : ∀ p, c.mem p = none) : c.Consistent := by
  obtain ⟨htable, -⟩ := table_of_empty hlinked hmem
  have hnone : ∀ p e, c.entry p ≠ some e := fun p e he => by
    have hp := (ProcCache.entry_eq_some.1 he).1
    simp [htable] at hp
  refine ⟨hlinked, ⟨fun p e he => absurd he (hnone p e), fun p q e f he => absurd he (hnone p e)⟩, ?_⟩
  rw [hlinked.count, htable]
  decide

/-- `hash_init` and `INIT_LIST_HEAD` find the cache as they leave it. -/
theorem hashInit_of_empty {c : ProcCache} (hc : c.Linked) (hmem : ∀ p, c.mem p = none) :
    { c with table := [], lru := [] } = c := by
  obtain ⟨htable, hlru⟩ := table_of_empty hc hmem
  obtain ⟨mem, next, table, lru, count⟩ := c
  obtain rfl : table = [] := htable
  obtain rfl : lru = [] := hlru
  rfl

/-- The loop drops every entry. -/
theorem linked_foldl_drop {c : ProcCache} (hc : c.Linked) {ps : List Ptr} (hps : c.table = ps) :
    (ps.foldl ProcCache.drop c).Linked ∧ (ps.foldl ProcCache.drop c).table = [] := by
  induction ps generalizing c with
  | nil => exact ⟨hc, hps⟩
  | cons p ps ih =>
    refine ih (hc.drop (hps ▸ List.mem_cons_self)) ?_
    show c.table.erase p = ps
    rw [hps, List.erase_cons_head]

theorem freeAll_empty {c : ProcCache} (hc : c.Linked) : (freeAll c).Consistent ∧ ∀ p, (freeAll c).mem p = none := by
  obtain ⟨hlinked, htable⟩ := linked_foldl_drop hc rfl
  have hmem : ∀ p, (c.table.foldl ProcCache.drop c).mem p = none := fun p =>
    Option.not_isSome_iff_eq_none.1 fun h => by simpa [htable] using (hlinked.heap p).2 h
  refine ⟨consistent_of_empty ⟨hlinked.same, hlinked.nodup, hlinked.heap, ?_⟩ hmem, hmem⟩
  show (0 : Int) = ((c.table.foldl ProcCache.drop c).table.length : Int)
  rw [htable]
  rfl

/-- A registration takes back no promise but those it breaks. -/
theorem Holds.registered (hm : Holds m) (s : Slot) : Holds { m with own := m.own.registered s } where
  cache := hm.cache
  kinds := hm.kinds
  probes hset := hm.probes (by simpa [Own.registered] using (Bool.and_eq_true_iff.1 hset).1)
  gc := hm.gc
  empty hcl := hm.empty (Bool.and_eq_true_iff.1 hcl).1
  policies hno := hm.policies (Bool.and_eq_true_iff.1 hno).1
  quiet hca := hm.quiet (Bool.and_eq_true_iff.1 hca).1

/-- What `mayAnswer` says of the two calls that wait. -/
theorem answers_of_mayAnswer (hr : m.mayAnswer c r = true) : m.own.answers c r = true := (Bool.and_eq_true_iff.1 hr).1

theorem Holds.perform (hm : Holds m) (hok : m.own.Ok b c) (hr : m.mayAnswer c r = true) : Holds (m.perform h c r) := by
  cases c with
  | register s =>
    show Holds { m with own := if r = 0 then m.own.registered s else m.own.fail }
    split
    · exact hm.registered s
    · exact { hm with }
  | unregister s => exact { hm with }
  | lookup sym =>
    show Holds { m with own := if r = 0 then m.own.fail else { m.own with globals := .pointer sym :: m.own.globals } }
    split <;> exact { hm with }
  | setReg p value => cases value <;> exact { hm with }
  | read g => exact { hm with }
  | saveOriginal nr => exact { hm with quiet := fun hca => Bool.noConfusion hca }
  | install nr => exact { hm with }
  | restore nr => exact { hm with }
  | hashInitPolicies => exact { hm with policies := fun _ => rfl }
  | hashInitCache =>
    have hmem := hm.empty hok
    have hsame := hashInit_of_empty hm.cache.linked hmem
    exact { hm with cache := by simpa only [Module.perform, hsame] using hm.cache, empty := fun _ => hmem }
  | preload t =>
    exact { hm with cache := hm.cache.preload t.entry, empty := fun hcl => Bool.noConfusion hcl }
  | scheduleGc => exact { hm with gc := fun hgc => Bool.noConfusion hgc, empty := fun hcl => Bool.noConfusion hcl }
  | synchronizeProbes =>
    have hall := List.all_eq_true.1 (Bool.and_eq_true_iff.1 hr).2
    exact { hm with probes := fun _ op hop => Option.isNone_iff_eq_none.1 (hall op hop) }
  | cancelGc =>
    have hall := List.all_eq_true.1 (Bool.and_eq_true_iff.1 hr).2
    exact { hm with gc := fun _ op hop => by simpa using hall op hop }
  | freeCache =>
    have hfree := freeAll_empty hm.cache.linked
    exact { hm with cache := hfree.1, empty := fun _ => hfree.2 }
  | clearPolicies => exact { hm with policies := fun _ => rfl }
  | cancelFlush => exact { hm with quiet := fun _ h0 => ⟨h0, rfl⟩ }
  | synchronizeRcu => exact { hm with }

/-- Where nothing is registered and nothing is scheduled, nothing is under way. -/
theorem Holds.flight_nil (hm : Holds m) (hset : m.own.settled = true) (hgc : m.own.gc = false) : m.flight = [] := by
  refine List.eq_nil_iff_forall_not_mem.2 fun op hop => ?_
  rcases hm.kinds op hop with hp | hg
  · simp [hm.probes hset op hop] at hp
  · simp [hm.gc hgc op hop] at hg

end Memory

/-! ## Lists of several owners -/

section Owners

variable {l : List Owner} {o : Owner}

/-- What the others have does not change when the module takes back. -/
theorem filter_erase_ig (l : List Owner) : (l.erase .ig).filter (· ≠ .ig) = l.filter (· ≠ .ig) := by
  induction l with
  | nil => rfl
  | cons a l ih =>
    by_cases ha : a = .ig
    · subst ha
      simp
    · rw [List.erase_cons_tail (by simpa using ha), List.filter_cons, List.filter_cons, ih]

/-- Another party takes back from what the others have. -/
theorem filter_erase_other (ho : o ≠ .ig) : (l.erase o).filter (· ≠ .ig) = (l.filter (· ≠ .ig)).erase o := by
  induction l with
  | nil => rfl
  | cons a l ih =>
    by_cases ha : a = o
    · subst ha
      simp [ho]
    · rw [List.erase_cons_tail (by simpa using ha), List.filter_cons, List.filter_cons, ih]
      split
      · rw [List.erase_cons_tail (by simpa using ha)]
      · rfl

end Owners

/-! ## Every run -/

section Runs

variable {b : Build} {x : Machine} {m : Module}

def Phase.Sound (b : Build) (o : Own) : Phase → Prop
  | .loading code =>
    Prog.Sound (calls b) (fun ret o => (ret = 0 ∧ o.Up b) ∨ (ret < 0 ∧ o.Down ∧ o.failedAt ≠ none)) code o
  | .loaded => o.Up b
  | .unloading code => Prog.Sound (calls b) (fun _ o => o.Down ∧ o.failedAt = none) code o

/-- The module in memory is as its code relies on. -/
structure Runs (b : Build) (h : Host) (kept : Nr → Handler) (m : Module) : Prop where
  own : m.own.Inv b
  shares : Shares m.own m.orig h kept
  holds : Holds m
  phase : m.phase.Sound b m.own

/-- What is left of a module that is gone: nothing, but where the callbacks were registered in part when a call
failed, where the device took requests before one did, or where calls were inside a hook at the end. -/
structure Gone (m : Module) : Prop where
  failed : m.own.failedAt = none ↔ ∃ ret, m.phase = .unloading (.done ret)
  cache : (∀ held ∈ m.own.failedAt, ¬ Partly held) → (∀ p, m.cache.mem p = none) ∧ m.flight = []
  policies : (∀ held ∈ m.own.failedAt, Slot.cdev ∉ held) → m.policies = []
  hooks : m.insideAtCancel = 0 → m.inside = 0 ∧ m.flush = false

structure Machine.Inv (b : Build) (x : Machine) : Prop where
  others : ∀ s, (x.host.lists s).filter (· ≠ .ig) = x.alone.lists s
  keptOther : ∀ nr, (x.kept nr).isIg = false
  keptAlone : ∀ nr ∉ b.tableNrs, x.kept nr = x.alone.table nr
  absent : x.igLkm = none → (∀ s, Owner.ig ∉ x.host.lists s) ∧ x.host.table = x.kept
  present : ∀ m, x.igLkm = some m → Runs b x.host x.kept m
  gone : ∀ m ∈ x.gone, Gone m

theorem inv_boot (b : Build) (lists : Slot → List Nat) (table : Nr → Nat) : (Machine.boot lists table).Inv b where
  others s := by
    show ((lists s).map Owner.other).filter (· ≠ .ig) = (lists s).map Owner.other
    rw [List.filter_eq_self]
    simp
  keptOther _ := rfl
  keptAlone _ _ := rfl
  absent _ := ⟨fun s => by simp [Machine.boot], rfl⟩
  present := by rintro m ⟨⟩
  gone := by rintro m ⟨⟩

/-- The module's calls leave the entries of the others. -/
theorem filter_perform (h : Host) (m : Module) (c : KernelCall) (r : Int) (s : Slot) :
    ((h.perform m c r).lists s).filter (· ≠ .ig) = (h.lists s).filter (· ≠ .ig) := by
  cases c with
  | register t =>
    show ((if r = 0 then h.add t .ig else h).lists s).filter _ = _
    split
    · rw [Host.lists_add]
      split <;> simp
    · rfl
  | unregister t =>
    show ((h.remove t .ig).lists s).filter _ = _
    rw [Host.lists_remove]
    split
    · exact filter_erase_ig _
    · rfl
  | _ => rfl

/-- A step of the module that only its own memory sees. -/
theorem Machine.Inv.setModule (hx : x.Inv b) {f : Module → Module}
    (hf : ∀ m, Runs b x.host x.kept m → Runs b x.host x.kept (f m)) : (x.setModule f).Inv b where
  others := hx.others
  keptOther := hx.keptOther
  keptAlone := hx.keptAlone
  absent hnone := hx.absent (Option.map_eq_none_iff.1 hnone)
  present m hm := by
    obtain ⟨m', hm', rfl⟩ := Option.map_eq_some_iff.1 hm
    exact hf m' (hx.present m' hm')
  gone := hx.gone

theorem Runs.answer (hm : Runs b x.host x.kept m) {phase : Code Int → Phase} {Q : Int → Own → Prop} {c : KernelCall}
    {k : Int → Code Int} {r : Int} (hphase : ∀ code o, (phase code).Sound b o ↔ Prog.Sound (calls b) Q code o)
    (hcode : m.phase = phase (.call c k)) (hr : m.mayAnswer c r = true) :
    Runs b (x.host.perform m c r) x.kept { m.perform x.host c r with phase := phase (k r) } := by
  have hsound : Prog.Sound (calls b) Q (.call c k) m.own := (hphase _ _).1 (hcode ▸ hm.phase)
  have hans := answers_of_mayAnswer hr
  have hok : m.own.Ok b c := hsound.1
  have hholds : Holds (m.perform x.host c r) := hm.holds.perform hok hr
  refine ⟨?_, hm.shares.perform hok, { hholds with }, (hphase _ _).2 ?_⟩
  · show (m.perform x.host c r).own.Inv b
    rw [own_perform]
    exact hm.own.after hok
  · show Prog.Sound (calls b) Q (k r) (m.perform x.host c r).own
    rw [own_perform]
    exact hsound.answer hans

theorem Runs.down (hm : Runs b x.host x.kept m) (hdown : m.own.Down)
    (hfailed : m.own.failedAt = none ↔ ∃ ret, m.phase = .unloading (.done ret)) : Gone m where
  failed := hfailed
  cache hno := by
    have hcl := hdown.cleared hno
    obtain ⟨hset, hgc⟩ := hm.own.cleared hcl
    exact ⟨hm.holds.empty hcl, hm.holds.flight_nil hset hgc⟩
  policies hno := hm.holds.policies (hdown.noPolicies hno)
  hooks := hm.holds.quiet hdown.cancelled

/-- A module that has taken everything back can go. -/
theorem Machine.Inv.leaves (hx : x.Inv b) (hm : Runs b x.host x.kept m) (hdown : m.own.Down)
    (hfailed : m.own.failedAt = none ↔ ∃ ret, m.phase = .unloading (.done ret)) : (x.leaves m).Inv b where
  others := hx.others
  keptOther := hx.keptOther
  keptAlone := hx.keptAlone
  absent _ := by
    refine ⟨fun s => ?_, funext fun nr => hm.shares.outside nr (by simp [hdown.window])⟩
    have hcount := hm.shares.held s
    rw [hdown.held, List.count_nil] at hcount
    exact List.count_eq_zero.1 hcount
  present := by rintro m ⟨⟩
  gone m' hm' := by
    rcases List.mem_cons.1 hm' with rfl | hm'
    · exact hm.down hdown hfailed
    · exact hx.gone m' hm'

/-- The code of the module goes on. -/
theorem Machine.Inv.answer (hx : x.Inv b) (hm : Runs b x.host x.kept m) {phase : Code Int → Phase}
    {Q : Int → Own → Prop} {c : KernelCall} {k : Int → Code Int}
    (hphase : ∀ code o, (phase code).Sound b o ↔ Prog.Sound (calls b) Q code o) (hcode : m.phase = phase (.call c k))
    (r : Int) : (x.answer m phase c k r).Inv b := by
  unfold Machine.answer
  split
  · next hr =>
    refine ⟨fun s => ?_, hx.keptOther, hx.keptAlone, fun h => absurd h (Option.some_ne_none _), fun m' hm' => ?_,
      hx.gone⟩
    · rw [← hx.others s]
      exact filter_perform x.host m c r s
    · obtain rfl := Option.some.inj hm'
      exact hm.answer hphase hcode hr
  · exact hx

theorem Machine.Inv.proceed (hx : x.Inv b) (hsome : x.igLkm = some m) (r : Int) : (x.proceed m r).Inv b := by
  have hm := hx.present m hsome
  unfold Machine.proceed
  cases hphase : m.phase with
  | loading code =>
    have hsound := hm.phase
    rw [hphase] at hsound
    cases code with
    | done ret =>
      rcases hsound with ⟨rfl, hup⟩ | ⟨hlt, hdown, hfailed⟩
      · refine { hx with absent := fun h => absurd h (Option.some_ne_none _), present := fun m' hm' => ?_ }
        obtain rfl := Option.some.inj hm'
        exact { hm with holds := { hm.holds with }, phase := hup }
      · dsimp only
        rw [if_neg hlt.ne]
        refine hx.leaves hm hdown ⟨fun h => absurd h hfailed, ?_⟩
        rintro ⟨ret', h⟩
        rw [hphase] at h
        cases h
    | call c k => exact hx.answer hm (fun _ _ => Iff.rfl) hphase r
  | loaded => exact hx
  | unloading code =>
    have hsound := hm.phase
    rw [hphase] at hsound
    cases code with
    | done ret => exact hx.leaves hm hsound.1 ⟨fun _ => ⟨ret, hphase⟩, fun _ => hsound.2⟩
    | call c k => exact hx.answer hm (fun _ _ => Iff.rfl) hphase r

theorem runs_fresh (hx : x.Inv b) (hnone : x.igLkm = none) (tasks : List (Task × Bool)) :
    Runs b x.host x.kept (Module.fresh b tasks) where
  own := Own.inv_fresh b
  shares := by
    obtain ⟨habsent, htable⟩ := hx.absent hnone
    refine ⟨fun s => List.count_eq_zero.2 (habsent s), ?_, fun nr _ => congrFun htable nr⟩
    rintro nr ⟨⟩
  holds :=
    { cache := ProcCache.consistent_empty
      kinds := by rintro op ⟨⟩
      probes := by rintro - op ⟨⟩
      gc := by rintro - op ⟨⟩
      empty := fun _ _ => rfl
      policies := fun _ => rfl
      quiet := fun _ _ => ⟨rfl, rfl⟩ }
  phase := sound_igLkmInit b tasks

/-- Another party registers: the module's entries are the same, and the others' one more. -/
theorem Machine.Inv.add (hx : x.Inv b) (s : Slot) (n : Nat) {x' : Machine}
    (hx' : x' = { x with host := x.host.add s (.other n), alone := x.alone.add s (.other n) }) : x'.Inv b := by
  subst hx'
  have hcount : ∀ s', ((x.host.add s (.other n)).lists s').count .ig = (x.host.lists s').count .ig := fun s' => by
    rw [Host.lists_add]
    split <;> simp
  refine ⟨fun s' => ?_, hx.keptOther, hx.keptAlone, fun hnone => ⟨fun s' => ?_, (hx.absent hnone).2⟩, fun m hm => ?_,
    hx.gone⟩
  · show ((x.host.add s (.other n)).lists s').filter _ = (x.alone.add s (.other n)).lists s'
    rw [Host.lists_add, Host.lists_add, ← hx.others s']
    split <;> simp
  · rw [← List.count_eq_zero, hcount, List.count_eq_zero]
    exact (hx.absent hnone).1 s'
  · have hrun := hx.present m hm
    exact { hrun with shares := { hrun.shares with held := fun s' => (hcount s').trans (hrun.shares.held s') } }

theorem Machine.Inv.remove (hx : x.Inv b) (s : Slot) (n : Nat) {x' : Machine}
    (hx' : x' = { x with host := x.host.remove s (.other n), alone := x.alone.remove s (.other n) }) : x'.Inv b := by
  subst hx'
  have hcount : ∀ s', ((x.host.remove s (.other n)).lists s').count .ig = (x.host.lists s').count .ig := fun s' => by
    rw [Host.lists_remove]
    split
    · exact List.count_erase_of_ne (by simp)
    · rfl
  refine ⟨fun s' => ?_, hx.keptOther, hx.keptAlone, fun hnone => ⟨fun s' => ?_, (hx.absent hnone).2⟩, fun m hm => ?_,
    hx.gone⟩
  · show ((x.host.remove s (.other n)).lists s').filter _ = (x.alone.remove s (.other n)).lists s'
    rw [Host.lists_remove, Host.lists_remove, ← hx.others s']
    split
    · exact filter_erase_other (by simp)
    · rfl
  · rw [← List.count_eq_zero, hcount, List.count_eq_zero]
    exact (hx.absent hnone).1 s'
  · have hrun := hx.present m hm
    exact { hrun with shares := { hrun.shares with held := fun s' => (hcount s').trans (hrun.shares.held s') } }

theorem Machine.Inv.store (hx : x.Inv b) (nr : Nr) (f : Handler) : (x.store nr f).Inv b := by
  unfold Machine.store
  cases hf : f.isIg with
  | true =>
    rw [if_pos rfl]
    split
    · next hin =>
      -- the module has the entry: it is loaded, and keeps the handler it replaced
      unfold Machine.window at hin
      cases hsome : x.igLkm with
      | none => simp [hsome] at hin
      | some m =>
        rw [hsome] at hin
        refine { hx with absent := fun h => absurd (h : some m = none) (Option.some_ne_none m),
                         present := fun m' hm' => ?_ }
        obtain rfl : m = m' := Option.some.inj (hsome ▸ hm')
        have hrun := hx.present m hsome
        exact { hrun with shares := hrun.shares.install hin f }
    · exact hx
  | false =>
    rw [if_neg (by simp)]
    refine ⟨hx.others, fun nr' => ?_, fun nr' hnr' => ?_, fun hnone => ⟨(hx.absent hnone).1, ?_⟩, fun m hm => ?_,
      hx.gone⟩
    · dsimp only
      split
      · exact hx.keptOther nr'
      · by_cases hne : nr' = nr
        · subst hne
          simpa using hf
        · rw [Function.update_of_ne hne]
          exact hx.keptOther nr'
    · show (if nr ∈ x.window then x.kept else Function.update x.kept nr f) nr' = Function.update x.alone.table nr f nr'
      split
      · next hin =>
        have hne : nr' ≠ nr := by
          rintro rfl
          unfold Machine.window at hin
          cases hsome : x.igLkm with
          | none => simp [hsome] at hin
          | some m =>
            rw [hsome] at hin
            exact hnr' ((hx.present m hsome).own.windowNrs nr' hin)
        rw [Function.update_of_ne hne]
        exact hx.keptAlone nr' hnr'
      · by_cases hne : nr' = nr
        · subst hne
          rw [Function.update_self, Function.update_self]
        · rw [Function.update_of_ne hne, Function.update_of_ne hne]
          exact hx.keptAlone nr' hnr'
    · have hnil : x.window = [] := by simp only [Machine.window, show x.igLkm = none from hnone]
      show Function.update x.host.table nr f = if nr ∈ x.window then x.kept else Function.update x.kept nr f
      rw [if_neg (by simp [hnil]), (hx.absent hnone).2]
    · have hrun := hx.present m hm
      have hwin : x.window = m.own.window := by simp only [Machine.window, show x.igLkm = some m from hm]
      refine { hrun with shares := ?_ }
      show Shares m.own m.orig (x.host.store nr f) (if nr ∈ x.window then x.kept else Function.update x.kept nr f)
      rw [hwin]
      split
      · next hin => exact hrun.shares.install hin f
      · next hout => exact hrun.shares.storeOutside hout f

/-- What starts, runs and ends on the module's memory. -/
theorem Runs.enter (hm : Runs b x.host x.kept m) (op : CacheOp) : Runs b x.host x.kept (m.enter x.host op) := by
  unfold Module.enter
  split
  · next hmay =>
    unfold Module.mayEnter at hmay
    have hkind : (opProbe op).isSome ∨ opIsGc op = true := by
      cases hp : opProbe op with
      | some p => exact .inl rfl
      | none =>
        rw [hp] at hmay
        exact .inr (Bool.and_eq_true_iff.1 hmay).1
    refine { hm with holds := { hm.holds with kinds := fun op' hop' => ?_, probes := fun hset op' hop' => ?_,
                                              gc := fun hgc op' hop' => ?_ } }
    · rcases List.mem_append.1 hop' with hop' | hop'
      · exact hm.holds.kinds op' hop'
      · rw [List.mem_singleton.1 hop']
        exact hkind
    · rcases List.mem_append.1 hop' with hop' | hop'
      · exact hm.holds.probes hset op' hop'
      · rw [List.mem_singleton.1 hop']
        cases hp : opProbe op with
        | none => rfl
        | some p =>
          -- a callback that starts is registered
          rw [hp] at hmay
          have hmem : Slot.probe p ∈ m.own.held := by
            rw [← List.count_pos_iff, ← hm.shares.held]
            exact List.count_pos_iff.2 (by simpa using hmay)
          exact absurd (hm.own.settled hset _ hmem) (by simp [Slot.isProbe])
    · rcases List.mem_append.1 hop' with hop' | hop'
      · exact hm.holds.gc hgc op' hop'
      · rw [List.mem_singleton.1 hop']
        cases hp : opProbe op with
        | some p => cases op <;> first | rfl | cases hp
        | none =>
          rw [hp] at hmay
          have hon : m.own.gc = true := (Bool.and_eq_true_iff.1 hmay).2
          exact absurd (hon.symm.trans hgc) (by decide)
  · exact hm

theorem Runs.leave (hm : Runs b x.host x.kept m) (i : Nat) : Runs b x.host x.kept (m.leave i) := by
  unfold Module.leave
  split
  · next op hop =>
    have hmem : op ∈ m.flight := List.mem_of_getElem? hop
    have hsub : ∀ op' ∈ m.flight.eraseIdx i, op' ∈ m.flight := fun op' h => List.mem_of_mem_eraseIdx h
    refine { hm with holds := { hm.holds with
      cache := hm.holds.cache.step op, kinds := fun op' h => hm.holds.kinds op' (hsub op' h),
      probes := fun hset op' h => hm.holds.probes hset op' (hsub op' h),
      gc := fun hgc op' h => hm.holds.gc hgc op' (hsub op' h), empty := fun hcl => ?_ } }
    obtain ⟨hset, hgc⟩ := hm.own.cleared hcl
    rw [hm.holds.flight_nil hset hgc] at hmem
    exact absurd hmem List.not_mem_nil
  · exact hm

theorem Runs.ioctl (hm : Runs b x.host x.kept m) (req : IoctlReq) : Runs b x.host x.kept (m.ioctl x.host req) := by
  unfold Module.ioctl
  split
  · next hcdev =>
    refine { hm with holds := { hm.holds with policies := fun hno => ?_ } }
    have hmem : Slot.cdev ∈ m.own.held := by
      rw [← List.count_pos_iff, ← hm.shares.held]
      exact List.count_pos_iff.2 hcdev
    exact absurd hmem (hm.own.noPolicies hno)
  · exact hm

/-- No call runs into a hook once the hooks are out. -/
theorem Runs.callIn (hm : Runs b x.host x.kept m) {hooked : Bool}
    (hout : m.own.cancelled = true → hooked = false) : Runs b x.host x.kept (m.callIn hooked) := by
  unfold Module.callIn
  split
  · next hin =>
    exact { hm with holds := { hm.holds with quiet := fun hca => absurd (hin.symm.trans (hout hca)) (by decide) } }
  · exact hm

theorem Runs.callEnqueue (hm : Runs b x.host x.kept m) : Runs b x.host x.kept m.callEnqueue := by
  unfold Module.callEnqueue
  split
  · next hpos =>
    refine { hm with holds := { hm.holds with quiet := fun hca h0 => ?_ } }
    have hzero : m.inside = 0 := (hm.holds.quiet hca h0).1
    omega
  · exact hm

/-- Every step of the module, of another module, of a callback, of the device or of a call keeps the invariant. -/
theorem Machine.Inv.step (hx : x.Inv b) (a : MachineAct) : (x.step b a).Inv b := by
  cases a with
  | insmod tasks =>
    unfold Machine.step
    cases hsome : x.igLkm with
    | none =>
      refine { hx with absent := fun h => absurd h (Option.some_ne_none _), present := fun m hm => ?_ }
      obtain rfl := Option.some.inj hm
      exact runs_fresh hx hsome tasks
    | some m => exact hx
  | rmmod =>
    refine hx.setModule fun m hm => ?_
    unfold Machine.rmmod
    cases hphase : m.phase with
    | loading code => exact hm
    | loaded =>
      have hup := hm.phase
      rw [hphase] at hup
      exact { hm with holds := { hm.holds with }, phase := sound_igLkmExit hup }
    | unloading code => exact hm
  | proceed r =>
    unfold Machine.step
    cases hsome : x.igLkm with
    | none => exact hx
    | some m => exact hx.proceed hsome r
  | add s n => exact hx.add s n rfl
  | remove s n => exact hx.remove s n rfl
  | store nr f => exact hx.store nr f
  | enter op => exact hx.setModule fun m hm => hm.enter op
  | leave i => exact hx.setModule fun m hm => hm.leave i
  | ioctl req => exact hx.setModule fun m hm => hm.ioctl req
  | callHook h =>
    refine hx.setModule fun m hm => hm.callIn fun hca => decide_eq_false fun hmem => ?_
    have hheld : Slot.hook h ∈ m.own.held := by
      rw [← List.count_pos_iff, ← hm.shares.held]
      exact List.count_pos_iff.2 hmem
    exact absurd ((hm.own.cancelled hca).1 _ hheld) (by simp [Slot.isHook])
  | callEntry nr =>
    refine hx.setModule fun m hm => hm.callIn fun hca => ?_
    rw [hm.shares.outside nr (by simp [(hm.own.cancelled hca).2])]
    exact hx.keptOther nr
  | callEnqueue => exact hx.setModule fun m hm => hm.callEnqueue
  | callOut =>
    refine hx.setModule fun m hm => { hm with holds := { hm.holds with quiet := fun hca h0 => ?_ } }
    obtain ⟨hin, hfl⟩ := hm.holds.quiet hca h0
    exact ⟨by show m.inside - 1 = 0; rw [hin], hfl⟩
  | flushWork =>
    refine hx.setModule fun m hm => { hm with holds := { hm.holds with quiet := fun hca h0 => ?_ } }
    exact ⟨(hm.holds.quiet hca h0).1, rfl⟩

theorem inv_runMachine (b : Build) (lists : Slot → List Nat) (table : Nr → Nat) (acts : List MachineAct) :
    (runMachine b lists table acts).Inv b :=
  List.foldlRecOn acts (Machine.step b) (inv_boot b lists table) fun _ hx a _ => hx.step a

end Runs

/-! ## Loading and unloading end -/

section Ends

variable {b : Build} {x : Machine} {m : Module}

/-- An answer that a call can get once nothing is under way. -/
def someAnswer (m : Module) : KernelCall → Int
  | .lookup _ => 1
  | .read g => if g ∈ m.own.globals then 1 else 0
  | .preload _ => if m.cache.count ≥ igPcMaxEntries then 1 else 0
  | _ => 0

theorem mayAnswer_someAnswer (hflight : m.flight = []) (c : KernelCall) : m.mayAnswer c (someAnswer m c) = true := by
  unfold Module.mayAnswer someAnswer Own.answers
  cases c with
  | register s => cases s <;> rfl
  | lookup sym => rfl
  | read g => simp
  | preload t => simp
  | synchronizeProbes => simp [hflight]
  | cancelGc => simp [hflight]
  | _ => rfl

theorem flight_perform (m : Module) (h : Host) (c : KernelCall) (r : Int) : (m.perform h c r).flight = m.flight := by
  cases c <;> rfl

/-- The module is in the state, with nothing under way. -/
def Quiet (P : Phase → Prop) (x : Machine) : Prop := ∃ m, x.igLkm = some m ∧ m.flight = [] ∧ P m.phase

/-- What is under way comes to its end. -/
theorem reaches_quiet (x : Machine) (m : Module) (hsome : x.igLkm = some m) :
    CanReach (Machine.step b) (Quiet (· = m.phase)) x := by
  induction hn : m.flight generalizing x m with
  | nil => exact canReach_here ⟨m, hsome, hn, rfl⟩
  | cons op ops ih =>
    have hstep : (x.step b (.leave 0)).igLkm = some { m with cache := m.cache.step op, flight := ops } := by
      show x.igLkm.map (fun m => m.leave 0) = _
      simp [hsome, Module.leave, hn]
    exact .next (.leave 0) (ih _ { m with cache := m.cache.step op, flight := ops } hstep rfl)

/-- The code of a phase comes to its end. -/
theorem reaches_done {phase : Code Int → Phase}
    (hphase : ∀ (x : Machine) (m : Module) c k r, m.phase = phase (.call c k) → x.proceed m r = x.answer m phase c k r)
    (code : Code Int) (x : Machine) (hx : Quiet (· = phase code) x) :
    CanReach (Machine.step b) (Quiet fun p => ∃ ret, p = phase (.done ret)) x := by
  obtain ⟨m, hsome, hflight, hcode⟩ := hx
  induction code generalizing x m with
  | done ret => exact canReach_here ⟨m, hsome, hflight, ret, hcode⟩
  | call c k ih =>
    have hstep : (x.step b (.proceed (someAnswer m c))).igLkm =
        some { m.perform x.host c (someAnswer m c) with phase := phase (k (someAnswer m c)) } := by
      simp only [Machine.step, hsome]
      rw [hphase x m c k _ hcode, Machine.answer, if_pos (mayAnswer_someAnswer hflight c)]
    exact .next _ (ih _ _ _ hstep ((flight_perform m _ c _).trans hflight) rfl)

/-- A module that unloads gets to its end. -/
theorem reaches_unloaded {code : Code Int} (hx : Quiet (· = .unloading code) x) :
    CanReach (Machine.step b) (·.igLkm = none) x := by
  have hdone := reaches_done (b := b) (fun x m c k r h => by simp only [Machine.proceed, h]) code x hx
  refine hdone.trans fun y hy => ?_
  obtain ⟨m, hsome, -, ret, hphase⟩ := hy
  refine .next (.proceed 0) (canReach_here ?_)
  simp only [Machine.step, hsome, Machine.proceed, hphase]
  rfl

theorem reaches_unloaded_of_loaded (hx : Quiet (· = .loaded) x) : CanReach (Machine.step b) (·.igLkm = none) x := by
  obtain ⟨m, hsome, hflight, hphase⟩ := hx
  have hstep : (x.step b .rmmod).igLkm = some { m with phase := .unloading (igLkmExit b) } := by
    show x.igLkm.map (Machine.rmmod b) = _
    simp [hsome, Machine.rmmod, hphase]
  exact .next .rmmod (reaches_unloaded ⟨_, hstep, hflight, rfl⟩)

/-- A module that loads fails, or gets to where it can be unloaded. -/
theorem reaches_unloaded_of_loading {code : Code Int} (hx : Quiet (· = .loading code) x) :
    CanReach (Machine.step b) (·.igLkm = none) x := by
  have hdone := reaches_done (b := b) (fun x m c k r h => by simp only [Machine.proceed, h]) code x hx
  refine hdone.trans fun y hy => ?_
  obtain ⟨m, hsome, hflight, ret, hphase⟩ := hy
  refine .next (.proceed 0) ?_
  simp only [Machine.step, hsome, Machine.proceed, hphase]
  split
  · exact reaches_unloaded_of_loaded ⟨_, rfl, hflight, rfl⟩
  · exact canReach_here rfl

end Ends

/-! ## Main results -/

/-- Below an entry of the module's in one of the kernel's lists, or in the system call table, everything that it relies
on is registered, and no list holds the module twice. -/
structure Host.InOrder (h : Host) : Prop where
  layered : ∀ s s' : Slot, .ig ∈ h.lists s → 0 < s'.level → s'.level < s.level → .ig ∈ h.lists s'
  tableStands : ∀ nr s', (h.table nr).isIg = true → 0 < s'.level → s'.level < 8 → .ig ∈ h.lists s'
  once : ∀ s, (h.lists s).count .ig ≤ 1

section Main

variable (b : Build) (lists : Slot → List Nat) (table : Nr → Nat) (acts : List MachineAct)

/-- In every run, whatever of the module's is registered or in the system call table, everything that it stands on is
registered too, and nothing twice. -/
theorem registered_in_order : (runMachine b lists table acts).host.InOrder := by
  have hx : (runMachine b lists table acts).Inv b := inv_runMachine b lists table acts
  generalize runMachine b lists table acts = x at hx ⊢
  cases hsome : x.igLkm with
  | none =>
    obtain ⟨habsent, htable⟩ := hx.absent hsome
    refine ⟨fun s _ hmem => absurd hmem (habsent s), fun nr _ hig => ?_, fun s => ?_⟩
    · rw [htable, hx.keptOther nr] at hig
      cases hig
    · rw [List.count_eq_zero.2 (habsent s)]
      exact Nat.zero_le 1
  | some m =>
    have hm := hx.present m hsome
    have hmem : ∀ s, .ig ∈ x.host.lists s ↔ s ∈ m.own.held := fun s => by
      rw [← List.count_pos_iff, hm.shares.held s, List.count_pos_iff]
    refine ⟨fun s s' hs hpos hlt => ?_, fun nr s' hig hpos hlt => ?_, fun s => ?_⟩
    · exact (hmem s').2 (hm.own.layered s ((hmem s).1 hs) s' hpos hlt)
    · have hin : nr ∈ m.own.window := by
        by_contra hout
        rw [hm.shares.outside nr hout, hx.keptOther nr] at hig
        cases hig
      exact (hmem s').2 (hm.own.windowStands (List.ne_nil_of_mem hin) s' hpos hlt)
    · rw [hm.shares.held s]
      exact List.nodup_iff_count.1 hm.own.nodup s

theorem alone_runMachine :
    (runMachine b lists table acts).alone = acts.foldl Host.others (Machine.boot lists table).host := by
  have halone : ∀ x : Machine, (acts.foldl (Machine.step b) x).alone = acts.foldl Host.others x.alone := by
    induction acts with
    | nil => exact fun x => rfl
    | cons a acts ih =>
      intro x
      rw [List.foldl_cons, List.foldl_cons, ih, alone_step]
  exact halone _

/-- In every run in which the module is not loaded at the end, whether it failed to load or was unloaded and how often,
the kernel's lists and the entries of the system call table that the build leaves alone are what the other parties
alone make of them; and the entries that the build changes have the others' stores but for those between `HOOK` and
`UNHOOK` of their entry. -/
theorem host_without_module (hnone : (runMachine b lists table acts).igLkm = none) :
    let x := runMachine b lists table acts
    let others := acts.foldl Host.others (Machine.boot lists table).host
    x.host.lists = others.lists ∧ (∀ nr ∉ b.tableNrs, x.host.table nr = others.table nr) ∧ x.host.table = x.kept := by
  intro x others
  have hx : x.Inv b := inv_runMachine b lists table acts
  have hothers : x.alone = others := alone_runMachine b lists table acts
  obtain ⟨habsent, htable⟩ := hx.absent hnone
  refine ⟨funext fun s => ?_, fun nr hnr => ?_, htable⟩
  · rw [← hothers, ← hx.others s, List.filter_eq_self.2]
    intro o ho
    simpa using ne_of_mem_of_not_mem ho (habsent s)
  · rw [htable, ← hothers]
    exact hx.keptAlone nr hnr

def answered (n : Nat) (answer : Int) : List MachineAct := List.replicate n (.proceed answer)

/-- A kernel 4.4. -/
def kernel44 : Build := ⟨4, 4, true, false⟩

/-- The module is loaded, another one adds a hook, and the module is unloaded. -/
def loadUnload : List MachineAct :=
  .insmod [] :: answered 2 0 ++ answered 3 1 ++ answered 11 0 ++ answered 1 1 ++ answered 8 0 ++
    .add (.hook .inodeUnlink) 5 :: .rmmod :: answered 13 0 ++ answered 2 1 ++ answered 1 0 ++ answered 2 1 ++
    answered 1 0 ++ answered 2 1 ++ answered 6 0

theorem host_without_module_loadUnload :
    (runMachine kernel44 (fun _ => []) (fun _ => 0) loadUnload).gone.length = 1 ∧
      (runMachine kernel44 (fun _ => []) (fun _ => 0) loadUnload).host.lists =
        (loadUnload.foldl Host.others (Machine.boot (fun _ => []) (fun _ => 0)).host).lists :=
  ⟨by decide, (host_without_module kernel44 (fun _ => []) (fun _ => 0) loadUnload
    (Option.isNone_iff_eq_none.1 (by decide))).1⟩

/-- In every run, nothing is left of a module that was unloaded or failed to load, but where the callbacks were
registered in part when a call failed, where the device took requests before one did, or where calls were inside a hook
when the flush work was cancelled. -/
theorem gone_clean : ∀ m ∈ (runMachine b lists table acts).gone, Gone m := (inv_runMachine b lists table acts).gone

theorem gone_clean_loadUnload :
    ∃ m, (runMachine kernel44 (fun _ => []) (fun _ => 0) loadUnload).gone = [m] ∧ Gone m := by
  obtain ⟨m, hm⟩ := List.length_eq_one_iff.1
    (by decide : (runMachine kernel44 (fun _ => []) (fun _ => 0) loadUnload).gone.length = 1)
  exact ⟨m, hm, gone_clean kernel44 (fun _ => []) (fun _ => 0) loadUnload m (hm ▸ List.mem_singleton_self m)⟩

/-- The exec callback cannot be registered, and a process was forked before: its entry stays allocated. -/
def execProbeFails : List MachineAct :=
  .insmod [] :: answered 2 0 ++ answered 3 1 ++ answered 2 0 ++ .enter (.fork shell .inserted) :: .leave 0 ::
    answered 1 negEnomem ++ answered 3 0

example : (runMachine kernel44 (fun _ => []) (fun _ => 0) execProbeFails).gone.map
    (fun m => (m.own.failedAt, (m.cache.mem 0).isSome)) = [(some [.probe .fork], true)] := by decide

/-- From every state that a run reaches, the module can be brought out: neither loading nor unloading gets stuck. -/
theorem can_unload : CanReach (Machine.step b) (·.igLkm = none) (runMachine b lists table acts) := by
  cases hsome : (runMachine b lists table acts).igLkm with
  | none => exact canReach_here hsome
  | some m =>
    refine (reaches_quiet _ m hsome).trans fun y hy => ?_
    cases hphase : m.phase with
    | loading code => exact reaches_unloaded_of_loading (hphase ▸ hy)
    | loaded => exact reaches_unloaded_of_loaded (hphase ▸ hy)
    | unloading code => exact reaches_unloaded (hphase ▸ hy)

end Main

end KnIg.Lkm.Lifecycle
