/-
Loading and unloading the kernel module, as programs of calls to the kernel: `ig_lkm_init` with the process cache, the
character device and the hooks of each build, the labels it unwinds through, and `ig_lkm_exit`. What the module has
registered is a stack that grows in one order (the callbacks of the process cache, the device, the hooks) and shrinks
the other way, so that nothing is ever registered without what it relies on, a load that fails leaves nothing
registered, and unloading neither. Which calls failed decides what may be left in the module's memory.
-/
import KnIg.Lib.Prog
import KnIg.Lkm.CacheShape
import KnIg.Lkm.Client
import KnIg.Lkm.Hooks

namespace KnIg.Lkm.Lifecycle

open Lib

/-! ## Builds -/

/-- The source of the hooks that the module is linked with. -/
inductive HooksObj where
  | lkm310 | lkm42 | lkm415 | lkm417Syscall
deriving DecidableEq

/-- The kernel's version, whether its headers define `__NR_renameat2`, and whether the build is made with
`HOOKS_IMPL=syscall`. -/
structure Build where
  major : Nat
  minor : Nat
  nrRenameat2 : Bool
  syscall : Bool

namespace Build

variable (b : Build)

/-- `KVER_NUM` of the makefile. -/
def kverNum : Nat := b.major * 100 + b.minor

/-- `HOOKS_OBJ` of the makefile. -/
def hooksObj : HooksObj :=
  if b.syscall then if b.kverNum ≥ 417 then .lkm417Syscall else .lkm310
  else if b.kverNum ≥ 415 then .lkm415
  else if b.kverNum ≥ 402 then .lkm42
  else .lkm310

/-- `LINUX_VERSION_CODE >= KERNEL_VERSION(major, minor, 0)`. -/
def atLeast (major minor : Nat) : Bool := b.major > major || (b.major == major && b.minor ≥ minor)

/-- The calls that `ig_hooks_init` of the two syscall sources hooks, in its order. -/
def syscallNrs : List Nr :=
  [.write, .truncate, .ftruncate, .sysOpen, .openat, .creat, .unlink, .unlinkat, .rename, .renameat] ++
    (if b.nrRenameat2 then [.renameat2] else []) ++
    [.chmod, .fchmodat, .chown, .fchownat, .link, .linkat, .setxattr, .lsetxattr, .fsetxattr]

/-- The entries of the system call table that the build changes. -/
def tableNrs : List Nr :=
  match b.hooksObj with
  | .lkm42 => []
  | .lkm415 => []
  | .lkm310 => b.syscallNrs
  | .lkm417Syscall => b.syscallNrs

end Build

/-! ## The calls to the kernel -/

/-- The tracepoints of the process cache. -/
inductive Probe where
  | fork | exec | exit
deriving DecidableEq

/-- The members of `security_hook_heads` that the module adds to. -/
inductive LsmHook where
  | inodePermission | mmapFile | inodeUnlink | inodeRename | inodeLink | inodeSetxattr | inodeSetattr
deriving DecidableEq

/-- `ig_hooks` of the two LSM sources. -/
def igHooks : List LsmHook :=
  [.inodePermission, .mmapFile, .inodeUnlink, .inodeRename, .inodeLink, .inodeSetxattr, .inodeSetattr]

/-- Where the module registers something of its own. -/
inductive Slot where
  | kprobe
  | probe (p : Probe)
  | chrdevRegion
  | cdev
  | chrdevClass
  | device
  | hook (h : LsmHook)
deriving DecidableEq

/-- What the module looks up by its name. -/
inductive Symbol where
  | tracepoint (p : Probe)
  | securityHookHeads
  | sysCallTable
deriving DecidableEq

/-- The module's variables that its exit functions test: `g_fork_reg` and the like, and the pointers it found. -/
inductive Global where
  | reg (p : Probe)
  | pointer (sym : Symbol)
deriving DecidableEq

inductive KernelCall where
  | register (s : Slot)
  | unregister (s : Slot)
  | lookup (sym : Symbol)
  | setReg (p : Probe) (value : Bool)
  | read (g : Global)
  /-- the two assignments of `HOOK`, and the one of `UNHOOK` -/
  | saveOriginal (nr : Nr)
  | install (nr : Nr)
  | restore (nr : Nr)
  | hashInitPolicies
  | hashInitCache
  /-- the locked section of the preload for one task; the answer says whether the cache was full -/
  | preload (t : Task)
  | scheduleGc
  | synchronizeProbes
  | cancelGc
  | freeCache
  | clearPolicies
  | cancelFlush
  | synchronizeRcu

/-- Code of the module. The kernel's answers are return codes, and 0 for a null pointer. -/
abbrev Code := Prog KernelCall Int

def negEnoent : Int := -2

def send (c : KernelCall) : Code Int := Prog.send c

/-- A call whose answer the code ignores. -/
def tell (c : KernelCall) : Code Unit := .call c fun _ => .done ()

/-! ## The process cache -/

/-- The address of `kallsyms_lookup_name`: from 5.7 on by way of a kprobe. -/
def resolveKallsyms (b : Build) : Code Int :=
  if b.atLeast 5 7 then do
    let ret ← send (.register .kprobe)
    if ret < 0 then pure ret else do
    tell (.unregister .kprobe)
    pure 0
  else pure 0

def pcResolveKallsyms (b : Build) : Code Int := resolveKallsyms b

/-- The loop of `ig_pc_preload` over the tasks that run, for each of which `kzalloc` may fail. -/
def igPcPreload : List (Task × Bool) → Code Unit
  | [] => pure ()
  | (t, allocated) :: tasks =>
    if allocated then do
      let full ← send (.preload t)
      if full ≠ 0 then pure () else igPcPreload tasks
    else igPcPreload tasks

def pcErr2 (ret : Int) : Code Int := do
  tell (.unregister (.probe .fork))
  tell (.setReg .fork false)
  pure ret

def pcErr3 (ret : Int) : Code Int := do
  tell (.unregister (.probe .exec))
  tell (.setReg .exec false)
  pcErr2 ret

/-- The registrations, which differ between kernels only in how they name the tracepoint, and what follows them. -/
def registerProbes (tasks : List (Task × Bool)) : Code Int := do
  let ret ← send (.register (.probe .fork))
  if ret ≠ 0 then pure ret else do
  tell (.setReg .fork true)
  let ret ← send (.register (.probe .exec))
  if ret ≠ 0 then pcErr2 ret else do
  tell (.setReg .exec true)
  let ret ← send (.register (.probe .exit))
  if ret ≠ 0 then pcErr3 ret else do
  tell (.setReg .exit true)
  igPcPreload tasks
  tell .scheduleGc
  pure 0

def igProcCacheInit (b : Build) (tasks : List (Task × Bool)) : Code Int := do
  tell .hashInitCache
  if b.atLeast 3 15 then do
    let ret ← pcResolveKallsyms b
    if ret ≠ 0 then pure ret else do
    let tpFork ← send (.lookup (.tracepoint .fork))
    let tpExec ← send (.lookup (.tracepoint .exec))
    let tpExit ← send (.lookup (.tracepoint .exit))
    if tpFork = 0 ∨ tpExec = 0 ∨ tpExit = 0 then pure negEnoent else
    registerProbes tasks
  else registerProbes tasks

/-- The line of `ig_proc_cache_exit` for one tracepoint. -/
def unregisterProbe (b : Build) (p : Probe) : Code Unit := do
  let reg ← send (.read (.reg p))
  if reg = 0 then pure () else
  if b.atLeast 3 15 then do
    let tp ← send (.read (.pointer (.tracepoint p)))
    if tp = 0 then pure () else tell (.unregister (.probe p))
  else tell (.unregister (.probe p))

def igProcCacheExit (b : Build) : Code Unit := do
  unregisterProbe b .exit
  unregisterProbe b .exec
  unregisterProbe b .fork
  tell .synchronizeProbes
  tell .cancelGc
  tell .freeCache

/-! ## The character device -/

def errCdev (ret : Int) : Code Int := do
  tell (.unregister .chrdevRegion)
  pure ret

def errClass (ret : Int) : Code Int := do
  tell (.unregister .cdev)
  errCdev ret

def errDevice (ret : Int) : Code Int := do
  tell (.unregister .chrdevClass)
  errClass ret

def igChardevInit : Code Int := do
  let ret ← send (.register .chrdevRegion)
  if ret ≠ 0 then pure ret else do
  let ret ← send (.register .cdev)
  if ret ≠ 0 then errCdev ret else do
  let ret ← send (.register .chrdevClass)
  if ret ≠ 0 then errClass ret else do
  let ret ← send (.register .device)
  if ret ≠ 0 then errDevice negEnomem else
  pure 0

def igChardevExit : Code Unit := do
  tell (.unregister .device)
  tell (.unregister .chrdevClass)
  tell (.unregister .cdev)
  tell (.unregister .chrdevRegion)

/-! ## The hooks -/

def igResolveKallsyms (b : Build) : Code Int := resolveKallsyms b

/-- The end of `ig_hooks_init` in both LSM sources. -/
def addHooks : Code Int := do
  let heads ← send (.lookup .securityHookHeads)
  if heads = 0 then pure negEnoent else do
  Prog.each (fun h => tell (.register (.hook h))) igHooks
  pure 0

namespace Lkm42

def igHooksInit : Code Int := addHooks

end Lkm42

namespace Lkm415

def igHooksInit (b : Build) : Code Int := do
  let ret ← igResolveKallsyms b
  if ret ≠ 0 then pure ret else
  addHooks

end Lkm415

/-- `ig_hooks_exit` of both LSM sources. -/
def delHooks : Code Unit := do
  Prog.each (fun h => tell (.unregister (.hook h))) igHooks
  tell .synchronizeRcu

/-- The macro `HOOK`. -/
def hook (nr : Nr) : Code Unit := do
  tell (.saveOriginal nr)
  tell (.install nr)

/-- `ig_hooks_init` of both syscall sources. -/
def hookTable (b : Build) : Code Int := do
  let table ← send (.lookup .sysCallTable)
  if table = 0 then pure negEnoent else do
  Prog.each hook b.syscallNrs
  pure 0

/-- `ig_hooks_exit` of both syscall sources. -/
def unhookTable (b : Build) : Code Unit := do
  let table ← send (.read (.pointer .sysCallTable))
  if table = 0 then pure () else
  Prog.each (fun nr => tell (.restore nr)) b.syscallNrs

def igHooksInit (b : Build) : Code Int :=
  match b.hooksObj with
  | .lkm42 => Lkm42.igHooksInit
  | .lkm415 => Lkm415.igHooksInit b
  | .lkm310 => hookTable b
  | .lkm417Syscall => hookTable b

def igHooksExit (b : Build) : Code Unit :=
  match b.hooksObj with
  | .lkm42 => delHooks
  | .lkm415 => delHooks
  | .lkm310 => unhookTable b
  | .lkm417Syscall => unhookTable b

/-! ## The module -/

def igLkmInit (b : Build) (tasks : List (Task × Bool)) : Code Int := do
  tell .hashInitPolicies
  let ret ← igProcCacheInit b tasks
  if ret ≠ 0 then pure ret else do
  let ret ← igChardevInit
  if ret ≠ 0 then do
    igProcCacheExit b
    pure ret
  else do
  let ret ← igHooksInit b
  if ret ≠ 0 then do
    igChardevExit
    igProcCacheExit b
    pure ret
  else pure 0

def igLkmExit (b : Build) : Code Int := do
  igHooksExit b
  tell .cancelFlush
  igChardevExit
  igProcCacheExit b
  tell .clearPolicies
  pure 0

/-! ## What the module holds -/

namespace Slot

/-- How far up the stack of registrations a slot is; the kprobe is not part of it. -/
def level : Slot → Nat
  | kprobe => 0
  | probe .fork => 1
  | probe .exec => 2
  | probe .exit => 3
  | chrdevRegion => 4
  | cdev => 5
  | chrdevClass => 6
  | device => 7
  | hook _ => 8

theorem eq_of_level {s s' : Slot} (h : s.level = s'.level) (hpos : 0 < s.level) (hlt : s.level < 8) : s = s' := by
  rcases s with _ | (_ | _ | _) | _ | _ | _ | _ | _ <;> rcases s' with _ | (_ | _ | _) | _ | _ | _ | _ | _ <;>
    simp_all [level]

def isProbe : Slot → Bool
  | probe _ => true
  | _ => false

def isHook : Slot → Bool
  | hook _ => true
  | _ => false

end Slot

/-- All slots below the level are held. -/
def Stands (held : List Slot) (n : Nat) : Prop := ∀ s : Slot, 0 < s.level → s.level < n → s ∈ held

/-- What only the module's own code changes. -/
structure Own where
  /-- the registrations, newest first -/
  held : List Slot
  /-- the entries of the system call table between `HOOK` and `UNHOOK` -/
  window : List Nr
  globals : List Global
  /-- the collector is scheduled -/
  gc : Bool
  /-- no callback of a tracepoint runs, and none can start -/
  settled : Bool
  /-- the process cache has no entry, and nothing can add one -/
  cleared : Bool
  /-- the policy table has no entry, and nothing can add one -/
  noPolicies : Bool
  /-- no hook is in place, and none has been since the flush work was last cancelled -/
  cancelled : Bool
  /-- what was held when a call failed -/
  failedAt : Option (List Slot)

namespace Own

def fresh : Own := ⟨[], [], [], false, true, true, true, true, none⟩

def registered (o : Own) (s : Slot) : Own :=
  { o with
    held := s :: o.held
    settled := o.settled && !s.isProbe
    cleared := o.cleared && !s.isProbe
    noPolicies := o.noPolicies && s ≠ .cdev
    cancelled := o.cancelled && !s.isHook }

def fail (o : Own) : Own := { o with failedAt := some o.held }

/-- What a call with its answer does. -/
def after (c : KernelCall) (r : Int) (o : Own) : Own :=
  match c with
  | .register s => if r = 0 then o.registered s else o.fail
  | .unregister s => { o with held := o.held.erase s }
  | .lookup sym => if r = 0 then o.fail else { o with globals := .pointer sym :: o.globals }
  | .setReg p true => { o with globals := .reg p :: o.globals }
  | .setReg p false => { o with globals := o.globals.filter (· ≠ .reg p) }
  | .read _ => o
  | .saveOriginal nr => { o with window := nr :: o.window, cancelled := false }
  | .install _ => o
  | .restore nr => { o with window := o.window.erase nr }
  | .hashInitPolicies => o
  | .hashInitCache => o
  | .preload _ => { o with cleared := false }
  | .scheduleGc => { o with gc := true, cleared := false }
  | .synchronizeProbes => { o with settled := true }
  | .cancelGc => { o with gc := false }
  | .freeCache => { o with cleared := true }
  | .clearPolicies => { o with noPolicies := true }
  | .cancelFlush => { o with cancelled := true }
  | .synchronizeRcu => o

/-- Which answers a call can get: functions that register return 0 or a negative code, adding to a hook list and the
calls without a result cannot fail, and a variable is read as it was set. -/
def answers (c : KernelCall) (o : Own) (r : Int) : Bool :=
  match c with
  | .register (.hook _) => r == 0
  | .register _ => r ≤ 0
  | .lookup _ => true
  | .read g => r == if g ∈ o.globals then 1 else 0
  | .preload _ => true
  | _ => r == 0

/-- The call does not pull away what something else relies on. -/
def Ok (b : Build) (c : KernelCall) (o : Own) : Prop :=
  match c with
  | .register s => s ∉ o.held ∧ Stands o.held s.level
  | .unregister s =>
    s ∈ o.held ∧ (∀ s' ∈ o.held, s.level = 0 ∨ s'.level ≤ s.level) ∧ (o.window ≠ [] → s.level = 0 ∨ s.level = 8)
  | .saveOriginal nr => nr ∉ o.window ∧ nr ∈ b.tableNrs ∧ Stands o.held 8
  | .install nr => nr ∈ o.window
  | .restore nr => nr ∈ o.window
  | .hashInitPolicies => o.noPolicies = true
  | .hashInitCache => o.cleared = true
  | .synchronizeProbes => ∀ s ∈ o.held, s.isProbe = false
  | .freeCache => o.settled = true ∧ o.gc = false
  | .clearPolicies => Slot.cdev ∉ o.held
  | .cancelFlush => (∀ s ∈ o.held, s.isHook = false) ∧ o.window = []
  | _ => True

end Own

/-- The module's calls, as it relies on them. -/
def calls (b : Build) : Calls KernelCall Int Own where
  ok := Own.Ok b
  answers c o r := o.answers c r = true
  after c r o := o.after c r

section Stands

variable {held held' : List Slot} {n : Nat}

theorem Stands.mono (h : Stands held n) (hsub : held ⊆ held') : Stands held' n := fun s hpos hlt => hsub (h s hpos hlt)

/-- A registration is what the next level stands on. -/
theorem Stands.next (s : Slot) (h : Stands held s.level) (hlt : s.level < 8) : Stands (s :: held) (s.level + 1) := by
  intro t hpos ht
  rcases Nat.lt_succ_iff_lt_or_eq.1 ht with ht | ht
  · exact List.mem_cons_of_mem s (h t hpos ht)
  · rw [Slot.eq_of_level ht hpos (ht ▸ hlt)]
    exact List.mem_cons_self

/-- What is above the level, or the kprobe, can go. -/
theorem Stands.erase {s : Slot} (h : Stands held n) (hs : s.level = 0 ∨ n ≤ s.level) : Stands (held.erase s) n := by
  intro t hpos hlt
  refine (List.mem_erase_of_ne ?_).2 (h t hpos hlt)
  rintro rfl
  omega

end Stands

namespace Own

variable {b : Build} {o : Own} {c : KernelCall} {r : Int}

/-- Nothing is held without what it stands on, and what the flags promise holds of the registrations. -/
structure Inv (b : Build) (o : Own) : Prop where
  nodup : o.held.Nodup
  layered : ∀ s ∈ o.held, Stands o.held s.level
  windowNodup : o.window.Nodup
  windowNrs : ∀ nr ∈ o.window, nr ∈ b.tableNrs
  windowStands : o.window ≠ [] → Stands o.held 8
  settled : o.settled = true → ∀ s ∈ o.held, s.isProbe = false
  cleared : o.cleared = true → o.settled = true ∧ o.gc = false
  noPolicies : o.noPolicies = true → Slot.cdev ∉ o.held
  cancelled : o.cancelled = true → (∀ s ∈ o.held, s.isHook = false) ∧ o.window = []

theorem inv_fresh (b : Build) : fresh.Inv b := by
  constructor <;> simp [fresh]

theorem Inv.registered (h : o.Inv b) {s : Slot} (hnew : s ∉ o.held) (hst : Stands o.held s.level) :
    (o.registered s).Inv b where
  nodup := List.nodup_cons.2 ⟨hnew, h.nodup⟩
  layered s' hs' := by
    rcases List.mem_cons.1 hs' with rfl | hs'
    · exact hst.mono (List.subset_cons_self _ _)
    · exact (h.layered s' hs').mono (List.subset_cons_self _ _)
  windowNodup := h.windowNodup
  windowNrs := h.windowNrs
  windowStands hw := (h.windowStands hw).mono (List.subset_cons_self _ _)
  settled hset s' hs' := by
    obtain ⟨hset, hs⟩ : o.settled = true ∧ s.isProbe = false := by simpa [Own.registered] using hset
    rcases List.mem_cons.1 hs' with rfl | hs'
    · exact hs
    · exact h.settled hset s' hs'
  cleared hcl := by
    obtain ⟨hcl, hs⟩ : o.cleared = true ∧ s.isProbe = false := by simpa [Own.registered] using hcl
    obtain ⟨hset, hgc⟩ := h.cleared hcl
    exact ⟨by simp [Own.registered, hset, hs], hgc⟩
  noPolicies hno := by
    obtain ⟨hno, hs⟩ : o.noPolicies = true ∧ s ≠ .cdev := by simpa [Own.registered] using hno
    simp [Own.registered, h.noPolicies hno, Ne.symm hs]
  cancelled hca := by
    obtain ⟨hca, hs⟩ : o.cancelled = true ∧ s.isHook = false := by simpa [Own.registered] using hca
    obtain ⟨hhooks, hw⟩ := h.cancelled hca
    refine ⟨fun s' hs' => ?_, hw⟩
    rcases List.mem_cons.1 hs' with rfl | hs'
    · exact hs
    · exact hhooks s' hs'

theorem Inv.fail (h : o.Inv b) : o.fail.Inv b := { h with }

theorem Inv.unregistered (h : o.Inv b) {s : Slot} (hok : Ok b (.unregister s) o) :
    (o.after (.unregister s) r).Inv b := by
  obtain ⟨-, htop, hwin⟩ := hok
  have hsub : ∀ t ∈ o.held.erase s, t ∈ o.held := fun t => List.mem_of_mem_erase
  refine ⟨h.nodup.erase s, fun t ht => ?_, h.windowNodup, h.windowNrs, fun hw => ?_, fun hset t ht => ?_, h.cleared,
    fun hno ht => h.noPolicies hno (hsub _ ht), fun hca => ⟨fun t ht => ?_, (h.cancelled hca).2⟩⟩
  · exact (h.layered t (hsub t ht)).erase (htop t (hsub t ht))
  · refine (h.windowStands hw).erase ?_
    rcases hwin hw with h0 | h8
    · exact .inl h0
    · exact .inr h8.ge
  · exact h.settled hset t (hsub t ht)
  · exact (h.cancelled hca).1 t (hsub t ht)

/-- Calls that are made as the module relies on them keep the invariant. -/
theorem Inv.after (h : o.Inv b) (hok : Ok b c o) : (o.after c r).Inv b := by
  cases c with
  | register s =>
    show (if r = 0 then o.registered s else o.fail).Inv b
    split
    · exact h.registered hok.1 hok.2
    · exact h.fail
  | unregister s => exact h.unregistered hok
  | lookup sym =>
    show (if r = 0 then o.fail else { o with globals := .pointer sym :: o.globals }).Inv b
    split
    · exact h.fail
    · exact { h with }
  | setReg p value => cases value <;> exact { h with }
  | read g => exact h
  | saveOriginal nr =>
    obtain ⟨hnew, hnr, hst⟩ := hok
    refine { h with
      windowNodup := List.nodup_cons.2 ⟨hnew, h.windowNodup⟩, windowNrs := fun nr' h' => ?_,
      windowStands := fun _ => hst, cancelled := fun hca => Bool.noConfusion hca }
    rcases List.mem_cons.1 h' with rfl | h'
    · exact hnr
    · exact h.windowNrs nr' h'
  | install nr => exact h
  | restore nr =>
    refine { h with
      windowNodup := h.windowNodup.erase nr, windowNrs := fun nr' h' => h.windowNrs nr' (List.mem_of_mem_erase h'),
      windowStands := fun hw => h.windowStands ?_, cancelled := fun hca => ?_ }
    · rintro hnil
      exact hw (by simp [Own.after, hnil])
    · obtain ⟨hhooks, hw⟩ := h.cancelled hca
      exact ⟨hhooks, by simp [Own.after, hw]⟩
  | hashInitPolicies => exact h
  | hashInitCache => exact h
  | preload t => exact { h with cleared := fun hcl => Bool.noConfusion hcl }
  | scheduleGc => exact { h with cleared := fun hcl => Bool.noConfusion hcl }
  | synchronizeProbes => exact { h with settled := fun _ => hok, cleared := fun hcl => ⟨rfl, (h.cleared hcl).2⟩ }
  | cancelGc => exact { h with cleared := fun hcl => ⟨(h.cleared hcl).1, rfl⟩ }
  | freeCache => exact { h with cleared := fun _ => hok }
  | clearPolicies => exact { h with noPolicies := fun _ => hok }
  | cancelFlush => exact { h with cancelled := fun _ => hok }
  | synchronizeRcu => exact h

end Own

/-- The registrations of the process cache, and with those of the device, newest first. -/
def probeSlots : List Slot := [.probe .exit, .probe .exec, .probe .fork]

def deviceSlots : List Slot := [.device, .chrdevClass, .cdev, .chrdevRegion] ++ probeSlots

/-- A call failed between the first and the last registration of a callback. -/
def Partly (held : List Slot) : Prop := held = [.probe .fork] ∨ held = [.probe .exec, .probe .fork]

/-- Nothing is registered any more. The process cache is empty unless the callbacks were registered in part, and so is
the policy table unless the device took requests before a call failed. -/
structure Own.Down (o : Own) : Prop where
  held : o.held = []
  window : o.window = []
  cancelled : o.cancelled = true
  cleared : (∀ held ∈ o.failedAt, ¬ Partly held) → o.cleared = true
  noPolicies : (∀ held ∈ o.failedAt, Slot.cdev ∉ held) → o.noPolicies = true

/-- What `ig_proc_cache_exit` finds in the module's variables. -/
structure CacheGlobals (b : Build) (globals : List Global) : Prop where
  reg : ∀ p, Global.reg p ∈ globals
  pointer : b.atLeast 3 15 = true → ∀ p, Global.pointer (.tracepoint p) ∈ globals

def Build.hookSlots (b : Build) : List Slot :=
  match b.hooksObj with
  | .lkm42 => (igHooks.map Slot.hook).reverse
  | .lkm415 => (igHooks.map Slot.hook).reverse
  | .lkm310 => []
  | .lkm417Syscall => []

/-- The module is loaded: everything is registered. -/
structure Own.Up (b : Build) (o : Own) : Prop where
  held : o.held = b.hookSlots ++ deviceSlots
  window : o.window = b.tableNrs.reverse
  globals : CacheGlobals b o.globals
  table : b.tableNrs ≠ [] → Global.pointer .sysCallTable ∈ o.globals
  failedAt : o.failedAt = none

/-! ## What the functions do -/

/-! ### What each registration stands on -/

theorem stands_fork : Stands [] 1 := fun _ hpos hlt => absurd hlt (Nat.not_lt.2 hpos)

theorem stands_exec : Stands [.probe .fork] 2 := stands_fork.next (.probe .fork) (by decide)

theorem stands_exit : Stands [.probe .exec, .probe .fork] 3 := stands_exec.next (.probe .exec) (by decide)

theorem stands_region : Stands probeSlots 4 := stands_exit.next (.probe .exit) (by decide)

theorem stands_cdev : Stands (.chrdevRegion :: probeSlots) 5 := stands_region.next .chrdevRegion (by decide)

theorem stands_class : Stands (.cdev :: .chrdevRegion :: probeSlots) 6 := stands_cdev.next .cdev (by decide)

theorem stands_device : Stands (.chrdevClass :: .cdev :: .chrdevRegion :: probeSlots) 7 :=
  stands_class.next .chrdevClass (by decide)

theorem stands_hook : Stands deviceSlots 8 := stands_device.next .device (by decide)

/-! ### From function to function -/

section Specs

variable {α : Type} {b : Build} {o : Own}

theorem sound_send {c : KernelCall} {f : Int → Code α} {Q : α → Own → Prop} (hok : o.Ok b c)
    (h : ∀ r, o.answers c r = true → Prog.Sound (calls b) Q (f r) (o.after c r)) :
    Prog.Sound (calls b) Q (send c >>= f) o := ⟨hok, h⟩

theorem sound_tell {c : KernelCall} {Q : Unit → Own → Prop} (hok : o.Ok b c)
    (h : ∀ r, o.answers c r = true → Q () (o.after c r)) : Prog.Sound (calls b) Q (tell c) o := ⟨hok, h⟩

theorem sound_tell_bind {c : KernelCall} {f : Unit → Code α} {Q : α → Own → Prop} (hok : o.Ok b c)
    (h : ∀ r, o.answers c r = true → Prog.Sound (calls b) Q (f ()) (o.after c r)) :
    Prog.Sound (calls b) Q (tell c >>= f) o := ⟨hok, h⟩

/-- A registration succeeds, or fails with a negative code. -/
theorem sound_register {s : Slot} {f : Int → Code α} {Q : α → Own → Prop} (hnew : s ∉ o.held)
    (hst : Stands o.held s.level) (hzero : Prog.Sound (calls b) Q (f 0) (o.registered s))
    (hneg : ∀ r < 0, Prog.Sound (calls b) Q (f r) o.fail) :
    Prog.Sound (calls b) Q (send (.register s) >>= f) o := by
  refine sound_send ⟨hnew, hst⟩ fun r hr => ?_
  have hle : r ≤ 0 := by
    cases s <;> simp only [Own.answers, decide_eq_true_eq, beq_iff_eq] at hr <;> omega
  rcases hle.eq_or_lt with rfl | hlt
  · exact hzero
  · rw [show o.after (.register s) r = o.fail from if_neg hlt.ne]
    exact hneg r hlt

theorem sound_resolveKallsyms (hnew : Slot.kprobe ∉ o.held) :
    Prog.Sound (calls b) (fun ret o' => ret = 0 ∧ o' = o ∨ ret < 0 ∧ o' = o.fail) (resolveKallsyms b) o := by
  unfold resolveKallsyms
  split
  · refine sound_register hnew (fun s _ hlt => absurd hlt (Nat.not_lt_zero _)) ?_ fun r hlt => ?_
    · rw [if_neg (by decide)]
      refine sound_tell_bind ⟨List.mem_cons_self, fun _ _ => .inl rfl, fun _ => .inl rfl⟩ fun r _ => ?_
      refine Prog.sound_pure (.inl ⟨rfl, ?_⟩)
      simp [Own.after, Own.registered, Slot.isProbe, Slot.isHook]
    · rw [if_pos hlt]
      exact Prog.sound_pure (.inr ⟨hlt, rfl⟩)
  · exact Prog.sound_pure (.inl ⟨rfl, rfl⟩)

theorem sound_igPcPreload (tasks : List (Task × Bool)) (hcl : o.cleared = false) :
    Prog.Sound (calls b) (fun _ o' => o' = o) (igPcPreload tasks) o := by
  induction tasks with
  | nil => exact Prog.sound_pure rfl
  | cons task tasks ih =>
    obtain ⟨t, allocated⟩ := task
    unfold igPcPreload
    split
    · refine sound_send trivial fun full _ => ?_
      have ho : o.after (.preload t) full = o := by
        show { o with cleared := false } = o
        rw [← hcl]
      rw [ho]
      split
      · exact Prog.sound_pure rfl
      · exact ih
    · exact ih

theorem sound_pcErr2 {ret : Int} (hheld : o.held = [.probe .fork]) (hw : o.window = []) :
    Prog.Sound (calls b)
      (fun ret' o' => ret' = ret ∧ o' = { o with held := [], globals := o.globals.filter (· ≠ .reg .fork) })
      (pcErr2 ret) o := by
  refine sound_tell_bind ⟨by simp [hheld], by simp [hheld], fun h => absurd hw h⟩ fun _ _ => ?_
  refine sound_tell_bind trivial fun _ _ => Prog.sound_pure ⟨rfl, ?_⟩
  simp [Own.after, hheld]

theorem sound_pcErr3 {ret : Int} (hheld : o.held = [.probe .exec, .probe .fork]) (hw : o.window = []) :
    Prog.Sound (calls b)
      (fun ret' o' => ret' = ret ∧
        o' = { o with held := [], globals := (o.globals.filter (· ≠ .reg .exec)).filter (· ≠ .reg .fork) })
      (pcErr3 ret) o := by
  refine sound_tell_bind ⟨by simp [hheld], by simp [hheld, Slot.level], fun h => absurd hw h⟩ fun _ _ => ?_
  refine sound_tell_bind trivial fun _ _ => ?_
  refine Prog.Sound.mono (sound_pcErr2 ?_ hw) fun ret' o' h => ⟨h.1, ?_⟩
  · simp [Own.after, hheld]
  · rw [h.2]
    rfl

/-- The registrations from the first to the last: all of them, or none and a call that failed. -/
theorem sound_registerProbes (tasks : List (Task × Bool)) (globals : List Global)
    (hpointer : b.atLeast 3 15 = true → ∀ p, Global.pointer (.tracepoint p) ∈ globals) :
    Prog.Sound (calls b)
      (fun ret o' =>
        (ret = 0 ∧ ∃ globals', CacheGlobals b globals' ∧
          o' = ⟨probeSlots, [], globals', true, false, false, true, true, none⟩) ∨
        (ret < 0 ∧ o'.Down ∧ o'.failedAt ≠ none))
      (registerProbes tasks) { Own.fresh with globals := globals } := by
  refine sound_register (by simp [Own.fresh]) stands_fork ?_ fun r hlt => ?_
  swap
  · rw [if_pos hlt.ne]
    exact Prog.sound_pure (.inr ⟨hlt, by constructor <;> simp [Own.fail, Own.fresh], by simp [Own.fail]⟩)
  rw [if_neg (by decide)]
  refine sound_tell_bind trivial fun _ _ => ?_
  refine sound_register (by simp [Own.after, Own.registered, Own.fresh]) stands_exec ?_ fun r hlt => ?_
  swap
  · rw [if_pos hlt.ne]
    refine (sound_pcErr2 rfl rfl).mono fun ret' o' h => .inr ⟨h.1 ▸ hlt, ?_, ?_⟩
    · rw [h.2]
      constructor <;> simp [Own.fail, Own.fresh, Own.after, Own.registered, Partly, Slot.isHook]
    · rw [h.2]
      simp [Own.fail]
  rw [if_neg (by decide)]
  refine sound_tell_bind trivial fun _ _ => ?_
  refine sound_register (by simp [Own.after, Own.registered, Own.fresh]) stands_exit ?_ fun r hlt => ?_
  swap
  · rw [if_pos hlt.ne]
    refine (sound_pcErr3 rfl rfl).mono fun ret' o' h => .inr ⟨h.1 ▸ hlt, ?_, ?_⟩
    · rw [h.2]
      constructor <;> simp [Own.fail, Own.fresh, Own.after, Own.registered, Partly, Slot.isHook]
    · rw [h.2]
      simp [Own.fail]
  rw [if_neg (by decide)]
  refine sound_tell_bind trivial fun _ _ => ?_
  refine Prog.Sound.seq (sound_igPcPreload tasks rfl) ?_
  rintro ⟨⟩ _ rfl
  refine sound_tell_bind trivial fun _ _ => Prog.sound_pure (.inl ⟨rfl, _, ⟨fun p => ?_, fun h p => ?_⟩, rfl⟩)
  · cases p <;> simp [Own.after, Own.registered]
  · simp [Own.after, Own.registered, hpointer h p]

/-- What a failed call leaves when nothing was registered yet. -/
theorem down_fail (globals : List Global) : ({ Own.fresh with globals := globals } : Own).fail.Down := by
  constructor <;> simp [Own.fail, Own.fresh]

/-- A lookup changes what was found and, if it finds nothing, what failed. -/
theorem after_lookup (o : Own) (sym : Symbol) (r : Int) : ∃ globals failedAt,
    o.after (.lookup sym) r = { o with globals := globals, failedAt := failedAt } ∧
      (r = 0 ∨ o.failedAt ≠ none → failedAt ≠ none) := by
  unfold Own.after
  dsimp only
  split
  · exact ⟨o.globals, some o.held, rfl, fun _ => Option.some_ne_none _⟩
  · next h => exact ⟨_, o.failedAt, rfl, fun h' => h'.resolve_left h⟩

/-- A lookup of the tracepoints that finds nothing comes before anything is registered. -/
theorem down_lookups {sym₁ sym₂ sym₃ : Symbol} {r₁ r₂ r₃ : Int} (h : r₁ = 0 ∨ r₂ = 0 ∨ r₃ = 0) {o : Own}
    (ho : ((Own.fresh.after (.lookup sym₁) r₁).after (.lookup sym₂) r₂).after (.lookup sym₃) r₃ = o) :
    o.Down ∧ o.failedAt ≠ none := by
  obtain ⟨g₁, f₁, h₁, hf₁⟩ := after_lookup Own.fresh sym₁ r₁
  rw [h₁] at ho
  obtain ⟨g₂, f₂, h₂, hf₂⟩ := after_lookup { Own.fresh with globals := g₁, failedAt := f₁ } sym₂ r₂
  rw [h₂] at ho
  obtain ⟨g₃, f₃, h₃, hf₃⟩ := after_lookup { Own.fresh with globals := g₂, failedAt := f₂ } sym₃ r₃
  rw [h₃] at ho
  subst ho
  refine ⟨⟨rfl, rfl, rfl, fun _ => rfl, fun _ => rfl⟩, ?_⟩
  rcases h with h | h | h
  · exact hf₃ (.inr (hf₂ (.inr (hf₁ (.inl h)))))
  · exact hf₃ (.inr (hf₂ (.inl h)))
  · exact hf₃ (.inl h)

theorem sound_igProcCacheInit (b : Build) (tasks : List (Task × Bool)) :
    Prog.Sound (calls b)
      (fun ret o' =>
        (ret = 0 ∧ ∃ globals, CacheGlobals b globals ∧
          o' = ⟨probeSlots, [], globals, true, false, false, true, true, none⟩) ∨
        (ret < 0 ∧ o'.Down ∧ o'.failedAt ≠ none))
      (igProcCacheInit b tasks) Own.fresh := by
  refine sound_tell_bind rfl fun _ _ => ?_
  split
  · refine Prog.Sound.seq (sound_resolveKallsyms (by simp [Own.fresh, Own.after])) fun ret o' h => ?_
    rcases h with ⟨rfl, rfl⟩ | ⟨hlt, rfl⟩
    swap
    · rw [if_pos hlt.ne]
      exact Prog.sound_pure (.inr ⟨hlt, down_fail [], by simp [Own.fail]⟩)
    rw [if_neg (by decide)]
    refine sound_send trivial fun tpFork _ => sound_send trivial fun tpExec _ => sound_send trivial fun tpExit _ => ?_
    split
    · next h => exact Prog.sound_pure (.inr ⟨by decide, down_lookups h rfl⟩)
    · next h =>
      obtain ⟨hfork, hexec, hexit⟩ : tpFork ≠ 0 ∧ tpExec ≠ 0 ∧ tpExit ≠ 0 := by simpa using h
      simp only [Own.after, hfork, hexec, hexit, if_false]
      refine sound_registerProbes tasks _ fun _ p => ?_
      cases p <;> simp
  · next hold => exact sound_registerProbes tasks [] fun h => absurd h hold

/-- The flags and pointers say that the callback is registered, and it is taken back. -/
theorem sound_unregisterProbe {p : Probe} (hg : CacheGlobals b o.globals) (hok : o.Ok b (.unregister (.probe p))) :
    Prog.Sound (calls b) (fun _ o' => o' = { o with held := o.held.erase (.probe p) }) (unregisterProbe b p) o := by
  refine sound_send trivial fun reg hreg => ?_
  have hreg : reg = 1 := by simpa [Own.answers, hg.reg p] using hreg
  rw [hreg, if_neg (by decide)]
  split
  · next hnew =>
    refine sound_send trivial fun tp htp => ?_
    have htp : tp = 1 := by simpa [Own.answers, Own.after, hg.pointer hnew p] using htp
    rw [htp, if_neg (by decide)]
    exact sound_tell hok fun _ _ => rfl
  · exact sound_tell hok fun _ _ => rfl

theorem sound_igProcCacheExit (hheld : o.held = probeSlots) (hw : o.window = []) (hg : CacheGlobals b o.globals) :
    Prog.Sound (calls b) (fun _ o' => o' = { o with held := [], settled := true, gc := false, cleared := true })
      (igProcCacheExit b) o := by
  refine Prog.Sound.seq (sound_unregisterProbe hg ⟨?_, ?_, fun h => absurd hw h⟩) ?_
  · simp [hheld, probeSlots]
  · simp [hheld, probeSlots, Slot.level]
  rintro ⟨⟩ _ rfl
  refine Prog.Sound.seq (sound_unregisterProbe hg ⟨?_, ?_, fun h => absurd hw h⟩) ?_
  · simp [hheld, probeSlots]
  · simp [hheld, probeSlots, Slot.level]
  rintro ⟨⟩ _ rfl
  refine Prog.Sound.seq (sound_unregisterProbe hg ⟨?_, ?_, fun h => absurd hw h⟩) ?_
  · simp [hheld, probeSlots]
  · simp [hheld, probeSlots]
  rintro ⟨⟩ _ rfl
  have hnone : ((o.held.erase (.probe .exit)).erase (.probe .exec)).erase (.probe .fork) = [] := by
    simp [hheld, probeSlots]
  refine sound_tell_bind (by simp [Own.Ok, hnone]) fun _ _ => sound_tell_bind trivial fun _ _ => ?_
  exact sound_tell ⟨rfl, rfl⟩ fun _ _ => by simp [Own.after, hnone]

/-- Taking back what is on top. -/
theorem sound_unregister_top {s : Slot} {rest : List Slot} {f : Unit → Code α} {Q : α → Own → Prop}
    (hheld : o.held = s :: rest) (htop : ∀ s' ∈ rest, s'.level ≤ s.level) (hw : o.window = [])
    (h : Prog.Sound (calls b) Q (f ()) { o with held := rest }) :
    Prog.Sound (calls b) Q (tell (.unregister s) >>= f) o := by
  refine sound_tell_bind ⟨by simp [hheld], fun s' hs' => .inr ?_, fun h => absurd hw h⟩ fun _ _ => ?_
  · rw [hheld] at hs'
    rcases List.mem_cons.1 hs' with rfl | hs'
    · exact le_rfl
    · exact htop s' hs'
  · simp only [Own.after, hheld, List.erase_cons_head]
    exact h

theorem sound_errCdev {ret : Int} (hheld : o.held = .chrdevRegion :: probeSlots) (hw : o.window = []) :
    Prog.Sound (calls b) (fun ret' o' => ret' = ret ∧ o' = { o with held := probeSlots }) (errCdev ret) o :=
  sound_unregister_top hheld (by decide) hw (Prog.sound_pure ⟨rfl, rfl⟩)

theorem sound_errClass {ret : Int} (hheld : o.held = .cdev :: .chrdevRegion :: probeSlots) (hw : o.window = []) :
    Prog.Sound (calls b) (fun ret' o' => ret' = ret ∧ o' = { o with held := probeSlots }) (errClass ret) o :=
  sound_unregister_top hheld (by decide) hw (sound_errCdev rfl hw)

theorem sound_errDevice {ret : Int} (hheld : o.held = .chrdevClass :: .cdev :: .chrdevRegion :: probeSlots)
    (hw : o.window = []) :
    Prog.Sound (calls b) (fun ret' o' => ret' = ret ∧ o' = { o with held := probeSlots }) (errDevice ret) o :=
  sound_unregister_top hheld (by decide) hw (sound_errClass rfl hw)

/-- The whole device, or nothing of it and a call that failed. -/
theorem sound_igChardevInit (hheld : o.held = probeSlots) (hw : o.window = []) :
    Prog.Sound (calls b)
      (fun ret o' =>
        (ret = 0 ∧ o' = { o with held := deviceSlots, noPolicies := false }) ∨
        (ret < 0 ∧ ∃ noPolicies held, o' = { o with noPolicies := noPolicies, failedAt := some held } ∧
          ¬ Partly held ∧ (Slot.cdev ∈ held ∨ noPolicies = o.noPolicies)))
      igChardevInit o := by
  obtain ⟨held, window, globals, gc, settled, cleared, noPolicies, cancelled, failedAt⟩ := o
  obtain rfl : held = probeSlots := hheld
  obtain rfl : window = [] := hw
  refine sound_register (by simp [probeSlots]) stands_region ?_ fun r hlt => ?_
  swap
  · rw [if_pos hlt.ne]
    exact Prog.sound_pure (.inr ⟨hlt, noPolicies, probeSlots, rfl, by simp [Partly, probeSlots], .inr rfl⟩)
  rw [if_neg (by decide)]
  refine sound_register (by simp [Own.registered, probeSlots]) stands_cdev ?_ fun r hlt => ?_
  swap
  · rw [if_pos hlt.ne]
    refine (sound_errCdev rfl rfl).mono fun ret' o' h => .inr ⟨h.1 ▸ hlt, noPolicies, .chrdevRegion :: probeSlots, ?_⟩
    refine ⟨?_, by simp [Partly, probeSlots], .inr rfl⟩
    rw [h.2]
    simp [Own.fail, Own.registered, Slot.isProbe, Slot.isHook]
  rw [if_neg (by decide)]
  refine sound_register (by simp [Own.registered, probeSlots]) stands_class ?_ fun r hlt => ?_
  swap
  · rw [if_pos hlt.ne]
    refine (sound_errClass rfl rfl).mono fun ret' o' h => ?_
    refine .inr ⟨h.1 ▸ hlt, false, .cdev :: .chrdevRegion :: probeSlots, ?_⟩
    refine ⟨?_, by simp [Partly, probeSlots], .inl (by simp)⟩
    rw [h.2]
    simp [Own.fail, Own.registered, Slot.isProbe, Slot.isHook]
  rw [if_neg (by decide)]
  refine sound_register (by simp [Own.registered, probeSlots]) stands_device ?_ fun r hlt => ?_
  swap
  · rw [if_pos hlt.ne]
    refine (sound_errDevice rfl rfl).mono fun ret' o' h => ?_
    refine .inr ⟨h.1 ▸ by decide, false, .chrdevClass :: .cdev :: .chrdevRegion :: probeSlots, ?_⟩
    refine ⟨?_, by simp [Partly, probeSlots], .inl (by simp)⟩
    rw [h.2]
    simp [Own.fail, Own.registered, Slot.isProbe, Slot.isHook]
  rw [if_neg (by decide)]
  refine Prog.sound_pure (.inl ⟨rfl, ?_⟩)
  simp [Own.registered, Slot.isProbe, Slot.isHook, deviceSlots]

theorem sound_igChardevExit (hheld : o.held = deviceSlots) (hw : o.window = []) :
    Prog.Sound (calls b) (fun _ o' => o' = { o with held := probeSlots }) igChardevExit o := by
  refine sound_unregister_top hheld (by simp [probeSlots, Slot.level]) hw ?_
  refine sound_unregister_top rfl (by simp [probeSlots, Slot.level]) hw ?_
  refine sound_unregister_top rfl (by simp [probeSlots, Slot.level]) hw ?_
  exact sound_tell ⟨List.mem_cons_self, by simp [probeSlots, Slot.level], fun h => absurd hw h⟩ fun _ _ => rfl

theorem syscallNrs_nodup (b : Build) : b.syscallNrs.Nodup := by
  unfold Build.syscallNrs
  split <;> decide

theorem igHooks_nodup : igHooks.Nodup := by decide

/-- The loop of `ig_hooks_init` has these hooks of the list still to add. -/
def AddsRest (o : Own) (rest : List LsmHook) (o' : Own) : Prop :=
  ∃ done cancelled, done ++ rest = igHooks ∧
    o' = { o with held := (done.map Slot.hook).reverse ++ deviceSlots, cancelled := cancelled }

/-- The loop of `ig_hooks_init` has these entries of the table still to replace. -/
def ReplacesRest (b : Build) (o : Own) (rest : List Nr) (o' : Own) : Prop :=
  ∃ done cancelled, done ++ rest = b.syscallNrs ∧ o' = { o with window := done.reverse, cancelled := cancelled }

/-- The hooks are added all, or none and a lookup failed. -/
theorem sound_addHooks (hheld : o.held = deviceSlots) :
    Prog.Sound (calls b)
      (fun ret o' =>
        (ret = 0 ∧ ∃ cancelled, o' = { o with
          held := (igHooks.map Slot.hook).reverse ++ deviceSlots
          globals := .pointer .securityHookHeads :: o.globals
          cancelled := cancelled }) ∨
        (ret < 0 ∧ o' = o.fail))
      addHooks o := by
  refine sound_send trivial fun heads _ => ?_
  split
  · next h0 => exact Prog.sound_pure (.inr ⟨by decide, if_pos h0⟩)
  next h0 =>
  have ho : o.after (.lookup .securityHookHeads) heads =
      { o with globals := .pointer .securityHookHeads :: o.globals } := if_neg h0
  rw [ho]
  have hstart : AddsRest { o with globals := .pointer .securityHookHeads :: o.globals } igHooks
      { o with globals := .pointer .securityHookHeads :: o.globals } := ⟨[], o.cancelled, rfl, by simp [hheld]⟩
  refine Prog.Sound.seq (Prog.sound_each ?_ hstart) ?_
  · rintro h bs _ ⟨done, cancelled, hdone, rfl⟩
    refine sound_tell ⟨?_, stands_hook.mono (List.subset_append_right _ _)⟩ fun r hr => ?_
    · have hnodup : (done ++ h :: bs).Nodup := hdone ▸ igHooks_nodup
      have hnew : h ∉ done := fun hmem => (List.nodup_append.1 hnodup).2.2 h hmem h List.mem_cons_self rfl
      simp [hnew, deviceSlots, probeSlots]
    · obtain rfl : r = 0 := by simpa [Own.answers] using hr
      refine ⟨done ++ [h], false, by simpa using hdone, ?_⟩
      simp [Own.after, Own.registered, Slot.isProbe, Slot.isHook]
  · rintro ⟨⟩ _ ⟨done, cancelled, hdone, rfl⟩
    obtain rfl : done = igHooks := by simpa using hdone
    exact Prog.sound_pure (.inl ⟨rfl, cancelled, rfl⟩)

/-- The entries of the table are replaced all, or none and the lookup failed. -/
theorem sound_hookTable (hheld : o.held = deviceSlots) (hw : o.window = [])
    (hnrs : b.tableNrs = b.syscallNrs) :
    Prog.Sound (calls b)
      (fun ret o' =>
        (ret = 0 ∧ ∃ cancelled, o' = { o with
          window := b.tableNrs.reverse
          globals := .pointer .sysCallTable :: o.globals
          cancelled := cancelled }) ∨
        (ret < 0 ∧ o' = o.fail))
      (hookTable b) o := by
  refine sound_send trivial fun table _ => ?_
  split
  · next h0 => exact Prog.sound_pure (.inr ⟨by decide, if_pos h0⟩)
  next h0 =>
  have ho : o.after (.lookup .sysCallTable) table =
      { o with globals := .pointer .sysCallTable :: o.globals } := if_neg h0
  rw [ho]
  have hstart : ReplacesRest b { o with globals := .pointer .sysCallTable :: o.globals } b.syscallNrs
      { o with globals := .pointer .sysCallTable :: o.globals } := ⟨[], o.cancelled, rfl, by simp [hw]⟩
  refine Prog.Sound.seq (Prog.sound_each ?_ hstart) ?_
  · rintro nr bs _ ⟨done, cancelled, hdone, rfl⟩
    have hnodup : (done ++ nr :: bs).Nodup := hdone ▸ syscallNrs_nodup b
    have hnew : nr ∉ done := fun hmem => (List.nodup_append.1 hnodup).2.2 nr hmem nr List.mem_cons_self rfl
    refine sound_tell_bind ⟨by simpa using hnew, ?_, by simpa [hheld] using stands_hook⟩ fun _ _ => ?_
    · rw [hnrs, ← hdone]
      simp
    · refine sound_tell (by simp [Own.Ok, Own.after]) fun _ _ => ⟨done ++ [nr], false, by simpa using hdone, ?_⟩
      simp [Own.after]
  · rintro ⟨⟩ _ ⟨done, cancelled, hdone, rfl⟩
    obtain rfl : done = b.syscallNrs := by simpa using hdone
    exact Prog.sound_pure (.inl ⟨rfl, cancelled, by rw [hnrs]⟩)

/-- The hooks still to take back are on top of the device. -/
def DeletesRest (o : Own) (rest : List LsmHook) (o' : Own) : Prop :=
  rest.Nodup ∧ o' = { o with held := (rest.map Slot.hook).reverse ++ deviceSlots }

theorem level_le (s : Slot) : s.level ≤ 8 := by
  rcases s with _ | (_ | _ | _) | _ | _ | _ | _ | _ <;> simp [Slot.level]

theorem sound_delHooks (hheld : o.held = (igHooks.map Slot.hook).reverse ++ deviceSlots) :
    Prog.Sound (calls b) (fun _ o' => o' = { o with held := deviceSlots }) delHooks o := by
  have hstart : DeletesRest o igHooks o := ⟨igHooks_nodup, by simp [← hheld]⟩
  refine Prog.Sound.seq (Prog.sound_each ?_ hstart) ?_
  · rintro h bs _ ⟨hnodup, rfl⟩
    obtain ⟨hnew, hnodup⟩ := List.nodup_cons.1 hnodup
    refine sound_tell ⟨by simp, fun s' _ => .inr (level_le s'), fun _ => .inr rfl⟩ fun _ _ => ⟨hnodup, ?_⟩
    have hnot : Slot.hook h ∉ (bs.map Slot.hook).reverse := by simpa using hnew
    simp [Own.after, List.erase_append_right _ hnot]
  · rintro ⟨⟩ _ ⟨-, rfl⟩
    exact sound_tell trivial fun _ _ => rfl

/-- The entries still to restore are those that are replaced. -/
def RestoresRest (o : Own) (rest : List Nr) (o' : Own) : Prop := rest.Nodup ∧ o' = { o with window := rest.reverse }

theorem sound_unhookTable (hw : o.window = b.syscallNrs.reverse) (hp : Global.pointer .sysCallTable ∈ o.globals) :
    Prog.Sound (calls b) (fun _ o' => o' = { o with window := [] }) (unhookTable b) o := by
  refine sound_send trivial fun table htable => ?_
  have htable : table = 1 := by simpa [Own.answers, hp] using htable
  rw [htable, if_neg (by decide)]
  have hstart : RestoresRest o b.syscallNrs o := ⟨syscallNrs_nodup b, by rw [← hw]⟩
  refine (Prog.sound_each ?_ hstart).mono ?_
  · rintro nr bs _ ⟨hnodup, rfl⟩
    obtain ⟨hnew, hnodup⟩ := List.nodup_cons.1 hnodup
    refine sound_tell (by simp [Own.Ok]) fun _ _ => ⟨hnodup, ?_⟩
    simp [Own.after, List.erase_append_right _ (mt List.mem_reverse.1 hnew)]
  · rintro ⟨⟩ _ ⟨-, rfl⟩
    rfl

/-- The LSM builds against the syscall builds. -/
theorem build_cases (b : Build) :
    (b.hookSlots = (igHooks.map Slot.hook).reverse ∧ b.tableNrs = [] ∧
      (igHooksInit b = addHooks ∨ igHooksInit b = Lkm415.igHooksInit b) ∧ igHooksExit b = delHooks) ∨
    (b.hookSlots = [] ∧ b.tableNrs = b.syscallNrs ∧ igHooksInit b = hookTable b ∧ igHooksExit b = unhookTable b) := by
  unfold Build.hookSlots Build.tableNrs igHooksInit igHooksExit
  cases b.hooksObj with
  | lkm310 => exact .inr ⟨rfl, rfl, rfl, rfl⟩
  | lkm42 => exact .inl ⟨rfl, rfl, .inl rfl, rfl⟩
  | lkm415 => exact .inl ⟨rfl, rfl, .inr rfl, rfl⟩
  | lkm417Syscall => exact .inr ⟨rfl, rfl, rfl, rfl⟩

theorem up_of_addHooks (hslots : b.hookSlots = (igHooks.map Slot.hook).reverse) (hnrs : b.tableNrs = [])
    (hheld : o.held = deviceSlots) (hw : o.window = []) (hg : CacheGlobals b o.globals)
    (hfailed : o.failedAt = none) :
    Prog.Sound (calls b) (fun ret o' => (ret = 0 ∧ o'.Up b) ∨ (ret < 0 ∧ o' = o.fail)) addHooks o := by
  refine (sound_addHooks hheld).mono fun ret o' h => ?_
  rcases h with ⟨rfl, cancelled, rfl⟩ | h
  · refine .inl ⟨rfl, by rw [hslots], by rw [hnrs]; exact hw, ⟨fun p => ?_, fun h p => ?_⟩, fun h => absurd hnrs h,
      hfailed⟩
    · exact List.mem_cons_of_mem _ (hg.reg p)
    · exact List.mem_cons_of_mem _ (hg.pointer h p)
  · exact .inr h

theorem up_of_hookTable (hslots : b.hookSlots = []) (hnrs : b.tableNrs = b.syscallNrs)
    (hheld : o.held = deviceSlots) (hw : o.window = []) (hg : CacheGlobals b o.globals)
    (hfailed : o.failedAt = none) :
    Prog.Sound (calls b) (fun ret o' => (ret = 0 ∧ o'.Up b) ∨ (ret < 0 ∧ o' = o.fail)) (hookTable b) o := by
  refine (sound_hookTable hheld hw hnrs).mono fun ret o' h => ?_
  rcases h with ⟨rfl, cancelled, rfl⟩ | h
  · refine .inl ⟨rfl, by rw [hslots]; exact hheld, rfl, ⟨fun p => ?_, fun h p => ?_⟩, fun _ => List.mem_cons_self,
      hfailed⟩
    · exact List.mem_cons_of_mem _ (hg.reg p)
    · exact List.mem_cons_of_mem _ (hg.pointer h p)
  · exact .inr h

/-- The hooks of the build are all in place, or none and a call failed. -/
theorem sound_igHooksInit (hheld : o.held = deviceSlots) (hw : o.window = [])
    (hg : CacheGlobals b o.globals) (hfailed : o.failedAt = none) :
    Prog.Sound (calls b) (fun ret o' => (ret = 0 ∧ o'.Up b) ∨ (ret < 0 ∧ o' = o.fail)) (igHooksInit b) o := by
  rcases build_cases b with ⟨hslots, hnrs, hinit | hinit, -⟩ | ⟨hslots, hnrs, hinit, -⟩ <;> rw [hinit]
  · exact up_of_addHooks hslots hnrs hheld hw hg hfailed
  · refine Prog.Sound.seq (sound_resolveKallsyms (by simp [hheld, deviceSlots, probeSlots])) fun ret o' h => ?_
    rcases h with ⟨rfl, rfl⟩ | ⟨hlt, rfl⟩
    · rw [if_neg (by decide)]
      exact up_of_addHooks hslots hnrs hheld hw hg hfailed
    · rw [if_pos hlt.ne]
      exact Prog.sound_pure (.inr ⟨hlt, rfl⟩)
  · exact up_of_hookTable hslots hnrs hheld hw hg hfailed

theorem sound_igHooksExit (h : o.Up b) :
    Prog.Sound (calls b) (fun _ o' => o' = { o with held := deviceSlots, window := [] }) (igHooksExit b) o := by
  rcases build_cases b with ⟨hslots, hnrs, -, hexit⟩ | ⟨hslots, hnrs, -, hexit⟩ <;> rw [hexit]
  · have hw : o.window = [] := by rw [h.window, hnrs]; rfl
    refine (sound_delHooks (by rw [h.held, hslots])).mono fun _ o' ho => ?_
    rw [ho, ← hw]
  · have hheld : o.held = deviceSlots := by rw [h.held, hslots]; rfl
    have hne : b.tableNrs ≠ [] := by simp [hnrs, Build.syscallNrs]
    refine (sound_unhookTable (by rw [h.window, hnrs]) (h.table hne)).mono fun _ o' ho => ?_
    rw [ho, ← hheld]

/-- Loading: the module is up, or everything is taken back and a call failed. -/
theorem sound_igLkmInit (b : Build) (tasks : List (Task × Bool)) :
    Prog.Sound (calls b) (fun ret o => (ret = 0 ∧ o.Up b) ∨ (ret < 0 ∧ o.Down ∧ o.failedAt ≠ none))
      (igLkmInit b tasks) Own.fresh := by
  refine sound_tell_bind rfl fun _ _ => Prog.Sound.seq (sound_igProcCacheInit b tasks) fun ret o h => ?_
  rcases h with ⟨rfl, globals, hg, rfl⟩ | ⟨hlt, hdown⟩
  swap
  · rw [if_pos hlt.ne]
    exact Prog.sound_pure (.inr ⟨hlt, hdown⟩)
  rw [if_neg (by decide)]
  refine Prog.Sound.seq (sound_igChardevInit rfl rfl) fun ret o h => ?_
  rcases h with ⟨rfl, rfl⟩ | ⟨hlt, noPolicies, held, rfl, hpartly, hcdev⟩
  swap
  · rw [if_pos hlt.ne]
    refine Prog.Sound.seq (sound_igProcCacheExit rfl rfl hg) ?_
    rintro ⟨⟩ _ rfl
    refine Prog.sound_pure (.inr ⟨hlt, ⟨rfl, rfl, rfl, fun _ => rfl, fun hno => ?_⟩, Option.some_ne_none _⟩)
    exact hcdev.resolve_left (hno held rfl)
  rw [if_neg (by decide)]
  refine Prog.Sound.seq (sound_igHooksInit rfl rfl hg rfl) fun ret o h => ?_
  rcases h with ⟨rfl, hup⟩ | ⟨hlt, rfl⟩
  · rw [if_neg (by decide)]
    exact Prog.sound_pure (.inl ⟨rfl, hup⟩)
  · rw [if_pos hlt.ne]
    refine Prog.Sound.seq (sound_igChardevExit rfl rfl) ?_
    rintro ⟨⟩ _ rfl
    refine Prog.Sound.seq (sound_igProcCacheExit rfl rfl hg) ?_
    rintro ⟨⟩ _ rfl
    refine Prog.sound_pure (.inr ⟨hlt, ⟨rfl, rfl, rfl, fun _ => rfl, fun hno => ?_⟩, Option.some_ne_none _⟩)
    exact absurd (List.mem_cons_of_mem _ (List.mem_cons_of_mem _ List.mem_cons_self)) (hno deviceSlots rfl)

/-- Unloading takes everything back. -/
theorem sound_igLkmExit (h : o.Up b) :
    Prog.Sound (calls b) (fun _ o' => o'.Down ∧ o'.failedAt = none) (igLkmExit b) o := by
  refine Prog.Sound.seq (sound_igHooksExit h) ?_
  rintro ⟨⟩ _ rfl
  refine sound_tell_bind ⟨by simp [deviceSlots, probeSlots, Slot.isHook], rfl⟩ fun _ _ => ?_
  refine Prog.Sound.seq (sound_igChardevExit rfl rfl) ?_
  rintro ⟨⟩ _ rfl
  refine Prog.Sound.seq (sound_igProcCacheExit rfl rfl h.globals) ?_
  rintro ⟨⟩ _ rfl
  refine sound_tell_bind (by simp [Own.Ok]) fun _ _ => Prog.sound_pure ⟨?_, h.failedAt⟩
  exact ⟨rfl, rfl, rfl, fun _ => rfl, fun _ => rfl⟩

end Specs

end KnIg.Lkm.Lifecycle
