/-
The syscall-table hooks of the kernel module: what each hook resolves, checks and enqueues before
it runs the original system call, for the direct-argument hooks (kernel 3.10 to 4.1) and for the
`pt_regs` hooks (from 4.17), which make the same decisions. The original system calls are kernel
code outside the module and stay a parameter.
-/
import KnIg.Lkm.Policy

namespace KnIg.Lkm

open Lib

/-! ## The kernel around the hooks -/

/-- One `ig_event_enqueue`. -/
structure LkmEvent where
  id : FileId
  op : UInt32
  blocked : UInt32
deriving DecidableEq

/-- What a hook reads and writes: the file tree, the strings at user addresses, the policy table
and the events enqueued so far. -/
structure Kernel where
  fs : Fs
  user : UInt64 → Option CStr
  table : PolicyTable
  events : List LkmEvent

def Kernel.enqueue (k : Kernel) (id : FileId) (op blocked : UInt32) : Kernel :=
  { k with events := k.events ++ [⟨id, op, blocked⟩] }

/-- `-EPERM`. -/
def negEperm : Int := -1

def oWronly : Int32 := 1
def oRdwr : Int32 := 2
def oTrunc : Int32 := 512
def atRemovedir : Int32 := 512

/-- A hooked system call with its arguments; pointers are user addresses. -/
inductive Call where
  | write (fd : UInt32) (buf count : UInt64)
  | truncate (path : UInt64) (length : Int64)
  | ftruncate (fd : UInt32) (length : UInt64)
  | sysOpen (filename : UInt64) (flags : Int32) (mode : UInt16)
  | openat (dfd : Int32) (filename : UInt64) (flags : Int32) (mode : UInt16)
  | creat (pathname : UInt64) (mode : UInt16)
  | unlink (pathname : UInt64)
  | unlinkat (dfd : Int32) (pathname : UInt64) (flag : Int32)
  | rename (oldname newname : UInt64)
  | renameat (olddfd : Int32) (oldname : UInt64) (newdfd : Int32) (newname : UInt64)
  | renameat2 (olddfd : Int32) (oldname : UInt64) (newdfd : Int32) (newname : UInt64) (flags : UInt32)
  | chmod (filename : UInt64) (mode : UInt16)
  | fchmodat (dfd : Int32) (filename : UInt64) (mode : UInt16)
  | chown (filename : UInt64) (user group : UInt32)
  | fchownat (dfd : Int32) (filename : UInt64) (user group : UInt32) (flag : Int32)
  | link (oldname newname : UInt64)
  | linkat (olddfd : Int32) (oldname : UInt64) (newdfd : Int32) (newname : UInt64) (flags : Int32)
  | setxattr (path name value size : UInt64) (flags : Int32)
  | lsetxattr (path name value size : UInt64) (flags : Int32)
  | fsetxattr (fd : Int32) (name value size : UInt64) (flags : Int32)

/-- The original system calls: the result and the tree they leave. -/
abbrev Orig := Call → Fs → Int × Fs

/-- What a hooked call returns, the state it leaves, and whether the original call ran. -/
structure Outcome where
  ret : Int
  kernel : Kernel
  ran : Bool

/-! ## Resolving the target -/

def pathatToDevino (k : Kernel) (dfd : Int32) (upath : UInt64) : Option FileId :=
  (k.user upath).bind fun path => k.fs.userPathAt dfd path false

def pathToDevino (k : Kernel) (upath : UInt64) : Option FileId := pathatToDevino k atFdcwd upath

/-- The regular file an open descriptor refers to. -/
def fdToDevino (k : Kernel) (fd : UInt32) : Option FileId :=
  (k.fs.fd fd).filter k.fs.isRegular

/-! ## The checks -/

def igCheck (k : Kernel) (id : FileId) (op : UInt32) : Int × Kernel :=
  match inodePolicyLookup k.table id op with
  | none => (0, k)
  | some block =>
    if block = igBlockDeny then (negEperm, k.enqueue id op 1) else (0, k.enqueue id op 0)

def igCheckDelete (k : Kernel) (id : FileId) : Int × Kernel :=
  match inodePolicyLookup k.table id igOpDelete with
  | none => (0, k)
  | some block =>
    if block = igBlockDeny then (negEperm, k.enqueue id igOpDelete 1)
    else
      let k := k.enqueue id igOpDelete 0
      (0, { k with table := inodePolicyRemove k.table id })

/-- `long rc = 0; if (found) rc = check;` -/
def checkFound (k : Kernel) (found : Option FileId) (check : Kernel → FileId → Int × Kernel) : Int × Kernel :=
  match found with
  | none => (0, k)
  | some id => check k id

def checkWrite (k : Kernel) (found : Option FileId) : Int × Kernel :=
  checkFound k found fun k id => igCheck k id igOpWrite

def checkOpenFlags (k : Kernel) (dfd : Int32) (upath : UInt64) (flags : Int32) : Int × Kernel :=
  if flags &&& (oWronly ||| oRdwr ||| oTrunc) = 0 then (0, k)
  else checkWrite k (pathatToDevino k dfd upath)

/-- The source is checked as any other target; a destination counts only when it is denied. -/
def checkRename (k : Kernel) (olddfd : Int32) (oldname : UInt64) (newdfd : Int32) (newname : UInt64) :
    Int × Kernel :=
  let (rc, k) := checkFound k (pathatToDevino k olddfd oldname) fun k id => igCheck k id igOpRename
  if rc ≠ 0 then (rc, k)
  else
    match pathatToDevino k newdfd newname with
    | none => (0, k)
    | some id =>
      if inodePolicyLookup k.table id igOpRename = some igBlockDeny then
        (negEperm, k.enqueue id igOpRename 1)
      else (0, k)

/-- `if (rc) return rc; return orig(...)`. -/
def proceed (orig : Orig) (c : Call) (checked : Int × Kernel) : Outcome :=
  if checked.1 ≠ 0 then ⟨checked.1, checked.2, false⟩
  else
    let (ret, fs) := orig c checked.2.fs
    ⟨ret, { checked.2 with fs := fs }, true⟩

/-! ## The hooks with direct arguments -/

namespace Lkm310

section Hooks

variable (orig : Orig) (k : Kernel)

def igSysWrite (fd : UInt32) (buf count : UInt64) : Outcome :=
  proceed orig (.write fd buf count) (checkWrite k (fdToDevino k fd))

def igSysTruncate (path : UInt64) (length : Int64) : Outcome :=
  proceed orig (.truncate path length) (checkWrite k (pathToDevino k path))

def igSysFtruncate (fd : UInt32) (length : UInt64) : Outcome :=
  proceed orig (.ftruncate fd length) (checkWrite k (fdToDevino k fd))

def igSysOpen (filename : UInt64) (flags : Int32) (mode : UInt16) : Outcome :=
  proceed orig (.sysOpen filename flags mode) (checkOpenFlags k atFdcwd filename flags)

def igSysOpenat (dfd : Int32) (filename : UInt64) (flags : Int32) (mode : UInt16) : Outcome :=
  proceed orig (.openat dfd filename flags mode) (checkOpenFlags k dfd filename flags)

def igSysCreat (pathname : UInt64) (mode : UInt16) : Outcome :=
  proceed orig (.creat pathname mode) (checkOpenFlags k atFdcwd pathname (oWronly ||| oTrunc))

def igSysUnlink (pathname : UInt64) : Outcome :=
  proceed orig (.unlink pathname) (checkFound k (pathToDevino k pathname) igCheckDelete)

def igSysUnlinkat (dfd : Int32) (pathname : UInt64) (flag : Int32) : Outcome :=
  proceed orig (.unlinkat dfd pathname flag)
    (checkFound k (if flag &&& atRemovedir = 0 then pathatToDevino k dfd pathname else none) igCheckDelete)

def igSysRename (oldname newname : UInt64) : Outcome :=
  proceed orig (.rename oldname newname) (checkRename k atFdcwd oldname atFdcwd newname)

def igSysRenameat (olddfd : Int32) (oldname : UInt64) (newdfd : Int32) (newname : UInt64) : Outcome :=
  proceed orig (.renameat olddfd oldname newdfd newname) (checkRename k olddfd oldname newdfd newname)

def igSysRenameat2 (olddfd : Int32) (oldname : UInt64) (newdfd : Int32) (newname : UInt64) (flags : UInt32) :
    Outcome :=
  proceed orig (.renameat2 olddfd oldname newdfd newname flags) (checkRename k olddfd oldname newdfd newname)

def igSysChmod (filename : UInt64) (mode : UInt16) : Outcome :=
  proceed orig (.chmod filename mode) (checkWrite k (pathToDevino k filename))

def igSysFchmodat (dfd : Int32) (filename : UInt64) (mode : UInt16) : Outcome :=
  proceed orig (.fchmodat dfd filename mode) (checkWrite k (pathatToDevino k dfd filename))

def igSysChown (filename : UInt64) (user group : UInt32) : Outcome :=
  proceed orig (.chown filename user group) (checkWrite k (pathToDevino k filename))

def igSysFchownat (dfd : Int32) (filename : UInt64) (user group : UInt32) (flag : Int32) : Outcome :=
  proceed orig (.fchownat dfd filename user group flag) (checkWrite k (pathatToDevino k dfd filename))

def igSysLink (oldname newname : UInt64) : Outcome :=
  proceed orig (.link oldname newname) (checkWrite k (pathToDevino k oldname))

def igSysLinkat (olddfd : Int32) (oldname : UInt64) (newdfd : Int32) (newname : UInt64) (flags : Int32) :
    Outcome :=
  proceed orig (.linkat olddfd oldname newdfd newname flags) (checkWrite k (pathatToDevino k olddfd oldname))

def igSysSetxattr (path name value size : UInt64) (flags : Int32) : Outcome :=
  proceed orig (.setxattr path name value size flags) (checkWrite k (pathToDevino k path))

def igSysLsetxattr (path name value size : UInt64) (flags : Int32) : Outcome :=
  proceed orig (.lsetxattr path name value size flags) (checkWrite k (pathToDevino k path))

def igSysFsetxattr (fd : Int32) (name value size : UInt64) (flags : Int32) : Outcome :=
  proceed orig (.fsetxattr fd name value size flags) (checkWrite k (fdToDevino k fd.toUInt32))

/-- The hook installed for each call. -/
def hook : Call → Outcome
  | .write fd buf count => igSysWrite orig k fd buf count
  | .truncate path length => igSysTruncate orig k path length
  | .ftruncate fd length => igSysFtruncate orig k fd length
  | .sysOpen filename flags mode => igSysOpen orig k filename flags mode
  | .openat dfd filename flags mode => igSysOpenat orig k dfd filename flags mode
  | .creat pathname mode => igSysCreat orig k pathname mode
  | .unlink pathname => igSysUnlink orig k pathname
  | .unlinkat dfd pathname flag => igSysUnlinkat orig k dfd pathname flag
  | .rename oldname newname => igSysRename orig k oldname newname
  | .renameat olddfd oldname newdfd newname => igSysRenameat orig k olddfd oldname newdfd newname
  | .renameat2 olddfd oldname newdfd newname flags => igSysRenameat2 orig k olddfd oldname newdfd newname flags
  | .chmod filename mode => igSysChmod orig k filename mode
  | .fchmodat dfd filename mode => igSysFchmodat orig k dfd filename mode
  | .chown filename user group => igSysChown orig k filename user group
  | .fchownat dfd filename user group flag => igSysFchownat orig k dfd filename user group flag
  | .link oldname newname => igSysLink orig k oldname newname
  | .linkat olddfd oldname newdfd newname flags => igSysLinkat orig k olddfd oldname newdfd newname flags
  | .setxattr path name value size flags => igSysSetxattr orig k path name value size flags
  | .lsetxattr path name value size flags => igSysLsetxattr orig k path name value size flags
  | .fsetxattr fd name value size flags => igSysFsetxattr orig k fd name value size flags

end Hooks

end Lkm310

/-! ## The hooks with `pt_regs` -/

/-- The argument registers of an x86_64 system call. -/
structure PtRegs where
  di : UInt64
  si : UInt64
  dx : UInt64
  r10 : UInt64
  r8 : UInt64

/-- The hooked entries of `sys_call_table`. -/
inductive Nr where
  | write | truncate | ftruncate | sysOpen | openat | creat | unlink | unlinkat | rename | renameat
  | renameat2 | chmod | fchmodat | chown | fchownat | link | linkat | setxattr | lsetxattr | fsetxattr
deriving DecidableEq

/-- The cast of a register to `int`. -/
def asInt (r : UInt64) : Int32 := r.toUInt32.toInt32

/-- How the kernel's own entry of each call reads its arguments from the registers. -/
def Call.ofRegs (r : PtRegs) : Nr → Call
  | .write => .write r.di.toUInt32 r.si r.dx
  | .truncate => .truncate r.di r.si.toInt64
  | .ftruncate => .ftruncate r.di.toUInt32 r.si
  | .sysOpen => .sysOpen r.di (asInt r.si) r.dx.toUInt16
  | .openat => .openat (asInt r.di) r.si (asInt r.dx) r.r10.toUInt16
  | .creat => .creat r.di r.si.toUInt16
  | .unlink => .unlink r.di
  | .unlinkat => .unlinkat (asInt r.di) r.si (asInt r.dx)
  | .rename => .rename r.di r.si
  | .renameat => .renameat (asInt r.di) r.si (asInt r.dx) r.r10
  | .renameat2 => .renameat2 (asInt r.di) r.si (asInt r.dx) r.r10 r.r8.toUInt32
  | .chmod => .chmod r.di r.si.toUInt16
  | .fchmodat => .fchmodat (asInt r.di) r.si r.dx.toUInt16
  | .chown => .chown r.di r.si.toUInt32 r.dx.toUInt32
  | .fchownat => .fchownat (asInt r.di) r.si r.dx.toUInt32 r.r10.toUInt32 (asInt r.r8)
  | .link => .link r.di r.si
  | .linkat => .linkat (asInt r.di) r.si (asInt r.dx) r.r10 (asInt r.r8)
  | .setxattr => .setxattr r.di r.si r.dx r.r10 (asInt r.r8)
  | .lsetxattr => .lsetxattr r.di r.si r.dx r.r10 (asInt r.r8)
  | .fsetxattr => .fsetxattr (asInt r.di) r.si r.dx r.r10 (asInt r.r8)

namespace Lkm417Syscall

section Hooks

variable (orig : Orig) (k : Kernel)

def arg1 (r : PtRegs) : UInt64 := r.di
def arg2 (r : PtRegs) : UInt64 := r.si
def arg3 (r : PtRegs) : UInt64 := r.dx
def arg4 (r : PtRegs) : UInt64 := r.r10

def igSysWrite (r : PtRegs) : Outcome :=
  proceed orig (.ofRegs r .write) (checkWrite k (fdToDevino k (arg1 r).toUInt32))

def igSysTruncate (r : PtRegs) : Outcome :=
  proceed orig (.ofRegs r .truncate) (checkWrite k (pathToDevino k (arg1 r)))

def igSysFtruncate (r : PtRegs) : Outcome :=
  proceed orig (.ofRegs r .ftruncate) (checkWrite k (fdToDevino k (arg1 r).toUInt32))

def igSysOpen (r : PtRegs) : Outcome :=
  proceed orig (.ofRegs r .sysOpen) (checkOpenFlags k atFdcwd (arg1 r) (asInt (arg2 r)))

def igSysOpenat (r : PtRegs) : Outcome :=
  proceed orig (.ofRegs r .openat) (checkOpenFlags k (asInt (arg1 r)) (arg2 r) (asInt (arg3 r)))

def igSysCreat (r : PtRegs) : Outcome :=
  proceed orig (.ofRegs r .creat) (checkOpenFlags k atFdcwd (arg1 r) (oWronly ||| oTrunc))

def igSysUnlink (r : PtRegs) : Outcome :=
  proceed orig (.ofRegs r .unlink) (checkFound k (pathToDevino k (arg1 r)) igCheckDelete)

def igSysUnlinkat (r : PtRegs) : Outcome :=
  let dfd := asInt (arg1 r)
  let flag := asInt (arg3 r)
  proceed orig (.ofRegs r .unlinkat)
    (checkFound k (if flag &&& atRemovedir = 0 then pathatToDevino k dfd (arg2 r) else none) igCheckDelete)

def igSysRename (r : PtRegs) : Outcome :=
  proceed orig (.ofRegs r .rename) (checkRename k atFdcwd (arg1 r) atFdcwd (arg2 r))

def igSysRenameat (r : PtRegs) : Outcome :=
  proceed orig (.ofRegs r .renameat) (checkRename k (asInt (arg1 r)) (arg2 r) (asInt (arg3 r)) (arg4 r))

def igSysRenameat2 (r : PtRegs) : Outcome :=
  proceed orig (.ofRegs r .renameat2) (checkRename k (asInt (arg1 r)) (arg2 r) (asInt (arg3 r)) (arg4 r))

def igSysChmod (r : PtRegs) : Outcome :=
  proceed orig (.ofRegs r .chmod) (checkWrite k (pathToDevino k (arg1 r)))

def igSysFchmodat (r : PtRegs) : Outcome :=
  proceed orig (.ofRegs r .fchmodat) (checkWrite k (pathatToDevino k (asInt (arg1 r)) (arg2 r)))

def igSysChown (r : PtRegs) : Outcome :=
  proceed orig (.ofRegs r .chown) (checkWrite k (pathToDevino k (arg1 r)))

def igSysFchownat (r : PtRegs) : Outcome :=
  proceed orig (.ofRegs r .fchownat) (checkWrite k (pathatToDevino k (asInt (arg1 r)) (arg2 r)))

def igSysLink (r : PtRegs) : Outcome :=
  proceed orig (.ofRegs r .link) (checkWrite k (pathToDevino k (arg1 r)))

def igSysLinkat (r : PtRegs) : Outcome :=
  proceed orig (.ofRegs r .linkat) (checkWrite k (pathatToDevino k (asInt (arg1 r)) (arg2 r)))

def igSysSetxattr (r : PtRegs) : Outcome :=
  proceed orig (.ofRegs r .setxattr) (checkWrite k (pathToDevino k (arg1 r)))

def igSysLsetxattr (r : PtRegs) : Outcome :=
  proceed orig (.ofRegs r .lsetxattr) (checkWrite k (pathToDevino k (arg1 r)))

def igSysFsetxattr (r : PtRegs) : Outcome :=
  proceed orig (.ofRegs r .fsetxattr) (checkWrite k (fdToDevino k (asInt (arg1 r)).toUInt32))

/-- The hook installed for each entry. -/
def hook (nr : Nr) (r : PtRegs) : Outcome :=
  match nr with
  | .write => igSysWrite orig k r
  | .truncate => igSysTruncate orig k r
  | .ftruncate => igSysFtruncate orig k r
  | .sysOpen => igSysOpen orig k r
  | .openat => igSysOpenat orig k r
  | .creat => igSysCreat orig k r
  | .unlink => igSysUnlink orig k r
  | .unlinkat => igSysUnlinkat orig k r
  | .rename => igSysRename orig k r
  | .renameat => igSysRenameat orig k r
  | .renameat2 => igSysRenameat2 orig k r
  | .chmod => igSysChmod orig k r
  | .fchmodat => igSysFchmodat orig k r
  | .chown => igSysChown orig k r
  | .fchownat => igSysFchownat orig k r
  | .link => igSysLink orig k r
  | .linkat => igSysLinkat orig k r
  | .setxattr => igSysSetxattr orig k r
  | .lsetxattr => igSysLsetxattr orig k r
  | .fsetxattr => igSysFsetxattr orig k r

end Hooks

/-- The `pt_regs` hooks decide as the direct-argument hooks do on the arguments in the registers. -/
theorem hook_eq (orig : Orig) (k : Kernel) (nr : Nr) (r : PtRegs) :
    hook orig k nr r = Lkm310.hook orig k (.ofRegs r nr) := by
  cases nr <;> rfl

end Lkm417Syscall

/-! ## Either build -/

/-- A system call as one of the two builds receives it. -/
inductive Entry where
  | lkm310 (c : Call)
  | lkm417Syscall (nr : Nr) (r : PtRegs)

def Entry.call : Entry → Call
  | .lkm310 c => c
  | .lkm417Syscall nr r => .ofRegs r nr

def Entry.run (orig : Orig) (k : Kernel) : Entry → Outcome
  | .lkm310 c => Lkm310.hook orig k c
  | .lkm417Syscall nr r => Lkm417Syscall.hook orig k nr r

end KnIg.Lkm
