/-
The eBPF programs on the LSM hooks: what each checks in `policy_map`, counts and submits, and which
security calls they refuse.
-/
import KnIg.Agent.Reload
import KnIg.Security
import KnIg.Lib.Guards

namespace KnIg.Ebpf

open Lib KnIg.Agent

def igEbpfOpRead : UInt32 := 1

def igEbpfBlockDeny : UInt32 := 1

def igHookFilePermission : UInt32 := 1
def igHookFileOpen : UInt32 := 2
def igHookPathUnlink : UInt32 := 3
def igHookPathRename : UInt32 := 4
def igHookPathTruncate : UInt32 := 5
def igHookPathChmod : UInt32 := 6
def igHookInodeSetattr : UInt32 := 7

/-- `-EPERM`. -/
def negEperm : Int := -1

/-! ## Maps and helpers -/

/-- What the helpers tell of the current task and the time. -/
structure CurrentTask where
  pidTgid : UInt64
  uidGid : UInt64
  comm : CStr
  ktimeNs : UInt64

structure AuditEvent where
  id : FileId
  pid : UInt32
  uid : UInt32
  opMask : UInt32
  hookId : UInt32
  denied : UInt32
  comm : CStr
  tsNs : UInt64

/-- The maps of the LSM programs. `hookStats` is an array: an index past its end has no value. The
ring buffer has room for so many more events. -/
structure LsmMaps where
  policyMap : PolicyMap
  hookStats : UInt32 → Option UInt64
  auditRb : List AuditEvent
  room : Nat

def countHook (s : LsmMaps) (hookId : UInt32) : LsmMaps :=
  match s.hookStats hookId with
  | none => s
  | some value => { s with hookStats := Function.update s.hookStats hookId (some (value + 1)) }

section Programs

variable (task : CurrentTask) (s : LsmMaps)

def auditInode (inode : FileId) (opMask hookId : UInt32) : Int × LsmMaps :=
  match s.policyMap.get inode with
  | none => (0, s)
  | some policy =>
    if policy.mask &&& opMask = 0 then (0, s)
    else
      let s := countHook s hookId
      let ret := if policy.block ≠ 0 then negEperm else 0
      if s.room = 0 then (ret, s)
      else
        let e : AuditEvent :=
          { id := inode
            pid := (task.pidTgid >>> 32).toUInt32
            uid := task.uidGid.toUInt32
            opMask := opMask
            hookId := hookId
            denied := if policy.block ≠ 0 then 1 else 0
            comm := task.comm
            tsNs := task.ktimeNs }
        (ret, { s with auditRb := s.auditRb ++ [e], room := s.room - 1 })

/-! ## The programs -/

/-- What the programs on one inode share: nothing to do without an inode or without an operation. -/
def auditFound (inode : Option FileId) (opMask hookId : UInt32) : Int × LsmMaps :=
  match inode with
  | none => (0, s)
  | some inode => if opMask = 0 then (0, s) else auditInode task s inode opMask hookId

def filePermissionOps (mask : Int32) : UInt32 :=
  (if mask &&& mayRead ≠ 0 then igEbpfOpRead else 0) ||| if mask &&& mayWrite ≠ 0 then igEbpfOpWrite else 0

def fileOpenOps (mode : UInt32) : UInt32 :=
  (if mode &&& fmodeRead ≠ 0 then igEbpfOpRead else 0) ||| if mode &&& fmodeWrite ≠ 0 then igEbpfOpWrite else 0

def inodeSetattrOps (valid : UInt32) : UInt32 :=
  (if valid &&& (attrMode ||| attrUid ||| attrGid) ≠ 0 then igEbpfOpAttr else 0) |||
    if valid &&& attrSize ≠ 0 then igEbpfOpWrite else 0

def checkFilePermission (file : Option FileId) (mask : Int32) (ret : Int) : Int × LsmMaps :=
  if ret ≠ 0 then (ret, s) else auditFound task s file (filePermissionOps mask) igHookFilePermission

def checkFileOpen (file : Option FileId) (mode : UInt32) (ret : Int) : Int × LsmMaps :=
  if ret ≠ 0 then (ret, s) else auditFound task s file (fileOpenOps mode) igHookFileOpen

def checkPathUnlink (dentry : Option FileId) (ret : Int) : Int × LsmMaps :=
  if ret ≠ 0 then (ret, s) else auditFound task s dentry igEbpfOpDelete igHookPathUnlink

/-- The source is checked for writing, the destination, which the rename unlinks, for deletion. -/
def checkPathRename (oldDentry newDentry : Option FileId) (ret : Int) : Int × LsmMaps :=
  if ret ≠ 0 then (ret, s)
  else
    let (result, s) := auditFound task s oldDentry igEbpfOpWrite igHookPathRename
    if result ≠ 0 then (result, s)
    else
      let (result, s) := auditFound task s newDentry igEbpfOpDelete igHookPathRename
      if result ≠ 0 then (result, s) else (0, s)

def checkPathTruncate (path : Option FileId) (ret : Int) : Int × LsmMaps :=
  if ret ≠ 0 then (ret, s) else auditFound task s path igEbpfOpWrite igHookPathTruncate

def checkPathChmod (path : Option FileId) (ret : Int) : Int × LsmMaps :=
  if ret ≠ 0 then (ret, s) else auditFound task s path igEbpfOpAttr igHookPathChmod

def checkInodeSetattr (dentry : Option FileId) (attr : Option UInt32) (ret : Int) : Int × LsmMaps :=
  if ret ≠ 0 then (ret, s)
  else
    match attr with
    | none => (0, s)
    | some valid => auditFound task s dentry (inodeSetattrOps valid) igHookInodeSetattr

/-- The program attached to each call, with nothing refused before it. -/
def program : SecurityCall → Int × LsmMaps
  | .filePermission file mask => checkFilePermission task s file mask 0
  | .fileOpen file mode => checkFileOpen task s file mode 0
  | .pathUnlink dentry => checkPathUnlink task s dentry 0
  | .pathRename oldDentry newDentry => checkPathRename task s oldDentry newDentry 0
  | .pathTruncate path => checkPathTruncate task s path 0
  | .pathChmod path => checkPathChmod task s path 0
  | .inodeSetattr dentry attr => checkInodeSetattr task s dentry attr 0
  | .inodePermission .. | .mmapFile .. | .inodeUnlink .. | .inodeRename .. | .inodeLink .. | .inodeSetxattr .. => (0, s)

/-- The answer to the calls of an operation. -/
def answer (calls : List SecurityCall) : Int × LsmMaps := askAll (program task) s calls

end Programs

/-! ## What the programs refuse -/

/-- The policy of the inode blocks one of the operations. -/
def Denies (m : PolicyMap) (inode : Option FileId) (opMask : UInt32) : Prop :=
  ∃ id policy, inode = some id ∧ m.get id = some policy ∧ policy.mask &&& opMask ≠ 0 ∧ policy.block ≠ 0

/-- The program attached to the call refuses it. -/
def Refuses (m : PolicyMap) : SecurityCall → Prop
  | .filePermission file mask => Denies m file (filePermissionOps mask)
  | .fileOpen file mode => Denies m file (fileOpenOps mode)
  | .pathUnlink dentry => Denies m dentry igEbpfOpDelete
  | .pathRename oldDentry newDentry => Denies m oldDentry igEbpfOpWrite ∨ Denies m newDentry igEbpfOpDelete
  | .pathTruncate path => Denies m path igEbpfOpWrite
  | .pathChmod path => Denies m path igEbpfOpAttr
  | .inodeSetattr dentry (some valid) => Denies m dentry (inodeSetattrOps valid)
  | _ => False

section Refuses

variable (task : CurrentTask) (s : LsmMaps)

theorem countHook_policyMap (hookId : UInt32) : (countHook s hookId).policyMap = s.policyMap := by
  unfold countHook
  split <;> rfl

theorem auditInode_policyMap (inode : FileId) (opMask hookId : UInt32) :
    (auditInode task s inode opMask hookId).2.policyMap = s.policyMap := by
  unfold auditInode
  split
  · rfl
  split
  · rfl
  simp only
  split
  · exact countHook_policyMap s hookId
  · exact countHook_policyMap s hookId

theorem auditInode_refuses (inode : FileId) (opMask hookId : UInt32) :
    (auditInode task s inode opMask hookId).1 ≠ 0 ↔ Denies s.policyMap (some inode) opMask := by
  unfold auditInode Denies
  cases hget : s.policyMap.get inode with
  | none => simp [hget]
  | some policy =>
    simp only [Option.some_inj, exists_and_left, exists_eq_left', hget]
    split
    · next hmask => simp [hmask]
    · next hmask =>
      split <;> by_cases hblock : policy.block = 0 <;> simp [hmask, hblock, negEperm]

@[simp] theorem auditFound_policyMap (inode : Option FileId) (opMask hookId : UInt32) :
    (auditFound task s inode opMask hookId).2.policyMap = s.policyMap := by
  unfold auditFound
  split
  · rfl
  split
  · rfl
  · exact auditInode_policyMap ..

theorem auditFound_refuses (inode : Option FileId) (opMask hookId : UInt32) :
    (auditFound task s inode opMask hookId).1 ≠ 0 ↔ Denies s.policyMap inode opMask := by
  unfold auditFound
  cases inode with
  | none => simp [Denies]
  | some inode =>
    by_cases hop : opMask = 0
    · simp [hop, Denies]
    · simp only [if_neg hop]
      exact auditInode_refuses ..

theorem checkPathRename_refuses (oldDentry newDentry : Option FileId) :
    (checkPathRename task s oldDentry newDentry 0).1 ≠ 0 ↔
      Denies s.policyMap oldDentry igEbpfOpWrite ∨ Denies s.policyMap newDentry igEbpfOpDelete := by
  have hold := auditFound_refuses task s oldDentry igEbpfOpWrite igHookPathRename
  have hnew := auditFound_refuses task (auditFound task s oldDentry igEbpfOpWrite igHookPathRename).2 newDentry
    igEbpfOpDelete igHookPathRename
  rw [auditFound_policyMap] at hnew
  rw [← hold, ← hnew]
  simp only [checkPathRename, ne_eq, not_true_eq_false, if_false]
  split
  · next h => simp [h]
  · next h =>
    split
    · next h' => simp [h']
    · next h' => simp_all

/-- No program changes the policies. -/
theorem program_policyMap (c : SecurityCall) : (program task s c).2.policyMap = s.policyMap := by
  cases c with
  | pathRename oldDentry newDentry =>
    simp only [program, checkPathRename, ne_eq, not_true_eq_false, if_false]
    split
    · exact auditFound_policyMap ..
    · split <;> simp
  | inodeSetattr dentry attr =>
    cases attr with
    | none => rfl
    | some valid => exact auditFound_policyMap ..
  | filePermission | fileOpen | pathUnlink | pathTruncate | pathChmod => exact auditFound_policyMap ..
  | _ => rfl

theorem program_refuses (c : SecurityCall) : (program task s c).1 ≠ 0 ↔ Refuses s.policyMap c := by
  cases c with
  | pathRename oldDentry newDentry => exact checkPathRename_refuses ..
  | inodeSetattr dentry attr =>
    cases attr with
    | none => simp [program, checkInodeSetattr, Refuses]
    | some valid => exact auditFound_refuses ..
  | filePermission | fileOpen | pathUnlink | pathTruncate | pathChmod => exact auditFound_refuses ..
  | _ => simp [program, Refuses]

/-- The programs refuse an operation when one of its calls is refused. -/
theorem answer_refuses (calls : List SecurityCall) :
    (answer task s calls).1 ≠ 0 ↔ ∃ c ∈ calls, Refuses s.policyMap c := by
  apply askAll_refused_iff (I := fun s' => s'.policyMap = s.policyMap)
  · exact fun s' c hs => (program_policyMap task s' c).trans hs
  · exact fun s' c hs => hs ▸ program_refuses task s' c
  · rfl

end Refuses

end KnIg.Ebpf
