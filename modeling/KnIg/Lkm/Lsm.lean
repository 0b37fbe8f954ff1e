/-
The LSM hooks of the kernel module, for kernel 4.2 to 4.14 and from 4.15, which have the same text:
what each hook checks and enqueues, and what is left of an operation's security calls once the
hooks answered them in turn.
-/
import KnIg.Security
import KnIg.Lkm.Deletion
import KnIg.Lib.Guards

namespace KnIg.Lkm.Lsm

open Lib

/-! ## The checks -/

def igCheckInode (k : Kernel) (inode : Option FileId) (op : UInt32) : Int × Kernel :=
  match inode with
  | none => (0, k)
  | some id => if k.fs.isRegular id then igCheck k id op else (0, k)

/-- `ig_check_dentry`; a dentry stands for its inode. -/
def igCheckDentry (k : Kernel) (dentry : Option FileId) (op : UInt32) : Int × Kernel := igCheckInode k dentry op

def igCheckDeleteInode (k : Kernel) (inode : Option FileId) : Int × Kernel :=
  match inode with
  | none => (0, k)
  | some id => if k.fs.isRegular id then igCheckDelete k id else (0, k)

/-! ## The hooks -/

def igInodePermission (k : Kernel) (inode : Option FileId) (mask : Int32) : Int × Kernel :=
  if mask &&& mayWrite = 0 then (0, k) else igCheckInode k inode igOpWrite

def igMmapFile (k : Kernel) (file : Option FileId) (prot : UInt64) : Int × Kernel :=
  if prot &&& protWrite = 0 then (0, k) else igCheckInode k file igOpWrite

def igInodeUnlink (k : Kernel) (dentry : Option FileId) : Int × Kernel := igCheckDeleteInode k dentry

def igInodeRename (k : Kernel) (oldDentry newDentry : Option FileId) : Int × Kernel :=
  let (rc, k) := igCheckDentry k oldDentry igOpRename
  if rc ≠ 0 then (rc, k)
  else
    match newDentry with
    | none => (rc, k)
    | some id => igCheckDentry k (some id) igOpRename

def igInodeLink (k : Kernel) (oldDentry : Option FileId) : Int × Kernel := igCheckDentry k oldDentry igOpWrite

def igInodeSetxattr (k : Kernel) (dentry : Option FileId) : Int × Kernel := igCheckDentry k dentry igOpWrite

def igInodeSetattr (k : Kernel) (dentry : Option FileId) (attr : Option UInt32) : Int × Kernel :=
  let iaValid := attr.getD 0
  if iaValid &&& (attrSize ||| attrMode ||| attrUid ||| attrGid) = 0 then (0, k)
  else igCheckDentry k dentry igOpWrite

/-- The hook installed for each call; the module installs none for the file and path calls. -/
def hook (k : Kernel) : SecurityCall → Int × Kernel
  | .inodePermission inode mask => igInodePermission k inode mask
  | .mmapFile file prot => igMmapFile k file prot
  | .inodeUnlink dentry => igInodeUnlink k dentry
  | .inodeRename oldDentry newDentry => igInodeRename k oldDentry newDentry
  | .inodeLink oldDentry => igInodeLink k oldDentry
  | .inodeSetxattr dentry => igInodeSetxattr k dentry
  | .inodeSetattr dentry attr => igInodeSetattr k dentry attr
  | .filePermission .. | .fileOpen .. | .pathUnlink .. | .pathRename .. | .pathTruncate .. | .pathChmod .. => (0, k)

/-- The answer to the calls of an operation. -/
def run (k : Kernel) (calls : List SecurityCall) : Int × Kernel := askAll hook k calls

/-! ## What the hooks keep and overlook -/

@[simp] theorem igCheck_fs (k : Kernel) (id : FileId) (op : UInt32) : (igCheck k id op).2.fs = k.fs := by
  unfold igCheck
  split
  · rfl
  · split <;> rfl

@[simp] theorem igCheckInode_fs (k : Kernel) (inode : Option FileId) (op : UInt32) :
    (igCheckInode k inode op).2.fs = k.fs := by
  unfold igCheckInode
  split
  · rfl
  · split
    · exact igCheck_fs _ _ _
    · rfl

@[simp] theorem igCheckDeleteInode_fs (k : Kernel) (inode : Option FileId) :
    (igCheckDeleteInode k inode).2.fs = k.fs := by
  unfold igCheckDeleteInode igCheckDelete
  split
  · rfl
  · repeat' split <;> try rfl

theorem igInodeRename_fs (k : Kernel) (oldDentry newDentry : Option FileId) :
    (igInodeRename k oldDentry newDentry).2.fs = k.fs := by
  have hold := igCheckInode_fs k oldDentry igOpRename
  unfold igInodeRename igCheckDentry
  split
  rename_i rc k' hk'
  rw [hk'] at hold
  split
  · exact hold
  · split
    · exact hold
    · exact (igCheckInode_fs _ _ _).trans hold

/-- No hook changes the files. -/
theorem hook_fs (k : Kernel) (c : SecurityCall) : (hook k c).2.fs = k.fs := by
  cases c with
  | inodePermission inode mask =>
    simp only [hook, igInodePermission]
    split <;> simp
  | mmapFile file prot =>
    simp only [hook, igMmapFile]
    split <;> simp
  | inodeSetattr dentry attr =>
    simp only [hook, igInodeSetattr, igCheckDentry]
    split <;> simp
  | inodeUnlink dentry => exact igCheckDeleteInode_fs _ _
  | inodeRename oldDentry newDentry => exact igInodeRename_fs _ _ _
  | inodeLink oldDentry => exact igCheckInode_fs _ _ _
  | inodeSetxattr dentry => exact igCheckInode_fs _ _ _
  | _ => rfl

theorem igCheckInode_of_not_regular {k : Kernel} {inode : Option FileId} (op : UInt32)
    (h : inode.toList.any k.fs.isRegular = false) : igCheckInode k inode op = (0, k) := by
  cases inode with
  | none => rfl
  | some id => simp_all [igCheckInode]

/-- The hooks pass over what is not a regular file. -/
theorem hook_of_not_regular {k : Kernel} {c : SecurityCall} (h : c.onRegular k.fs = false) : hook k c = (0, k) := by
  unfold SecurityCall.onRegular SecurityCall.inodes at h
  cases c with
  | inodePermission inode mask => simp only [hook, igInodePermission, igCheckInode_of_not_regular _ h, ite_self]
  | mmapFile file prot => simp only [hook, igMmapFile, igCheckInode_of_not_regular _ h, ite_self]
  | inodeSetattr dentry attr =>
    simp only [hook, igInodeSetattr, igCheckDentry, igCheckInode_of_not_regular _ h, ite_self]
  | inodeUnlink dentry =>
    cases dentry with
    | none => rfl
    | some id => simp_all [hook, igInodeUnlink, igCheckDeleteInode]
  | inodeRename oldDentry newDentry =>
    rw [List.any_append, Bool.or_eq_false_iff] at h
    simp only [hook, igInodeRename, igCheckDentry, igCheckInode_of_not_regular _ h.1, ne_eq, not_true_eq_false,
      if_false]
    cases newDentry with
    | none => rfl
    | some id => exact igCheckInode_of_not_regular _ h.2
  | inodeLink oldDentry => exact igCheckInode_of_not_regular _ h
  | inodeSetxattr dentry => exact igCheckInode_of_not_regular _ h
  | _ => rfl

/-- Only the calls on regular files decide. -/
theorem run_filter (k : Kernel) (calls : List SecurityCall) :
    run k calls = run k (calls.filter (·.onRegular k.fs)) := by
  unfold run
  apply askAll_filter (I := fun k' => k'.fs = k.fs)
  · exact fun k' c hk' => (hook_fs k' c).trans hk'
  · exact fun c _ hc k' hk' => hook_of_not_regular (by rwa [hk'])
  · rfl

/-! ## Modifying operations -/

/-- The hooks look the call's file up for writing. -/
def asksWrite : SecurityCall → Bool
  | .inodePermission _ mask => mask &&& mayWrite ≠ 0
  | .mmapFile _ prot => prot &&& protWrite ≠ 0
  | .inodeLink _ | .inodeSetxattr _ => true
  | .inodeSetattr _ attr => attr.getD 0 &&& (attrSize ||| attrMode ||| attrUid ||| attrGid) ≠ 0
  | _ => false

/-- How often the calls on regular files are looked up for writing. -/
def writeAsks (fs : Fs) (calls : List SecurityCall) : Nat := (calls.filter (·.onRegular fs)).countP asksWrite

theorem igCheckInode_regular {k : Kernel} {id : FileId} (h : k.fs.isRegular id = true) (op : UInt32) :
    igCheckInode k (some id) op = igCheck k id op := by
  unfold igCheckInode
  exact if_pos h

/-- A call on the file of a modifying operation checks the file for writing, or passes. -/
theorem hook_of_mayAsk {kind : WriteKind} {id : FileId} {c : SecurityCall} (hc : kind.MayAsk id c) {k : Kernel}
    (hreg : k.fs.isRegular id = true) :
    hook k c = if asksWrite c = true then igCheck k id igOpWrite else (0, k) := by
  have hcheck := igCheckInode_regular hreg igOpWrite
  cases c with
  | inodePermission inode mask =>
    obtain rfl : inode = some id := Option.toList_eq_singleton_iff.1 hc.inodes
    simp only [hook, igInodePermission, asksWrite, hcheck]
    by_cases hm : mask &&& mayWrite = 0 <;> simp [hm]
  | inodeSetattr dentry attr =>
    obtain rfl : dentry = some id := Option.toList_eq_singleton_iff.1 hc.inodes
    simp only [hook, igInodeSetattr, igCheckDentry, asksWrite, hcheck]
    by_cases hm : attr.getD 0 &&& (attrSize ||| attrMode ||| attrUid ||| attrGid) = 0 <;> simp [hm]
  | inodeLink oldDentry =>
    obtain rfl : oldDentry = some id := Option.toList_eq_singleton_iff.1 hc.inodes
    exact hcheck
  | inodeSetxattr dentry =>
    obtain rfl : dentry = some id := Option.toList_eq_singleton_iff.1 hc.inodes
    exact hcheck
  | mmapFile | inodeUnlink | inodeRename | pathUnlink | pathRename => cases kind <;> exact hc.elim
  | _ => rfl

/-- The calls of a modifying operation check its file for writing, as often as they ask. -/
theorem run_of_modify {kind : WriteKind} {id : FileId} {calls : List SecurityCall} {k : Kernel}
    (h : KernelCalls k.fs (.modify kind id) calls) :
    ∃ asked : List SecurityCall, asked.length = writeAsks k.fs calls ∧ run k calls = askAll hook k asked ∧
      ∀ c ∈ asked, ∀ k' : Kernel, k'.fs = k.fs → hook k' c = igCheck k' id igOpWrite := by
  have hreg : k.fs.isRegular id = true := h.regular id List.mem_cons_self
  have hhook : ∀ c ∈ calls.filter (·.onRegular k.fs), ∀ k' : Kernel, k'.fs = k.fs →
      hook k' c = if asksWrite c = true then igCheck k' id igOpWrite else (0, k') :=
    fun c hc k' hk' => hook_of_mayAsk (h.asks.1 c hc) (by rwa [hk'])
  refine ⟨(calls.filter (·.onRegular k.fs)).filter asksWrite, (List.countP_eq_length_filter).symm, ?_, ?_⟩
  · rw [run_filter]
    apply askAll_filter (I := fun k' => k'.fs = k.fs)
    · exact fun k' c hk' => (hook_fs k' c).trans hk'
    · intro c hc hasks k' hk'
      rw [hhook c hc k' hk', if_neg (by simp [hasks])]
    · rfl
  · intro c hc k' hk'
    obtain ⟨hmem, hasks⟩ := List.mem_filter.1 hc
    rw [hhook c hmem k' hk', if_pos hasks]

end KnIg.Lkm.Lsm
