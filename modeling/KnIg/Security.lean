/-
Operations on regular files and the security hooks the kernel calls for each of them. The kernel is
code outside the agent: an operation comes with the calls the kernel makes for it, of which only
what is documented is asked. The LSM builds of the kernel module and the eBPF programs each answer
some of the calls.
-/
import KnIg.File

namespace KnIg

def mayWrite : Int32 := 2
def mayRead : Int32 := 4

def fmodeRead : UInt32 := 1
def fmodeWrite : UInt32 := 2

def attrMode : UInt32 := 1
def attrUid : UInt32 := 2
def attrGid : UInt32 := 4
def attrSize : UInt32 := 8

def protWrite : UInt64 := 2

/-! ## The calls -/

/-- A call of a security hook. A file, dentry or path stands for its inode: none when it is NULL or
has no inode; an `iattr` stands for its `ia_valid`. -/
inductive SecurityCall where
  | inodePermission (inode : Option FileId) (mask : Int32)
  | mmapFile (file : Option FileId) (prot : UInt64)
  | inodeUnlink (dentry : Option FileId)
  | inodeRename (oldDentry newDentry : Option FileId)
  | inodeLink (oldDentry : Option FileId)
  | inodeSetxattr (dentry : Option FileId)
  | inodeSetattr (dentry : Option FileId) (attr : Option UInt32)
  | filePermission (file : Option FileId) (mask : Int32)
  | fileOpen (file : Option FileId) (mode : UInt32)
  | pathUnlink (dentry : Option FileId)
  | pathRename (oldDentry newDentry : Option FileId)
  | pathTruncate (path : Option FileId)
  | pathChmod (path : Option FileId)
deriving DecidableEq

/-- The inodes a call is about. -/
def SecurityCall.inodes : SecurityCall → List FileId
  | .inodeRename old new | .pathRename old new => old.toList ++ new.toList
  | .inodePermission i _ | .mmapFile i _ | .inodeUnlink i | .inodeLink i | .inodeSetxattr i | .inodeSetattr i _
  | .filePermission i _ | .fileOpen i _ | .pathUnlink i | .pathTruncate i | .pathChmod i => i.toList

/-- The call is about a regular file. -/
def SecurityCall.onRegular (fs : Fs) (c : SecurityCall) : Bool := c.inodes.any fs.isRegular

/-! ## The operations -/

/-- How a file's content, attributes or links are changed. -/
inductive WriteKind where
  | openWrite
  /-- An open that truncates without asking for write access. -/
  | openTrunc
  | write
  | truncate
  | link
  | setxattr
  | chmod
  | chown (user group : UInt32)
deriving DecidableEq

/-- An operation on regular files, by the inodes it resolves to. -/
inductive FileOp where
  | modify (kind : WriteKind) (id : FileId)
  | unlink (id : FileId)
  | rename (src : FileId) (dst : Option FileId)
  /-- A rename that swaps two files. -/
  | exchange (src dst : FileId)
deriving DecidableEq

/-- `(uid_t)-1`, `(gid_t)-1`: the owner or group a chown leaves. -/
def unchanged : UInt32 := 0xffffffff

/-- The hooks the kernel may call on the file of a modifying operation. -/
def WriteKind.MayAsk (id : FileId) : WriteKind → SecurityCall → Prop
  | .openWrite, .inodePermission i _ | .openWrite, .fileOpen i _ | .openWrite, .pathTruncate i
  | .openWrite, .inodeSetattr i _ => i = some id
  | .openTrunc, .inodePermission i _ | .openTrunc, .fileOpen i _ | .openTrunc, .pathTruncate i
  | .openTrunc, .inodeSetattr i _ => i = some id
  -- a write drops the set-id bits of its file
  | .write, .filePermission i _ | .write, .inodeSetattr i _ => i = some id
  | .truncate, .inodePermission i _ | .truncate, .pathTruncate i | .truncate, .inodeSetattr i _ => i = some id
  -- linking to a file of another owner asks for write permission to it
  | .link, .inodePermission i _ | .link, .inodeLink i => i = some id
  | .setxattr, .inodePermission i _ | .setxattr, .inodeSetxattr i => i = some id
  | .chmod, .pathChmod i | .chmod, .inodeSetattr i _ => i = some id
  | .chown _ _, .inodeSetattr i _ => i = some id
  | _, _ => False

theorem WriteKind.MayAsk.inodes {id : FileId} {kind : WriteKind} {c : SecurityCall} (h : kind.MayAsk id c) :
    c.inodes = [id] := by
  cases kind <;> cases c <;> first | exact h.elim | (cases h; rfl)

/-- Some call sets an attribute of the file. -/
def SetsAttr (id : FileId) (attr : UInt32) (calls : List SecurityCall) : Prop :=
  ∃ valid, valid &&& attr ≠ 0 ∧ .inodeSetattr (some id) (some valid) ∈ calls

/-- The hooks the kernel always calls on the file of a modifying operation. -/
def WriteKind.Asks (id : FileId) (calls : List SecurityCall) : WriteKind → Prop
  | .openWrite =>
    (∃ mask, mask &&& mayWrite ≠ 0 ∧ .inodePermission (some id) mask ∈ calls) ∧
      ∃ mode, mode &&& fmodeWrite ≠ 0 ∧ .fileOpen (some id) mode ∈ calls
  | .openTrunc =>
    (∃ mask, mask &&& mayWrite ≠ 0 ∧ .inodePermission (some id) mask ∈ calls) ∧
      .pathTruncate (some id) ∈ calls ∧ SetsAttr id attrSize calls
  | .write => ∃ mask, mask &&& mayWrite ≠ 0 ∧ .filePermission (some id) mask ∈ calls
  | .truncate => .pathTruncate (some id) ∈ calls ∧ SetsAttr id attrSize calls
  | .link => .inodeLink (some id) ∈ calls
  | .setxattr => .inodeSetxattr (some id) ∈ calls
  | .chmod => .pathChmod (some id) ∈ calls ∧ SetsAttr id attrMode calls
  | .chown user group =>
    (user ≠ unchanged → SetsAttr id attrUid calls) ∧ (group ≠ unchanged → SetsAttr id attrGid calls)

/-- The calls on regular files for an operation. A rename of a file onto another name of itself does
nothing, and the kernel finds out between the two hooks. -/
def FileOp.Asks (calls : List SecurityCall) : FileOp → Prop
  | .modify kind id => (∀ c ∈ calls, kind.MayAsk id c) ∧ kind.Asks id calls
  | .unlink id => calls = [.pathUnlink (some id), .inodeUnlink (some id)]
  | .rename src dst =>
    calls = .pathRename (some src) dst :: if dst = some src then [] else [.inodeRename (some src) dst]
  | .exchange src dst =>
    calls = .pathRename (some dst) (some src) :: .pathRename (some src) (some dst) ::
      if dst = src then [] else [.inodeRename (some dst) (some src), .inodeRename (some src) (some dst)]

/-- The files of an operation. -/
def FileOp.files : FileOp → List FileId
  | .modify _ id | .unlink id => [id]
  | .rename src dst => src :: dst.toList
  | .exchange src dst => [src, dst]

/-- The calls the kernel makes for an operation that its own checks let pass: on the directories it
walks through it asks for permission only. -/
structure KernelCalls (fs : Fs) (op : FileOp) (calls : List SecurityCall) : Prop where
  regular : ∀ id ∈ op.files, fs.isRegular id = true
  walk : ∀ c ∈ calls, c.onRegular fs = false → ∃ dir mask, c = .inodePermission dir mask
  asks : op.Asks (calls.filter (·.onRegular fs))

end KnIg
