/-
Write protection under the syscall-table hooks: the hooks resolve a path without following its last
link, the system calls follow it. A call that modifies a file under a DENY policy is refused
exactly when the path does not end in a link the call follows, or the link itself is denied.
-/
import KnIg.Lkm.Hooks

namespace KnIg.Lkm

open Lib Lib.Namei

/-! ## What a call modifies -/

def oCreat : Int32 := 64
def oExcl : Int32 := 128
def oNofollow : Int32 := 131072

/-- The open asks for writing or truncation. -/
def openWrites (flags : Int32) : Bool := flags &&& (oWronly ||| oRdwr ||| oTrunc) ≠ 0

/-- The open follows a link at the end of its path. -/
def openFollows (flags : Int32) : Bool :=
  flags &&& oNofollow = 0 ∧ flags &&& (oCreat ||| oExcl) ≠ oCreat ||| oExcl

/-- The path a modifying call names: its directory descriptor, its user address, and whether the
call follows a link at the end. -/
def modifyingPath : Call → Option (Int32 × UInt64 × Bool)
  | .sysOpen filename flags _ => if openWrites flags then some (atFdcwd, filename, openFollows flags) else none
  | .openat dfd filename flags _ => if openWrites flags then some (dfd, filename, openFollows flags) else none
  | .creat pathname _ => some (atFdcwd, pathname, true)
  | .truncate path _ => some (atFdcwd, path, true)
  | .chmod filename _ => some (atFdcwd, filename, true)
  | .fchmodat dfd filename _ => some (dfd, filename, true)
  | .chown filename _ _ => some (atFdcwd, filename, true)
  | .setxattr path _ _ _ _ => some (atFdcwd, path, true)
  | _ => none

/-- The file a modifying call reaches, by the kernel's own resolution of its path. -/
def modifies (k : Kernel) (c : Call) : Option FileId :=
  match modifyingPath c with
  | none => none
  | some (dfd, upath, follow) => (k.user upath).bind fun path => k.fs.userPathAt dfd path follow

/-- The file the hook of a modifying call checks. -/
def hookSees (k : Kernel) (c : Call) : Option FileId :=
  match modifyingPath c with
  | none => none
  | some (dfd, upath, _) => pathatToDevino k dfd upath

/-- The file's policy denies writing. -/
def Denied (t : PolicyTable) (id : FileId) : Prop := inodePolicyLookup t id igOpWrite = some igBlockDeny

/-- Where a call reaches a file, its hook sees that file or a link. -/
theorem hookSees_of_modifies {k : Kernel} {c : Call} {x : FileId} (h : modifies k c = some x) :
    ∃ y, hookSees k c = some y ∧ (y = x ∨ k.fs.isLink y = true) := by
  unfold modifies at h
  unfold hookSees
  split at h
  · cases h
  · rename_i dfd upath follow hp
    obtain ⟨path, hu, h⟩ := Option.bind_eq_some_iff.1 h
    have hsees : ∀ {y}, k.fs.userPathAt dfd path false = some y → pathatToDevino k dfd upath = some y :=
      fun hy => Option.bind_eq_some_iff.2 ⟨path, hu, hy⟩
    cases follow with
    | false => exact ⟨x, hsees h, .inl rfl⟩
    | true =>
      obtain ⟨y, hy, hxy⟩ := Fs.userPathAt_nofollow h
      exact ⟨y, hsees hy, hxy⟩

/-! ## What the hooks refuse -/

theorem checkOpenFlags_of_writes {k : Kernel} {dfd : Int32} {upath : UInt64} {flags : Int32}
    (h : openWrites flags = true) : checkOpenFlags k dfd upath flags = checkWrite k (pathatToDevino k dfd upath) := by
  unfold checkOpenFlags
  unfold openWrites at h
  rw [if_neg (by simpa using h)]

/-- The hook of a modifying call checks what it sees for writing. -/
theorem hook_of_modifies (orig : Orig) (k : Kernel) {c : Call} {p : Int32 × UInt64 × Bool}
    (h : modifyingPath c = some p) : Lkm310.hook orig k c = proceed orig c (checkWrite k (hookSees k c)) := by
  -- an open modifies its file only if its flags write
  have hopen : ∀ {dfd : Int32} {filename : UInt64} {flags : Int32},
      (if openWrites flags then some (dfd, filename, openFollows flags) else none) = some p →
        openWrites flags = true ∧ p = (dfd, filename, openFollows flags) := by
    intro dfd filename flags h
    split at h
    · rename_i hw; cases h; exact ⟨hw, rfl⟩
    · cases h
  unfold hookSees
  rw [h]
  cases c with
  | sysOpen filename flags mode =>
    obtain ⟨hw, rfl⟩ := hopen h
    exact congrArg (proceed orig _) (checkOpenFlags_of_writes hw)
  | openat dfd filename flags mode =>
    obtain ⟨hw, rfl⟩ := hopen h
    exact congrArg (proceed orig _) (checkOpenFlags_of_writes hw)
  | creat pathname mode =>
    cases h
    exact congrArg (proceed orig _) (checkOpenFlags_of_writes (by decide))
  | truncate => cases h; rfl
  | chmod => cases h; rfl
  | fchmodat => cases h; rfl
  | chown => cases h; rfl
  | setxattr => cases h; rfl
  | _ => cases h

/-- The call was refused before the original call. -/
def Refused (o : Outcome) : Prop := o.ret = negEperm ∧ o.ran = false

/-- A checked call is refused exactly when the file checked is denied. -/
theorem refused_iff (orig : Orig) (k : Kernel) (c : Call) (y : FileId) :
    Refused (proceed orig c (checkWrite k (some y))) ↔ Denied k.table y := by
  have hne : igBlockDeny ≠ igBlockAudit := by decide
  unfold Refused Denied
  simp only [checkWrite, checkFound, igCheck]
  split
  · rename_i hl
    simp [proceed, hl]
  · rename_i block hl
    by_cases hb : block = igBlockDeny
    · simp [proceed, hl, hb, negEperm]
    · simp [proceed, hl, hb]

/-- Every file under a DENY policy that the call reaches is protected from it. -/
def Protects (orig : Orig) (k : Kernel) (en : Entry) : Prop :=
  ∀ id, modifies k en.call = some id → Denied k.table id → Refused (en.run orig k)

/-- Under the hooks of either build a modifying call on a denied file is refused exactly when its
path does not end in a link that is not itself denied. -/
theorem protects_iff (orig : Orig) (k : Kernel) (en : Entry) :
    Protects orig k en ↔
      ∀ id, modifies k en.call = some id → Denied k.table id →
        ∀ l, hookSees k en.call = some l → k.fs.isLink l = true → Denied k.table l := by
  refine forall_congr' fun id => imp_congr_right fun hm => imp_congr_right fun hd => ?_
  obtain ⟨y, hy, hxy⟩ := hookSees_of_modifies hm
  obtain ⟨p, hp⟩ : ∃ p, modifyingPath en.call = some p := by
    unfold modifies at hm
    split at hm
    · cases hm
    · exact ⟨_, by assumption⟩
  have hrun : en.run orig k = proceed orig en.call (checkWrite k (some y)) := by
    rw [← hy, ← hook_of_modifies orig k hp]
    cases en with
    | lkm310 c => rfl
    | lkm417Syscall nr r => exact Lkm417Syscall.hook_eq orig k nr r
  rw [hrun, refused_iff]
  constructor
  · intro h l hl _
    rw [hy] at hl
    cases hl; exact h
  · intro h
    rcases hxy with rfl | hlink
    · exact hd
    · exact h y hy hlink

/-! ## A link to a denied file -/

theorem deniedPath_noZero : 0 ∉ ascii "/f" := by decide

/-- A root directory with the denied file `/f` and a link `/l` to it. -/
def linkedFile : Fs where
  node id :=
    if id = ⟨8, 2⟩ then
      some (.dir ⟨8, 2⟩ fun name =>
        if name = ascii "f" then some ⟨8, 3⟩ else if name = ascii "l" then some ⟨8, 4⟩ else none)
    else if id = ⟨8, 3⟩ then some (.file true)
    else if id = ⟨8, 4⟩ then some (.link ⟨ascii "/f", deniedPath_noZero⟩)
    else none
  root := ⟨8, 2⟩
  maxLinks := 40
  cwd := ⟨8, 2⟩
  fd _ := none

/-- `/f` is denied for every operation; the path of the link stands at user address 4096. -/
def deniedFile : Kernel where
  fs := linkedFile
  user p := if p = 4096 then some ⟨ascii "/l", by decide⟩ else none
  table := [⟨⟨8, 3⟩, 7, igBlockDeny, ⟨ascii "/f", deniedPath_noZero⟩⟩]
  events := []

/-- The caller may write the file. -/
def granted : Orig := fun _ fs => (0, fs)

/-- A truncate through the link runs the original call on the denied file. -/
theorem protects_link_fails : ¬ Protects granted deniedFile (.lkm310 (.truncate 4096 0)) := by
  intro h
  have hran := (h ⟨8, 3⟩ (by decide) (by unfold Denied; decide)).2
  exact absurd hran (by decide)

end KnIg.Lkm
