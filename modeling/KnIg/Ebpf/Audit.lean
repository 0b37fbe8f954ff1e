/-
The agent's reader of the eBPF audit events: the filter that drops a repetition within 200 ms, the event handed to
the queue, and the removal of a deleted file's inode from `policy_map` and the path cache. The removal stands behind
the filter and is made for one hook only, so an inode that a rename unlinks keeps its policy and its path.
-/
import KnIg.Agent.Queue
import KnIg.Ebpf.Lsm

namespace KnIg.Ebpf

open Lib Lib.Probe KnIg.Agent

/-! ## The filter -/

def hookDedupCap : Nat := 4096

instance : NeZero hookDedupCap := ⟨by decide⟩

def hookDedupMask : UInt64 := 4095

def hookDedupWinNs : UInt64 := 200000000

structure HookDedupEntry where
  id : FileId
  opMask : UInt32
  lastTsNs : UInt64

/-- `g_hook_dedup`; a slot that is not `used` has none. -/
abbrev HookDedup := Fin hookDedupCap → Option HookDedupEntry

def hookDedupHash (id : FileId) (opMask : UInt32) : UInt32 :=
  let h := id.dev * 2654435761 ^^^ id.ino * 2246822519 ^^^ opMask.toUInt64 * 374761393
  ((h ^^^ (h >>> 32)) &&& hookDedupMask).toUInt32

def hookDedupSlot (id : FileId) (opMask : UInt32) : Fin hookDedupCap := Fin.ofNat _ (hookDedupHash id opMask).toNat

/-- The slot holds the key, with a time less than 200 ms before. -/
def suppresses (t : HookDedup) (id : FileId) (opMask : UInt32) (tsNs : UInt64) : Bool :=
  match t (hookDedupSlot id opMask) with
  | none => false
  | some e => e.id = id ∧ e.opMask = opMask ∧ tsNs - e.lastTsNs < hookDedupWinNs

def hookDedupCheck (t : HookDedup) (id : FileId) (opMask : UInt32) (tsNs : UInt64) : Bool × HookDedup :=
  if suppresses t id opMask tsNs then (true, t)
  else (false, Function.update t (hookDedupSlot id opMask) (some ⟨id, opMask, tsNs⟩))

/-! ## The reader -/

/-- What the reader looks at besides the event: the ancestry of its process and the offset of the clocks. -/
structure AuditContext where
  chain : PidChain
  monoToRealOffsetNs : Int64

/-- The policies, the path cache and the filter. -/
structure AuditReader where
  policy : PolicyState
  dedup : HookDedup

def opToIgType (opMask : UInt32) : EventType :=
  if opMask &&& igEbpfOpDelete ≠ 0 then .delete
  else if opMask &&& igEbpfOpWrite ≠ 0 then .modify
  else if opMask &&& igEbpfOpAttr ≠ 0 then .attrib
  else .access

/-- The text after the last slash. -/
def lastComponent (path : CStr) : CStr where
  bytes := (path.bytes.reverse.takeWhile (· ≠ 47)).reverse
  noNul h := path.noNul (List.mem_reverse.1 (List.takeWhile_subset _ (List.mem_reverse.1 h)))

/-- The event that is pushed, given the path that `path_cache_get` left. -/
def auditIgEvent (ctx : AuditContext) (path : CStr) (e : AuditEvent) : IgEvent :=
  { IgEvent.zero with
    type := opToIgType e.opMask
    source := .ebpf
    timestamp := (e.tsNs.toInt64 + ctx.monoToRealOffsetNs) / 1000000000
    pid := e.pid.toInt32
    uid := e.uid
    dev := e.id.dev
    ino := e.id.ino
    blocked := e.denied.toInt32
    chain := ctx.chain
    sid := if 0 < ctx.chain.depth then (ctx.chain.chain ⟨0, igPaMaxDepth_pos⟩).sid else 0
    path := TermArr.copy igMaxPath igMaxPath_pos path
    comm := CharArr.copy 16 e.comm
    filename := TermArr.copy 256 (by decide) (lastComponent path) }

/-- `remove_policy_inode` and `path_cache_remove`. -/
def PolicyState.drop (s : PolicyState) (id : FileId) : PolicyState :=
  { map := removePolicyInode s.map id, cache := pathCacheRemove s.cache id }

/-- `handle_audit_event` on a record of full size, and the event that it pushes. -/
def handleAuditEvent (ctx : AuditContext) (s : AuditReader) (e : AuditEvent) : AuditReader × Option IgEvent :=
  match hookDedupCheck s.dedup e.id e.opMask e.tsNs with
  | (true, dedup) => ({ s with dedup }, none)
  | (false, dedup) =>
    let ev := auditIgEvent ctx (pathCacheGet s.policy.cache e.id igMaxPath) e
    if e.hookId = igHookPathUnlink ∧ e.denied = 0 then ({ policy := s.policy.drop e.id, dedup }, some ev)
    else ({ s with dedup }, some ev)

/-- An event that is read, or an inode that a pass of the agent adds to the policies or removes from them. -/
inductive AuditAct where
  | event (ctx : AuditContext) (e : AuditEvent)
  | add (id : FileId) (path : CStr) (mask block : UInt32)
  | remove (id : FileId)

def AuditAct.Adds (id : FileId) : AuditAct → Prop
  | add id' _ _ _ => id' = id
  | event _ _ | remove _ => False

namespace AuditReader

def step (s : AuditReader) : AuditAct → AuditReader
  | .event ctx e => (handleAuditEvent ctx s e).1
  | .add id path mask block => { s with policy := addVisit mask block id path s.policy }
  | .remove id => { s with policy := s.policy.drop id }

/-- Neither `policy_map` nor the path cache has an entry of the inode. -/
def Gone (s : AuditReader) (id : FileId) : Prop := s.policy.map.get id = none ∧ s.policy.cache.get id = none

end AuditReader

/-- The event of a deletion that is not refused: of an unlink, or of a rename's destination. -/
def PermittedDeletion (e : AuditEvent) : Prop :=
  (e.hookId = igHookPathUnlink ∨ e.hookId = igHookPathRename) ∧ e.opMask = igEbpfOpDelete ∧ e.denied = 0

/-- Once the event of a permitted deletion is handled, nothing is left of its inode until it is added again. -/
def DeletedGone (s : AuditReader) (acts : List AuditAct) : Prop :=
  ∀ before ctx e after, before ++ .event ctx e :: after <+: acts → PermittedDeletion e →
    (∀ act ∈ after, ¬ act.Adds e.id) →
    ((before ++ .event ctx e :: after).foldl AuditReader.step s).Gone e.id

/-- A permitted deletion is an unlink that the filter lets through, or nothing is held of its inode already. -/
def DeletionSeen (s : AuditReader) : AuditAct → Prop
  | .event _ e => PermittedDeletion e →
      (e.hookId = igHookPathUnlink ∧ suppresses s.dedup e.id e.opMask e.tsNs = false) ∨ s.Gone e.id
  | .add _ _ _ _ | .remove _ => True

namespace AuditReader

variable {s : AuditReader}

/-- What handling an event does to the policies: they lose its inode, if it is an unlink that was let through. -/
theorem policy_handleAuditEvent (ctx : AuditContext) (s : AuditReader) (e : AuditEvent) :
    (handleAuditEvent ctx s e).1.policy =
      if suppresses s.dedup e.id e.opMask e.tsNs = false ∧ e.hookId = igHookPathUnlink ∧ e.denied = 0 then
        s.policy.drop e.id
      else s.policy := by
  unfold handleAuditEvent hookDedupCheck
  cases hsup : suppresses s.dedup e.id e.opMask e.tsNs with
  | true => simp
  | false =>
    simp only [Bool.false_eq_true, if_false, true_and]
    split <;> rfl

theorem gone_drop (dedup : HookDedup) (p : PolicyState) (id : FileId) : (AuditReader.mk (p.drop id) dedup).Gone id := by
  constructor
  · exact Function.update_self ..
  · exact (Table.get_remove p.cache id id).trans (if_pos rfl)

theorem Gone.drop {id : FileId} (h : s.Gone id) (dedup : HookDedup) (id' : FileId) :
    (AuditReader.mk (s.policy.drop id') dedup).Gone id := by
  constructor
  · show Function.update s.policy.map.get id' none id = none
    rw [Function.update_apply, h.1, ite_self]
  · exact (Table.get_remove s.policy.cache id' id).trans (by rw [h.2, ite_self])

/-- An add changes nothing of another inode. -/
theorem get_addVisit_of_ne (mask block : UInt32) {id id' : FileId} (hne : id ≠ id') (path : CStr) (p : PolicyState) :
    (addVisit mask block id' path p).map.get id = p.map.get id ∧
      (addVisit mask block id' path p).cache.get id = p.cache.get id := by
  unfold addVisit addPolicyInode
  split
  · next m hm =>
    rw [BoundedMap.get_update hm, Function.update_of_ne hne]
    exact ⟨rfl, Table.get_put_ne p.cache _ hne⟩
  · exact ⟨rfl, rfl⟩

/-- What is gone stays gone until it is added. -/
theorem Gone.step {id : FileId} (h : s.Gone id) {act : AuditAct} (hact : ¬ act.Adds id) : (s.step act).Gone id := by
  cases act with
  | event ctx e =>
    unfold Gone AuditReader.step
    rw [policy_handleAuditEvent]
    split
    · exact h.drop s.dedup e.id
    · exact h
  | add id' path mask block =>
    obtain ⟨hmap, hcache⟩ := get_addVisit_of_ne mask block (fun he => hact he.symm) path s.policy
    exact ⟨hmap.trans h.1, hcache.trans h.2⟩
  | remove id' => exact h.drop s.dedup id'

/-- The event of a permitted deletion leaves nothing of its inode when it is an unlink that is let through, or there
was nothing. -/
theorem gone_deletion_iff {e : AuditEvent} (he : PermittedDeletion e) (ctx : AuditContext) :
    (s.step (.event ctx e)).Gone e.id ↔
      (e.hookId = igHookPathUnlink ∧ suppresses s.dedup e.id e.opMask e.tsNs = false) ∨ s.Gone e.id := by
  obtain ⟨-, -, hdenied⟩ := he
  have hpolicy := policy_handleAuditEvent ctx s e
  simp only [hdenied, and_true] at hpolicy
  by_cases hseen : suppresses s.dedup e.id e.opMask e.tsNs = false ∧ e.hookId = igHookPathUnlink
  · rw [if_pos hseen] at hpolicy
    refine iff_of_true ?_ (.inl hseen.symm)
    unfold Gone AuditReader.step
    rw [hpolicy]
    exact gone_drop s.dedup s.policy e.id
  · rw [if_neg hseen] at hpolicy
    rw [and_comm, or_iff_right hseen]
    unfold Gone AuditReader.step
    rw [hpolicy]

end AuditReader

/-- In every stream nothing is left of a deleted inode until it is added again exactly when every permitted deletion
is an unlink that the filter lets through, or comes when nothing is held of its inode. -/
theorem deletedGone_iff (s : AuditReader) (acts : List AuditAct) :
    DeletedGone s acts ↔ AllSteps AuditReader.step DeletionSeen s acts := by
  rw [allSteps_iff_prefixes]
  constructor
  · intro hgone before act hpre
    cases act with
    | event ctx e =>
      intro he
      have hafter := hgone before ctx e [] hpre he (by simp)
      rw [List.foldl_append, List.foldl_cons, List.foldl_nil] at hafter
      exact (AuditReader.gone_deletion_iff he ctx).1 hafter
    | add id path mask block => trivial
    | remove id => trivial
  · intro hseen before ctx e after hpre he hafter
    have hstep : before ++ [.event ctx e] <+: acts :=
      (List.prefix_append_right_inj before).2 (List.cons_prefix_cons.2 ⟨rfl, List.nil_prefix⟩) |>.trans hpre
    rw [List.foldl_append, List.foldl_cons]
    exact List.foldlRecOn (motive := fun s : AuditReader => s.Gone e.id) after AuditReader.step
      ((AuditReader.gone_deletion_iff he ctx).2 (hseen before _ hstep he)) fun s h act hact => h.step (hafter act hact)

/-! ## A rename over a watched file -/

def noChain : AuditContext := ⟨⟨0, 0, fun _ => ProcInfo.zero⟩, 0⟩

def shadow : FileId := ⟨8388609, 1311⟩

/-- What `check_path_rename` submits for the destination of a rename over the file, in audit mode. -/
def renamedOver : AuditEvent :=
  ⟨shadow, 4021, 0, igEbpfOpDelete, igHookPathRename, 0, ⟨ascii "mv", by decide⟩, 5000000000⟩

/-- The reader with the policy of one file, in audit mode. -/
def oneWatched : AuditReader :=
  ⟨addVisit protectMask 0 shadow ⟨ascii "/etc/shadow", by decide⟩ ebpfInit, fun _ => none⟩

example : (checkPathRename ⟨(4021 : UInt64) <<< (32 : UInt64), 0, ⟨ascii "mv", by decide⟩, 5000000000⟩
    ⟨oneWatched.policy.map, fun _ => none, [], 1⟩ none (some shadow) 0).2.auditRb = [renamedOver] := rfl

/-- After the rename the inode of the file that was replaced keeps its policy. -/
theorem deletedGone_rename_fails : ¬ DeletedGone oneWatched [.event noChain renamedOver] := by
  intro h
  have hgone := h [] noChain renamedOver [] (List.prefix_refl _) ⟨.inr rfl, rfl, rfl⟩ (by simp)
  have hkept := AuditReader.policy_handleAuditEvent noChain oneWatched renamedOver
  rw [if_neg (by rintro ⟨-, hook, -⟩; exact absurd hook (by decide))] at hkept
  have hheld : oneWatched.policy.map.get shadow = some ⟨protectMask, 0⟩ := rfl
  have hnone : oneWatched.policy.map.get shadow = none := hkept ▸ hgone.1
  rw [hheld] at hnone
  cases hnone

end KnIg.Ebpf
