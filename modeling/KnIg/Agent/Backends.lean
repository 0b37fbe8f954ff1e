/-
The two backends on one operation: a file that a start in lock mode protects in the kernel module's
table and in the eBPF policy map is refused by both or by neither, but for the operations that only
one of them has a hook for.
-/
import KnIg.Ebpf.Lsm
import KnIg.Lkm.Builds

namespace KnIg.Agent

open Lib Ebpf Lkm

/-! ## Protected files -/

/-- The policies that `lkm_add_from_baseline` and the eBPF passes install in lock mode. -/
structure Locked (t : PolicyTable) (m : PolicyMap) (id : FileId) : Prop where
  lkm : ∃ e, findEntry t id = some e ∧ e.mask = igOpWrite ||| igOpDelete ||| igOpRename ∧ e.block = igBlockDeny
  ebpf : m.get id = some ⟨protectMask, igEbpfBlockDeny⟩

section Locked

variable {t : PolicyTable} {m : PolicyMap} {id : FileId}

theorem Locked.denies (h : Locked t m id) {op : UInt32} (hop : (igOpWrite ||| igOpDelete ||| igOpRename) &&& op ≠ 0) :
    Lkm.Denies t id op := by
  obtain ⟨e, he, hmask, hblock⟩ := h.lkm
  unfold Lkm.Denies inodePolicyLookup
  simp only [he, hmask, hblock]
  exact if_pos hop

theorem Locked.ebpf_denies (h : Locked t m id) (op : UInt32) :
    Ebpf.Denies m (some id) op ↔ protectMask &&& op ≠ 0 := by
  unfold Ebpf.Denies
  simp [h.ebpf, igEbpfBlockDeny]

end Locked

/-- Every entry of the table has the mask and the mode. -/
def AllEntries (t : PolicyTable) (mask block : UInt32) : Prop :=
  ∀ id e, findEntry t id = some e → e.mask = mask ∧ e.block = block

theorem allEntries_add {t : PolicyTable} {mask block : UInt32} (h : AllEntries t mask block) (allocOk : Bool)
    (id : FileId) (path : Option CStr) : AllEntries (inodePolicyAdd allocOk t id mask block path).2 mask block := by
  intro id' e he
  unfold inodePolicyAdd addUpdateLocked at he
  cases hold : findEntry t id with
  | some old =>
    simp only [hold] at he
    unfold findEntry at he
    rw [Keyed.get_modify (f := fun e : PolicyEntry => e.set mask block path) fun _ => rfl] at he
    split at he
    · obtain ⟨e', -, rfl⟩ := Option.map_eq_some_iff.1 he
      exact ⟨rfl, rfl⟩
    · exact h id' e he
  | none =>
    simp only [hold] at he
    split at he
    · simp only [addInsertLocked, findEntry, Keyed.get_cons] at he
      split at he
      · cases he
        exact ⟨rfl, rfl⟩
      · exact h id' e he
    · exact h id' e he

/-- `lkm_add_from_baseline` gives every entry of a cleared table its mask and the mode. -/
theorem allEntries_addFromBaseline (fs : Files) (kzallocOk : FileId → Bool) (db : ScanResult) (block : UInt32)
    (left : PolicyTable) :
    AllEntries (lkmAddFromBaseline fs kzallocOk db block (lkmClearAll left)).2
      (igOpWrite ||| igOpDelete ||| igOpRename) block := by
  unfold lkmAddFromBaseline
  refine List.foldlRecOn (motive := fun acc : Nat × PolicyTable => AllEntries acc.2 _ block) db.entries _ ?_
    fun acc hacc e _ => ?_
  · intro id e he
    cases he
  · unfold addFromEntry
    split
    · exact hacc
    · exact allEntries_add hacc _ _ _

/-- The passes over the watch list give every inode the protecting mask and the mode. -/
theorem get_addWatches {env : Env} {watches : List WatchEntry} {s : PolicyState}
    (h : addWatches env watches ebpfInit = some s) {id : FileId} {p : InodePolicy} (hp : s.map.get id = some p) :
    p = ⟨protectMask, env.block⟩ := by
  have hvisit : ∀ id path (s : PolicyState), (∀ id p, s.map.get id = some p → p = ⟨protectMask, env.block⟩) →
      ∀ id' p, (addVisit protectMask env.block id path s).map.get id' = some p → p = ⟨protectMask, env.block⟩ := by
    intro id path s hs id' p hp
    unfold addVisit addPolicyInode at hp
    split at hp
    · next m hm =>
      rw [BoundedMap.get_update hm, Function.update_apply] at hp
      split at hp
      · cases hp; rfl
      · exact hs id' p hp
    · exact hs id' p hp
  refine foldlM_invariant (I := fun s : PolicyState => ∀ id p, s.map.get id = some p → p = ⟨protectMask, env.block⟩)
    ?_ watches h ?_ id p hp
  · intro s w s' hs hi
    obtain ⟨⟨rc, t⟩, ht, rfl⟩ := Option.map_eq_some_iff.1 hs
    exact pathInternal_invariant hvisit ht hi
  · intro id p hp
    cases hp

/-- A file that carries a policy of either backend after its start in lock mode is protected. -/
theorem locked_of_start {env : Env} (hlock : env.block = igBlockDeny) {left : PolicyTable} {cfg : IgConfig}
    {ae al : RunningAgent} (he : start env .ebpf left cfg = some ae) (hl : start env .lkm left cfg = some al)
    {id : FileId} (hce : ae.Carries id) (hcl : al.Carries id) : Locked al.lkm ae.ebpf.map id := by
  cases hl
  obtain ⟨s, hs, rfl⟩ := Option.map_eq_some_iff.1 he
  obtain ⟨p, hp⟩ := Option.isSome_iff_exists.1 ((s.map.mem_keys id).1 hce)
  obtain ⟨e, hfind⟩ := Option.isSome_iff_exists.1 (hasPolicy_iff.1 hcl)
  refine ⟨⟨e, hfind, ?_⟩, ?_⟩
  · rw [← hlock]
    exact allEntries_addFromBaseline _ _ _ _ _ id e hfind
  · have hpolicy := get_addWatches hs hp
    rw [hp, hpolicy, hlock]
    rfl

/-! ## What the programs ask of a modifying operation -/

theorem and_or_eq_zero (a b c : UInt32) : a &&& (b ||| c) = 0 ↔ a &&& b = 0 ∧ a &&& c = 0 := by
  have hdistrib : a &&& (b ||| c) = a &&& b ||| a &&& c := by
    apply UInt32.eq_of_toBitVec_eq
    exact BitVec.and_or_distrib_left
  rw [hdistrib, UInt32.or_eq_zero_iff]

/-- The eBPF programs look the call's file up for writing or for its attributes. -/
def ebpfAsks : SecurityCall → Bool
  | .filePermission _ mask => mask &&& mayWrite ≠ 0
  | .fileOpen _ mode => mode &&& fmodeWrite ≠ 0
  | .pathTruncate _ | .pathChmod _ => true
  | .inodeSetattr _ attr => attr.getD 0 &&& (attrSize ||| attrMode ||| attrUid ||| attrGid) ≠ 0
  | _ => false

theorem refuses_of_mayAsk {m : PolicyMap} {t : PolicyTable} {id : FileId} (h : Locked t m id) {kind : WriteKind}
    {c : SecurityCall} (hc : kind.MayAsk id c) : Refuses m c ↔ ebpfAsks c = true := by
  cases c with
  | filePermission file mask =>
    obtain rfl : file = some id := Option.toList_eq_singleton_iff.1 hc.inodes
    rw [Refuses, h.ebpf_denies, filePermissionOps, ebpfAsks]
    by_cases hr : mask &&& mayRead = 0 <;> by_cases hw : mask &&& mayWrite = 0 <;> simp [hr, hw] <;> decide
  | fileOpen file mode =>
    obtain rfl : file = some id := Option.toList_eq_singleton_iff.1 hc.inodes
    rw [Refuses, h.ebpf_denies, fileOpenOps, ebpfAsks]
    by_cases hr : mode &&& fmodeRead = 0 <;> by_cases hw : mode &&& fmodeWrite = 0 <;> simp [hr, hw] <;> decide
  | pathTruncate path | pathChmod path =>
    obtain rfl : path = some id := Option.toList_eq_singleton_iff.1 hc.inodes
    rw [Refuses, h.ebpf_denies]
    simp [ebpfAsks]
    decide
  | inodeSetattr dentry attr =>
    obtain rfl : dentry = some id := Option.toList_eq_singleton_iff.1 hc.inodes
    cases attr with
    | none => simp [Refuses, ebpfAsks]
    | some valid =>
      have hmask : attrSize ||| attrMode ||| attrUid ||| attrGid = attrSize ||| (attrMode ||| attrUid ||| attrGid) := by
        decide
      rw [Refuses, h.ebpf_denies, inodeSetattrOps, ebpfAsks, Option.getD_some, hmask]
      by_cases ha : valid &&& (attrMode ||| attrUid ||| attrGid) = 0 <;>
        by_cases hs : valid &&& attrSize = 0 <;> simp [ha, hs, and_or_eq_zero] <;> decide
  | mmapFile | inodeUnlink | inodeRename | pathUnlink | pathRename => cases kind <;> exact hc.elim
  | _ => simp [Refuses, ebpfAsks]

/-! ## Both backends on a modifying operation -/

section Modify

variable {id : FileId} {kind : WriteKind} {cs : List SecurityCall}

/-- A change of attributes is asked of both backends. -/
theorem setsAttr_asks {attr : UInt32}
    (hattr : attr &&& (attrSize ||| attrMode ||| attrUid ||| attrGid) = attr) (h : SetsAttr id attr cs) :
    (∃ c ∈ cs, Lsm.asksWrite c = true) ∧ ∃ c ∈ cs, ebpfAsks c = true := by
  obtain ⟨valid, hvalid, hmem⟩ := h
  have hany : valid &&& (attrSize ||| attrMode ||| attrUid ||| attrGid) ≠ 0 := by
    intro h0
    apply hvalid
    rw [← hattr, UInt32.and_comm attr, ← UInt32.and_assoc, h0, UInt32.zero_and]
  exact ⟨⟨_, hmem, by simpa [Lsm.asksWrite] using hany⟩, ⟨_, hmem, by simpa [ebpfAsks] using hany⟩⟩

/-- The operations that both backends have a hook for are asked of both or of neither. -/
theorem modify_agrees_iff (hmay : ∀ c ∈ cs, kind.MayAsk id c) (hasks : kind.Asks id cs) :
    ((∃ c ∈ cs, Lsm.asksWrite c = true) ↔ ∃ c ∈ cs, ebpfAsks c = true) ↔
      kind ≠ .link ∧ kind ≠ .setxattr ∧ (kind = .write → ∃ c ∈ cs, Lsm.asksWrite c = true) := by
  have hpermission : ∀ mask, mask &&& mayWrite ≠ 0 → .inodePermission (some id) mask ∈ cs →
      ∃ c ∈ cs, Lsm.asksWrite c = true := fun mask hmask hmem => ⟨_, hmem, by simpa [Lsm.asksWrite] using hmask⟩
  cases kind with
  | openWrite =>
    obtain ⟨⟨mask, hmask, hmem⟩, mode, hmode, hopen⟩ := hasks
    have hebpf : ∃ c ∈ cs, ebpfAsks c = true := ⟨_, hopen, by simpa [ebpfAsks] using hmode⟩
    simp [iff_of_true (hpermission mask hmask hmem) hebpf]
  | openTrunc =>
    obtain ⟨⟨mask, hmask, hmem⟩, htrunc, -⟩ := hasks
    have hebpf : ∃ c ∈ cs, ebpfAsks c = true := ⟨_, htrunc, rfl⟩
    simp [iff_of_true (hpermission mask hmask hmem) hebpf]
  | write =>
    obtain ⟨mask, hmask, hmem⟩ := hasks
    have hebpf : ∃ c ∈ cs, ebpfAsks c = true := ⟨_, hmem, by simpa [ebpfAsks] using hmask⟩
    simp [hebpf]
  | truncate => simp [iff_of_true (setsAttr_asks (by decide) hasks.2).1 (setsAttr_asks (by decide) hasks.2).2]
  | chmod => simp [iff_of_true (setsAttr_asks (by decide) hasks.2).1 (setsAttr_asks (by decide) hasks.2).2]
  | chown user group =>
    -- the one hook of a chown is in both backends
    have hsame : ∀ c ∈ cs, Lsm.asksWrite c = ebpfAsks c := by
      intro c hc
      cases c with
      | inodeSetattr dentry attr => rfl
      | _ => exact (hmay _ hc).elim
    have hiff : (∃ c ∈ cs, Lsm.asksWrite c = true) ↔ ∃ c ∈ cs, ebpfAsks c = true :=
      exists_congr fun c => and_congr_right fun hc => by rw [hsame c hc]
    simp [hiff]
  | link | setxattr =>
    have hebpf : ¬ ∃ c ∈ cs, ebpfAsks c = true := by
      rintro ⟨c, hc, hasked⟩
      cases c <;> first | exact (hmay _ hc).elim | cases hasked
    simp only [ne_eq, not_true_eq_false, false_and, and_false, iff_false]
    exact fun h => hebpf (h.1 ⟨_, hasks, rfl⟩)

end Modify

/-! ## Both backends on any operation -/

/-- Both backends are asked about the file of the operation. A hard link and an extended attribute have a hook in the
kernel module only, a write to an open file in the eBPF programs only, unless the kernel asks the module to drop the
file's set-id bits; a file renamed onto itself never gets to the hook of the module. -/
def HookedAlike (fs : Fs) (calls : List SecurityCall) : FileOp → Prop
  | .modify kind _ => kind ≠ .link ∧ kind ≠ .setxattr ∧ (kind = .write → 0 < Lsm.writeAsks fs calls)
  | .unlink _ => True
  | .rename src dst => dst ≠ some src
  | .exchange src dst => dst ≠ src

theorem andThen_refused (v w : Verdict) : (v.andThen w).refused = (v.refused || w.refused) := by
  obtain ⟨refused, events⟩ := v
  cases refused <;> rfl

theorem lsmRename_refused {t : PolicyTable} {src : FileId} {dst : Option FileId}
    (h : Lkm.Denies t src igOpRename ∨ ∃ id ∈ dst, Lkm.Denies t id igOpRename) :
    (lsmRename t src dst).refused = true := by
  rw [lsmRename, andThen_refused, Bool.or_eq_true]
  rcases h with hsrc | ⟨id, rfl, hdst⟩
  · rw [checkVerdict_denies hsrc]
    exact .inl rfl
  · rw [Option.elim_some, checkVerdict_denies hdst]
    exact .inr rfl

theorem lsm_run_refuses (k : Kernel) (calls : List SecurityCall) :
    (Lsm.run k calls).1 ≠ 0 ↔ (Lsm.verdict k calls).refused = true := by
  simp [Lsm.verdict, verdictOf]

section Operation

variable {k : Kernel} {s : LsmMaps} {id : FileId} {calls : List SecurityCall}

/-- The kernel module refuses a modifying operation on a protected file when one of its hooks asks. -/
theorem lsm_modify_refuses (hlocked : Locked k.table s.policyMap id) {kind : WriteKind}
    (h : KernelCalls k.fs (.modify kind id) calls) :
    (Lsm.run k calls).1 ≠ 0 ↔ ∃ c ∈ calls.filter (·.onRegular k.fs), Lsm.asksWrite c = true := by
  rw [← List.countP_pos_iff, lsm_run_refuses, lsm_modify h, checkVerdict_denies (hlocked.denies (by decide)),
    Verdict.refused_times]
  unfold Lsm.writeAsks
  split
  · next h0 => simp [h0, Verdict.passed]
  · next h0 => simp [Nat.pos_of_ne_zero h0]

/-- The eBPF programs refuse a modifying operation on a protected file when one of them asks. -/
theorem answer_modify_refuses (task : CurrentTask) (hlocked : Locked k.table s.policyMap id) {kind : WriteKind}
    (h : KernelCalls k.fs (.modify kind id) calls) :
    (answer task s calls).1 ≠ 0 ↔ ∃ c ∈ calls.filter (·.onRegular k.fs), ebpfAsks c = true := by
  rw [answer_refuses]
  constructor
  · rintro ⟨c, hc, hrefuses⟩
    cases hreg : c.onRegular k.fs with
    | false =>
      obtain ⟨dir, mask, rfl⟩ := h.walk c hc hreg
      exact hrefuses.elim
    | true =>
      have hmem : c ∈ calls.filter (·.onRegular k.fs) := List.mem_filter.2 ⟨hc, hreg⟩
      exact ⟨c, hmem, (refuses_of_mayAsk hlocked (h.asks.1 c hmem)).1 hrefuses⟩
  · rintro ⟨c, hmem, hasked⟩
    exact ⟨c, (List.mem_filter.1 hmem).1, (refuses_of_mayAsk hlocked (h.asks.1 c hmem)).2 hasked⟩

theorem mem_of_asks {c : SecurityCall} {cs : List SecurityCall}
    (hcs : calls.filter (·.onRegular k.fs) = cs) (hc : c ∈ cs) : c ∈ calls := by
  rw [← hcs] at hc
  exact (List.mem_filter.1 hc).1

theorem unlink_refuses (task : CurrentTask) (hlocked : Locked k.table s.policyMap id)
    (h : KernelCalls k.fs (.unlink id) calls) : (Lsm.run k calls).1 ≠ 0 ∧ (answer task s calls).1 ≠ 0 := by
  constructor
  · rw [lsm_run_refuses, lsm_unlink h, checkVerdict_denies (hlocked.denies (by decide))]
  · rw [answer_refuses]
    exact ⟨_, mem_of_asks h.asks List.mem_cons_self, (hlocked.ebpf_denies _).2 (by decide)⟩

/-- The eBPF programs refuse a rename that names a protected file on either side. -/
theorem refuses_pathRename (hlocked : Locked k.table s.policyMap id) {src dst : Option FileId}
    (hid : src = some id ∨ dst = some id) : Refuses s.policyMap (.pathRename src dst) := by
  rcases hid with rfl | rfl
  · exact .inl ((hlocked.ebpf_denies _).2 (by decide))
  · exact .inr ((hlocked.ebpf_denies _).2 (by decide))

theorem rename_refuses (task : CurrentTask) (hlocked : Locked k.table s.policyMap id) {src : FileId}
    {dst : Option FileId} (hid : src = id ∨ dst = some id) (h : KernelCalls k.fs (.rename src dst) calls) :
    ((Lsm.run k calls).1 ≠ 0 ↔ dst ≠ some src) ∧ (answer task s calls).1 ≠ 0 := by
  constructor
  · rw [lsm_run_refuses, lsm_rename h]
    by_cases hself : dst = some src
    · simp [hself, Verdict.passed]
    · rw [if_neg hself]
      refine iff_of_true (lsmRename_refused ?_) hself
      rcases hid with rfl | hdst
      · exact .inl (hlocked.denies (by decide))
      · exact .inr ⟨id, hdst, hlocked.denies (by decide)⟩
  · rw [answer_refuses]
    exact ⟨_, mem_of_asks h.asks List.mem_cons_self, refuses_pathRename hlocked (hid.imp_left (congrArg some))⟩

theorem exchange_refuses (task : CurrentTask) (hlocked : Locked k.table s.policyMap id) {src dst : FileId}
    (hid : src = id ∨ dst = id) (h : KernelCalls k.fs (.exchange src dst) calls) :
    ((Lsm.run k calls).1 ≠ 0 ↔ dst ≠ src) ∧ (answer task s calls).1 ≠ 0 := by
  constructor
  · rw [lsm_run_refuses, lsm_exchange h]
    by_cases hself : dst = src
    · simp [hself, Verdict.passed]
    · rw [if_neg hself, andThen_refused, Bool.or_eq_true]
      refine iff_of_true (.inl (lsmRename_refused ?_)) hself
      rcases hid with rfl | rfl
      · exact .inr ⟨_, rfl, hlocked.denies (by decide)⟩
      · exact .inl (hlocked.denies (by decide))
  · rw [answer_refuses]
    exact ⟨_, mem_of_asks h.asks List.mem_cons_self,
      refuses_pathRename hlocked (hid.symm.imp (congrArg some) (congrArg some))⟩

end Operation

/-! ## An extended attribute of a protected file -/

/-- The maps with the protected file of `deniedFile` in them. -/
def lockedMaps : LsmMaps where
  policyMap :=
    { get := fun id => if id = ⟨8, 3⟩ then some ⟨protectMask, igEbpfBlockDeny⟩ else none
      keys := {⟨8, 3⟩}
      mem_keys := fun id => by by_cases h : id = ⟨8, 3⟩ <;> simp [h]
      card_le := by simp [policyMapMax] }
  hookStats i := if i < 16 then some 0 else none
  auditRb := []
  room := 1024

theorem rootComm_noZero : 0 ∉ ascii "sh" := by decide

/-- A process of the superuser. -/
def rootTask : CurrentTask := ⟨0x0000012c0000012c, 0, ⟨ascii "sh", rootComm_noZero⟩, 0⟩

/-- The calls for the removal of the file. -/
def unlinkCalls : List SecurityCall :=
  [.pathUnlink (some ⟨8, 3⟩), .inodePermission (some ⟨8, 2⟩) 3, .inodeUnlink (some ⟨8, 3⟩)]

/-- The calls for an extended attribute of the file. -/
def setxattrCalls : List SecurityCall := [.inodePermission (some ⟨8, 3⟩) mayWrite, .inodeSetxattr (some ⟨8, 3⟩)]

end KnIg.Agent
