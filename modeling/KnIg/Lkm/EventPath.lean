/-
The path of a kernel event on its way to the agent. It passes through the request, the policy entry and the event,
all with room for 255 bytes, before it is in the agent's buffers again; the kernel keeps one path for an inode, the
last one that was added. So it arrives as the baseline has it for paths shorter than those buffers that do not share
their inode with another path of the baseline.
-/
import KnIg.Agent.Queue
import KnIg.Lkm.Actor
import KnIg.Lkm.Client

namespace KnIg.Lkm

open Lib KnIg.Agent

/-! ## The receiving thread -/

/-- What `/proc` tells of a process; an empty array where it has nothing. -/
structure ProcFs where
  exe : Int32 → CharArr 256
  cmdline : Int32 → CharArr 512

def igPaEnrichEntry (proc : ProcFs) (info : ProcInfo) : ProcInfo :=
  if info.pid ≤ 0 then info
  else
    { info with
      exe := if info.exe.str = [] then proc.exe info.pid else info.exe
      cmdline := if info.cmdline.str = [] then proc.cmdline info.pid else info.cmdline }

def chainInfo (proc : ProcFs) (src : IgLkmChainEntry) : ProcInfo :=
  let dst : ProcInfo :=
    { ProcInfo.zero with
      pid := src.pid.toInt32
      ppid := src.ppid.toInt32
      uid := src.uid
      euid := src.euid
      sid := src.sid.toInt32
      startTimeNs := src.startTimeNs
      comm := CharArr.copy 16 src.comm
      tty := CharArr.copy 32 src.tty
      exe := CharArr.copy 256 src.exe
      cmdline := CharArr.copy 512 src.cmdline }
  if dst.exe.str = [] ∨ dst.cmdline.str = [] then igPaEnrichEntry proc dst else dst

def lkmEventType (op : UInt32) : EventType :=
  if op = igOpWrite then .modify else if op = igOpDelete then .delete else if op = igOpRename then .move else .unknown

/-- The event that `lkm_event_thread` makes of one that it read. -/
def lkmEventThread (proc : ProcFs) (lev : IgLkmEvent) : IgEvent :=
  let chain : PidChain :=
    { depth := Int32.ofNat lev.chain.length
      truncated := if lev.chainTruncated then 1 else 0
      chain := fun i => ((lev.chain[i.val]?).map (chainInfo proc)).getD ProcInfo.zero }
  { IgEvent.zero with
    type := lkmEventType lev.op
    source := .lkm
    pid := lev.pid.toInt32
    uid := lev.uid
    dev := lev.id.dev
    ino := lev.id.ino
    blocked := lev.blocked.toInt32
    timestamp := lev.timestampNs / 1000000000
    path := TermArr.copy igMaxPath igMaxPath_pos lev.path
    comm := CharArr.copy 16 lev.comm
    chain := chain
    sid := if lev.chain = [] then 0 else (chain.chain ⟨0, igPaMaxDepth_pos⟩).sid }

/-! ## The path of a policy -/

theorem findEntry_update {t : PolicyTable} {id : FileId} {e : PolicyEntry} (he : findEntry t id = some e)
    (mask block : UInt32) (path : CStr) (id' : FileId) :
    findEntry (Keyed.modify PolicyEntry.id t id (·.set mask block (some path))) id' =
      if id' = id then some (e.set mask block (some path)) else findEntry t id' := by
  have hkey : ∀ e : PolicyEntry, (e.set mask block (some path)).id = e.id := fun _ => rfl
  unfold findEntry at he ⊢
  rw [Keyed.get_modify hkey, he, Option.map_some]

/-- An add gives its inode the path, if the module has memory for a new entry. -/
theorem inodePolicyPath_add_self (t : PolicyTable) (id : FileId) (mask block : UInt32) (path : CStr) :
    inodePolicyPath (inodePolicyAdd true t id mask block (some path)).2 id = path.cut (igMaxLkmPath - 1) := by
  unfold inodePolicyAdd addUpdateLocked inodePolicyPath
  cases he : findEntry t id with
  | some e =>
    simp only [findEntry_update he, if_true]
    rfl
  | none =>
    simp only [addInsertLocked, findEntry, Keyed.get_cons, PolicyEntry.set, if_true]
    rfl

/-- An add leaves the other inodes' paths. -/
theorem inodePolicyPath_add_of_ne (allocOk : Bool) (t : PolicyTable) {id id' : FileId} (hne : id' ≠ id)
    (mask block : UInt32) (path : CStr) :
    inodePolicyPath (inodePolicyAdd allocOk t id mask block (some path)).2 id' = inodePolicyPath t id' := by
  unfold inodePolicyAdd addUpdateLocked inodePolicyPath
  cases he : findEntry t id with
  | some e => simp only [findEntry_update he, if_neg hne]
  | none =>
    cases allocOk with
    | false => rfl
    | true => simp only [addInsertLocked, findEntry, Keyed.get_cons, PolicyEntry.set, if_neg hne.symm, if_true]

/-- The entries of the baseline whose path leads to the inode. -/
def entriesAt (fs : Files) (db : ScanResult) (id : FileId) : List ScanEntry :=
  db.entries.filter fun e => (fs.stat e.path).map Stat.id = some id

/-- The path kept for an inode that gets a policy is that of the last entry leading to it. -/
theorem inodePolicyPath_foldl {fs : Files} {kzallocOk : FileId → Bool} {block : UInt32} {id : FileId}
    (hok : kzallocOk id = true) (entries : List ScanEntry) (acc : Nat × PolicyTable) :
    inodePolicyPath (entries.foldl (addFromEntry fs kzallocOk block) acc).2 id =
      (((entries.filter fun e => (fs.stat e.path).map Stat.id = some id).getLast?).map
        fun e => e.path.cut (igMaxLkmPath - 1)).getD (inodePolicyPath acc.2 id) := by
  induction entries generalizing acc with
  | nil => rfl
  | cons e entries ih =>
    rw [List.foldl_cons, ih, List.filter_cons]
    have hstep : inodePolicyPath (addFromEntry fs kzallocOk block acc e).2 id =
        if (fs.stat e.path).map Stat.id = some id then e.path.cut (igMaxLkmPath - 1)
        else inodePolicyPath acc.2 id := by
      unfold addFromEntry lkmAddInode
      cases hst : fs.stat e.path with
      | none => simp
      | some st =>
        by_cases hid : st.id = id
        · simp only [hid, hok, Option.map_some, if_true, inodePolicyPath_add_self, CStr.cut_cut, Nat.min_self]
        · simp only [Option.map_some, Option.some_inj, if_neg hid]
          exact inodePolicyPath_add_of_ne _ _ (Ne.symm hid) _ _ _
    rw [hstep]
    by_cases hid : (fs.stat e.path).map Stat.id = some id
    · rw [if_pos hid, if_pos (decide_eq_true hid), List.getLast?_cons]
      cases (entries.filter fun e => (fs.stat e.path).map Stat.id = some id).getLast? <;> simp
    · rw [if_neg hid, if_neg (by simpa using hid)]

/-- The inode numbers of the baseline's files are in the table that a start or a reload leaves. -/
theorem hasPolicy_of_entry {fs : Files} (kzallocOk : FileId → Bool) {db : ScanResult} (block : UInt32)
    (left : PolicyTable) {e : ScanEntry} (he : e ∈ db.entries) {st : Stat} (hst : fs.stat e.path = some st) :
    HasPolicy (lkmAddFromBaseline fs kzallocOk db block (lkmClearAll left)).2 st.id ↔ kzallocOk st.id = true := by
  rw [hasPolicy_addFromBaseline, and_iff_right]
  exact List.mem_filterMap.2 ⟨e, he, by rw [hst]; rfl⟩

theorem mem_entriesAt {fs : Files} {db : ScanResult} {id : FileId} {e : ScanEntry} :
    e ∈ entriesAt fs db id ↔ e ∈ db.entries ∧ (fs.stat e.path).map Stat.id = some id := by
  unfold entriesAt
  rw [List.mem_filter, decide_eq_true_eq]

/-- The last of the entries leading to an inode gives its policy the path. -/
theorem exists_last_entry {fs : Files} {kzallocOk : FileId → Bool} {db : ScanResult} (block : UInt32)
    (left : PolicyTable) {id : FileId} (hok : kzallocOk id = true) {e : ScanEntry} (he : e ∈ entriesAt fs db id) :
    ∃ last ∈ entriesAt fs db id,
      inodePolicyPath (lkmAddFromBaseline fs kzallocOk db block (lkmClearAll left)).2 id =
        last.path.cut (igMaxLkmPath - 1) := by
  refine ⟨(entriesAt fs db id).getLast (List.ne_nil_of_mem he), List.getLast_mem _, ?_⟩
  unfold lkmAddFromBaseline
  rw [inodePolicyPath_foldl hok]
  change (((entriesAt fs db id).getLast?).map fun e => e.path.cut (igMaxLkmPath - 1)).getD _ = _
  rw [List.getLast?_eq_some_getLast (List.ne_nil_of_mem he)]
  rfl

/-! ## The path of an event -/

theorem exists_igLkmEvent (m : Machine) (t : PolicyTable) (current : LiveTask) (id : FileId) (op blocked : UInt32)
    (nowNs : Int64) : ∃ lev, m.igEventEnqueue true t current id op blocked nowNs = some lev := ⟨_, rfl⟩

/-- The path that `process_event` gets with an event. -/
theorem path_lkmEventThread {m : Machine} {kmalloc : Bool} {t : PolicyTable} {current : LiveTask} {id : FileId}
    {op blocked : UInt32} {nowNs : Int64} {lev : IgLkmEvent}
    (h : m.igEventEnqueue kmalloc t current id op blocked nowNs = some lev) (proc : ProcFs) :
    (lkmEventThread proc lev).path.str = (inodePolicyPath t id).cut (igMaxLkmPath - 1) := by
  unfold Machine.igEventEnqueue at h
  split at h
  · cases h
  · cases h
    exact CStr.cut_cut ..

/-- With the policies of the baseline in the table, every event for the inode of a baseline file arrives with the path
of its entry. -/
def PathsArrive (fs : Files) (kzallocOk : FileId → Bool) (db : ScanResult) (block : UInt32) (left : PolicyTable) :
    Prop :=
  ∀ e ∈ db.entries, ∀ st, fs.stat e.path = some st →
    HasPolicy (lkmAddFromBaseline fs kzallocOk db block (lkmClearAll left)).2 st.id →
    ∀ (m : Machine) (kmalloc : Bool) (current : LiveTask) (op blocked : UInt32) (nowNs : Int64) (lev : IgLkmEvent)
      (proc : ProcFs),
      m.igEventEnqueue kmalloc (lkmAddFromBaseline fs kzallocOk db block (lkmClearAll left)).2 current st.id op blocked
          nowNs = some lev →
      (lkmEventThread proc lev).path.str = e.path

/-- The path of every file that gets a policy fits the kernel's buffers, and no other path of the baseline leads to
its inode. -/
def PathsFit (fs : Files) (kzallocOk : FileId → Bool) (db : ScanResult) : Prop :=
  ∀ e ∈ db.entries, ∀ st, fs.stat e.path = some st → kzallocOk st.id = true →
    e.path.length < igMaxLkmPath ∧ ∀ e' ∈ db.entries, (fs.stat e'.path).map Stat.id = some st.id → e'.path = e.path

def noProcFs : ProcFs := ⟨fun _ => .zero 256, fun _ => .zero 512⟩

def initTask : LiveTask := ⟨1, 1, 0, 0, 0, 1, ⟨ascii "init", initComm_noZero⟩, ⟨[], zero_notMem_nil⟩, 0⟩

/-- Events arrive with the paths of the baseline exactly when these fit the kernel's buffers and no two lead to one
inode. -/
theorem pathsArrive_iff (fs : Files) (kzallocOk : FileId → Bool) (db : ScanResult) (block : UInt32)
    (left : PolicyTable) : PathsArrive fs kzallocOk db block left ↔ PathsFit fs kzallocOk db := by
  constructor
  · intro harrive e he st hst hok
    have hmem : e ∈ entriesAt fs db st.id := mem_entriesAt.2 ⟨he, by rw [hst]; rfl⟩
    obtain ⟨last, -, hlast⟩ := exists_last_entry block left hok hmem
    -- every entry leading to the inode has the path that its events have
    have hpath : ∀ e' ∈ db.entries, (fs.stat e'.path).map Stat.id = some st.id →
        last.path.cut (igMaxLkmPath - 1) = e'.path := by
      intro e' he' hid
      obtain ⟨st', hst', hid'⟩ := Option.map_eq_some_iff.1 hid
      have hok' : kzallocOk st'.id = true := by rw [hid', hok]
      have hpolicy := (hasPolicy_of_entry kzallocOk block left he' hst').2 hok'
      obtain ⟨lev, hlev⟩ := exists_igLkmEvent Machine.boot
        (lkmAddFromBaseline fs kzallocOk db block (lkmClearAll left)).2 initTask st'.id igOpWrite 0 0
      rw [← harrive e' he' st' hst' hpolicy _ _ _ _ _ _ lev noProcFs hlev, path_lkmEventThread hlev, hid', hlast,
        CStr.cut_cut, Nat.min_self]
    have hself := hpath e he (by rw [hst]; rfl)
    refine ⟨?_, fun e' he' hid => (hpath e' he' hid).symm.trans hself⟩
    have hle : e.path.length ≤ igMaxLkmPath - 1 := hself ▸ List.length_take_le _ _
    unfold igMaxLkmPath at *
    omega
  · intro hfit e he st hst hpolicy m kmalloc current op blocked nowNs lev proc hlev
    have hok := (hasPolicy_of_entry kzallocOk block left he hst).1 hpolicy
    obtain ⟨hlen, hsame⟩ := hfit e he st hst hok
    have hmem : e ∈ entriesAt fs db st.id := mem_entriesAt.2 ⟨he, by rw [hst]; rfl⟩
    obtain ⟨last, hlastMem, hlast⟩ := exists_last_entry block left hok hmem
    obtain ⟨hlastIn, hlastId⟩ := mem_entriesAt.1 hlastMem
    rw [path_lkmEventThread hlev, hlast, hsame last hlastIn hlastId, CStr.cut_cut, Nat.min_self]
    exact CStr.cut_of_lt hlen

/-- A file in the root directory whose name is as long as names can be. -/
def longName : CStr where
  bytes := 47 :: List.replicate 255 97
  noNul h := by
    rcases List.mem_cons.1 h with h | h
    · exact absurd h (by decide)
    · exact absurd (List.eq_of_mem_replicate h) (by decide)

theorem length_longName : longName.length = 256 :=
  congrArg (· + 1) List.length_replicate

def longNameFiles : Files where
  lstat _ := some ⟨2049, 77, .reg, 1700000000, 0⟩
  stat _ := some ⟨2049, 77, .reg, 1700000000, 0⟩
  readdir _ := none
  sha256File _ := none

/-- The event has one byte less of the path than the baseline. -/
theorem pathsArrive_longName_fails :
    ¬ PathsArrive longNameFiles (fun _ => true) ⟨[⟨longName, ⟨[], by decide⟩, 1700000000, 0⟩], 256, 0⟩ igBlockDeny
      [] := by
  intro h
  have hst : longNameFiles.stat longName = some ⟨2049, 77, .reg, 1700000000, 0⟩ := rfl
  have hmem : ⟨longName, ⟨[], by decide⟩, 1700000000, 0⟩ ∈
      (⟨[⟨longName, ⟨[], by decide⟩, 1700000000, 0⟩], 256, 0⟩ : ScanResult).entries := List.mem_cons_self
  have hpolicy := (hasPolicy_of_entry (fun _ => true) igBlockDeny [] hmem hst).2 rfl
  obtain ⟨lev, hlev⟩ := exists_igLkmEvent Machine.boot _ initTask _ igOpWrite 0 0
  have hpath := h _ List.mem_cons_self _ hst hpolicy Machine.boot true initTask igOpWrite 0 0 lev noProcFs hlev
  rw [path_lkmEventThread hlev] at hpath
  have hlen : longName.length ≤ igMaxLkmPath - 1 := by
    rw [← show _ = longName from hpath]
    exact List.length_take_le _ _
  rw [length_longName] at hlen
  exact absurd hlen (by decide)

end KnIg.Lkm
