/-
The baseline over any sequence of builds, updates and removals. A scan appends what it reads without a look at the
entries it has, and update, check and removal act on the first entry of a path: one entry a path, and none of a
removed one, hold all along when no build reads a path twice.
-/
import KnIg.Agent.Walk
import KnIg.Lib.Run
import Mathlib.Data.List.Nodup

namespace KnIg.Agent

open Lib

/-! ## What a scan adds -/

/-- The paths of the files that the walks of the watch list find and can hash, as the entries keep them. -/
def scannedPaths (fs : Files) (watches : List WatchEntry) : List CStr :=
  ((watches.flatMap fun w => walkedFiles fs w.recursive w.path.str).filter fun f => (fs.sha256File f.1).isSome).map
    fun f => f.1.cut (igMaxPath - 1)

/-- The entries grow by some of the paths, in order. -/
def GrowsBy (r r' : ScanResult) (paths : List CStr) : Prop := ∃ added, added.Sublist paths ∧ r'.paths = r.paths ++ added

theorem GrowsBy.trans {r r' r'' : ScanResult} {paths paths' : List CStr} (h : GrowsBy r r' paths)
    (h' : GrowsBy r' r'' paths') : GrowsBy r r'' (paths ++ paths') := by
  obtain ⟨added, hsub, hr⟩ := h
  obtain ⟨added', hsub', hr'⟩ := h'
  exact ⟨added ++ added', hsub.append hsub', by rw [hr', hr, List.append_assoc]⟩

theorem growsBy_nil {r r' : ScanResult} (h : r'.paths = r.paths) (paths : List CStr) : GrowsBy r r' paths :=
  ⟨[], List.nil_sublist paths, by rw [h, List.append_nil]⟩

theorem paths_resultGrow {growOk : Nat → Bool} {r r' : ScanResult} (h : resultGrow growOk r = some r') :
    r'.paths = r.paths := by
  unfold resultGrow at h
  simp only [Option.ite_none_right_eq_some] at h
  cases h.2
  rfl

/-- A file is added when there is room and it can be hashed. -/
theorem growsBy_scanCb (fs : Files) (growOk : Nat → Bool) (path : CStr) (st : Stat) (r : ScanResult) :
    GrowsBy r (scanCb fs growOk path st r).2
      (if (fs.sha256File path).isSome then [path.cut (igMaxPath - 1)] else []) := by
  unfold scanCb
  split
  · exact growsBy_nil rfl _
  · next r₁ hgrown =>
    have hpaths : r₁.paths = r.paths := by
      split at hgrown
      · exact paths_resultGrow hgrown
      · cases hgrown; rfl
    cases hsha : fs.sha256File path with
    | none => exact growsBy_nil hpaths _
    | some hash =>
      refine ⟨[path.cut (igMaxPath - 1)], List.Sublist.refl _, ?_⟩
      rw [← hpaths]
      exact List.map_append

theorem growsBy_callAll (fs : Files) (growOk : Nat → Bool) (files : List (CStr × Stat)) (r : ScanResult) :
    GrowsBy r (callAll (scanCb fs growOk) files r).2
      ((files.filter fun f => (fs.sha256File f.1).isSome).map fun f => f.1.cut (igMaxPath - 1)) := by
  induction files generalizing r with
  | nil => exact growsBy_nil rfl _
  | cons f files ih =>
    have hstep := (growsBy_scanCb fs growOk f.1 f.2 r).trans (ih (scanCb fs growOk f.1 f.2 r).2)
    rw [List.filter_cons]
    cases hsha : (fs.sha256File f.1).isSome with
    | true => simpa [hsha, callAll, visitFile] using hstep
    | false => simpa [hsha, callAll, visitFile] using hstep

theorem growsBy_scan (fs : Files) (growOk : Nat → Bool) (watches : List WatchEntry) (r : ScanResult) :
    GrowsBy r (watches.foldl (fun r w => (igWalk fs (scanCb fs growOk) w.recursive w.path.str r).2) r)
      (scannedPaths fs watches) := by
  induction watches generalizing r with
  | nil => exact growsBy_nil rfl _
  | cons w watches ih =>
    have hwalk := growsBy_callAll fs growOk (walkedFiles fs w.recursive w.path.str) r
    rw [← igWalk_eq_callAll] at hwalk
    have hscan := hwalk.trans (ih _)
    rwa [scannedPaths, ← List.map_append, ← List.filter_append] at hscan

/-- The paths of a baseline just built are some of those that its scan read. -/
theorem paths_build_sublist (fs : Files) (growOk : Nat → Bool) (db : ScanResult) (watches : List WatchEntry) :
    (igBaselineDbBuild fs growOk db watches).paths.Sublist (scannedPaths fs watches) := by
  obtain ⟨added, hsub, hpaths⟩ := growsBy_scan fs growOk watches ⟨[], 0, 0⟩
  rw [igBaselineDbBuild, igBaselineScan, hpaths]
  exact hsub

/-! ## Updates and removals -/

/-- What an update can do to the entries: nothing, a change of the path's first entry, or a new entry for a path
without one. -/
theorem entries_update (d : Disk) (now : Nat) (db : ScanResult) (path : CStr) :
    (igBaselineDbUpdate d now db path).entries = db.entries ∨
      (∃ f : ScanEntry → ScanEntry, (∀ e, (f e).path = e.path) ∧
        (igBaselineDbUpdate d now db path).entries = Keyed.modify ScanEntry.path db.entries path f) ∨
      (db.lookup path = none ∧ ∃ e, e.path = path.cut (igMaxPath - 1) ∧
        (igBaselineDbUpdate d now db path).entries = db.entries ++ [e]) := by
  unfold igBaselineDbUpdate
  split
  · exact .inl rfl
  · next hash _ =>
    split
    · exact .inl rfl
    · next st _ =>
      split
      · exact .inr (.inl ⟨(·.refresh hash st), fun e => rfl, rfl⟩)
      · next hl =>
        unfold ScanResult.add
        split
        · split
          · exact .inr (.inr ⟨hl, _, rfl, rfl⟩)
          · exact .inl rfl
        · exact .inr (.inr ⟨hl, _, rfl, rfl⟩)

/-- An update of a path that fits an entry adds one only where the path has none. -/
theorem paths_update_nodup (d : Disk) (now : Nat) {db : ScanResult} {path : CStr} (hfits : path.length < igMaxPath)
    (h : db.paths.Nodup) : (igBaselineDbUpdate d now db path).paths.Nodup := by
  unfold ScanResult.paths at h ⊢
  rcases entries_update d now db path with he | ⟨f, hf, he⟩ | ⟨hl, e, hpath, he⟩
  · rwa [he]
  · rwa [he, Keyed.map_modify hf]
  · have hnew : path ∉ db.entries.map ScanEntry.path := fun hmem => by
      have hsome : (db.lookup path).isSome := Keyed.get_isSome.2 hmem
      rw [hl] at hsome
      cases hsome
    rw [he, List.map_append, List.map_singleton, hpath, CStr.cut_of_lt hfits, ← List.concat_eq_append]
    exact List.Nodup.concat hnew h

theorem paths_remove_nodup {db : ScanResult} (h : db.paths.Nodup) (path : CStr) :
    (igBaselineDbRemove db path).paths.Nodup := by
  have hperm := (remove_perm_eraseP db path).map ScanEntry.path
  exact hperm.nodup_iff.2 ((List.eraseP_sublist.map _).nodup h)

/-- With one entry a path, a removed path has none. -/
theorem lookup_remove_self {db : ScanResult} (h : db.paths.Nodup) (path : CStr) :
    (igBaselineDbRemove db path).lookup path = none := by
  rw [← Option.not_isSome_iff_eq_none, lookup_isSome_remove, if_pos rfl, not_le]
  exact Nat.lt_succ_of_le (List.nodup_iff_count.1 h path)

/-- An update gives no other path an entry. -/
theorem lookup_update_of_ne (d : Disk) (now : Nat) {db : ScanResult} {path path' : CStr}
    (hfits : path.length < igMaxPath) (hne : path' ≠ path) (h : db.lookup path' = none) :
    (igBaselineDbUpdate d now db path).lookup path' = none := by
  unfold ScanResult.lookup at h ⊢
  rcases entries_update d now db path with he | ⟨f, hf, he⟩ | ⟨-, e, hpath, he⟩
  · rwa [he]
  · rw [he, Keyed.get_modify hf, if_neg hne, h]
  · rw [he, Keyed.get_append, h, Option.none_or, Keyed.get_eq_none]
    intro a ha
    rw [List.mem_singleton.1 ha, hpath, CStr.cut_of_lt hfits]
    exact hne.symm

/-! ## Runs -/

/-- One call; the callers' paths come in buffers of `IG_MAX_PATH` bytes. -/
inductive DbOp where
  | build (fs : Files) (growOk : Nat → Bool) (watches : List WatchEntry)
  | update (d : Disk) (now : Nat) (path : TermArr igMaxPath)
  | remove (path : CStr)

namespace DbOp

def apply (db : ScanResult) : DbOp → ScanResult
  | build fs growOk watches => igBaselineDbBuild fs growOk db watches
  | update d now path => igBaselineDbUpdate d now db path.str
  | remove path => igBaselineDbRemove db path

/-- The call may give the path an entry: it is an update of the path or scans anew. -/
def Renews (path : CStr) : DbOp → Prop
  | build _ _ _ => True
  | update _ _ p => p.str = path
  | remove _ => False

/-- The call, if it is a build, reads no path twice. -/
def ReadsOnce : DbOp → Prop
  | build fs _ watches => (scannedPaths fs watches).Nodup
  | update _ _ _ | remove _ => True

end DbOp

/-- The baseline after the calls, from `ig_baseline_db_init` on. -/
def baselineAfter (ops : List DbOp) : ScanResult := ops.foldl DbOp.apply ⟨[], 0, 0⟩

/-- `ig_baseline_check_file` finds no entry of the path, whatever the file is like. -/
def NotFound (db : ScanResult) (path : CStr) : Prop :=
  ∀ d now, (igBaselineCheckFile d now db path).1 = .new ∨ (igBaselineCheckFile d now db path).1 = .error

/-- All along the run no path has two entries, and no entry of a removed path is found until it is renewed. -/
structure OneEntryAPath (ops : List DbOp) : Prop where
  unique : ∀ pre, pre <+: ops → (baselineAfter pre).paths.Nodup
  removed : ∀ before path after, before ++ .remove path :: after <+: ops → (∀ op ∈ after, ¬ op.Renews path) →
    NotFound (baselineAfter (before ++ .remove path :: after)) path

theorem notFound_of_lookup {db : ScanResult} {path : CStr} (h : db.lookup path = none) : NotFound db path := by
  intro d now
  unfold igBaselineCheckFile
  cases d.sha256File now path with
  | none => exact .inr rfl
  | some actual =>
    rw [h]
    exact .inl rfl

theorem paths_apply_nodup {db : ScanResult} {op : DbOp} (hop : op.ReadsOnce) (h : db.paths.Nodup) :
    (op.apply db).paths.Nodup := by
  cases op with
  | build fs growOk watches => exact (paths_build_sublist fs growOk db watches).nodup hop
  | update d now path => exact paths_update_nodup d now path.fits h
  | remove path => exact paths_remove_nodup h path

theorem paths_baselineAfter_nodup {ops : List DbOp} (hops : ∀ op ∈ ops, op.ReadsOnce) :
    (baselineAfter ops).paths.Nodup :=
  List.foldlRecOn (motive := fun db : ScanResult => db.paths.Nodup) ops DbOp.apply List.nodup_nil
    fun _ h op hop => paths_apply_nodup (hops op hop) h

/-- A path without an entry has none until a call renews it. -/
theorem lookup_apply_none {db : ScanResult} {op : DbOp} {path : CStr} (hop : ¬ op.Renews path)
    (h : db.lookup path = none) : (op.apply db).lookup path = none := by
  cases op with
  | build fs growOk watches => exact absurd trivial hop
  | update d now p => exact lookup_update_of_ne d now p.fits (fun he => hop he.symm) h
  | remove p =>
    rw [← Option.not_isSome_iff_eq_none] at h ⊢
    intro hsome
    rw [DbOp.apply, lookup_isSome_remove] at hsome
    split at hsome
    -- two entries of the path would have been found
    · next he =>
      refine h (Keyed.get_isSome.2 (List.count_pos_iff.1 ?_))
      rw [he]
      exact Nat.lt_of_lt_of_le Nat.zero_lt_two hsome
    · exact h hsome

/-- When no build reads a path twice, the baseline holds at most one entry a path and no removed path is found. -/
theorem oneEntryAPath_of_readsOnce {ops : List DbOp} (hops : ∀ op ∈ ops, op.ReadsOnce) : OneEntryAPath ops := by
  constructor
  · intro pre hpre
    exact paths_baselineAfter_nodup fun op hop => hops op (hpre.subset hop)
  · intro before path after hpre hafter
    apply notFound_of_lookup
    have hbefore : (baselineAfter before).paths.Nodup :=
      paths_baselineAfter_nodup fun op hop => hops op (hpre.subset (List.mem_append_left _ hop))
    unfold baselineAfter
    rw [List.foldl_append, List.foldl_cons]
    exact List.foldlRecOn (motive := fun db : ScanResult => db.lookup path = none) after DbOp.apply
      (lookup_remove_self hbefore path) fun db h op hop => lookup_apply_none (hafter op hop) h

/-- A configuration that watches `/srv` and, under it, `/srv/a`. -/
def srvWatches : List WatchEntry :=
  [⟨⟨srv, by decide⟩, true⟩, ⟨⟨srv ++ slash ++ mountA, by decide⟩, true⟩]

/-- `/srv` with two empty files. -/
def srvEmpty : Files :=
  { srvFiles 2 128 with
    sha256File := fun _ => some ⟨ascii "e3b0c44298fc1c149afbf4c8996fb92427ae41e4649b934ca495991b7852b855", by decide⟩ }

def keyInA : CStr := srv ++ slash ++ mountA ++ slash ++ keyFile

/-- One watch reads each file once: the file is removed and found no more. -/
theorem oneEntryAPath_oneWatch :
    OneEntryAPath [.build srvEmpty (fun _ => true) (srvWatches.take 1), .remove keyInA] :=
  oneEntryAPath_of_readsOnce (by
    intro op hop
    rcases List.mem_cons.1 hop with rfl | hop
    · show (scannedPaths srvEmpty (srvWatches.take 1)).Nodup
      decide
    · rw [List.mem_singleton.1 hop]
      trivial)

/-- With both watches the file has two entries, and one is left after it is removed. -/
theorem oneEntryAPath_overlapping_fails :
    ¬ OneEntryAPath [.build srvEmpty (fun _ => true) srvWatches, .remove keyInA] := by
  intro h
  exact absurd (h.unique _ (List.prefix_append [_] _)) (by decide)

end KnIg.Agent
