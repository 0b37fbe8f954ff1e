/-
The agent's reverse path cache `{dev, ino} → path`, an open-addressed table of `PATH_CACHE_CAP`
slots, over every sequence of puts, removes and gets. Each put whose key is live, or that finds a
slot never used before, is seen by every later get of its key until the key is put or removed
again, and a history of such puts makes the cache a map; a put of a new key with no such slot
left is dropped, whatever number of tombstones there are. No history makes a get return a path of
another key, or one that was removed or put anew.
-/
import KnIg.File
import KnIg.Lib.Probe
import KnIg.Lib.Run

namespace KnIg.Ebpf

open Lib Lib.Probe

def pathCacheCap : Nat := 16384

def pathCacheMask : UInt64 := 16383

instance : NeZero pathCacheCap := ⟨by decide⟩

/-! ## The table -/

def pathCacheHash (k : FileId) : UInt32 :=
  let h := k.dev * 2654435761 ^^^ k.ino * 2246822519
  ((h ^^^ (h >>> 32)) &&& pathCacheMask).toUInt32

abbrev PathCache := Table (fun k => (pathCacheHash k).toNat) CStr pathCacheCap

/-- The slot expression of the three loops, `(idx + i) & PATH_CACHE_MASK`, is the walk's slot. -/
theorem slot_eq_pos (k : FileId) (i : UInt32) :
    ((pathCacheHash k + i) &&& pathCacheMask.toUInt32).toNat =
      (pos (fun k => (pathCacheHash k).toNat) pathCacheCap k i.toNat).val := by
  have hm : pathCacheMask.toUInt32.toNat = 2 ^ 14 - 1 := by decide
  have hh : (pathCacheHash k).toNat < 2 ^ 14 := by
    unfold pathCacheHash pathCacheMask
    simp only [UInt64.toNat_toUInt32, UInt64.toNat_and]
    have h : ∀ m : Nat, (m &&& (16383 : UInt64).toNat) % 2 ^ 32 < 2 ^ 14 := fun m => by
      rw [show (16383 : UInt64).toNat = 2 ^ 14 - 1 from rfl, Nat.and_two_pow_sub_one_eq_mod]
      omega
    exact h _
  rw [UInt32.toNat_and, hm, Nat.and_two_pow_sub_one_eq_mod, UInt32.toNat_add]
  simp only [pos, Fin.ofNat, pathCacheCap]
  omega

def pathCachePut (t : PathCache) (k : FileId) (path : CStr) : PathCache :=
  t.put k (path.cut (igMaxPath - 1))

/-- The text `snprintf` leaves for an inode that is not cached. -/
def pathCacheMiss (k : FileId) (outSz : Nat) : CStr :=
  (⟨ascii "<ino=", by decide⟩ ++ CStr.ofNat k.ino.toNat ++ ⟨ascii ">", by decide⟩ : CStr).cut (outSz - 1)

/-- The text `path_cache_get` leaves in a buffer of `outSz` bytes. -/
def pathCacheGet (t : PathCache) (k : FileId) (outSz : Nat) : CStr :=
  match t.get k with
  | some path => path.cut (outSz - 1)
  | none => pathCacheMiss k outSz

def pathCacheRemove (t : PathCache) (k : FileId) : PathCache := t.remove k

/-! ## Histories -/

/-- One call; each runs under `g_path_cache_lock`. -/
inductive CacheOp where
  | put (k : FileId) (path : CStr)
  | get (k : FileId) (outSz : Nat)
  | remove (k : FileId)

namespace CacheOp

def apply (t : PathCache) : CacheOp → PathCache
  | put k path => pathCachePut t k path
  | get _ _ => t
  | remove k => pathCacheRemove t k

/-- The call puts or removes the key. -/
def Touches (k : FileId) : CacheOp → Prop
  | put k' _ => k' = k
  | get _ _ => False
  | remove k' => k' = k

end CacheOp

/-- The table after a history, starting from the zeroed `g_path_cache`. -/
def cacheAfter (ops : List CacheOp) : PathCache := ops.foldl CacheOp.apply Table.empty

theorem cacheAfter_append (ops more : List CacheOp) :
    cacheAfter (ops ++ more) = more.foldl CacheOp.apply (cacheAfter ops) := by
  unfold cacheAfter; rw [List.foldl_append]

/-- A call leaves the entry of every key it does not touch. -/
theorem get_apply_of_not_touches {t : PathCache} {k : FileId} {op : CacheOp} (h : ¬ op.Touches k) :
    (op.apply t).get k = t.get k := by
  cases op with
  | put k' path => exact Table.get_put_ne t _ (fun he => h he.symm)
  | get k' outSz => rfl
  | remove k' =>
    exact (Table.get_remove t k' k).trans (if_neg fun he => h he.symm)

theorem get_foldl_of_not_touches {k : FileId} : ∀ (ops : List CacheOp) (t : PathCache),
    (∀ op ∈ ops, ¬ op.Touches k) → (ops.foldl CacheOp.apply t).get k = t.get k
  | [], _, _ => rfl
  | op :: ops, t, h =>
    (get_foldl_of_not_touches ops (op.apply t) fun o ho => h o (List.mem_cons_of_mem _ ho)).trans
      (get_apply_of_not_touches (h op List.mem_cons_self))

/-! ## The cache as a map -/

/-- The put of the key would be stored: the key is live or some slot was never used. -/
def HasRoom (t : PathCache) (k : FileId) : Prop := (t.get k).isSome ∨ t.HasEmpty

/-- A put has room; the other calls need none. -/
def RoomFor (t : PathCache) : CacheOp → Prop
  | .put k _ => HasRoom t k
  | .get _ _ => True
  | .remove _ => True

/-- What the cache is for: the last path put for each key and not removed since. -/
def pathMap (m : FileId → Option CStr) : List CacheOp → FileId → Option CStr
  | [] => m
  | .put k path :: ops => pathMap (Function.update m k (some (path.cut (igMaxPath - 1)))) ops
  | .get _ _ :: ops => pathMap m ops
  | .remove k :: ops => pathMap (Function.update m k none) ops

/-- A history all of whose puts are stored makes the cache the map of its last puts. -/
theorem get_eq_pathMap : ∀ (ops : List CacheOp) (t : PathCache), AllSteps CacheOp.apply RoomFor t ops →
    ∀ k, (ops.foldl CacheOp.apply t).get k = pathMap t.get ops k
  | [], _, _, _ => rfl
  | .put k path :: ops, t, h, k' => by
    have hstep : (pathCachePut t k path).get =
        Function.update t.get k (some (path.cut (igMaxPath - 1))) := by
      funext k''
      rw [Function.update_apply]
      exact Table.get_put h.1 _ k''
    have := get_eq_pathMap ops _ h.2 k'
    rwa [show (CacheOp.put k path).apply t = pathCachePut t k path from rfl, hstep] at this
  | .get _ _ :: ops, t, h, k' => get_eq_pathMap ops t h.2 k'
  | .remove k :: ops, t, h, k' => by
    have hstep : (pathCacheRemove t k).get = Function.update t.get k none := by
      funext k''
      rw [Function.update_apply]
      exact Table.get_remove t k k''
    have := get_eq_pathMap ops _ h.2 k'
    rwa [show (CacheOp.remove k).apply t = pathCacheRemove t k from rfl, hstep] at this

/-! ## Stale and foreign paths -/

/-- The last call of the history that touches the key puts the path. -/
def LastPut (ops : List CacheOp) (k : FileId) (path : CStr) : Prop :=
  ∃ before after, ops = before ++ .put k path :: after ∧ ∀ op ∈ after, ¬ op.Touches k

theorem LastPut.snoc {ops : List CacheOp} {k : FileId} {path : CStr} (h : LastPut ops k path) {op : CacheOp}
    (hop : ¬ op.Touches k) : LastPut (ops ++ [op]) k path := by
  obtain ⟨before, after, rfl, hafter⟩ := h
  refine ⟨before, after ++ [op], by simp, fun o ho => ?_⟩
  rcases List.mem_append.1 ho with ho | ho
  · exact hafter o ho
  · rw [List.mem_singleton.1 ho]
    exact hop

theorem get_kept_put {t : PathCache} {k : FileId} (path : CStr) (hr : HasRoom t k) :
    (pathCachePut t k path).get k = some (path.cut (igMaxPath - 1)) := by
  rw [pathCachePut, Table.get_put hr, if_pos rfl]

/-- A put that is not stored leaves a miss behind. -/
theorem get_lost_put {t : PathCache} {k : FileId} (path : CStr) (hr : ¬ HasRoom t k) :
    (pathCachePut t k path).get k = none := by
  obtain ⟨hk, he⟩ := not_or.1 hr
  rw [Option.not_isSome_iff_eq_none] at hk
  rw [pathCachePut, Table.put_dropped hk he, hk]

/-- What the cache holds for a key is the path of the last put of the key, with no removal after it. -/
theorem lastPut_of_get {ops : List CacheOp} {k : FileId} {v : CStr} (h : (cacheAfter ops).get k = some v) :
    ∃ path, LastPut ops k path ∧ v = path.cut (igMaxPath - 1) := by
  induction ops using List.reverseRecOn with
  | nil =>
    rw [show (cacheAfter [] : PathCache) = Table.empty from rfl, Table.get_empty] at h
    cases h
  | append_singleton ops op ih =>
    rw [cacheAfter_append, List.foldl_cons, List.foldl_nil] at h
    by_cases hop : op.Touches k
    · cases op with
      | put k' path =>
        obtain rfl : k' = k := hop
        by_cases hr : HasRoom (cacheAfter ops) k'
        · rw [CacheOp.apply, get_kept_put path hr] at h
          cases h
          exact ⟨path, ⟨ops, [], rfl, by simp⟩, rfl⟩
        · rw [CacheOp.apply, get_lost_put path hr] at h
          cases h
      | get k' outSz => exact absurd hop id
      | remove k' =>
        obtain rfl : k' = k := hop
        rw [CacheOp.apply, pathCacheRemove, Table.get_remove, if_pos rfl] at h
        cases h
    · rw [get_apply_of_not_touches hop] at h
      obtain ⟨path, hlast, hv⟩ := ih h
      exact ⟨path, hlast.snoc hop, hv⟩

/-- After any history each key has at most one slot, every used slot is on its key's walk before any empty one, and
a get prints a miss or the path of the last put of exactly its key, with no removal after it, as far as the buffers
of the slot and of the caller take it. -/
theorem pathCache_neither_stale_nor_foreign (ops : List CacheOp) :
    (∀ p q k v w, (cacheAfter ops).slots p = .used k v → (cacheAfter ops).slots q = .used k w → p = q) ∧
      (∀ p k v, (cacheAfter ops).slots p = .used k v →
        ∃ i < pathCacheCap, pos (fun k => (pathCacheHash k).toNat) pathCacheCap k i = p ∧
          ∀ j < i, (cacheAfter ops).slots (pos (fun k => (pathCacheHash k).toNat) pathCacheCap k j) ≠ .empty) ∧
      ∀ k outSz, pathCacheGet (cacheAfter ops) k outSz = pathCacheMiss k outSz ∨
        ∃ path, LastPut ops k path ∧
          pathCacheGet (cacheAfter ops) k outSz = path.cut (min (outSz - 1) (igMaxPath - 1)) := by
  refine ⟨(cacheAfter ops).wf.uniq, (cacheAfter ops).wf.reach, fun k outSz => ?_⟩
  unfold pathCacheGet
  cases hget : (cacheAfter ops).get k with
  | none => exact .inl rfl
  | some v =>
    obtain ⟨path, hlast, rfl⟩ := lastPut_of_get hget
    exact .inr ⟨path, hlast, CStr.cut_cut ..⟩

/-! ## A put and the gets after it -/

/-- After `before`, with fewer than `PATH_CACHE_CAP` keys live, the put of `path` under `k` is
followed by gets that return it until the key is put or removed again. -/
def PutSeen (before : List CacheOp) (k : FileId) (path : CStr) : Prop :=
  (cacheAfter before).live.card < pathCacheCap →
    ∀ after : List CacheOp, (∀ op ∈ after, ¬ op.Touches k) →
      pathCacheGet (cacheAfter (before ++ .put k path :: after)) k igMaxPath = path.cut (igMaxPath - 1)

theorem pathCacheGet_after {before after : List CacheOp} {k : FileId} {path : CStr}
    (h : ∀ op ∈ after, ¬ op.Touches k) :
    (cacheAfter (before ++ .put k path :: after)).get k = (pathCachePut (cacheAfter before) k path).get k := by
  rw [cacheAfter_append, List.foldl_cons]
  exact get_foldl_of_not_touches after _ h

theorem room_of_putSeen {before : List CacheOp} {k : FileId} {path : CStr}
    (hc : (cacheAfter before).live.card < pathCacheCap) (hseen : PutSeen before k path) :
    HasRoom (cacheAfter before) k ∨ path.cut (igMaxPath - 1) = pathCacheMiss k igMaxPath := by
  by_cases hr : HasRoom (cacheAfter before) k
  · exact .inl hr
  · have hget := hseen hc [] (by simp)
    unfold pathCacheGet at hget
    rw [pathCacheGet_after (by simp), get_lost_put path hr] at hget
    exact .inr hget.symm

/-- A put is seen by the later gets exactly when there is room for it: the key is live, some slot
was never used, or the path put is the very text a miss prints. -/
theorem putSeen_iff (before : List CacheOp) (k : FileId) (path : CStr) :
    PutSeen before k path ↔
      ((cacheAfter before).live.card < pathCacheCap →
        HasRoom (cacheAfter before) k ∨ path.cut (igMaxPath - 1) = pathCacheMiss k igMaxPath) := by
  refine ⟨fun hseen hc => room_of_putSeen hc hseen, fun hroom hc after hafter => ?_⟩
  unfold pathCacheGet
  rw [pathCacheGet_after hafter]
  by_cases hr : HasRoom (cacheAfter before) k
  · rw [get_kept_put path hr]
    exact (CStr.cut_cut _ _ _).trans (by rw [Nat.min_self])
  · rw [get_lost_put path hr]
    exact ((hroom hc).resolve_left hr).symm

/-- Files are put until the table is full and one of them is removed again. -/
def fillThenFree (ks : List FileId) (k₀ : FileId) (path : CStr) : List CacheOp :=
  ks.map (fun k => .put k path) ++ [.remove k₀]

theorem cacheAfter_fillThenFree (ks : List FileId) (k₀ : FileId) (path : CStr) :
    cacheAfter (fillThenFree ks k₀ path) =
      pathCacheRemove (Table.empty.putAll (fun _ => path.cut (igMaxPath - 1)) ks) k₀ := by
  unfold fillThenFree
  rw [cacheAfter_append]
  unfold cacheAfter Table.putAll
  rw [List.foldl_map]
  rfl

/-- With one key removed from a full cache, every put of a new key is lost. -/
theorem not_hasRoom_fillThenFree {ks : List FileId} {k₀ k : FileId} (path : CStr) (hnd : ks.Nodup)
    (hlen : ks.length = pathCacheCap) (hk₀ : k₀ ∈ ks) (hk : k ∉ ks) :
    (cacheAfter (fillThenFree ks k₀ path)).live.card < pathCacheCap ∧
      ¬ HasRoom (cacheAfter (fillThenFree ks k₀ path)) k := by
  have hempty : (Table.empty : PathCache).live.card = 0 := by
    rw [Finset.card_eq_zero, Finset.eq_empty_iff_forall_notMem]
    intro p hp
    obtain ⟨k, v, h⟩ := Table.mem_live.1 hp
    cases h
  have hfull := (Table.live_putAll (fun _ => path.cut (igMaxPath - 1)) ks
    (Table.empty : PathCache) nofun hnd (fun k _ => Table.get_empty k) (by omega)).2
  have hget := Table.get_putAll_of_mem (fun _ => path.cut (igMaxPath - 1)) ks
    (Table.empty : PathCache) nofun hnd (fun k _ => Table.get_empty k) (by omega) hk₀
  rw [hempty, hlen, Nat.zero_add] at hfull
  rw [cacheAfter_fillThenFree]
  refine ⟨?_, ?_⟩
  · have := Table.live_remove hget
    unfold pathCacheRemove
    omega
  · rintro (hs | he)
    · have hn := Table.get_putAll_of_notMem (fun _ => path.cut (igMaxPath - 1)) ks
        (Table.empty : PathCache) hk
      rw [pathCacheRemove, Table.get_remove, if_neg (by rintro rfl; exact hk hk₀), hn,
        Table.get_empty] at hs
      cases hs
    -- the removal leaves a tombstone, and no slot of the full table is empty again
    · exact Table.not_hasEmpty_of_full hfull (Table.hasEmpty_of_remove he)

/-- The first `PATH_CACHE_CAP` inodes of device 0. -/
def firstInodes : List FileId := (List.range pathCacheCap).map fun i => ⟨0, UInt64.ofNat i⟩

theorem nodup_firstInodes : firstInodes.Nodup := by
  refine List.Nodup.map_on (fun i hi j hj h => ?_) List.nodup_range
  have h' := congrArg UInt64.toNat (congrArg FileId.ino h)
  simp only [UInt64.toNat_ofNat'] at h'
  rw [List.mem_range] at hi hj
  unfold pathCacheCap at hi hj
  omega

/-- The cache is filled with the first inodes of device 0, and inode 0 is removed again. -/
def filledHistory : List CacheOp := fillThenFree firstInodes ⟨0, 0⟩ ⟨ascii "/a", by decide⟩

theorem not_hasRoom_filledHistory :
    (cacheAfter filledHistory).live.card < pathCacheCap ∧ ¬ HasRoom (cacheAfter filledHistory) ⟨1, 7⟩ := by
  refine not_hasRoom_fillThenFree _ nodup_firstInodes (by simp [firstInodes])
    (List.mem_map.2 ⟨0, List.mem_range.2 (by decide), rfl⟩) fun h => ?_
  obtain ⟨i, -, hi⟩ := List.mem_map.1 h
  have hdev : (0 : UInt64) = 1 := congrArg FileId.dev hi
  exact absurd hdev (by decide)

/-- A full cache of which one key was removed loses the next put of a new key. -/
theorem putSeen_fails : ¬ PutSeen filledHistory ⟨1, 7⟩ ⟨ascii "/b", by decide⟩ := by
  intro h
  rcases room_of_putSeen not_hasRoom_filledHistory.1 h with hr | hm
  · exact not_hasRoom_filledHistory.2 hr
  · exact absurd hm (by decide)

end KnIg.Ebpf
