/-
The ancestry of a process as the agent walks it up: each entry is loaded under the pid that the one before it names as
its parent. The loop is the same whether the entries come from `/proc` alone or from a table that is asked first, and
what is loaded may change between one entry and the next.
-/
import KnIg.Agent.ProcStat
import KnIg.Lib.Follow

namespace KnIg.Agent

open Lib

/-! ## One entry from /proc -/

/-- What there is to read of a process at one time: its files, and the target of the link `exe`. -/
structure ProcFiles where
  stat : Option Bytes
  status : Option Bytes
  exe : Option Bytes
  cmdline : Option Bytes

def isBlankOrTab (c : UInt8) : Bool := c = 0x20 ∨ c = 0x09

/-- `strstr`: the string from the first occurrence on. -/
def strstr (s pat : Bytes) : Option Bytes := s.tails.find? pat.isPrefixOf

/-- `parse_status_uid`: the numbers of the line of the ids. -/
def parseStatusUid (status : Option Bytes) (info : ProcInfo) : ProcInfo :=
  match readFileBuf status 2048 with
  | none => info
  | some buf =>
    let s := buf.takeWhile (· ≠ 0)
    let line :=
      match strstr s (ascii "\nUid:") with
      | some p => some (p.drop 1)
      | none => if (ascii "Uid:").isPrefixOf s then some s else none
    match line with
    | none => info
    | some p =>
      let p := (p.drop 4).dropWhile isBlankOrTab
      let info := { info with uid := (strtoul p).toUInt32 }
      let rest := (strtoulEnd p).dropWhile isBlankOrTab
      if rest = [] ∨ rest.head? = some 0x0A then info else { info with euid := (strtoul rest).toUInt32 }

/-- `parse_exe`. -/
def parseExe (exe : Option Bytes) (info : ProcInfo) : ProcInfo :=
  match exe with
  | none => { info with exe := info.exe.store [] }
  | some target => { info with exe := info.exe.store (target.take (256 - 1)) }

/-- The loop over the blanks at the end. -/
def trimEnd : Nat → Bytes → Bytes
  | 0, bytes => bytes
  | e + 1, bytes => if bytes[e]? = some 0x20 then trimEnd e (bytes.set e 0) else bytes

theorem length_trimEnd (e : Nat) (bytes : Bytes) : (trimEnd e bytes).length = bytes.length := by
  induction e generalizing bytes with
  | zero => rfl
  | succ e ih =>
    unfold trimEnd
    split
    · rw [ih, List.length_set]
    · rfl

/-- `parse_cmdline`: the arguments with blanks between them. -/
def parseCmdline (cmdline : Option Bytes) (info : ProcInfo) : ProcInfo :=
  match readFileBuf cmdline 512 with
  | none => { info with cmdline := info.cmdline.store [] }
  | some buf =>
    if buf = [] then { info with cmdline := info.cmdline.store [] }
    else
      let blanks := (buf.take (buf.length - 1)).map fun c => if c = 0 then 0x20 else c
      let filled := info.cmdline.store (blanks ++ buf.drop (buf.length - 1))
      { info with cmdline := ⟨trimEnd filled.str.length filled.bytes, by rw [length_trimEnd, filled.size]⟩ }

/-- `load_proc_info`: the entry as it is left, and whether it was loaded. -/
def loadProcInfo (boot : BootMeta) (proc : ProcFiles) (pid : Int32) : ProcInfo × Bool :=
  let info := { ProcInfo.zero with pid := pid }
  match parseStat boot proc.stat info with
  | none => (info, false)
  | some info => (parseCmdline proc.cmdline (parseExe proc.exe (parseStatusUid proc.status info)), true)

/-! ## The walk -/

/-- The entry names no parent to go on with. -/
def endsChain (e : ProcInfo) (cur : Int32) : Bool := e.ppid ≤ 1 ∨ e.ppid = cur

namespace PidChain

/-- As `memset` leaves it. -/
def zero : PidChain := ⟨0, 0, fun _ => ProcInfo.zero⟩

def setEntry (out : PidChain) (i : Nat) (e : ProcInfo) : PidChain :=
  { out with chain := fun j => if j.val = i then e else out.chain j }

end PidChain

/-- The loop from entry `i` on, with as many entries left. -/
def chainLoop (load : Nat → Int32 → ProcInfo × Bool) : Nat → Nat → Int32 → PidChain → PidChain
  | 0, _, _, out => out
  | left + 1, i, cur, out =>
    let r := load i cur
    let out := out.setEntry i r.1
    if !r.2 then { out with truncated := 1 }
    else
      let out := { out with depth := Int32.ofNat (i + 1) }
      if endsChain r.1 cur then out
      else chainLoop load left (i + 1) r.1.ppid (if i = igPaMaxDepth - 1 then { out with truncated := 1 } else out)

/-- `ig_pa_resolve`, with what there is to read of each process when entry `i` is loaded. -/
def igPaResolve (boot : BootMeta) (proc : Nat → Int32 → ProcFiles) (pid : Int32) : PidChain :=
  if pid ≤ 0 then .zero
  else chainLoop (fun i cur => loadProcInfo boot (proc i cur) cur) igPaMaxDepth 0 pid .zero

/-! ## The law of an ancestry -/

/-- What holds of the entries that a walk from `start` returns, each as its pid and its parent's. -/
structure AncestryLaw (start maxDepth depth : Int) (links : List (Int × Int)) (truncated : Bool) : Prop where
  count : (links.length : Int) = depth
  depth : depth ≤ maxDepth
  first : ∀ l ∈ links.head?, l.1 = start
  next : links.IsChain fun l l' => l'.1 = l.2
  complete : ∀ l ∈ links.getLast?, truncated = false ↔ l.2 ≤ 1 ∨ l.2 = l.1

namespace PidChain

/-- The entries that are filled in. -/
def entries (c : PidChain) : List ProcInfo := (List.ofFn c.chain).take c.depth.toInt.toNat

def links (c : PidChain) : List (Int × Int) := c.entries.map fun e => (e.pid.toInt, e.ppid.toInt)

/-- `ig_pid_chain_t` keeps to the law of a walk from `start`. -/
def Lawful (c : PidChain) (start : Int32) : Prop :=
  AncestryLaw start.toInt igPaMaxDepth c.depth.toInt c.links (c.truncated ≠ 0)

theorem lawful_zero (start : Int32) : zero.Lawful start where
  count := rfl
  depth := by decide
  first := nofun
  next := List.isChain_nil
  complete := nofun

theorem toNat_depth {c : PidChain} {i : Nat} (hi : i ≤ igPaMaxDepth) (hd : c.depth = Int32.ofNat i) :
    c.depth.toInt.toNat = i := by
  unfold igPaMaxDepth at hi
  rw [hd, Int32.toInt_ofNat_of_lt (by omega)]
  rfl

/-- An entry written behind those that are filled in. -/
theorem entries_push {c c' : PidChain} {i : Nat} {e : ProcInfo} (hi : i < igPaMaxDepth) (hd : c.depth = Int32.ofNat i)
    (hd' : c'.depth = Int32.ofNat (i + 1)) (hc' : c'.chain = (c.setEntry i e).chain) :
    c'.entries = c.entries ++ [e] := by
  unfold entries
  rw [toNat_depth (Nat.le_of_lt hi) hd, toNat_depth hi hd', hc']
  refine List.ext_getElem ?_ fun j hj hj' => ?_
  · simp only [List.length_take, List.length_ofFn, List.length_append, List.length_singleton]
    omega
  · simp only [List.length_take, List.length_ofFn] at hj
    rw [List.getElem_take, List.getElem_ofFn]
    by_cases hji : j = i
    · subst hji
      simp [setEntry, Nat.min_eq_left (Nat.le_of_lt hi)]
    · have hlt : j < i := by omega
      rw [List.getElem_append_left (by simp; omega), List.getElem_take, List.getElem_ofFn]
      exact if_neg hji

/-- Nor does one that is not counted change them. -/
theorem entries_setEntry {c c' : PidChain} {i : Nat} {e : ProcInfo} (hi : i < igPaMaxDepth)
    (hd : c.depth = Int32.ofNat i) (hd' : c'.depth = c.depth) (hc' : c'.chain = (c.setEntry i e).chain) :
    c'.entries = c.entries := by
  unfold entries
  rw [hd', toNat_depth (Nat.le_of_lt hi) hd, hc']
  refine List.ext_getElem (by simp) fun j hj hj' => ?_
  simp only [List.length_take, List.length_ofFn] at hj
  rw [List.getElem_take, List.getElem_take, List.getElem_ofFn, List.getElem_ofFn]
  exact if_neg (by dsimp only; omega)

/-- The first entry is that of the process the walk starts from. -/
theorem Lawful.pid_eq {c : PidChain} {start : Int32} (h : c.Lawful start) (hpos : c.depth > 0) :
    (c.chain ⟨0, by decide⟩).pid = start := by
  have hd : 0 < c.depth.toInt.toNat := by
    have hlt := Int32.lt_iff_toInt_lt.1 hpos
    simp only [Int32.toInt_zero] at hlt
    omega
  have hhead : c.links.head? = some ((c.chain ⟨0, by decide⟩).pid.toInt, (c.chain ⟨0, by decide⟩).ppid.toInt) := by
    obtain ⟨d, hd'⟩ := Nat.exists_eq_add_one_of_ne_zero hd.ne'
    rw [links, entries, hd']
    rfl
  exact Int32.toInt_inj.1 (h.first _ hhead)

end PidChain

section Loop

variable (load : Nat → Int32 → ProcInfo × Bool)

/-- The entry under a number and a pid, if it can be loaded. -/
def loaded (k : Nat × Int32) : Option ProcInfo := if (load k.1 k.2).2 then some (load k.1 k.2).1 else none

/-- Where the walk goes on. -/
def parentOf (k : Nat × Int32) (e : ProcInfo) : Option (Nat × Int32) :=
  if endsChain e k.2 then none else some (k.1 + 1, e.ppid)

theorem parentOf_eq_none {k : Nat × Int32} {e : ProcInfo} : parentOf k e = none ↔ endsChain e k.2 = true := by
  unfold parentOf
  split
  · rename_i h
    simp [h]
  · rename_i h
    simp [h]

/-- The loop adds the chain of entries that can be loaded, each under the parent of the one before it. -/
theorem chainLoop_spec (left i : Nat) (cur : Int32) (out : PidChain) (hi : i + left = igPaMaxDepth)
    (hd : out.depth = Int32.ofNat i) (ht : out.truncated = 0) :
    let walk := follow (loaded load) parentOf left (i, cur)
    let c := chainLoop load left i cur out
    c.entries = out.entries ++ walk.1 ∧ c.depth = Int32.ofNat (i + walk.1.length) ∧
      (c.truncated = 0 ↔ walk.2 = false) := by
  induction left generalizing i cur out with
  | zero =>
    simp only [follow, chainLoop, List.append_nil, List.length_nil, Nat.add_zero, iff_true, true_and]
    exact ⟨hd, ht⟩
  | succ left ih =>
    have hlt : i < igPaMaxDepth := by omega
    intro walk c
    by_cases hload : (load i cur).2 = true
    · have hfind : loaded load (i, cur) = some (load i cur).1 := if_pos hload
      by_cases hend : endsChain (load i cur).1 cur = true
      · -- the walk ends with this entry
        have hlink : parentOf (i, cur) (load i cur).1 = none := if_pos hend
        have hwalk : walk = ([(load i cur).1], false) := follow_end hfind hlink
        have hc : c = { out.setEntry i (load i cur).1 with depth := Int32.ofNat (i + 1) } := by
          simp [c, chainLoop, hload, hend]
        rw [hwalk, hc]
        exact ⟨PidChain.entries_push hlt hd rfl rfl, rfl, by simp [PidChain.setEntry, ht]⟩
      · have hlink : parentOf (i, cur) (load i cur).1 = some (i + 1, (load i cur).1.ppid) := if_neg hend
        have hpush : PidChain.entries { out.setEntry i (load i cur).1 with depth := Int32.ofNat (i + 1) } =
            out.entries ++ [(load i cur).1] := PidChain.entries_push hlt hd rfl rfl
        cases left with
        | zero =>
          -- the last entry that there is room for
          have hlast : i = igPaMaxDepth - 1 := by omega
          have hwalk : walk = ([(load i cur).1], true) := follow_limit hfind hlink
          have hc : c = { out.setEntry i (load i cur).1 with depth := Int32.ofNat (i + 1), truncated := 1 } := by
            show chainLoop load 1 i cur out = _
            rw [chainLoop]
            simp only [hload, hend, if_pos hlast, Bool.not_true, Bool.false_eq_true, if_false, chainLoop]
          rw [hwalk, hc]
          exact ⟨hpush, rfl, by simp⟩
        | succ left =>
          have hnot : ¬ i = igPaMaxDepth - 1 := by omega
          have hc : c = chainLoop load (left + 1) (i + 1) (load i cur).1.ppid
              { out.setEntry i (load i cur).1 with depth := Int32.ofNat (i + 1) } := by
            show chainLoop load (left + 2) i cur out = _
            rw [chainLoop]
            simp only [hload, hend, hnot, Bool.not_true, Bool.false_eq_true, if_false]
          obtain ⟨hentries, hdepth, htrunc⟩ := ih (i + 1) (load i cur).1.ppid
            { out.setEntry i (load i cur).1 with depth := Int32.ofNat (i + 1) } (by omega) rfl ht
          have hwalk : walk = _ := follow_link hfind hlink
          rw [hwalk, hc, hentries, hpush, hdepth]
          refine ⟨by rw [List.append_assoc]; rfl, ?_, htrunc⟩
          congr 1
          simp only [List.length_cons]
          omega
    · have hfind : loaded load (i, cur) = none := if_neg hload
      have hwalk : walk = ([], true) := follow_missing hfind
      have hc : c = { out.setEntry i (load i cur).1 with truncated := 1 } := by
        simp [c, chainLoop, hload]
      rw [hwalk, hc]
      refine ⟨?_, hd, by simp⟩
      rw [List.append_nil]
      exact PidChain.entries_setEntry hlt hd rfl rfl

variable {load}

/-- A walk keeps to the law if what is loaded under a pid has that pid. -/
theorem chainLoop_lawful (hpid : ∀ i cur, (load i cur).2 = true → (load i cur).1.pid = cur) (start : Int32) :
    (chainLoop load igPaMaxDepth 0 start .zero).Lawful start := by
  obtain ⟨hentries, hdepth, htrunc⟩ := chainLoop_spec load igPaMaxDepth 0 start .zero (Nat.zero_add _) rfl rfl
  generalize chainLoop load igPaMaxDepth 0 start .zero = c at hentries hdepth htrunc ⊢
  have hle : (follow (loaded load) parentOf igPaMaxDepth (0, start)).1.length ≤ igPaMaxDepth := length_follow_le _ _
  have hloaded : ∀ {k : Nat × Int32} {e : ProcInfo}, loaded load k = some e → e.pid = k.2 := by
    intro k e hk
    unfold loaded at hk
    split at hk
    · rename_i hok
      cases hk
      exact hpid _ _ hok
    · cases hk
  have hdepth' : c.depth.toInt = ((follow (loaded load) parentOf igPaMaxDepth (0, start)).1.length : Int) := by
    have hmax : igPaMaxDepth = 16 := rfl
    rw [hdepth, Nat.zero_add, Int32.toInt_ofNat_of_lt]
    omega
  have hentries' : c.entries = (follow (loaded load) parentOf igPaMaxDepth (0, start)).1 := hentries
  constructor
  · rw [hdepth', PidChain.links, List.length_map, hentries']
  · rw [hdepth']
    exact_mod_cast hle
  · intro l hl
    rw [PidChain.links, List.head?_map, hentries'] at hl
    obtain ⟨e, he, rfl⟩ := Option.mem_map.1 hl
    exact congrArg Int32.toInt (hloaded (find_of_mem_head? he))
  · rw [PidChain.links, List.isChain_map, hentries']
    refine isChain_follow (R := fun e e' : ProcInfo => e'.pid.toInt = e.ppid.toInt) ?_ _ _
    intro k e k' e' he hl he'
    unfold parentOf at hl
    split at hl
    · cases hl
    · cases hl
      exact congrArg Int32.toInt (hloaded he')
  · intro l hl
    rw [PidChain.links, List.getLast?_map, hentries'] at hl
    obtain ⟨e, he, rfl⟩ := Option.mem_map.1 hl
    have hends : ∀ k e, loaded load k = some e →
        (parentOf k e = none ↔ e.ppid.toInt ≤ 1 ∨ e.ppid.toInt = e.pid.toInt) := by
      intro k e hk
      rw [hloaded hk, parentOf_eq_none, endsChain, decide_eq_true_eq, Int32.le_iff_toInt_le, ← Int32.toInt_inj]
      rfl
    rw [← follow_complete_iff hends _ _ he, ← htrunc]
    simp

end Loop

/-! ## The walk in /proc -/

theorem parseStat_pid {boot : BootMeta} {stat : Option Bytes} {info info' : ProcInfo}
    (h : parseStat boot stat info = some info') : info'.pid = info.pid := by
  unfold parseStat at h
  obtain ⟨buf, -, h⟩ := Option.bind_eq_some_iff.1 h
  obtain ⟨rparen, -, h⟩ := Option.bind_eq_some_iff.1 h
  obtain ⟨lparen, -, h⟩ := Option.bind_eq_some_iff.1 h
  dsimp only at h
  split at h
  · cases h
  · cases h
    rfl

theorem parseStatusUid_pid (status : Option Bytes) (info : ProcInfo) : (parseStatusUid status info).pid = info.pid := by
  unfold parseStatusUid
  split
  · rfl
  dsimp only
  split
  · rfl
  split <;> rfl

theorem parseExe_pid (exe : Option Bytes) (info : ProcInfo) : (parseExe exe info).pid = info.pid := by
  unfold parseExe
  split <;> rfl

theorem parseCmdline_pid (cmdline : Option Bytes) (info : ProcInfo) : (parseCmdline cmdline info).pid = info.pid := by
  unfold parseCmdline
  split
  · rfl
  split <;> rfl

theorem loadProcInfo_pid (boot : BootMeta) (proc : ProcFiles) (pid : Int32) :
    (loadProcInfo boot proc pid).1.pid = pid := by
  unfold loadProcInfo
  dsimp only
  split
  · rfl
  · rename_i info hinfo
    rw [parseCmdline_pid, parseExe_pid, parseStatusUid_pid, parseStat_pid hinfo]

/-- `ig_pa_resolve` keeps to the law, whatever `/proc` has at each step. -/
theorem igPaResolve_lawful (boot : BootMeta) (proc : Nat → Int32 → ProcFiles) (pid : Int32) :
    (igPaResolve boot proc pid).Lawful pid := by
  unfold igPaResolve
  split
  · exact PidChain.lawful_zero pid
  · exact chainLoop_lawful (fun i cur _ => loadProcInfo_pid boot (proc i cur) cur) pid

end KnIg.Agent
