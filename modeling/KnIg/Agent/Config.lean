/-
The agent's configuration file. It is read line by line into a buffer of 1024 bytes; a line is blank, a comment, the
header of a section or a setting, and what a setting does depends on the section it stands in. Any file made of lines
that fit the buffer is read as the meaning of its lines, whatever blanks stand around their parts: the first 64 paths of
the watch sections, the first 32 of the protected ones, and the last value of each global setting. A configuration that
is written out is read back.
-/
import KnIg.Agent.Enroll.Messages
import KnIg.Agent.ProcStat
import KnIg.Agent.Reload
import KnIg.Lib.Lines
import KnIg.Lib.Strtol

namespace KnIg.Agent

open Lib

/-! ## The source's functions -/

def isBlank (c : UInt8) : Bool := c = 0x20 ∨ c = 0x09

/-- What is taken off the end of a line. -/
def isEndBlank (c : UInt8) : Bool := c = 0x20 ∨ c = 0x09 ∨ c = 0x0A ∨ c = 0x0D

def trim (s : CStr) : CStr :=
  ⟨trimWith isBlank isEndBlank s.bytes, fun h => s.noNul ((trimWith_sublist s.bytes).subset h)⟩

theorem trim_bytes (s : CStr) : (trim s).bytes = trimWith isBlank isEndBlank s.bytes := rfl

def atoi (s : CStr) : Int32 := (strtol s.bytes).toInt32

/-- `config_section_t`. -/
inductive ConfigSection where
  | global | watch | protect
deriving DecidableEq

/-- `protect_paths` has room for so many. -/
def maxProtectPaths : Nat := 32

/-- `ig_config_t`. -/
structure LoadedConfig extends IgConfig where
  daemonize : Int32
  logFile : TermArr igMaxPath
  logToSyslog : Int32
  verbose : Int32
  ebpfEnabled : Int32
  protectPaths : List WatchEntry
  protectFits : protectPaths.length ≤ maxProtectPaths

theorem logFile_noZero : 0 ∉ ascii "/var/log/ig_monitor.log" := by decide

/-- `IG_LOG_FILE`. -/
def igLogFile : CStr := ⟨ascii "/var/log/ig_monitor.log", logFile_noZero⟩

namespace LoadedConfig

theorem no_fits (n : Nat) : ([] : List WatchEntry).length ≤ n := Nat.zero_le n

/-- The values before the file is read. -/
def default : LoadedConfig :=
  ⟨⟨[], no_fits igMaxWatches⟩, 1, TermArr.copy igMaxPath igMaxPath_pos igLogFile, 0, 0, 1, [], no_fits maxProtectPaths⟩

variable (cfg : LoadedConfig)

theorem snoc_fits {l : List WatchEntry} {n : Nat} (h : l.length < n) (w : WatchEntry) : (l ++ [w]).length ≤ n := by
  rw [List.length_append]
  exact h

def addWatch (key val : CStr) : LoadedConfig :=
  if h : cfg.watches.length < igMaxWatches then
    { cfg with
      watches := cfg.watches ++ [⟨TermArr.copy igMaxPath igMaxPath_pos key, val.bytes = ascii "recursive"⟩]
      fits := snoc_fits h _ }
  else cfg

def addProtect (key : CStr) : LoadedConfig :=
  if h : cfg.protectPaths.length < maxProtectPaths then
    { cfg with
      protectPaths := cfg.protectPaths ++ [⟨TermArr.copy igMaxPath igMaxPath_pos key, false⟩]
      protectFits := snoc_fits h _ }
  else cfg

/-- A setting in the section where it stands. -/
def set (section_ : ConfigSection) (key val : CStr) : LoadedConfig :=
  match section_ with
  | .global =>
    if key.bytes = ascii "log_file" then { cfg with logFile := TermArr.copy igMaxPath igMaxPath_pos val }
    else if key.bytes = ascii "syslog" then { cfg with logToSyslog := atoi val }
    else if key.bytes = ascii "verbose" then { cfg with verbose := atoi val }
    else if key.bytes = ascii "daemonize" then { cfg with daemonize := atoi val }
    else if key.bytes = ascii "ebpf" then { cfg with ebpfEnabled := atoi val }
    else cfg
  | .watch => cfg.addWatch key val
  | .protect => cfg.addProtect key

end LoadedConfig

/-- The section that a header opens; the old name of the watch section is known still. -/
def sectionNamed (line : Bytes) : ConfigSection :=
  if (ascii "[watch]").isPrefixOf line ∨ (ascii "[watch_inotify]").isPrefixOf line then .watch
  else if (ascii "[protect]").isPrefixOf line then .protect
  else .global

/-- The pieces of a line before and behind its first `=`. -/
def keyOf (line : CStr) : CStr :=
  ⟨line.bytes.takeWhile (· ≠ 0x3D), fun h => line.noNul ((List.takeWhile_sublist _).subset h)⟩

def valueOf (line : CStr) : CStr :=
  ⟨(line.bytes.dropWhile (· ≠ 0x3D)).tail,
    fun h => line.noNul ((List.dropWhile_suffix _).subset (List.mem_of_mem_tail h))⟩

theorem keyOf_bytes (line : CStr) : (keyOf line).bytes = line.bytes.takeWhile (· ≠ 0x3D) := rfl

theorem valueOf_bytes (line : CStr) : (valueOf line).bytes = (line.bytes.dropWhile (· ≠ 0x3D)).tail := rfl

/-- What the loop of `ig_config_load` does with the bytes that one `fgets` has read. -/
def configLine (st : ConfigSection × LoadedConfig) (chunk : Bytes) : ConfigSection × LoadedConfig :=
  let line := trim (cString chunk)
  if line.bytes = [] ∨ line.bytes.head? = some 0x23 ∨ line.bytes.head? = some 0x3B then st
  else if line.bytes.head? = some 0x5B then (sectionNamed line.bytes, st.2)
  else if 0x3D ∉ line.bytes then st
  else (st.1, st.2.set st.1 (trim (keyOf line)) (trim (valueOf line)))

/-- `ig_config_load` of a file that may be missing: the configuration, and whether it returns 0. -/
def igConfigLoad (file : Option Bytes) : LoadedConfig × Bool :=
  match file with
  | none => (.default, false)
  | some text => (((fgetsAll 1024 text).foldl configLine (.global, .default)).2, true)

/-! ## What a file means -/

/-- A line of a configuration file, without the blanks at its ends. -/
inductive ConfigLine where
  | blank
  | comment (mark : UInt8) (text : Bytes)
  | header (name : Bytes)
  /-- a key and its value, with the blanks on both sides of the `=` -/
  | setting (key val : CStr) (before behind : Bytes)

/-- A line and the blanks at its ends. -/
structure WrittenLine where
  indent : Bytes
  line : ConfigLine
  trailing : Bytes

abbrev Setting := ConfigSection × CStr × CStr

namespace ConfigLine

def body : ConfigLine → Bytes
  | .blank => []
  | .comment mark text => mark :: text
  | .header name => 0x5B :: name
  | .setting key val before behind => key.bytes ++ (before ++ 0x3D :: (behind ++ val.bytes))

/-- The section that holds behind the line. -/
def sectionAfter (current : ConfigSection) : ConfigLine → ConfigSection
  | .header name => sectionNamed (0x5B :: name)
  | _ => current

/-- The settings of a file in their sections, in their order. -/
def settings : ConfigSection → List ConfigLine → List Setting
  | _, [] => []
  | current, .setting key val _ _ :: lines => (current, key, val) :: settings current lines
  | current, line :: lines => settings (line.sectionAfter current) lines

/-- No blanks at the ends of the text. -/
abbrev Tight (s : Bytes) : Prop := Bare isBlank isEndBlank s

/-- The line is of the kind that it is said to be. -/
def Proper : ConfigLine → Prop
  | .blank => True
  | .comment mark text => (mark = 0x23 ∨ mark = 0x3B) ∧ Tight (mark :: text)
  | .header name => Tight (0x5B :: name)
  | .setting key val before behind =>
    Tight key.bytes ∧ Tight val.bytes ∧ 0x3D ∉ key.bytes ∧
      (∀ c, key.bytes.head? = some c → c ≠ 0x23 ∧ c ≠ 0x3B ∧ c ≠ 0x5B) ∧ key.bytes ≠ [] ∧
      (∀ c ∈ before, isBlank c = true) ∧ (∀ c ∈ behind, isBlank c = true) ∧ (val.bytes = [] → behind = [])

end ConfigLine

namespace WrittenLine

def text (l : WrittenLine) : Bytes := l.indent ++ (l.line.body ++ l.trailing)

/-- The line fits the buffer, and the blanks at its ends are blanks. -/
structure Proper (l : WrittenLine) : Prop where
  indent : ∀ c ∈ l.indent, isBlank c = true
  trailing : ∀ c ∈ l.trailing, isEndBlank c = true
  line : l.line.Proper
  oneLine : 0x0A ∉ l.text
  noNul : 0 ∉ l.text
  fits : l.text.length + 2 ≤ 1024

end WrittenLine

/-- A line without blanks at its ends. -/
def plainLine (line : ConfigLine) : WrittenLine := ⟨[], line, []⟩

/-- A configuration file with such lines. -/
def configText (lines : List WrittenLine) : Bytes := (lines.map WrittenLine.text).flatMap ended

/-- The settings of a section. -/
def inSection (section_ : ConfigSection) (l : List Setting) : List (CStr × CStr) :=
  (l.filter (·.1 = section_)).map (·.2)

/-- The last value of a global setting. -/
def lastValue (key : String) (l : List Setting) : Option CStr :=
  ((inSection .global l).filter (·.1.bytes = ascii key)).getLast?.map (·.2)

def watchList (l : List Setting) : List WatchEntry :=
  ((inSection .watch l).take igMaxWatches).map fun e =>
    ⟨TermArr.copy igMaxPath igMaxPath_pos e.1, e.2.bytes = ascii "recursive"⟩

def protectList (l : List Setting) : List WatchEntry :=
  ((inSection .protect l).take maxProtectPaths).map fun e => ⟨TermArr.copy igMaxPath igMaxPath_pos e.1, false⟩

theorem watchList_fits (l : List Setting) : (watchList l).length ≤ igMaxWatches := by
  rw [watchList, List.length_map]
  exact List.length_take_le _ _

theorem protectList_fits (l : List Setting) : (protectList l).length ≤ maxProtectPaths := by
  rw [protectList, List.length_map]
  exact List.length_take_le _ _

/-- What the settings of a file configure: of the watched and the protected paths as many as there is room for, and the
last value of each global setting. -/
def configOf (l : List Setting) : LoadedConfig where
  watches := watchList l
  fits := watchList_fits l
  daemonize := (lastValue "daemonize" l).elim 1 atoi
  logFile := TermArr.copy igMaxPath igMaxPath_pos ((lastValue "log_file" l).getD igLogFile)
  logToSyslog := (lastValue "syslog" l).elim 0 atoi
  verbose := (lastValue "verbose" l).elim 0 atoi
  ebpfEnabled := (lastValue "ebpf" l).elim 1 atoi
  protectPaths := protectList l
  protectFits := protectList_fits l

/-! ## The settings one after the other -/

theorem LoadedConfig.ext_fields {a b : LoadedConfig} (hw : a.watches = b.watches) (hd : a.daemonize = b.daemonize)
    (hl : a.logFile = b.logFile) (hs : a.logToSyslog = b.logToSyslog) (hv : a.verbose = b.verbose)
    (he : a.ebpfEnabled = b.ebpfEnabled) (hp : a.protectPaths = b.protectPaths) : a = b := by
  obtain ⟨⟨_, _⟩, _, _, _, _, _, _, _⟩ := a
  obtain ⟨⟨_, _⟩, _, _, _, _, _, _, _⟩ := b
  cases hw; cases hd; cases hl; cases hs; cases hv; cases he; cases hp
  rfl

theorem inSection_snoc (section_ : ConfigSection) (l : List Setting) (e : Setting) :
    inSection section_ (l ++ [e]) = inSection section_ l ++ if e.1 = section_ then [e.2] else [] := by
  unfold inSection
  by_cases h : e.1 = section_ <;> simp [List.filter_append, h]

theorem lastValue_snoc (key : String) (l : List Setting) (e : Setting) :
    lastValue key (l ++ [e]) =
      if e.1 = .global ∧ e.2.1.bytes = ascii key then some e.2.2 else lastValue key l := by
  unfold lastValue
  rw [inSection_snoc]
  by_cases hs : e.1 = .global
  · by_cases hk : e.2.1.bytes = ascii key <;> simp [List.filter_append, hs, hk]
  · simp [hs]

/-- The first entries of a list that grows at its end. -/
theorem map_take_snoc {α β : Type} (f : α → β) (l : List α) (x : α) (n : Nat) :
    ((l ++ [x]).take n).map f =
      if ((l.take n).map f).length < n then (l.take n).map f ++ [f x] else (l.take n).map f := by
  rw [List.length_map, List.take_append, List.length_take]
  split
  · rw [List.take_of_length_le (by simp; omega : [x].length ≤ n - l.length), List.map_append, List.map_singleton]
  · rw [Nat.sub_eq_zero_of_le (by omega), List.take_zero, List.append_nil]

/-- An entry of the watch section changes the watch list only. -/
theorem addWatch_spec (cfg : LoadedConfig) (key val : CStr) : ∃ watches fits,
    cfg.addWatch key val = { cfg with watches := watches, fits := fits } ∧
      watches = if cfg.watches.length < igMaxWatches then
          cfg.watches ++ [⟨TermArr.copy igMaxPath igMaxPath_pos key, val.bytes = ascii "recursive"⟩]
        else cfg.watches := by
  unfold LoadedConfig.addWatch
  split
  · exact ⟨_, LoadedConfig.snoc_fits ‹_› _, rfl, rfl⟩
  · exact ⟨_, cfg.fits, rfl, rfl⟩

theorem addProtect_spec (cfg : LoadedConfig) (key : CStr) : ∃ protectPaths protectFits,
    cfg.addProtect key = { cfg with protectPaths := protectPaths, protectFits := protectFits } ∧
      protectPaths = if cfg.protectPaths.length < maxProtectPaths then
        cfg.protectPaths ++ [⟨TermArr.copy igMaxPath igMaxPath_pos key, false⟩] else cfg.protectPaths := by
  unfold LoadedConfig.addProtect
  split
  · exact ⟨_, LoadedConfig.snoc_fits ‹_› _, rfl, rfl⟩
  · exact ⟨_, cfg.protectFits, rfl, rfl⟩

/-- A global setting is the one of its key only. -/
theorem set_global (cfg : LoadedConfig) (key val : CStr) :
    cfg.set .global key val =
      { cfg with
        daemonize := if key.bytes = ascii "daemonize" then atoi val else cfg.daemonize
        logFile := if key.bytes = ascii "log_file" then TermArr.copy igMaxPath igMaxPath_pos val else cfg.logFile
        logToSyslog := if key.bytes = ascii "syslog" then atoi val else cfg.logToSyslog
        verbose := if key.bytes = ascii "verbose" then atoi val else cfg.verbose
        ebpfEnabled := if key.bytes = ascii "ebpf" then atoi val else cfg.ebpfEnabled } := by
  unfold LoadedConfig.set
  dsimp only
  split
  · rename_i h
    simp only [h]
    rfl
  split
  · rename_i h
    simp only [h]
    rfl
  split
  · rename_i h
    simp only [h]
    rfl
  split
  · rename_i h
    simp only [h]
    rfl
  split
  · simp only [*]
  · simp only [*]

theorem watchList_snoc (l : List Setting) (e : Setting) :
    watchList (l ++ [e]) =
      if e.1 = .watch then
        if (watchList l).length < igMaxWatches then
          watchList l ++ [⟨TermArr.copy igMaxPath igMaxPath_pos e.2.1, e.2.2.bytes = ascii "recursive"⟩]
        else watchList l
      else watchList l := by
  unfold watchList
  rw [inSection_snoc]
  by_cases hs : e.1 = .watch
  · rw [if_pos hs, map_take_snoc, if_pos hs]
  · rw [if_neg hs, List.append_nil, if_neg hs]

theorem protectList_snoc (l : List Setting) (e : Setting) :
    protectList (l ++ [e]) =
      if e.1 = .protect then
        if (protectList l).length < maxProtectPaths then
          protectList l ++ [⟨TermArr.copy igMaxPath igMaxPath_pos e.2.1, false⟩]
        else protectList l
      else protectList l := by
  unfold protectList
  rw [inSection_snoc]
  by_cases hs : e.1 = .protect
  · rw [if_pos hs, map_take_snoc, if_pos hs]
  · rw [if_neg hs, List.append_nil, if_neg hs]

/-- One more setting at the end of the file. -/
theorem configOf_snoc (l : List Setting) (e : Setting) : configOf (l ++ [e]) = (configOf l).set e.1 e.2.1 e.2.2 := by
  obtain ⟨section_, key, val⟩ := e
  cases section_ with
  | global =>
    rw [set_global]
    apply LoadedConfig.ext_fields <;>
      simp only [configOf, watchList_snoc, protectList_snoc, lastValue_snoc, reduceCtorEq, if_false, true_and] <;>
      split <;> rfl
  | watch =>
    obtain ⟨watches, fits, hset, hwatches⟩ := addWatch_spec (configOf l) key val
    show _ = (configOf l).addWatch key val
    rw [hset]
    apply LoadedConfig.ext_fields
    case hw =>
      refine Eq.trans ?_ hwatches.symm
      exact (watchList_snoc l _).trans (if_pos rfl)
    all_goals simp only [configOf, protectList_snoc, lastValue_snoc, reduceCtorEq, false_and, if_false]
  | protect =>
    obtain ⟨paths, fits, hset, hpaths⟩ := addProtect_spec (configOf l) key
    show _ = (configOf l).addProtect key
    rw [hset]
    apply LoadedConfig.ext_fields
    case hp =>
      refine Eq.trans ?_ hpaths.symm
      exact (protectList_snoc l _).trans (if_pos rfl)
    all_goals simp only [configOf, watchList_snoc, lastValue_snoc, reduceCtorEq, false_and, if_false]

/-- The settings of a file one after the other. -/
theorem foldl_set (l : List Setting) : l.foldl (fun cfg e => cfg.set e.1 e.2.1 e.2.2) .default = configOf l := by
  induction l using List.reverseRecOn with
  | nil => rfl
  | append_singleton l e ih => rw [List.foldl_append, ih, configOf_snoc, List.foldl_cons, List.foldl_nil]

/-! ## The lines of a file -/

namespace ConfigLine

/-- What a line does. -/
def apply (st : ConfigSection × LoadedConfig) : ConfigLine → ConfigSection × LoadedConfig
  | .setting key val _ _ => (st.1, st.2.set st.1 key val)
  | line => (line.sectionAfter st.1, st.2)

theorem isBlank_equals : isBlank 0x3D = false := rfl

theorem isEndBlank_of_isBlank {c : UInt8} (h : isBlank c = true) : isEndBlank c = true := by
  simp only [isBlank, isEndBlank, decide_eq_true_eq] at h ⊢
  rcases h with h | h
  · exact Or.inl h
  · exact Or.inr (Or.inl h)

theorem tight_setting {key val before behind : Bytes} (hkey : Tight key) (hval : Tight val) (hne : key ≠ [])
    (hbehind : val = [] → behind = []) : Tight (key ++ (before ++ 0x3D :: (behind ++ val))) where
  head c hc := by
    rw [List.head?_append_of_ne_nil _ hne] at hc
    exact hkey.head c hc
  last c hc := by
    by_cases hv : val = []
    · rw [hv, hbehind hv, ← List.append_assoc, List.append_nil, List.getLast?_append_of_ne_nil _ (by simp)] at hc
      cases hc
      rfl
    · rw [← List.append_assoc, List.getLast?_append_of_ne_nil _ (by simp), ← List.cons_append,
        List.getLast?_append_of_ne_nil _ hv] at hc
      exact hval.last c hc

theorem Proper.tight {line : ConfigLine} (h : line.Proper) : Tight line.body := by
  cases line with
  | blank => exact ⟨by simp [body], by simp [body]⟩
  | comment mark text => exact h.2
  | header name => exact h
  | setting key val before behind =>
    obtain ⟨hkey, hval, -, -, hne, -, -, hbehind⟩ := h
    exact tight_setting hkey hval hne hbehind

end ConfigLine

/-- The buffer's string without the blanks at its ends. -/
theorem trim_ended {l : WrittenLine} (h : l.Proper) : (trim (cString (ended l.text))).bytes = l.line.body := by
  have hstring : (cString (ended l.text)).bytes = l.indent ++ (l.line.body ++ (l.trailing ++ [0x0A])) := by
    have hall : ∀ c ∈ ended l.text, decide (c ≠ 0) = true := by
      intro c hc
      rcases List.mem_append.1 hc with hc | hc
      · exact decide_eq_true fun h0 => h.noNul (h0 ▸ hc)
      · rw [List.mem_singleton.1 hc]
        rfl
    show (ended l.text).takeWhile (· ≠ 0) = _
    rw [List.takeWhile_eq_self_iff.2 hall, ended, WrittenLine.text, List.append_assoc, List.append_assoc]
  rw [trim_bytes, hstring]
  refine trimWith_padded h.line.tight h.indent fun c hc => ?_
  rcases List.mem_append.1 hc with hc | hc
  · exact h.trailing c hc
  · rw [List.mem_singleton.1 hc]
    rfl

theorem isBlank_ne_equals {c : UInt8} (h : isBlank c = true) : c ≠ 0x3D := by
  rintro rfl
  cases h

/-- The key and the value of a setting, up to blanks. -/
theorem split_setting {line key val : CStr} {before behind : Bytes}
    (hline : line.bytes = key.bytes ++ (before ++ 0x3D :: (behind ++ val.bytes))) (hkey : 0x3D ∉ key.bytes)
    (hbefore : ∀ c ∈ before, isBlank c = true) :
    (keyOf line).bytes = key.bytes ++ before ∧ (valueOf line).bytes = behind ++ val.bytes := by
  have hfront : ∀ c ∈ key.bytes ++ before, decide (c ≠ 0x3D) = true := by
    intro c hc
    rcases List.mem_append.1 hc with hc | hc
    · exact decide_eq_true fun heq => hkey (heq ▸ hc)
    · exact decide_eq_true (isBlank_ne_equals (hbefore c hc))
  rw [← List.append_assoc] at hline
  constructor
  · rw [keyOf_bytes, hline, List.takeWhile_append_of_pos hfront]
    simp
  · rw [valueOf_bytes, hline, List.dropWhile_append_of_pos hfront]
    simp

/-- A line that fits the buffer does what its kind does. -/
theorem configLine_ended {l : WrittenLine} (h : l.Proper) (st : ConfigSection × LoadedConfig) :
    configLine st (ended l.text) = l.line.apply st := by
  have htrim := trim_ended h
  have hproper := h.line
  unfold configLine
  dsimp only
  cases hline : l.line with
  | blank =>
    rw [hline] at htrim
    exact if_pos (Or.inl htrim)
  | comment mark text =>
    rw [hline] at htrim hproper
    rw [htrim]
    refine if_pos (Or.inr ?_)
    rcases hproper.1 with rfl | rfl
    · exact Or.inl rfl
    · exact Or.inr rfl
  | header name =>
    rw [hline] at htrim
    rw [htrim]
    rfl
  | setting key val before behind =>
    rw [hline] at htrim hproper
    obtain ⟨hkey, hval, hequals, hmark, hne, hbefore, hbehind, -⟩ := hproper
    obtain ⟨c, rest, hc⟩ := List.exists_cons_of_ne_nil hne
    obtain ⟨h1, h2, h3⟩ := hmark c (by rw [hc]; rfl)
    have hhead : (trim (cString (ended l.text))).bytes.head? = some c := by
      rw [htrim, ConfigLine.body, hc]
      rfl
    have hmem : 0x3D ∈ (trim (cString (ended l.text))).bytes := by
      rw [htrim, ConfigLine.body]
      simp
    have hnil : (trim (cString (ended l.text))).bytes ≠ [] := List.ne_nil_of_mem hmem
    obtain ⟨hk, hv⟩ := split_setting htrim hequals hbefore
    have hkey' : trim (keyOf (trim (cString (ended l.text)))) = key := by
      apply CStr.ext_bytes
      rw [trim_bytes, hk]
      exact trimWith_append hkey fun c hc => ConfigLine.isEndBlank_of_isBlank (hbefore c hc)
    have hval' : trim (valueOf (trim (cString (ended l.text)))) = val := by
      apply CStr.ext_bytes
      rw [trim_bytes, hv]
      exact trimWith_prepend hval hbehind
    rw [hhead, hkey', hval']
    simp [hnil, hmem, h1, h2, h3, ConfigLine.apply]

theorem foldl_apply (lines : List ConfigLine) (current : ConfigSection) (cfg : LoadedConfig) :
    (lines.foldl ConfigLine.apply (current, cfg)).2 =
      (ConfigLine.settings current lines).foldl (fun cfg e => cfg.set e.1 e.2.1 e.2.2) cfg := by
  induction lines generalizing current cfg with
  | nil => rfl
  | cons line lines ih =>
    rw [List.foldl_cons]
    cases line <;> exact ih _ _

/-- The loop of `ig_config_load` over a file whose lines fit the buffer. -/
theorem foldl_configText {lines : List WrittenLine} (h : ∀ l ∈ lines, l.Proper) :
    ((fgetsAll 1024 (configText lines)).foldl configLine (.global, .default)).2 =
      configOf (ConfigLine.settings .global (lines.map (·.line))) := by
  have hlines : fgetsAll 1024 (configText lines) = (lines.map WrittenLine.text).map ended := by
    refine fgetsAll_ended _ fun text htext => ?_
    obtain ⟨l, hl, rfl⟩ := List.mem_map.1 htext
    exact ⟨(h l hl).oneLine, (h l hl).fits⟩
  have hfold : ∀ st, ((lines.map WrittenLine.text).map ended).foldl configLine st =
      (lines.map (·.line)).foldl ConfigLine.apply st := by
    clear hlines
    induction lines with
    | nil => exact fun _ => rfl
    | cons l lines ih =>
      intro st
      rw [List.map_cons, List.map_cons, List.map_cons, List.foldl_cons, List.foldl_cons,
        configLine_ended (h l List.mem_cons_self), ih fun l' hl' => h l' (List.mem_cons_of_mem l hl')]
  rw [hlines, hfold, foldl_apply, foldl_set]

/-- A file whose lines fit the buffer is read as what its lines mean. -/
theorem config_read (lines : List WrittenLine) (h : ∀ l ∈ lines, l.Proper) :
    igConfigLoad (some (configText lines)) =
      (configOf (ConfigLine.settings .global (lines.map (·.line))), true) := by
  rw [igConfigLoad, foldl_configText h]

theorem proper_header {name : Bytes} (hlast : ∀ c, (0x5B :: name).getLast? = some c → isEndBlank c = false)
    (hline : 0x0A ∉ name) (hnul : 0 ∉ name) (hfits : name.length + 3 ≤ 1024) : (plainLine (.header name)).Proper := by
  have htext : (plainLine (.header name)).text = 0x5B :: name := by
    simp [plainLine, WrittenLine.text, ConfigLine.body]
  refine ⟨List.forall_mem_nil _, List.forall_mem_nil _, ⟨fun c hc => ?_, hlast⟩, ?_, ?_, ?_⟩
  · cases hc
    rfl
  · rw [htext, List.mem_cons, not_or]
    exact ⟨by decide, hline⟩
  · rw [htext, List.mem_cons, not_or]
    exact ⟨by decide, hnul⟩
  · rw [htext]
    exact hfits

theorem proper_watchHeader : (plainLine (.header (ascii "watch]"))).Proper := by
  refine proper_header (fun c hc => ?_) (by decide) (by decide) (by decide)
  cases hc
  rfl

theorem proper_protectHeader : (plainLine (.header (ascii "protect]"))).Proper := by
  refine proper_header (fun c hc => ?_) (by decide) (by decide) (by decide)
  cases hc
  rfl

theorem passwd_noZero : 0 ∉ ascii "/etc/passwd" := by decide
theorem single_noZero : 0 ∉ ascii "single" := by decide

/-- A section with one setting, with blanks around its parts. -/
def passwdLines : List WrittenLine :=
  [plainLine (.header (ascii "watch]")),
    ⟨[0x09], .setting ⟨ascii "/etc/passwd", passwd_noZero⟩ ⟨ascii "single", single_noZero⟩ [0x20, 0x20] [0x20], [0x0D]⟩]

theorem config_read_passwd :
    (∀ l ∈ passwdLines, l.Proper) ∧
    igConfigLoad (some (configText passwdLines)) =
      (configOf [(.watch, ⟨ascii "/etc/passwd", passwd_noZero⟩, ⟨ascii "single", single_noZero⟩)], true) := by
  have h : ∀ l ∈ passwdLines, l.Proper := by
    intro l hl
    rcases List.mem_cons.1 hl with rfl | hl
    · exact proper_watchHeader
    · rw [List.mem_singleton.1 hl]
      refine ⟨List.all_eq_true.1 (by decide), List.all_eq_true.1 (by decide), ?_, by decide, by decide, by decide⟩
      refine ⟨⟨fun c hc => ?_, fun c hc => ?_⟩, ⟨fun c hc => ?_, fun c hc => ?_⟩, by decide, fun c hc => ?_, by decide,
        List.all_eq_true.1 (by decide), List.all_eq_true.1 (by decide), fun h => absurd h (by decide)⟩
      all_goals
        cases hc
        decide
  exact ⟨h, config_read passwdLines h⟩

/-! ## A configuration written out -/

theorem mem_signedDecimal {z : Int} {c : UInt8} (h : c ∈ signedDecimal z) : isDigit c = true ∨ c = 0x2D := by
  unfold signedDecimal at h
  split at h
  · rcases List.mem_cons.1 h with h | h
    · exact Or.inr h
    · exact Or.inl (digit_of_mem_decimal h)
  · exact Or.inl (digit_of_mem_decimal h)

theorem notMem_signedDecimal (z : Int) {c : UInt8} (hc : isDigit c = false ∧ c ≠ 0x2D) : c ∉ signedDecimal z := by
  intro h
  rcases mem_signedDecimal h with h | h
  · rw [hc.1] at h
    cases h
  · exact hc.2 h

theorem signedDecimal_ne_nil (z : Int) : signedDecimal z ≠ [] := by
  unfold signedDecimal
  split
  · simp
  · exact decimal_ne_nil _

theorem zero_noDigit : isDigit 0 = false ∧ (0 : UInt8) ≠ 0x2D := by decide

/-- What `%d` prints. -/
def intText (v : Int32) : CStr := ⟨signedDecimal v.toInt, notMem_signedDecimal v.toInt zero_noDigit⟩

theorem atoi_intText (v : Int32) : atoi (intText v) = v := by
  have hlo := v.le_toInt
  have hhi := v.toInt_lt
  rw [atoi, intText, strtol_signedDecimal (by omega) (by omega), Int64.toInt32_ofInt, Int32.ofInt_toInt]

theorem length_intText_le (v : Int32) : (intText v).bytes.length ≤ 11 := by
  have hlo := v.le_toInt
  have hhi := v.toInt_lt
  have hlen : (decimal v.toInt.natAbs).length ≤ 10 := length_decimal_le (by decide) (by omega)
  show (signedDecimal v.toInt).length ≤ 11
  unfold signedDecimal
  split
  · exact Nat.succ_le_succ hlen
  · exact Nat.le_succ_of_le hlen

/-- A text that can stand in front of or behind an `=`. -/
structure PlainText (s : Bytes) (room : Nat) : Prop where
  tight : ConfigLine.Tight s
  ne_nil : s ≠ []
  oneLine : 0x0A ∉ s
  fits : s.length + room ≤ 1024

structure PlainKey (s : Bytes) (room : Nat) : Prop extends PlainText s room where
  noEquals : 0x3D ∉ s
  mark : ∀ c, s.head? = some c → c ≠ 0x23 ∧ c ≠ 0x3B ∧ c ≠ 0x5B

theorem plainText_intText (v : Int32) : PlainText (intText v).bytes 100 where
  tight :=
    have hblank : ∀ c, isEndBlank c = true → c ∉ (intText v).bytes := by
      intro c hc
      refine notMem_signedDecimal v.toInt ?_
      simp only [isEndBlank, decide_eq_true_eq] at hc
      rcases hc with rfl | rfl | rfl | rfl <;> decide
    ⟨fun c hc => Bool.eq_false_iff.2 fun h =>
        hblank c (ConfigLine.isEndBlank_of_isBlank h) (List.mem_of_mem_head? hc),
      fun c hc => Bool.eq_false_iff.2 fun h => hblank c h (List.mem_of_mem_getLast? hc)⟩
  ne_nil := signedDecimal_ne_nil _
  oneLine := notMem_signedDecimal v.toInt (by decide)
  fits := by
    have hlen := length_intText_le v
    omega

/-- Neither blanks nor marks are in the text. -/
def isWord (s : Bytes) : Bool :=
  s ≠ [] && s.all fun c => isEndBlank c = false ∧ c ≠ 0x3D ∧ c ≠ 0x23 ∧ c ≠ 0x3B ∧ c ≠ 0x5B

theorem plainKey_of_isWord {s : Bytes} (h : isWord s = true) {room : Nat} (hfits : s.length + room ≤ 1024) :
    PlainKey s room := by
  obtain ⟨hne, hall⟩ := Bool.and_eq_true_iff.1 h
  replace hne : s ≠ [] := of_decide_eq_true hne
  replace hall := fun c hc => of_decide_eq_true (List.all_eq_true.1 hall c hc)
  have hblank : ∀ c ∈ s, isBlank c = false := fun c hc => Bool.eq_false_iff.2 fun hb =>
    absurd (ConfigLine.isEndBlank_of_isBlank hb) (by rw [(hall c hc).1]; simp)
  exact
    { tight := ⟨fun c hc => hblank c (List.mem_of_mem_head? hc), fun c hc => (hall c (List.mem_of_mem_getLast? hc)).1⟩
      ne_nil := hne
      oneLine := fun h => absurd (hall _ h).1 (by decide)
      fits := hfits
      noEquals := fun h => (hall _ h).2.1 rfl
      mark := fun c hc => (hall c (List.mem_of_mem_head? hc)).2.2 }

/-- A setting with a blank on both sides of its `=`. -/
def settingLine (key val : CStr) : ConfigLine := .setting key val [0x20] [0x20]

theorem proper_settingLine {key val : CStr} {room : Nat} (hkey : PlainKey key.bytes (val.bytes.length + 5))
    (hval : PlainText val.bytes room) : (plainLine (settingLine key val)).Proper := by
  have htext : (plainLine (settingLine key val)).text = key.bytes ++ ([0x20, 0x3D, 0x20] ++ val.bytes) := by
    simp [plainLine, settingLine, WrittenLine.text, ConfigLine.body]
  refine ⟨by simp [plainLine], by simp [plainLine], ?_, ?_, ?_, ?_⟩
  · exact ⟨hkey.tight, hval.tight, hkey.noEquals, hkey.mark, hkey.ne_nil, List.all_eq_true.1 (by decide),
      List.all_eq_true.1 (by decide), fun h => absurd h hval.ne_nil⟩
  · rw [htext, List.mem_append, List.mem_append]
    rintro (h | h | h)
    · exact hkey.oneLine h
    · exact absurd h (by decide)
    · exact hval.oneLine h
  · rw [htext, List.mem_append, List.mem_append]
    rintro (h | h | h)
    · exact key.noNul h
    · exact absurd h (by decide)
    · exact val.noNul h
  · have hfits := hkey.fits
    rw [htext, List.length_append, List.length_append]
    show key.bytes.length + (3 + val.bytes.length) + 2 ≤ 1024
    omega

theorem daemonize_noZero : 0 ∉ ascii "daemonize" := by decide
theorem log_file_noZero : 0 ∉ ascii "log_file" := by decide
theorem syslog_noZero : 0 ∉ ascii "syslog" := by decide
theorem verbose_noZero : 0 ∉ ascii "verbose" := by decide
theorem ebpf_noZero : 0 ∉ ascii "ebpf" := by decide
theorem recursive_noZero : 0 ∉ ascii "recursive" := by decide
theorem file_noZero : 0 ∉ ascii "file" := by decide

/-- The word behind a watched path. -/
def depthText (recursive : Bool) : CStr :=
  if recursive then ⟨ascii "recursive", recursive_noZero⟩ else ⟨ascii "single", single_noZero⟩

namespace LoadedConfig

variable (cfg : LoadedConfig)

def globalSettings : List (CStr × CStr) :=
  [(⟨ascii "daemonize", daemonize_noZero⟩, intText cfg.daemonize),
    (⟨ascii "log_file", log_file_noZero⟩, cfg.logFile.str),
    (⟨ascii "syslog", syslog_noZero⟩, intText cfg.logToSyslog),
    (⟨ascii "verbose", verbose_noZero⟩, intText cfg.verbose),
    (⟨ascii "ebpf", ebpf_noZero⟩, intText cfg.ebpfEnabled)]

def watchSettings : List (CStr × CStr) := cfg.watches.map fun w => (w.path.str, depthText w.recursive)

def protectSettings : List (CStr × CStr) := cfg.protectPaths.map fun w => (w.path.str, ⟨ascii "file", file_noZero⟩)

/-- The configuration as a file. -/
def written : List WrittenLine :=
  (cfg.globalSettings.map fun e => plainLine (settingLine e.1 e.2)) ++
    plainLine (.header (ascii "watch]")) :: ((cfg.watchSettings.map fun e => plainLine (settingLine e.1 e.2)) ++
      plainLine (.header (ascii "protect]")) :: cfg.protectSettings.map fun e => plainLine (settingLine e.1 e.2))

/-- The paths can stand in a file; a protected path is watched by itself. -/
structure Writable : Prop where
  logFile : PlainText cfg.logFile.str.bytes 13
  watches : ∀ w ∈ cfg.watches, PlainKey w.path.str.bytes 14
  protect : ∀ w ∈ cfg.protectPaths, PlainKey w.path.str.bytes 9 ∧ w.recursive = false

end LoadedConfig

theorem plainText_depthText (recursive : Bool) : PlainText (depthText recursive).bytes 0 := by
  cases recursive
  · exact (plainKey_of_isWord (by decide : isWord (ascii "single")) (by decide)).toPlainText
  · exact (plainKey_of_isWord (by decide : isWord (ascii "recursive")) (by decide)).toPlainText

theorem PlainKey.mono {s : Bytes} {m n : Nat} (h : PlainKey s n) (hle : m ≤ n) : PlainKey s m :=
  { h with fits := Nat.le_trans (Nat.add_le_add_left hle _) h.fits }

theorem globalSettings_plain {cfg : LoadedConfig} (h : cfg.Writable) :
    ∀ e ∈ cfg.globalSettings, PlainKey e.1.bytes (e.2.bytes.length + 5) ∧ ∃ room, PlainText e.2.bytes room := by
  intro e he
  have hint : ∀ v, (intText v).bytes.length ≤ 11 := length_intText_le
  have hlog := h.logFile.fits
  simp only [LoadedConfig.globalSettings, List.mem_cons, List.not_mem_nil, or_false] at he
  rcases he with rfl | rfl | rfl | rfl | rfl
  · have hlen := hint cfg.daemonize
    exact ⟨plainKey_of_isWord (by decide : isWord (ascii "daemonize"))
      (by show 9 + _ ≤ 1024; dsimp only; omega), _, plainText_intText _⟩
  · exact ⟨plainKey_of_isWord (by decide : isWord (ascii "log_file"))
      (by show 8 + _ ≤ 1024; dsimp only; omega), _, h.logFile⟩
  · have hlen := hint cfg.logToSyslog
    exact ⟨plainKey_of_isWord (by decide : isWord (ascii "syslog"))
      (by show 6 + _ ≤ 1024; dsimp only; omega), _, plainText_intText _⟩
  · have hlen := hint cfg.verbose
    exact ⟨plainKey_of_isWord (by decide : isWord (ascii "verbose"))
      (by show 7 + _ ≤ 1024; dsimp only; omega), _, plainText_intText _⟩
  · have hlen := hint cfg.ebpfEnabled
    exact ⟨plainKey_of_isWord (by decide : isWord (ascii "ebpf"))
      (by show 4 + _ ≤ 1024; dsimp only; omega), _, plainText_intText _⟩

theorem watchSettings_plain {cfg : LoadedConfig} (h : cfg.Writable) :
    ∀ e ∈ cfg.watchSettings, PlainKey e.1.bytes (e.2.bytes.length + 5) ∧ ∃ room, PlainText e.2.bytes room := by
  intro e he
  obtain ⟨w, hw, rfl⟩ := List.mem_map.1 he
  refine ⟨(h.watches w hw).mono ?_, _, plainText_depthText w.recursive⟩
  show (depthText w.recursive).bytes.length + 5 ≤ 14
  cases w.recursive <;> decide

theorem protectSettings_plain {cfg : LoadedConfig} (h : cfg.Writable) :
    ∀ e ∈ cfg.protectSettings, PlainKey e.1.bytes (e.2.bytes.length + 5) ∧ ∃ room, PlainText e.2.bytes room := by
  intro e he
  obtain ⟨w, hw, rfl⟩ := List.mem_map.1 he
  refine ⟨(h.protect w hw).1.mono (Nat.le_refl 9), 0, ?_⟩
  exact (plainKey_of_isWord (by decide : isWord (ascii "file")) (by decide)).toPlainText

theorem written_proper {cfg : LoadedConfig} (h : cfg.Writable) : ∀ l ∈ cfg.written, l.Proper := by
  have hsettings : ∀ {es : List (CStr × CStr)},
      (∀ e ∈ es, PlainKey e.1.bytes (e.2.bytes.length + 5) ∧ ∃ room, PlainText e.2.bytes room) →
        ∀ l ∈ es.map fun e => plainLine (settingLine e.1 e.2), l.Proper := by
    intro es hes l hl
    obtain ⟨e, he, rfl⟩ := List.mem_map.1 hl
    obtain ⟨hkey, room, hval⟩ := hes e he
    exact proper_settingLine hkey hval
  intro l hl
  simp only [LoadedConfig.written, List.mem_append, List.mem_cons] at hl
  rcases hl with hl | rfl | hl | rfl | hl
  · exact hsettings (globalSettings_plain h) l hl
  · exact proper_watchHeader
  · exact hsettings (watchSettings_plain h) l hl
  · exact proper_protectHeader
  · exact hsettings (protectSettings_plain h) l hl

theorem settings_header (current : ConfigSection) (name : Bytes) (lines : List ConfigLine) :
    ConfigLine.settings current (.header name :: lines) = ConfigLine.settings (sectionNamed (0x5B :: name)) lines := rfl

theorem settings_settingLines (current : ConfigSection) (es : List (CStr × CStr)) (lines : List ConfigLine) :
    ConfigLine.settings current (es.map (fun e => settingLine e.1 e.2) ++ lines) =
      es.map (Prod.mk current) ++ ConfigLine.settings current lines := by
  induction es with
  | nil => rfl
  | cons e es ih => exact congrArg (List.cons _) ih

theorem settings_written (cfg : LoadedConfig) :
    ConfigLine.settings .global (cfg.written.map (·.line)) =
      cfg.globalSettings.map (Prod.mk .global) ++ (cfg.watchSettings.map (Prod.mk .watch) ++
        cfg.protectSettings.map (Prod.mk .protect)) := by
  have hlines : cfg.written.map (·.line) =
      cfg.globalSettings.map (fun e => settingLine e.1 e.2) ++ .header (ascii "watch]") ::
        (cfg.watchSettings.map (fun e => settingLine e.1 e.2) ++ .header (ascii "protect]") ::
          (cfg.protectSettings.map (fun e => settingLine e.1 e.2) ++ [])) := by
    simp [LoadedConfig.written, plainLine, Function.comp_def]
  have hwatch : sectionNamed (0x5B :: ascii "watch]") = .watch := by decide
  have hprotect : sectionNamed (0x5B :: ascii "protect]") = .protect := by decide
  rw [hlines, settings_settingLines, settings_header, hwatch, settings_settingLines, settings_header, hprotect,
    settings_settingLines, ConfigLine.settings, List.append_nil]

theorem inSection_append (section_ : ConfigSection) (l m : List Setting) :
    inSection section_ (l ++ m) = inSection section_ l ++ inSection section_ m := by
  simp [inSection, List.filter_append]

theorem inSection_map (section_ s : ConfigSection) (es : List (CStr × CStr)) :
    inSection section_ (es.map (Prod.mk s)) = if s = section_ then es else [] := by
  unfold inSection
  rw [List.filter_map, List.map_map]
  by_cases hs : s = section_ <;> simp [Function.comp_def, hs]

/-- A configuration that can be written out is read back. -/
theorem config_read_back (cfg : LoadedConfig) (h : cfg.Writable) :
    igConfigLoad (some (configText cfg.written)) = (cfg, true) := by
  rw [igConfigLoad, foldl_configText (written_proper h), settings_written]
  have hglobal : ∀ key, lastValue key (cfg.globalSettings.map (Prod.mk .global) ++
      (cfg.watchSettings.map (Prod.mk .watch) ++ cfg.protectSettings.map (Prod.mk .protect))) =
      (cfg.globalSettings.filter (·.1.bytes = ascii key)).getLast?.map (·.2) := by
    intro key
    simp [lastValue, inSection_append, inSection_map]
  have hcopy : ∀ p : TermArr igMaxPath, TermArr.copy igMaxPath igMaxPath_pos p.str = p := by
    rintro ⟨str, fits⟩
    simp only [TermArr.copy, CStr.cut_of_lt fits]
  refine congrArg (·, true) (LoadedConfig.ext_fields ?_ ?_ ?_ ?_ ?_ ?_ ?_)
  · show watchList _ = cfg.watches
    have hlen : cfg.watchSettings.length ≤ igMaxWatches := by
      rw [LoadedConfig.watchSettings, List.length_map]
      exact cfg.fits
    simp only [watchList, inSection_append, inSection_map, reduceCtorEq, if_false, if_true, List.nil_append,
      List.append_nil, List.take_of_length_le hlen]
    rw [LoadedConfig.watchSettings, List.map_map]
    refine List.map_id'' (fun w => ?_) cfg.watches
    obtain ⟨path, recursive⟩ := w
    cases recursive <;> exact congrArg (WatchEntry.mk · _) (hcopy path)
  · exact (congrArg (Option.elim · 1 atoi) (hglobal "daemonize")).trans (atoi_intText cfg.daemonize)
  · show TermArr.copy igMaxPath igMaxPath_pos ((lastValue "log_file" _).getD igLogFile) = cfg.logFile
    rw [hglobal]
    exact hcopy cfg.logFile
  · exact (congrArg (Option.elim · 0 atoi) (hglobal "syslog")).trans (atoi_intText cfg.logToSyslog)
  · exact (congrArg (Option.elim · 0 atoi) (hglobal "verbose")).trans (atoi_intText cfg.verbose)
  · exact (congrArg (Option.elim · 1 atoi) (hglobal "ebpf")).trans (atoi_intText cfg.ebpfEnabled)
  · show protectList _ = cfg.protectPaths
    have hlen : cfg.protectSettings.length ≤ maxProtectPaths := by
      rw [LoadedConfig.protectSettings, List.length_map]
      exact cfg.protectFits
    simp only [protectList, inSection_append, inSection_map, reduceCtorEq, if_false, if_true, List.nil_append,
      List.take_of_length_le hlen]
    rw [LoadedConfig.protectSettings, List.map_map]
    refine (List.map_congr_left fun w hw => ?_).trans (List.map_id _)
    obtain ⟨path, recursive⟩ := w
    rw [show recursive = false from (h.protect _ hw).2]
    exact congrArg (WatchEntry.mk · false) (hcopy path)

theorem etc_noZero : 0 ∉ ascii "/etc" := by decide

theorem config_read_back_etc :
    (LoadedConfig.default.addWatch ⟨ascii "/etc", etc_noZero⟩ (depthText true)).Writable ∧
    igConfigLoad (some (configText
      (LoadedConfig.default.addWatch ⟨ascii "/etc", etc_noZero⟩ (depthText true)).written)) =
        (LoadedConfig.default.addWatch ⟨ascii "/etc", etc_noZero⟩ (depthText true), true) := by
  have h : (LoadedConfig.default.addWatch ⟨ascii "/etc", etc_noZero⟩ (depthText true)).Writable := by
    refine ⟨?_, ?_, fun w hw => by cases (show w ∈ [] from hw)⟩
    · exact (plainKey_of_isWord (by decide : isWord (ascii "/var/log/ig_monitor.log")) (by decide)).toPlainText
    · intro w hw
      rw [List.mem_singleton.1 (hw : w ∈ [_])]
      exact plainKey_of_isWord (by decide : isWord (ascii "/etc")) (by decide)
  exact ⟨h, config_read_back _ h⟩

end KnIg.Agent
