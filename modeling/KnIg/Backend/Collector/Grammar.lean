/-
What the decoder of FILE_EVENT payloads accepts. The decoder as it indexes its payload does what the one
that reads from the front does, so no access lies outside; what it accepts is the layout of a message, in
which any nonzero byte stands for a flag that is set.
-/
import KnIg.Backend.Collector.FileEvent
import KnIg.Lib.Cursor

namespace KnIg

open Lib Lib.Reader Backend FileEvent

/-! ## The decoder as it indexes -/

namespace Backend.Indexed

abbrev BinReader := Cursor String

def readU8 : BinReader UInt8 := do
  return UInt8.ofNat (← Cursor.word 1 "버퍼 부족: u8")

def readU16 : BinReader UInt16 := do
  return UInt16.ofNat (← Cursor.word 2 "버퍼 부족: u16")

def readU32 : BinReader UInt32 := do
  return UInt32.ofNat (← Cursor.word 4 "버퍼 부족: u32")

def readU64 : BinReader UInt64 := do
  if (← Cursor.remaining) < (8 : Nat) then throw "버퍼 부족: u64"
  else
    let hi ← Cursor.look 0 4
    let lo ← Cursor.look 4 4
    Cursor.skip 8
    return (UInt32.ofNat (beNat hi)).toUInt64 <<< 32 ||| (UInt32.ofNat (beNat lo)).toUInt64

def readStr : BinReader Bytes := do
  let length ← readU16
  Cursor.bytes length.toNat ("버퍼 부족: string(len=" ++ toString length.toNat ++ ")")

def named {α : Type} (field : String) (r : BinReader α) : BinReader α :=
  Cursor.wrap (fun err => field ++ " 읽기 실패: " ++ err) r

def decodeProcessInfo : BinReader ProcessInfoMsg := do
  let pid ← readU32
  let ppid ← readU32
  let uid ← readU32
  let euid ← readU32
  let sid ← readU32
  let startTimeNS ← readU64
  let comm ← readStr
  let tty ← readStr
  let exe ← readStr
  let cmdline ← readStr
  return ⟨pid, ppid, uid, euid, sid, startTimeNS, comm, tty, exe, cmdline⟩

def decodeChainEntry (i : Nat) : BinReader ProcessInfoMsg :=
  Cursor.wrap (fun err => "chain[" ++ toString i ++ "] 디코딩 실패: " ++ err) decodeProcessInfo

def decodeChain : BinReader ProcessChainMsg := do
  let chainDepth ← named "chain_depth" readU8
  if chainDepth > maxProcessChainDepth then
    throw ("chain_depth 초과: " ++ toString chainDepth.toNat ++ " > " ++ toString maxProcessChainDepth.toNat)
  else
    let chainTruncated ← named "chain_truncated" readU8
    let entries ← Cursor.listFrom decodeChainEntry 0 chainDepth.toNat
    return ⟨chainDepth, chainTruncated != 0, entries⟩

def decodeFileEventFields : BinReader FileEventMsg := do
  let agentID ← readU64
  let evtType ← readU8
  let filePath ← readStr
  let fileName ← readStr
  let perm ← readU16
  let detectedBy ← readU8
  let pid ← readU32
  let timestamp ← readU32
  let targetDev ← named "target_dev" readU64
  let targetIno ← named "target_ino" readU64
  let blocked ← named "blocked" readU8
  let uid ← named "uid" readU32
  let sid ← named "sid" readU32
  let comm ← named "comm" readStr
  let chain ← decodeChain
  return ⟨agentID, evtType, filePath, fileName, perm, detectedBy, pid, timestamp, targetDev, targetIno,
    blocked != 0, uid, sid, comm, chain⟩

/-- `DecodeFileEvent`; `none` where it would index outside of its payload. -/
def decodeFileEvent (data : Bytes) : Option (Except String FileEventMsg) :=
  if data.length < 24 then some (.error ("FILE_EVENT 크기 부족: " ++ toString data.length))
  else
    match decodeFileEventFields data 0 with
    | none => none
    | some (.error err) => some (.error err)
    | some (.ok (msg, pos)) =>
      let remaining : Int := (data.length : Int) - pos
      if remaining ≠ 0 then some (.error ("FILE_EVENT payload trailing bytes: " ++ toString remaining))
      else some (.ok msg)

/-! ## No access lies outside -/

open Cursor

theorem agrees_readU8 : Agrees readU8 Backend.readU8 := (agrees_word 1 _).bind fun n => agrees_pure (UInt8.ofNat n)

theorem agrees_readU16 : Agrees readU16 Backend.readU16 := (agrees_word 2 _).bind fun n => agrees_pure (UInt16.ofNat n)

theorem agrees_readU32 : Agrees readU32 Backend.readU32 := (agrees_word 4 _).bind fun n => agrees_pure (UInt32.ofNat n)

theorem agrees_readU64 : Agrees readU64 Backend.readU64 := by
  apply agrees_checked (n := 8)
  intro data pos hin
  rw [bind_of_ok (look_inside (by omega)), bind_of_ok (look_inside (by omega)), bind_skip]
  have hhi : ((data.drop pos).take 8).take 4 = (data.drop (pos + 0)).take 4 := by
    rw [List.take_take, Nat.add_zero]
    rfl
  have hlo : ((data.drop pos).take 8).drop 4 = (data.drop (pos + 4)).take 4 := by
    rw [List.drop_take, List.drop_drop]
  rw [hhi, hlo]
  rfl

theorem agrees_readStr : Agrees readStr Backend.readStr :=
  agrees_readU16.bind fun length => agrees_bytes length.toNat _

theorem agrees_named {α : Type} {c : BinReader α} {r : Backend.BinReader α} (field : String) (h : Agrees c r) :
    Agrees (named field c) (Backend.named field r) := h.wrap _

theorem agrees_decodeProcessInfo : Agrees decodeProcessInfo Backend.decodeProcessInfo :=
  agrees_readU32.bind fun _ => agrees_readU32.bind fun _ => agrees_readU32.bind fun _ => agrees_readU32.bind fun _ =>
    agrees_readU32.bind fun _ => agrees_readU64.bind fun _ => agrees_readStr.bind fun _ => agrees_readStr.bind fun _ =>
    agrees_readStr.bind fun _ => agrees_readStr.bind fun _ => agrees_pure _

theorem agrees_decodeChain : Agrees decodeChain Backend.decodeChain := by
  refine (agrees_named "chain_depth" agrees_readU8).bind fun chainDepth => ?_
  split
  · exact agrees_throw _
  · refine (agrees_named "chain_truncated" agrees_readU8).bind fun chainTruncated => ?_
    have hentry : ∀ i, Agrees (decodeChainEntry i) (Backend.decodeChainEntry i) :=
      fun i => agrees_decodeProcessInfo.wrap _
    exact (agrees_listFrom hentry 0 chainDepth.toNat).bind fun entries => agrees_pure _

theorem agrees_decodeFileEventFields : Agrees decodeFileEventFields Backend.decodeFileEventFields :=
  agrees_readU64.bind fun _ => agrees_readU8.bind fun _ => agrees_readStr.bind fun _ => agrees_readStr.bind fun _ =>
    agrees_readU16.bind fun _ => agrees_readU8.bind fun _ => agrees_readU32.bind fun _ => agrees_readU32.bind fun _ =>
    (agrees_named _ agrees_readU64).bind fun _ => (agrees_named _ agrees_readU64).bind fun _ =>
    (agrees_named _ agrees_readU8).bind fun _ => (agrees_named _ agrees_readU32).bind fun _ =>
    (agrees_named _ agrees_readU32).bind fun _ => (agrees_named _ agrees_readStr).bind fun _ =>
    agrees_decodeChain.bind fun _ => agrees_pure _

/-- The decoder does not index outside, and does what the one from the front does. -/
theorem decodeFileEvent_eq (data : Bytes) : decodeFileEvent data = some (Backend.decodeFileEvent data) := by
  unfold decodeFileEvent Backend.decodeFileEvent
  split
  · rfl
  cases hr : Backend.decodeFileEventFields data with
  | error err =>
    have hc := agrees_decodeFileEventFields.error data 0 err (Nat.zero_le _) hr
    simp only [hc]
  | ok p =>
    obtain ⟨pos, hc, hpos, hrest⟩ := agrees_decodeFileEventFields.ok data 0 p.1 p.2 (Nat.zero_le _) hr
    have hlen : (data.length : Int) - pos = p.2.length := by
      rw [← hrest, List.length_drop]
      omega
    simp only [hc, hlen]
    split
    · next hne => rw [if_pos (by exact_mod_cast hne)]; rfl
    · next he => rw [if_neg (by exact_mod_cast he)]

end Backend.Indexed

/-! ## What each field takes -/

namespace Backend

variable {bs rest : Bytes}

theorem readU8_sound {v : UInt8} (h : readU8 bs = .ok (v, rest)) : bs = [v] ++ rest := by
  obtain ⟨n, mid, hn, h⟩ := Reader.bind_eq_ok.1 h
  obtain ⟨rfl, rfl⟩ := pure_eq_ok.1 h
  obtain ⟨rfl, hlt⟩ := word_sound hn
  simp [beBytes]

theorem readU16_sound {v : UInt16} (h : readU16 bs = .ok (v, rest)) : bs = beBytes 2 v.toNat ++ rest := by
  obtain ⟨n, mid, hn, h⟩ := Reader.bind_eq_ok.1 h
  obtain ⟨rfl, rfl⟩ := pure_eq_ok.1 h
  obtain ⟨rfl, hlt⟩ := word_sound hn
  rw [UInt16.toNat_ofNat_of_lt' hlt]

theorem readU32_sound {v : UInt32} (h : readU32 bs = .ok (v, rest)) : bs = beBytes 4 v.toNat ++ rest := by
  obtain ⟨n, mid, hn, h⟩ := Reader.bind_eq_ok.1 h
  obtain ⟨rfl, rfl⟩ := pure_eq_ok.1 h
  obtain ⟨rfl, hlt⟩ := word_sound hn
  rw [UInt32.toNat_ofNat_of_lt' hlt]

theorem readU64_sound {v : UInt64} (h : readU64 bs = .ok (v, rest)) : bs = wireU64 v ++ rest := by
  obtain ⟨b, mid, hb, h⟩ := Reader.bind_eq_ok.1 h
  obtain ⟨rfl, rfl⟩ := pure_eq_ok.1 h
  obtain ⟨rfl, hlen⟩ := bytes_sound hb
  have hhi : (b.take 4).length = 4 := by rw [List.length_take]; omega
  have hlo : (b.drop 4).length = 4 := by rw [List.length_drop]; omega
  have half : ∀ c : Bytes, c.length = 4 → beBytes 4 (UInt32.ofNat (beNat c)).toNat = c := by
    intro c hc
    have hlt := beNat_lt c
    have hc' := beBytes_beNat c
    rw [hc] at hlt hc'
    rw [UInt32.toNat_ofNat_of_lt' hlt, hc']
  rw [wireU64, u64_join_high, u64_join_low, half _ hhi, half _ hlo, List.take_append_drop]

theorem readStr_sound {s : Bytes} (h : readStr bs = .ok (s, rest)) : bs = wireStr s ++ rest ∧ s.length < 2 ^ 16 := by
  obtain ⟨length, mid, hl, h⟩ := Reader.bind_eq_ok.1 h
  have hbs := readU16_sound hl
  obtain ⟨hmid, hlen⟩ := bytes_sound h
  rw [hbs, hmid, wireStr, hlen, List.append_assoc]
  exact ⟨rfl, length.toNat_lt⟩

theorem named_sound {α : Type} {field : String} {r : BinReader α} {a : α} (h : named field r bs = .ok (a, rest)) :
    r bs = .ok (a, rest) := wrap_eq_ok.1 h

theorem decodeProcessInfo_sound {e : ProcessInfoMsg} (h : decodeProcessInfo bs = .ok (e, rest)) :
    bs = entryWire e ++ rest ∧ EntryFits e := by
  obtain ⟨pid, _, hpid, h⟩ := Reader.bind_eq_ok.1 h
  obtain ⟨ppid, _, hppid, h⟩ := Reader.bind_eq_ok.1 h
  obtain ⟨uid, _, huid, h⟩ := Reader.bind_eq_ok.1 h
  obtain ⟨euid, _, heuid, h⟩ := Reader.bind_eq_ok.1 h
  obtain ⟨sid, _, hsid, h⟩ := Reader.bind_eq_ok.1 h
  obtain ⟨startTimeNS, _, hstart, h⟩ := Reader.bind_eq_ok.1 h
  obtain ⟨comm, _, hcomm, h⟩ := Reader.bind_eq_ok.1 h
  obtain ⟨tty, _, htty, h⟩ := Reader.bind_eq_ok.1 h
  obtain ⟨exe, _, hexe, h⟩ := Reader.bind_eq_ok.1 h
  obtain ⟨cmdline, _, hcmdline, h⟩ := Reader.bind_eq_ok.1 h
  obtain ⟨rfl, rfl⟩ := pure_eq_ok.1 h
  obtain ⟨rfl, hcomm16⟩ := readStr_sound hcomm
  obtain ⟨rfl, htty16⟩ := readStr_sound htty
  obtain ⟨rfl, hexe16⟩ := readStr_sound hexe
  obtain ⟨rfl, hcmdline16⟩ := readStr_sound hcmdline
  refine ⟨?_, hcomm16, htty16, hexe16, hcmdline16⟩
  rw [readU32_sound hpid, readU32_sound hppid, readU32_sound huid, readU32_sound heuid, readU32_sound hsid,
    readU64_sound hstart]
  simp only [entryWire, List.append_assoc]

theorem decodeChainEntry_sound {i : Nat} {e : ProcessInfoMsg} (h : decodeChainEntry i bs = .ok (e, rest)) :
    bs = entryWire e ++ rest ∧ EntryFits e := decodeProcessInfo_sound (wrap_eq_ok.1 h)

/-- The chain comes from its depth, which is at most sixteen, some byte for whether it was cut, and as many
entries as the depth says. -/
theorem decodeChain_sound {c : ProcessChainMsg} (h : decodeChain bs = .ok (c, rest)) :
    ∃ truncated : UInt8, bs = [c.depth] ++ ([truncated] ++ (c.entries.flatMap entryWire ++ rest)) ∧
      c.truncated = (truncated != 0) ∧ c.depth.toNat ≤ 16 ∧ c.entries.length = c.depth.toNat ∧
      ∀ e ∈ c.entries, EntryFits e := by
  obtain ⟨depth, _, hdepth, h⟩ := Reader.bind_eq_ok.1 h
  split at h
  · exact absurd h throw_ne_ok
  next hmax =>
  obtain ⟨truncated, _, htrunc, h⟩ := Reader.bind_eq_ok.1 h
  obtain ⟨entries, _, hentries, h⟩ := Reader.bind_eq_ok.1 h
  obtain ⟨rfl, rfl⟩ := pure_eq_ok.1 h
  obtain ⟨rfl, hlen, hfits⟩ := listFrom_sound (fun i bs e rest he => decodeChainEntry_sound he) hentries
  refine ⟨truncated, ?_, rfl, ?_, hlen, hfits⟩
  · rw [readU8_sound (named_sound hdepth), readU8_sound (named_sound htrunc)]
  · rw [gt_iff_lt, UInt8.lt_iff_toNat_lt, not_lt] at hmax
    exact hmax

end Backend

/-! ## The grammar -/

namespace FileEvent

/-- A FILE_EVENT of the grammar: a message that fits and a byte for each of its flags. -/
structure Sentence where
  msg : FileEventMsg
  fits : Fits msg
  blocked : UInt8
  truncated : UInt8
  blocked_eq : msg.blocked = (blocked != 0)
  truncated_eq : msg.chain.truncated = (truncated != 0)

namespace Sentence

def bytes (w : Sentence) : Bytes := wireWith w.msg w.blocked w.truncated

end Sentence

/-- The fields are read from a sentence of the grammar. -/
theorem decodeFileEventFields_sound {bs rest : Bytes} {m : FileEventMsg}
    (h : decodeFileEventFields bs = .ok (m, rest)) : ∃ w : Sentence, w.msg = m ∧ bs = w.bytes ++ rest := by
  obtain ⟨agentID, _, hagent, h⟩ := Reader.bind_eq_ok.1 h
  obtain ⟨evtType, _, htype, h⟩ := Reader.bind_eq_ok.1 h
  obtain ⟨filePath, _, hpath, h⟩ := Reader.bind_eq_ok.1 h
  obtain ⟨fileName, _, hname, h⟩ := Reader.bind_eq_ok.1 h
  obtain ⟨perm, _, hperm, h⟩ := Reader.bind_eq_ok.1 h
  obtain ⟨detectedBy, _, hdet, h⟩ := Reader.bind_eq_ok.1 h
  obtain ⟨pid, _, hpid, h⟩ := Reader.bind_eq_ok.1 h
  obtain ⟨timestamp, _, htime, h⟩ := Reader.bind_eq_ok.1 h
  obtain ⟨targetDev, _, hdev, h⟩ := Reader.bind_eq_ok.1 h
  obtain ⟨targetIno, _, hino, h⟩ := Reader.bind_eq_ok.1 h
  obtain ⟨blocked, _, hblocked, h⟩ := Reader.bind_eq_ok.1 h
  obtain ⟨uid, _, huid, h⟩ := Reader.bind_eq_ok.1 h
  obtain ⟨sid, _, hsid, h⟩ := Reader.bind_eq_ok.1 h
  obtain ⟨comm, _, hcomm, h⟩ := Reader.bind_eq_ok.1 h
  obtain ⟨chain, _, hchain, h⟩ := Reader.bind_eq_ok.1 h
  obtain ⟨rfl, rfl⟩ := pure_eq_ok.1 h
  obtain ⟨rfl, hpath16⟩ := readStr_sound hpath
  obtain ⟨rfl, hname16⟩ := readStr_sound hname
  obtain ⟨rfl, hcomm16⟩ := readStr_sound (named_sound hcomm)
  obtain ⟨truncated, rfl, htrunc, hle, hlen, hentries⟩ := decodeChain_sound hchain
  refine ⟨⟨_, ⟨hpath16, hname16, hcomm16, hlen, hle, hentries⟩, blocked, truncated, rfl, htrunc⟩, rfl, ?_⟩
  rw [readU64_sound hagent, readU8_sound htype, readU16_sound hperm, readU8_sound hdet, readU32_sound hpid,
    readU32_sound htime, readU64_sound (named_sound hdev), readU64_sound (named_sound hino),
    readU8_sound (named_sound hblocked), readU32_sound (named_sound huid), readU32_sound (named_sound hsid)]
  simp only [Sentence.bytes, wireWith, List.append_assoc]

/-- Two byte strings that are the same but for the bytes of the two flags, where those that differ are nonzero. -/
def SameButFlags (data₁ data₂ : Bytes) : Prop :=
  ∃ (m : FileEventMsg) (b₁ b₂ t₁ t₂ : UInt8), data₁ = wireWith m b₁ t₁ ∧ data₂ = wireWith m b₂ t₂ ∧
    (b₁ = b₂ ∨ b₁ ≠ 0 ∧ b₂ ≠ 0) ∧ (t₁ = t₂ ∨ t₁ ≠ 0 ∧ t₂ ≠ 0)

/-- The decoder accepts just the sentences, each with its message. -/
theorem decodeFileEvent_ok_iff {data : Bytes} {m : FileEventMsg} :
    decodeFileEvent data = .ok m ↔ ∃ w : Sentence, w.msg = m ∧ data = w.bytes := by
  constructor
  · intro h
    unfold decodeFileEvent at h
    split at h
    · cases h
    cases hf : decodeFileEventFields data with
    | error err => simp [hf] at h
    | ok p =>
      obtain ⟨msg, rest⟩ := p
      simp only [hf] at h
      split at h
      · cases h
      · next hrest =>
        cases h
        obtain ⟨w, hw, hdata⟩ := decodeFileEventFields_sound hf
        have hnil : rest = [] := List.length_eq_zero_iff.1 (not_ne_iff.1 hrest)
        rw [hnil, List.append_nil] at hdata
        exact ⟨w, hw, hdata⟩
  · rintro ⟨w, rfl, rfl⟩
    exact decodeFileEvent_wireWith w.fits w.blocked_eq w.truncated_eq

theorem same_flag {a b : UInt8} (h : (a != 0) = (b != 0)) : a = b ∨ a ≠ 0 ∧ b ≠ 0 := by
  by_cases ha : a = 0
  · left
    rw [ha, bne_self_eq_false, eq_comm, bne_eq_false_iff_eq] at h
    rw [ha, h]
  · right
    rw [bne_iff_ne.2 ha, eq_comm, bne_iff_ne] at h
    exact ⟨ha, h⟩

/-- The decoder never indexes outside of its payload; it accepts just the sentences of the grammar, with as
many entries as the depth says; and two payloads that it decodes to one message differ at most in the
nonzero bytes of the flags. -/
theorem decodeFileEvent_exact :
    (∀ data, Indexed.decodeFileEvent data ≠ none) ∧
    (∀ data, (∃ m, Indexed.decodeFileEvent data = some (.ok m)) ↔ ∃ w : Sentence, data = w.bytes) ∧
    (∀ data m, Indexed.decodeFileEvent data = some (.ok m) → m.chain.entries.length = m.chain.depth.toNat) ∧
    ∀ data₁ data₂ m, Indexed.decodeFileEvent data₁ = some (.ok m) → Indexed.decodeFileEvent data₂ = some (.ok m) →
      SameButFlags data₁ data₂ := by
  simp only [Indexed.decodeFileEvent_eq, Option.some.injEq, decodeFileEvent_ok_iff]
  refine ⟨fun data => Option.some_ne_none _, fun data => ?_, ?_, ?_⟩
  · constructor
    · rintro ⟨m, w, -, hw⟩
      exact ⟨w, hw⟩
    · rintro ⟨w, hw⟩
      exact ⟨w.msg, w, rfl, hw⟩
  · rintro data m ⟨w, rfl, -⟩
    exact w.fits.depth
  · rintro data₁ data₂ m ⟨w₁, rfl, rfl⟩ ⟨w₂, hm, rfl⟩
    refine ⟨w₁.msg, w₁.blocked, w₂.blocked, w₁.truncated, w₂.truncated, rfl, by rw [← hm]; rfl, ?_, ?_⟩
    · apply same_flag
      rw [← w₁.blocked_eq, ← w₂.blocked_eq, hm]
    · apply same_flag
      rw [← w₁.truncated_eq, ← w₂.truncated_eq, hm]

/-- A blocked write arrives as the same message whether its flag is sent as 1 or as 2. -/
theorem decodeFileEvent_exact_blockedWrite :
    SameButFlags (wireWith (eventMessage 7 (blockedWrite 0)) 1 0) (wireWith (eventMessage 7 (blockedWrite 0)) 2 0) := by
  have hfits := eventMessage_fits (blockedWrite_sendable 0) 7
  have hdec : ∀ b : UInt8, b ≠ 0 →
      Indexed.decodeFileEvent (wireWith (eventMessage 7 (blockedWrite 0)) b 0) =
        some (.ok (eventMessage 7 (blockedWrite 0))) := by
    intro b hb
    rw [Indexed.decodeFileEvent_eq, decodeFileEvent_wireWith hfits (bne_iff_ne.2 hb).symm rfl]
  exact decodeFileEvent_exact.2.2.2 _ _ _ (hdec 1 (by decide)) (hdec 2 (by decide))

end FileEvent

end KnIg
