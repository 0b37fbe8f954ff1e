/-
The files that an enrollment writes. Each is truncated and written in its place, and whether enrollment is needed is
read off whether two of them can be read: a call that fails at its certificate or at its key can leave a host that
takes itself for enrolled.
-/
import KnIg.Agent.Enroll.Execute

namespace KnIg.Agent

open Lib

/-! ## The files -/

/-- A file, and whether `access(path, R_OK)` is 0. -/
structure StoredFile where
  contents : Bytes
  readable : Bool
deriving DecidableEq

/-- The three files, at three different paths. -/
abbrev CertDisk := CertFile → Option StoredFile

def isReadable (f : Option StoredFile) : Bool := (f.map (·.readable)).getD false

def igEnrollNeeded (disk : CertDisk) : Bool := !isReadable (disk .crt) || !isReadable (disk .key)

/-- How a call of `write_text_file` goes: `open` fails; `fchmod` fails, on a file that is readable or not if it was
just created; `write` fails; or it writes so many bytes at most. -/
inductive FileWrite where
  | openFails
  | fchmodFails (createdReadable : Bool)
  | writeFails
  | writes (n : Nat)

/-- `write_text_file`: whether it returns 0, and the file it leaves. The modes let the owner read. -/
def writeTextFile (w : FileWrite) (data : CStr) (old : Option StoredFile) : Bool × Option StoredFile :=
  match w with
  | .openFails => (false, old)
  | .fchmodFails createdReadable => (false, some ⟨[], (old.map (·.readable)).getD createdReadable⟩)
  | .writeFails => (false, some ⟨[], true⟩)
  | .writes n => ((data.bytes.take n).length = data.length, some ⟨data.bytes.take n, true⟩)

/-- The file can be read after the call. -/
def FileWrite.readableAfter (w : FileWrite) (old : Option StoredFile) : Bool :=
  match w with
  | .openFails => isReadable old
  | .fchmodFails createdReadable => (old.map (·.readable)).getD createdReadable
  | .writeFails | .writes _ => true

def FileWrite.returns0 (w : FileWrite) (data : CStr) : Bool := (writeTextFile w data none).1

theorem writeTextFile_spec (w : FileWrite) (data : CStr) (old : Option StoredFile) :
    (writeTextFile w data old).1 = w.returns0 data ∧ isReadable (writeTextFile w data old).2 = w.readableAfter old := by
  cases w <;> exact ⟨rfl, rfl⟩

/-- A call that returns 0 leaves a file that can be read. -/
theorem readableAfter_of_returns0 {w : FileWrite} {data : CStr} (h : w.returns0 data = true) (old : Option StoredFile) :
    w.readableAfter old = true := by
  cases w with
  | openFails | fchmodFails | writeFails => cases h
  | writes n => rfl

/-! ## A call on a disk -/

/-- What a call meets: the functions below it at each of its three stages, the frames that it reads, and how its
writes go. -/
structure EnrollHost where
  call : EnrollCall
  hello : EnrollIo
  request : EnrollIo
  finish : EnrollIo
  challenge : Option IgFrame
  response : Option IgFrame
  writes : CertFile → FileWrite

namespace EnrollHost

section Hmac

variable (hmac : Bytes → Bytes → Octets 32) (h : EnrollHost)

/-- The functions below the last stage, with writes that end as those of the response do. -/
def finishIo : EnrollAt → EnrollIo
  | .requestSent _ session =>
    match openResponse hmac h.finish session h.response with
    | some resp => { h.finish with writes := fun file => (h.writes file).returns0 (file.contents resp) }
    | none => h.finish
  | _ => h.finish

/-- What a deed does to the files. -/
def apply (disk : CertDisk) : EnrollDeed → CertDisk
  | .writeFile _ file contents => Function.update disk file (writeTextFile (h.writes file) contents (disk file)).2
  | .hello _ | .request _ _ | .ack _ _ => disk

/-- `ig_enroll_execute` from its start to its end: where it stands then, and the files. -/
def execute (disk : CertDisk) : EnrollAt × CertDisk :=
  let s₁ := igEnrollExecute hmac h.call .start h.hello none
  let s₂ := igEnrollExecute hmac h.call s₁.1 h.request h.challenge
  let s₃ := igEnrollExecute hmac h.call s₂.1 (h.finishIo hmac s₂.1) h.response
  (s₃.1, (s₁.2 ++ s₂.2 ++ s₃.2).foldl h.apply disk)

/-- The response that the call comes to, if it does. -/
def received : Option IgEnrollResponse :=
  match igEnrollExecute hmac h.call .start h.hello none with
  | (.helloSent, _) =>
    match enrollRequest hmac h.call h.request h.challenge with
    | (.requestSent _ session, _) => openResponse hmac h.finish session h.response
    | _ => none
  | _ => none

end Hmac

end EnrollHost

/-- A host that needs enrollment still needs it after a call that returns -1. -/
def RetryPossible (hmac : Bytes → Bytes → Octets 32) (h : EnrollHost) (disk : CertDisk) : Prop :=
  igEnrollNeeded disk = true → (h.execute hmac disk).1 = .returned (-1) →
    igEnrollNeeded (h.execute hmac disk).2 = true

/-- If the call comes to a response and stores its CA: a certificate that is not written stays unreadable or the key
is, and a key that is not written stays unreadable. -/
def FailsUnreadable (hmac : Bytes → Bytes → Octets 32) (h : EnrollHost) (disk : CertDisk) : Prop :=
  igEnrollNeeded disk = true → ∀ resp, h.received hmac = some resp → (h.writes .ca).returns0 resp.caCertPem = true →
    ((h.writes .crt).returns0 resp.agentCertPem = false →
      isReadable (disk .key) = false ∨ (h.writes .crt).readableAfter (disk .crt) = false) ∧
    ((h.writes .crt).returns0 resp.agentCertPem = true → (h.writes .key).returns0 resp.agentKeyPem = false →
      (h.writes .key).readableAfter (disk .key) = false)

namespace EnrollHost

section Hmac

variable {hmac : Bytes → Bytes → Octets 32} {h : EnrollHost}

/-- Before its response a call touches no file. -/
theorem foldl_apply_of_no_write {deeds : List EnrollDeed} (hd : ∀ n file contents, .writeFile n file contents ∉ deeds)
    (disk : CertDisk) : deeds.foldl h.apply disk = disk := by
  induction deeds generalizing disk with
  | nil => rfl
  | cons d deeds ih =>
    have hhead : h.apply disk d = disk := by
      cases d with
      | writeFile n file contents => exact absurd List.mem_cons_self (hd n file contents)
      | hello | request | ack => rfl
    rw [List.foldl_cons, hhead]
    exact ih (fun n file contents hm => hd n file contents (List.mem_cons_of_mem _ hm)) disk

theorem enrollHello_cases (call : EnrollCall) (io : EnrollIo) :
    ((enrollHello call io).1 = .helloSent ∨ (enrollHello call io).1 = .returned (-1)) ∧
      ∀ n file contents, .writeFile n file contents ∉ (enrollHello call io).2 := by
  unfold enrollHello
  split
  · simp
  split
  · simp
  split
  · simp
  split
  · simp
  · constructor
    · split <;> simp
    · simp

theorem enrollRequest_cases (hmac : Bytes → Bytes → Octets 32) (call : EnrollCall) (io : EnrollIo)
    (frame : Option IgFrame) :
    ((∃ n session, (enrollRequest hmac call io frame).1 = .requestSent n session) ∨
        (enrollRequest hmac call io frame).1 = .returned (-1)) ∧
      ∀ n file contents, .writeFile n file contents ∉ (enrollRequest hmac call io frame).2 := by
  unfold enrollRequest
  split
  · simp
  split
  · simp
  · constructor
    · split <;> simp
    · simp

/-- With its response a call makes the writes up to the first that fails; the acknowledgement touches no file. -/
theorem enrollFinish_of_response {io : EnrollIo} {n : Octets 32} {session : IgXorSession} {frame : Option IgFrame}
    {resp : IgEnrollResponse} (hopen : openResponse hmac io session frame = some resp) :
    (enrollFinish hmac io n session frame).1 =
        .returned (if (writeTextFiles io.writes [.ca, .crt, .key]).2 then 0 else -1) ∧
      ∀ disk, (enrollFinish hmac io n session frame).2.foldl h.apply disk =
        ((writeTextFiles io.writes [.ca, .crt, .key]).1.map fun file =>
          EnrollDeed.writeFile n file (file.contents resp)).foldl h.apply disk := by
  unfold enrollFinish
  simp only [hopen]
  cases hw : writeTextFiles io.writes [.ca, .crt, .key] with
  | mk tried ok =>
    cases ok with
    | false => simp
    | true =>
      simp only [Bool.not_true, Bool.false_eq_true, if_false, if_true]
      split
      · exact ⟨rfl, fun _ => rfl⟩
      · split
        · exact ⟨rfl, fun _ => rfl⟩
        · exact ⟨rfl, fun disk => by rw [List.foldl_append]; rfl⟩

/-- A call ends before the response, and leaves the files, or as its last stage does. -/
theorem execute_cases (hmac : Bytes → Bytes → Octets 32) (h : EnrollHost) (disk : CertDisk) :
    (h.received hmac = none ∧ h.execute hmac disk = (.returned (-1), disk)) ∨
      ∃ n session, h.received hmac = openResponse hmac h.finish session h.response ∧
        h.execute hmac disk =
          ((enrollFinish hmac (h.finishIo hmac (.requestSent n session)) n session h.response).1,
            (enrollFinish hmac (h.finishIo hmac (.requestSent n session)) n session h.response).2.foldl h.apply
              disk) := by
  obtain ⟨hat₁, hno₁⟩ := enrollHello_cases h.call h.hello
  obtain ⟨hat₂, hno₂⟩ := enrollRequest_cases hmac h.call h.request h.challenge
  unfold received execute igEnrollExecute
  cases h₁ : enrollHello h.call h.hello with
  | mk at₁ deeds₁ =>
    cases h₂ : enrollRequest hmac h.call h.request h.challenge with
    | mk at₂ deeds₂ =>
      rw [h₁] at hat₁ hno₁
      rw [h₂] at hat₂ hno₂
      have hfold : (deeds₁ ++ deeds₂).foldl h.apply disk = disk := by
        rw [List.foldl_append, foldl_apply_of_no_write hno₁, foldl_apply_of_no_write hno₂]
      rcases hat₁ with rfl | rfl
      · rcases hat₂ with ⟨n, session, rfl⟩ | rfl
        · refine .inr ⟨n, session, rfl, ?_⟩
          simp only
          rw [List.foldl_append, hfold]
        · refine .inl ⟨rfl, ?_⟩
          simp only [List.append_nil, hfold]
      · refine .inl ⟨rfl, ?_⟩
        simp only [List.append_nil, foldl_apply_of_no_write hno₁]

/-- A call that comes to no response returns -1 and leaves the files. -/
theorem execute_of_none (hrec : h.received hmac = none) (disk : CertDisk) :
    h.execute hmac disk = (.returned (-1), disk) := by
  rcases execute_cases hmac h disk with ⟨-, hexec⟩ | ⟨n, session, hopen, hexec⟩
  · exact hexec
  · rw [hexec]
    rw [hrec] at hopen
    simp [enrollFinish, finishIo, ← hopen]

/-- The writes that a call with the response makes, and whether the last of them succeeds. -/
def tried (h : EnrollHost) (resp : IgEnrollResponse) : List CertFile × Bool :=
  writeTextFiles (fun file => (h.writes file).returns0 (file.contents resp)) [.ca, .crt, .key]

/-- The files after the writes. -/
def written (h : EnrollHost) (resp : IgEnrollResponse) (files : List CertFile) (disk : CertDisk) : CertDisk :=
  files.foldl (fun disk file =>
    Function.update disk file (writeTextFile (h.writes file) (file.contents resp) (disk file)).2) disk

/-- A call that comes to a response makes its writes, up to the first that fails. -/
theorem execute_of_some {resp : IgEnrollResponse} (hrec : h.received hmac = some resp) (disk : CertDisk) :
    h.execute hmac disk = (.returned (if (h.tried resp).2 then 0 else -1), h.written resp (h.tried resp).1 disk) := by
  rcases execute_cases hmac h disk with ⟨hnone, -⟩ | ⟨n, session, hopen, hexec⟩
  · rw [hrec] at hnone
    cases hnone
  · rw [hrec] at hopen
    have hopen' : openResponse hmac (h.finishIo hmac (.requestSent n session)) session h.response = some resp := by
      simp only [finishIo, ← hopen]
      exact hopen.symm
    obtain ⟨hret, hdisk⟩ := enrollFinish_of_response (h := h) (n := n) hopen'
    have hwrites : (h.finishIo hmac (.requestSent n session)).writes =
        fun file => (h.writes file).returns0 (file.contents resp) := by
      simp only [finishIo, ← hopen]
    rw [hexec, hret, hdisk, hwrites, List.foldl_map]
    rfl

/-- Which files can be read after the writes. -/
theorem isReadable_written (resp : IgEnrollResponse) {files : List CertFile} (hnd : files.Nodup) (disk : CertDisk)
    (file : CertFile) :
    isReadable (h.written resp files disk file) =
      if file ∈ files then (h.writes file).readableAfter (disk file) else isReadable (disk file) := by
  induction files generalizing disk with
  | nil => rfl
  | cons f files ih =>
    obtain ⟨hf, hnd⟩ := List.nodup_cons.1 hnd
    unfold written at ih ⊢
    rw [List.foldl_cons, ih hnd]
    by_cases hfile : file = f
    · subst hfile
      rw [if_neg hf, if_pos List.mem_cons_self, Function.update_self, (writeTextFile_spec _ _ _).2]
    · rw [Function.update_of_ne hfile]
      simp only [List.mem_cons, hfile, false_or]

end Hmac

end EnrollHost

/-- A host stays in need of enrollment after every failed call exactly when no write that fails lets the certificate
and the key be read together. -/
theorem retryPossible_iff (hmac : Bytes → Bytes → Octets 32) (h : EnrollHost) (disk : CertDisk) :
    RetryPossible hmac h disk ↔ FailsUnreadable hmac h disk := by
  unfold RetryPossible FailsUnreadable
  refine imp_congr_right fun hneeded => ?_
  cases hrec : h.received hmac with
  | none =>
    rw [EnrollHost.execute_of_none hrec]
    simp [hneeded]
  | some resp =>
    rw [EnrollHost.execute_of_some hrec]
    simp only [Option.some_inj, forall_eq', EnrollAt.returned.injEq]
    -- the cases are the write that fails first
    cases hca : (h.writes .ca).returns0 resp.caCertPem with
    | false =>
      have htried : h.tried resp = ([.ca], false) := by simp [EnrollHost.tried, writeTextFiles, CertFile.contents, hca]
      rw [htried]
      simpa [igEnrollNeeded, EnrollHost.isReadable_written] using hneeded
    | true =>
      cases hcrt : (h.writes .crt).returns0 resp.agentCertPem with
      | false =>
        have htried : h.tried resp = ([.ca, .crt], false) := by
          simp [EnrollHost.tried, writeTextFiles, CertFile.contents, hca, hcrt]
        rw [htried]
        simp [igEnrollNeeded, EnrollHost.isReadable_written, or_comm]
      | true =>
        cases hkey : (h.writes .key).returns0 resp.agentKeyPem with
        | false =>
          have htried : h.tried resp = ([.ca, .crt, .key], false) := by
            simp [EnrollHost.tried, writeTextFiles, CertFile.contents, hca, hcrt, hkey]
          rw [htried]
          simp [igEnrollNeeded, EnrollHost.isReadable_written, readableAfter_of_returns0 hcrt]
        | true =>
          have htried : h.tried resp = ([.ca, .crt, .key], true) := by
            simp [EnrollHost.tried, writeTextFiles, CertFile.contents, hca, hcrt, hkey]
          rw [htried]
          simp

/-! ## A certificate without its key -/

section ShortWrite

/-- A MAC of zero bytes, under which a sealed text is the text. -/
def zeroMac : Bytes → Bytes → Octets 32 := fun _ _ => ⟨List.replicate 32 0, rfl⟩

theorem xorCrypt_zeroMac (session : IgXorSession) (seq : UInt32) {src : Bytes} (hsrc : src.length ≤ 32) :
    xorCrypt zeroMac session seq src = src := by
  have hkeep : ∀ n (bs : Bytes), bs.length ≤ n → bs.zipWith (· ^^^ ·) (List.replicate n 0) = bs := by
    intro n bs
    induction bs generalizing n with
    | nil => simp
    | cons b bs ih =>
      intro hlen
      cases n with
      | zero => cases hlen
      | succ n =>
        rw [List.replicate_succ, List.zipWith_cons_cons, UInt8.xor_zero, ih n (Nat.le_of_succ_le_succ hlen)]
  rw [xorCrypt, xorBlocks_eq, List.drop_of_length_le hsrc, xorBlocks_nil, List.append_nil]
  exact hkeep 32 src hsrc

/-- Calls that all succeed. -/
def allWell : EnrollIo := ⟨true, true, fun _ => true, true, fun _ => true⟩

/-- A response with a key of two bytes. -/
def zeroResponse : Bytes := counted [6] ++ counted [7] ++ counted [8, 9] ++ counted [10] ++ zeroed 8

def zeroResp : IgEnrollResponse := ⟨⟨[6], by decide⟩, ⟨[7], by decide⟩, ⟨[8, 9], by decide⟩, ⟨[10], by decide⟩, 0⟩

/-- A disk that fills up with the first byte of the key. -/
def diskFull : EnrollHost where
  call := ⟨⟨[1], by decide⟩, ⟨[2], by decide⟩, ⟨⟨[3], by decide⟩, ⟨[4], by decide⟩, ⟨[5], by decide⟩, 0⟩,
    ⟨zeroed 32, rfl⟩⟩
  hello := allWell
  request := allWell
  finish := allWell
  challenge := some ⟨igMsgXorChallenge, 2, counted (zeroed 32) ++ counted (zeroed 32)⟩
  response := some ⟨igMsgXorEnrollResponse, 4, zeroed 32 ++ zeroResponse⟩
  writes
    | .ca | .crt => .writes 4096
    | .key => .writes 1

/-- The session of the call on the full disk. -/
def zeroSession : IgXorSession := ⟨⟨List.replicate 32 0, rfl⟩, ⟨List.replicate 32 0, rfl⟩, ⟨List.replicate 32 0, rfl⟩⟩

/-- The request of the call on the full disk, in plain and sealed. -/
def zeroRequest : Bytes := counted [3] ++ counted [4] ++ counted [5] ++ [0]

theorem acceptChallenge_diskFull :
    acceptChallenge zeroMac diskFull.call diskFull.request diskFull.challenge =
      some (⟨zeroed 32, rfl⟩, zeroSession, zeroed 32 ++ zeroRequest) := by
  have hdecode : decodeChallenge true true ⟨igMsgXorChallenge, 2, counted (zeroed 32) ++ counted (zeroed 32)⟩ =
      some (.ok (⟨zeroed 32, rfl⟩, ⟨zeroed 32, rfl⟩)) := by decide +kernel
  have hplain : encodeRequestPlain true diskFull.call.cfg = some zeroRequest := by decide
  have hseal : protectPayload zeroMac true true zeroSession igMsgXorEnrollRequest 3 zeroRequest =
      some (zeroed 32 ++ zeroRequest, 42) := by
    unfold protectPayload
    rw [xorCrypt_zeroMac _ _ (by decide)]
    decide
  have hsession : ∀ xorKey id c s, deriveSession zeroMac true xorKey id c s = some zeroSession := fun _ _ _ _ => rfl
  have hproof : ∀ id c s, serverProof zeroMac true zeroSession id c s = some ⟨zeroed 32, rfl⟩ := fun _ _ _ => rfl
  unfold acceptChallenge
  simp only [diskFull, allWell] at hplain ⊢
  rw [if_neg (by decide), hdecode]
  simp [hsession, hproof, hplain, hseal]

theorem received_diskFull : diskFull.received zeroMac = some zeroResp := by
  have hreq : enrollRequest zeroMac diskFull.call diskFull.request diskFull.challenge =
      (.requestSent ⟨zeroed 32, rfl⟩ zeroSession,
        [.request ⟨zeroed 32, rfl⟩ ⟨igMsgXorEnrollRequest, 3, zeroed 32 ++ zeroRequest⟩]) := by
    unfold enrollRequest
    rw [acceptChallenge_diskFull]
    rfl
  have hopen : openProtectedPayload zeroMac true true zeroSession igMsgXorEnrollResponse 4 (zeroed 32 ++ zeroResponse) =
      some (zeroResponse, 21) := by
    have htext : (zeroed 32 ++ zeroResponse).drop igXorMacSize = zeroResponse := by decide
    unfold openProtectedPayload
    simp only [htext]
    rw [xorCrypt_zeroMac _ _ (by decide)]
    decide
  have hdecode : decodeResponsePlain (fun _ => true) zeroResponse =
      some (.ok zeroResp) := by decide +kernel
  unfold EnrollHost.received
  rw [hreq]
  show openResponse zeroMac diskFull.finish zeroSession diskFull.response = _
  unfold openResponse
  simp only [diskFull, allWell]
  rw [if_neg (by decide), if_neg (by decide), hopen]
  simp only [hdecode]

theorem retryPossible_diskFull_fails : ¬ RetryPossible zeroMac diskFull fun _ => none := by
  intro h
  have hret := h rfl
  rw [EnrollHost.execute_of_some received_diskFull] at hret
  exact absurd (hret rfl) (by decide)

end ShortWrite

end KnIg.Agent
