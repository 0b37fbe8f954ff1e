/-
What the two parties of an enrollment do in one step: an agent's call and a connection of the server, each with
all the ways a step can end, what it lets others see, and which frame it needs for that.
-/
import KnIg.Agent.Enroll.Execute
import KnIg.Enroll.Channel
import KnIg.Enroll.Messages
import KnIg.Enroll.Sealed

namespace KnIg.Enroll

open Lib Agent Backend

section Parties

variable (hmac : Bytes → Bytes → Octets 32)

/-! ## The agent -/

/-- Every way a step of an agent's call moves it on. -/
inductive AgentDoes (call : EnrollCall) : EnrollAt → Option IgFrame → EnrollAt → List EnrollDeed → Prop where
  | quiet {p p' : EnrollAt} {frame : Option IgFrame} {deeds : List EnrollDeed}
      (hp : ∀ serverNonce session, p' ≠ .requestSent serverNonce session)
      (hd : ∀ d ∈ deeds, ∃ f, d = .hello f) : AgentDoes call p frame p' deeds
  | requests {p' : EnrollAt} {frame : Option IgFrame} {serverNonce : Octets 32} {session : IgXorSession} {plain : Bytes}
      (hs : session = sessionOf hmac call.xorKey call.enrollmentId call.clientNonce serverNonce)
      (hplain : ∃ req, decodeRequest plain = some (.ok req))
      (hp : p' = .requestSent serverNonce session ∨ p' = .returned (-1)) :
      AgentDoes call .helloSent frame p' [.request serverNonce ⟨igMsgXorEnrollRequest, 3,
        sealProtected hmac igMsgXorEnrollRequest 3 plain (keysOf session)⟩]
  | finishes {ret : Int} {serverNonce : Octets 32} {session : IgXorSession} {seq : UInt32} {plain : Bytes}
      {resp : IgEnrollResponse} {deeds : List EnrollDeed} (hresp : responseBytes plain resp)
      (hd : ∀ d ∈ deeds, (∃ file, d = .writeFile serverNonce file (file.contents resp)) ∨
        d = .ack serverNonce ⟨igMsgXorEnrollAck, 5,
          sealProtected hmac igMsgXorEnrollAck 5 [] (keysOf session)⟩) :
      AgentDoes call (.requestSent serverNonce session) (some ⟨igMsgXorEnrollResponse, seq,
        sealProtected hmac igMsgXorEnrollResponse seq plain (keysOf session)⟩) (.returned ret) deeds

variable {hmac}

theorem AgentDoes.gives_up {call : EnrollCall} {p : EnrollAt} {frame : Option IgFrame} {ret : Int} :
    AgentDoes hmac call p frame (.returned ret) [] := .quiet (by simp) (by simp)

theorem enrollHello_does (call : EnrollCall) (io : EnrollIo) (p : EnrollAt) (frame : Option IgFrame) :
    AgentDoes hmac call p frame (enrollHello call io).1 (enrollHello call io).2 := by
  refine .quiet (fun serverNonce session => ?_) fun d hd => ?_
  · unfold enrollHello
    repeat' split
    all_goals simp
  · unfold enrollHello at hd
    repeat' split at hd
    all_goals simp at hd
    all_goals exact ⟨_, hd⟩

theorem writeCounted_some {w w' : Writing} {s : Bytes} (h : writeCounted w s = some w') :
    w'.written = w.written ++ counted s ∧ s.length < 2 ^ 16 := by
  unfold writeCounted at h
  simp only at h
  split at h
  · cases h
  · next hroom =>
    cases h
    exact ⟨by simp [counted], by omega⟩

/-- What the agent encodes is a request to the server. -/
theorem decodeRequest_encodeRequestPlain {calloc : Bool} {cfg : IgEnrollConfig} {plain : Bytes}
    (h : encodeRequestPlain calloc cfg = some plain) :
    decodeRequest plain = some (.ok ⟨cfg.hostname.bytes, cfg.ip.bytes, cfg.monitorType, cfg.os.bytes⟩) := by
  unfold encodeRequestPlain at h
  simp only at h
  split at h
  · cases h
  · obtain ⟨w₁, h₁, h⟩ := Option.bind_eq_some_iff.1 h
    obtain ⟨w₂, h₂, h⟩ := Option.bind_eq_some_iff.1 h
    obtain ⟨w₃, h₃, h⟩ := Option.bind_eq_some_iff.1 h
    obtain ⟨hw₁, hl₁⟩ := writeCounted_some h₁
    obtain ⟨hw₂, hl₂⟩ := writeCounted_some h₂
    obtain ⟨hw₃, hl₃⟩ := writeCounted_some h₃
    split at h
    · cases h
    · split at h
      · cases h
      · cases h
        refine (decodeRequest_strict.exact _ _).2 ⟨?_, hl₁, hl₂, hl₃⟩
        rw [hw₃, hw₂, hw₁, List.nil_append]

theorem sendFrame_eq {sends sent : Bool} {msgType : UInt8} {seq : UInt32} {payload : Bytes} {frame : IgFrame}
    (h : sendFrame sends msgType seq payload = (some frame, sent)) : frame = ⟨msgType, seq, payload⟩ := by
  unfold sendFrame at h
  split at h
  · cases h
  · cases h
    rfl

theorem acceptChallenge_some {call : EnrollCall} {io : EnrollIo} {frame : Option IgFrame} {serverNonce : Octets 32}
    {session : IgXorSession} {reqProtected : Bytes}
    (h : acceptChallenge hmac call io frame = some (serverNonce, session, reqProtected)) :
    session = sessionOf hmac call.xorKey call.enrollmentId call.clientNonce serverNonce ∧
      ∃ plain, (∃ req, decodeRequest plain = some (.ok req)) ∧
        reqProtected = sealProtected hmac igMsgXorEnrollRequest 3 plain (keysOf session) := by
  unfold acceptChallenge at h
  split at h
  · cases h
  · split at h
    · cases h
    · split at h
      · cases h
      · cases h
      · obtain ⟨session', hs, h⟩ := Option.bind_eq_some_iff.1 h
        obtain ⟨proof, hproof, h⟩ := Option.bind_eq_some_iff.1 h
        split at h
        · cases h
        · obtain ⟨plain, hplain, h⟩ := Option.bind_eq_some_iff.1 h
          obtain ⟨⟨sealedReq, len⟩, hseal, h⟩ := Option.bind_eq_some_iff.1 h
          cases h
          rw [deriveSession_eq] at hs
          rw [protectPayload_eq] at hseal
          obtain ⟨-, hs⟩ := Option.ite_none_right_eq_some.1 hs
          obtain ⟨-, hseal⟩ := Option.ite_none_right_eq_some.1 hseal
          cases hs
          cases hseal
          exact ⟨rfl, plain, ⟨_, decodeRequest_encodeRequestPlain hplain⟩, rfl⟩

theorem enrollRequest_does (call : EnrollCall) (io : EnrollIo) (frame : Option IgFrame) :
    AgentDoes hmac call .helloSent frame (enrollRequest hmac call io frame).1 (enrollRequest hmac call io frame).2 := by
  unfold enrollRequest
  split
  · exact .gives_up
  · next serverNonce session reqProtected haccept =>
    obtain ⟨hs, plain, hplain, rfl⟩ := acceptChallenge_some haccept
    split
    · exact .gives_up
    · next f sent hsend =>
      rw [sendFrame_eq hsend]
      exact .requests hs hplain (ite_eq_or_eq _ _ _)

theorem openResponse_some {io : EnrollIo} {session : IgXorSession} {frame : Option IgFrame} {resp : IgEnrollResponse}
    (h : openResponse hmac io session frame = some resp) :
    ∃ seq plain, responseBytes plain resp ∧ frame = some ⟨igMsgXorEnrollResponse, seq,
      sealProtected hmac igMsgXorEnrollResponse seq plain (keysOf session)⟩ := by
  unfold openResponse at h
  split at h
  · cases h
  · next f =>
    obtain ⟨type, seq, payload⟩ := f
    split at h
    · cases h
    · split at h
      · cases h
      · next htype =>
        simp only [ne_eq, not_not] at htype
        subst htype
        split at h
        · cases h
        · next plain len hopen =>
          split at h
          · next resp' hdecode =>
            cases h
            obtain ⟨hpayload, -⟩ := openProtectedPayload_eq_some.1 hopen
            obtain ⟨res, hres, hiff⟩ := decodeResponsePlain_spec (fun k => io.calloc (2 + k)) plain
            rw [hdecode] at hres
            cases hres
            exact ⟨seq, plain, ((hiff resp).1 rfl).2, congrArg (fun p => some (IgFrame.mk _ seq p)) hpayload⟩
          · cases h

theorem enrollFinish_does (call : EnrollCall) (io : EnrollIo) (serverNonce : Octets 32) (session : IgXorSession)
    (frame : Option IgFrame) :
    AgentDoes hmac call (.requestSent serverNonce session) frame (enrollFinish hmac io serverNonce session frame).1
      (enrollFinish hmac io serverNonce session frame).2 := by
  unfold enrollFinish
  split
  · exact .gives_up
  · next resp hopen =>
    obtain ⟨seq, plain, hresp, rfl⟩ := openResponse_some hopen
    have hwritten : ∀ tried : List CertFile,
        ∀ d ∈ tried.map fun file => EnrollDeed.writeFile serverNonce file (file.contents resp),
          ∃ file, d = .writeFile serverNonce file (file.contents resp) := by
      intro tried d hd
      obtain ⟨file, -, rfl⟩ := List.mem_map.1 hd
      exact ⟨file, rfl⟩
    simp only
    split
    · exact .finishes hresp fun d hd => .inl (hwritten _ d hd)
    · split
      · exact .finishes hresp fun d hd => .inl (hwritten _ d hd)
      · next ackProtected len hprotect =>
        split
        · exact .finishes hresp fun d hd => .inl (hwritten _ d hd)
        · next f sent hsend =>
          rw [protectPayload_eq] at hprotect
          obtain ⟨-, hprotect⟩ := Option.ite_none_right_eq_some.1 hprotect
          cases hprotect
          refine .finishes hresp fun d hd => ?_
          rcases List.mem_append.1 hd with hd | hd
          · exact .inl (hwritten _ d hd)
          · right
            rw [List.mem_singleton.1 hd, sendFrame_eq hsend]

/-- What a step of an agent's call can do. -/
theorem igEnrollExecute_does (call : EnrollCall) (p : EnrollAt) (io : EnrollIo) (frame : Option IgFrame) :
    AgentDoes hmac call p frame (igEnrollExecute hmac call p io frame).1 (igEnrollExecute hmac call p io frame).2 := by
  cases p with
  | start => exact enrollHello_does call io _ frame
  | helloSent => exact enrollRequest_does call io frame
  | requestSent serverNonce session => exact enrollFinish_does call io serverNonce session frame
  | returned ret => exact .gives_up

/-! ## The server -/

theorem writePrefixed_ok {what : String} {buf s buf' : Bytes} (h : writePrefixed what buf s = .ok buf') :
    buf' = buf ++ counted s ∧ s.length < 2 ^ 16 := by
  unfold writePrefixed at h
  split at h
  · cases h
  · next hl =>
    cases h
    exact ⟨by simp [counted], by omega⟩

/-- What the agent reads of a response; its strings end at the first zero byte. -/
def readBack (resp : Response) : IgEnrollResponse :=
  ⟨cString resp.agentID, cString resp.agentCertPEM, cString resp.agentKeyPEM, cString resp.caCertPEM,
    resp.expiresAt.toUInt64⟩

/-- The agent reads a response that the server encoded in one way only. -/
theorem readBack_eq {resp : Response} {plain : Bytes} (h : encodeResponse resp = .ok plain) {r : IgEnrollResponse}
    (hr : responseBytes plain r) : r = readBack resp := by
  unfold encodeResponse at h
  obtain ⟨b₁, h₁, h⟩ := bind_eq_ok.1 h
  obtain ⟨b₂, h₂, h⟩ := bind_eq_ok.1 h
  obtain ⟨b₃, h₃, h⟩ := bind_eq_ok.1 h
  obtain ⟨b₄, h₄, h⟩ := bind_eq_ok.1 h
  obtain ⟨rfl, hl₁⟩ := writePrefixed_ok h₁
  obtain ⟨rfl, hl₂⟩ := writePrefixed_ok h₂
  obtain ⟨rfl, hl₃⟩ := writePrefixed_ok h₃
  obtain ⟨rfl, hl₄⟩ := writePrefixed_ok h₄
  cases h
  obtain ⟨agentId, cert, key, ca, expires, hplain, hl, -, rfl⟩ := hr
  simp only [List.mem_cons, List.not_mem_nil, or_false, forall_eq_or_imp, forall_eq] at hl
  simp only [List.nil_append, List.append_assoc] at hplain
  obtain ⟨rfl, hafterId⟩ := counted_append_inj hl₁ hl.1 hplain
  obtain ⟨rfl, hafterCert⟩ := counted_append_inj hl₂ hl.2.1 hafterId
  obtain ⟨rfl, hafterKey⟩ := counted_append_inj hl₃ hl.2.2.1 hafterCert
  obtain ⟨rfl, rfl⟩ := counted_append_inj hl₄ hl.2.2.2 hafterKey
  rw [be64ToHost_beBytes]
  rfl

variable (hmac) in
/-- Every way a step of a connection moves it on. -/
inductive ServerDoes (serverNonce : Octets 32) : ConnAt → Option EnrollFrame → ConnAt → List ConnDeed → Prop where
  | quiet {p : ConnAt} {frame : Option EnrollFrame} {deeds : List ConnDeed} (hd : ∀ d ∈ deeds, ∃ f, d = .error f) :
      ServerDoes serverNonce p frame .closed deeds
  | challenges {p' : ConnAt} {frame : Option EnrollFrame} {material : KeyMaterial} {expectedAgentID : Bytes}
      {f : EnrollFrame} (hm : Sized material) (hn : material.serverNonce = serverNonce.bytes)
      (hp : p' = .challenged material expectedAgentID (materialKeys hmac material) ∨ p' = .closed) :
      ServerDoes serverNonce .accepted frame p' [.challenge material f]
  | refuses {material : KeyMaterial} {expectedAgentID : Bytes} {keys : SessionKeys} {seq : UInt32} {plain : Bytes}
      {req : Request} {deeds : List ConnDeed} (hreq : decodeRequest plain = some (.ok req))
      (hd : ∀ d ∈ deeds, ∃ f, d = .error f) :
      ServerDoes serverNonce (.challenged material expectedAgentID keys) (some ⟨msgXOREnrollRequest, seq,
        sealProtected hmac msgXOREnrollRequest seq plain keys⟩) .closed
        (.enroll material material.enrollmentID expectedAgentID req :: deeds)
  | responds {p' : ConnAt} {material : KeyMaterial} {expectedAgentID agentID : Bytes} {keys : SessionKeys}
      {seq seq' : UInt32} {plain plain' : Bytes} {req : Request} {resp : Response}
      (hreq : decodeRequest plain = some (.ok req)) (hresp : encodeResponse resp = .ok plain')
      (hp : p' = .responded material keys agentID ∨ p' = .closed) :
      ServerDoes serverNonce (.challenged material expectedAgentID keys) (some ⟨msgXOREnrollRequest, seq,
        sealProtected hmac msgXOREnrollRequest seq plain keys⟩) p'
        [.enroll material material.enrollmentID expectedAgentID req, .response material resp
          ⟨msgXOREnrollResponse, seq', sealProtected hmac msgXOREnrollResponse seq' plain' keys⟩]
  | marks {material : KeyMaterial} {agentID : Bytes} {keys : SessionKeys} {seq : UInt32} {plain : Bytes} :
      ServerDoes serverNonce (.responded material keys agentID) (some ⟨msgXOREnrollAck, seq,
        sealProtected hmac msgXOREnrollAck seq plain keys⟩) .closed
        [.markUsed material material.enrollmentID agentID]

theorem writeError_deeds (seqNum : UInt32) (message : String) :
    (writeError seqNum message).1 = .closed ∧ ∀ d ∈ (writeError seqNum message).2, ∃ f, d = .error f := by
  unfold writeError
  split
  · exact ⟨rfl, by simp⟩
  · refine ⟨rfl, fun d hd => ?_⟩
    obtain ⟨f, -, rfl⟩ := Option.map_eq_some_iff.1 (Option.mem_toList.1 hd)
    exact ⟨f, rfl⟩

theorem ServerDoes.gives_up {serverNonce : Octets 32} {p : ConnAt} {frame : Option EnrollFrame} :
    ServerDoes hmac serverNonce p frame .closed [] := .quiet (by simp)

theorem writeError_does {serverNonce : Octets 32} {p : ConnAt} {frame : Option EnrollFrame} (seqNum : UInt32)
    (message : String) :
    ServerDoes hmac serverNonce p frame (writeError seqNum message).1 (writeError seqNum message).2 := by
  obtain ⟨hclosed, hd⟩ := writeError_deeds seqNum message
  rw [hclosed]
  exact .quiet hd

theorem serveHello_does (decrypt : Bytes → Bytes → Option Bytes) (pepper : Bytes) (serverNonce : Octets 32)
    (io : ConnIo) (frame : Option EnrollFrame) :
    ServerDoes hmac serverNonce .accepted frame (serveHello hmac decrypt pepper serverNonce io frame).1
      (serveHello hmac decrypt pepper serverNonce io frame).2 := by
  cases frame with
  | none => exact .gives_up
  | some hdr =>
    simp only [serveHello]
    split
    · exact writeError_does _ _
    split
    · exact .gives_up
    · exact writeError_does _ _
    rename_i hello _
    split
    · exact writeError_does _ _
    rename_i row _
    split
    · exact writeError_does _ _
    rename_i xorKey _
    split
    · exact writeError_does _ _
    split
    · exact writeError_does _ _
    split
    · exact writeError_does _ _
    rename_i keys hkeys
    obtain ⟨hkeys, hsized⟩ :=
      deriveSessionKeys_ok (m := ⟨xorKey, hello.enrollmentID, hello.clientNonce, serverNonce.bytes⟩) hkeys
    split
    · exact writeError_does _ _
    split
    · exact .gives_up
    rw [hkeys]
    exact .challenges hsized rfl (ite_eq_or_eq _ (ConnAt.challenged _ row.agentID _) _)

theorem openRequest_ok {keys : SessionKeys} {frame : Option EnrollFrame} {seqNum : UInt32} {req : Request}
    (h : openRequest hmac keys frame = .ok (seqNum, req)) :
    ∃ plain, decodeRequest plain = some (.ok req) ∧
      frame = some ⟨msgXOREnrollRequest, seqNum, sealProtected hmac msgXOREnrollRequest seqNum plain keys⟩ := by
  unfold openRequest at h
  split at h
  · cases h
  · next f =>
    obtain ⟨msgTyp, seq, payload⟩ := f
    split at h
    · cases h
    · next htype =>
      simp only [ne_eq, not_not] at htype
      subst htype
      split at h
      · cases h
      · next plain hopen =>
        split at h
        · cases h
        · cases h
        · next req' hdecode =>
          cases h
          exact ⟨plain, hdecode, congrArg (fun p => some (EnrollFrame.mk _ seq p)) (openProtected_eq_ok.1 hopen)⟩

theorem openRequest_error {serverNonce : Octets 32} {p : ConnAt} {keys : SessionKeys} {frame : Option EnrollFrame}
    {r : ConnAt × List ConnDeed} (h : openRequest hmac keys frame = .error r) :
    ServerDoes hmac serverNonce p frame r.1 r.2 := by
  unfold openRequest at h
  split at h
  · cases h
    exact .gives_up
  · split at h
    · cases h
      exact writeError_does _ _
    · split at h
      · cases h
        exact writeError_does _ _
      · split at h
        · cases h
          exact .gives_up
        · cases h
          exact writeError_does _ _
        · cases h

theorem serveRequest_does (serverNonce : Octets 32) (material : KeyMaterial) (expectedAgentID : Bytes)
    (keys : SessionKeys) (io : ConnIo) (frame : Option EnrollFrame) :
    ServerDoes hmac serverNonce (.challenged material expectedAgentID keys) frame
      (serveRequest hmac material expectedAgentID keys io frame).1
      (serveRequest hmac material expectedAgentID keys io frame).2 := by
  unfold serveRequest
  split
  · next r hopen => exact openRequest_error hopen
  · next seqNum req hopen =>
    obtain ⟨plain, hreq, rfl⟩ := openRequest_ok hopen
    have herror : ∀ message, ServerDoes hmac serverNonce (.challenged material expectedAgentID keys)
        (some ⟨msgXOREnrollRequest, seqNum, sealProtected hmac msgXOREnrollRequest seqNum plain keys⟩)
        (writeError seqNum message).1
        (.enroll material material.enrollmentID expectedAgentID req :: (writeError seqNum message).2) := by
      intro message
      obtain ⟨hclosed, hd⟩ := writeError_deeds seqNum message
      rw [hclosed]
      exact .refuses hreq hd
    simp only [sendResponse]
    split
    · exact herror _
    split
    · exact herror _
    rename_i resp _ _ _ hresp
    split
    · exact .refuses hreq (by simp)
    rename_i f sent hwrite
    unfold writeFrame at hwrite
    split at hwrite
    · cases hwrite
    · cases hwrite
      exact .responds hreq hresp (ite_eq_or_eq _ (ConnAt.responded _ _ resp.agentID) _)

theorem serveAck_does (serverNonce : Octets 32) (material : KeyMaterial) (keys : SessionKeys) (agentID : Bytes)
    (frame : Option EnrollFrame) :
    ServerDoes hmac serverNonce (.responded material keys agentID) frame
      (serveAck hmac material keys agentID frame).1 (serveAck hmac material keys agentID frame).2 := by
  unfold serveAck
  split
  · exact .gives_up
  · next f =>
    obtain ⟨msgTyp, seq, payload⟩ := f
    split
    · exact .gives_up
    · next htype =>
      simp only [ne_eq, not_not] at htype
      subst htype
      split
      · exact .gives_up
      · next plain hopen =>
        have hpayload : payload = sealProtected hmac msgXOREnrollAck seq plain keys := openProtected_eq_ok.1 hopen
        rw [hpayload]
        exact .marks

/-- What a step of a connection can do. -/
theorem handleConn_does (decrypt : Bytes → Bytes → Option Bytes) (pepper : Bytes) (serverNonce : Octets 32)
    (p : ConnAt) (io : ConnIo) (frame : Option EnrollFrame) :
    ServerDoes hmac serverNonce p frame (handleConn hmac decrypt pepper serverNonce p io frame).1
      (handleConn hmac decrypt pepper serverNonce p io frame).2 := by
  cases p with
  | accepted => exact serveHello_does decrypt pepper serverNonce io frame
  | challenged material expectedAgentID keys =>
    exact serveRequest_does serverNonce material expectedAgentID keys io frame
  | responded material keys agentID => exact serveAck_does serverNonce material keys agentID frame
  | closed => exact .gives_up

end Parties

end KnIg.Enroll
