/-
Agreement of the enrollment protocol: any number of calls of the agent's `ig_enroll_execute` and of connections
of the server, and between them an attacker who gives every party any frame whatever. HMAC is ideal in a run: of
the inputs that session keys were derived from no two had the same answer, and a MAC under a key that comes from
an XOR key unknown to the attacker opens no frame unless a party made it, over these very bytes.

A frame that opens was then sealed by a party with the same key, id and nonces, and the type under the MAC tells
which party it was and at which point of its run.
-/
import KnIg.Lib.Run
import KnIg.Enroll.Parties
import Mathlib.Logic.Function.Basic

namespace KnIg.Enroll

open Lib Agent Backend

/-! ## The network -/

/-- What a run is about: HMAC, the key vault and the pepper of the server, the calls of the agents with the nonces
they draw, the nonces that the connections draw, and the XOR keys that the attacker knows. -/
structure World (ι κ : Type) where
  hmac : Bytes → Bytes → Octets 32
  decrypt : Bytes → Bytes → Option Bytes
  pepper : Bytes
  call : ι → EnrollCall
  serverNonce : κ → Octets 32
  known : Bytes → Bool

inductive Deed (ι κ : Type) where
  | agent (j : ι) (deed : EnrollDeed)
  | server (i : κ) (deed : ConnDeed)

/-- Where the parties stand, and all that they did. -/
structure Network (ι κ : Type) where
  agents : ι → EnrollAt
  conns : κ → ConnAt
  trace : List (Deed ι κ)

/-- The attacker gives a party a frame, or `none` for a connection that breaks off; the rest is how the calls below
the party end. -/
inductive Delivery (ι κ : Type) where
  | agent (j : ι) (io : EnrollIo) (frame : Option IgFrame)
  | server (i : κ) (io : ConnIo) (frame : Option EnrollFrame)

def Network.init {ι κ : Type} : Network ι κ := ⟨fun _ => .start, fun _ => .accepted, []⟩

namespace World

variable {ι κ : Type} (W : World ι κ)

/-- What an agent derives its session keys from, given the nonce of a challenge. -/
def material (j : ι) (serverNonce : Octets 32) : KeyMaterial :=
  ⟨(W.call j).xorKey.bytes, (W.call j).enrollmentId.bytes, (W.call j).clientNonce.bytes, serverNonce.bytes⟩

def step [DecidableEq ι] [DecidableEq κ] (s : Network ι κ) : Delivery ι κ → Network ι κ
  | .agent j io frame =>
    let (p, deeds) := igEnrollExecute W.hmac (W.call j) (s.agents j) io frame
    { s with agents := Function.update s.agents j p, trace := s.trace ++ deeds.map (.agent j) }
  | .server i io frame =>
    let (p, deeds) := handleConn W.hmac W.decrypt W.pepper (W.serverNonce i) (s.conns i) io frame
    { s with conns := Function.update s.conns i p, trace := s.trace ++ deeds.map (.server i) }

/-! ## HMAC in a run -/

/-- The inputs that session keys were derived from. -/
def asked : Deed ι κ → List (Bytes × Bytes)
  | .agent j (.request serverNonce _) => derivation W.hmac (W.material j serverNonce)
  | .server _ (.challenge material _) => derivation W.hmac material
  | _ => []

/-- A sealed frame that went out. -/
def sealedBy : Deed ι κ → Option Sealed
  | .agent j (.request serverNonce frame) => some ⟨W.material j serverNonce, frame.type, frame.seq, frame.payload⟩
  | .agent j (.ack serverNonce frame) => some ⟨W.material j serverNonce, frame.type, frame.seq, frame.payload⟩
  | .server _ (.response material _ frame) => some ⟨material, frame.msgTyp, frame.seqNum, frame.payload⟩
  | _ => none

/-- The keys and the bytes of the MACs that went out. -/
def macs : Deed ι κ → List (Octets 32 × Bytes)
  | .server _ (.challenge material _) => [((materialKeys W.hmac material).mac, proofData material)]
  | d => (W.sealedBy d).toList.map (Sealed.mac W.hmac)

/-- The frame whose MAC a step checks. -/
def checked (s : Network ι κ) : Delivery ι κ → Option Sealed
  | .agent j _ (some frame) =>
    match s.agents j with
    | .requestSent serverNonce _ =>
      if frame.type = igMsgXorEnrollResponse then
        some ⟨W.material j serverNonce, frame.type, frame.seq, frame.payload⟩
      else none
    | _ => none
  | .server i _ (some frame) =>
    match s.conns i with
    | .challenged material _ _ =>
      if frame.msgTyp = msgXOREnrollRequest then some ⟨material, frame.msgTyp, frame.seqNum, frame.payload⟩ else none
    | .responded material _ _ =>
      if frame.msgTyp = msgXOREnrollAck then some ⟨material, frame.msgTyp, frame.seqNum, frame.payload⟩ else none
    | _ => none
  | _ => none

/-- HMAC is ideal in a step: the frame opens only if a party has made its MAC, or the attacker knows the XOR key, and
no two derivations up to now have collided. -/
structure Ideal [DecidableEq ι] [DecidableEq κ] (s : Network ι κ) (x : Delivery ι κ) : Prop where
  unforged : ∀ y ∈ W.checked s x, W.known y.material.xorKey = false → y.opens W.hmac = true →
    y.mac W.hmac ∈ s.trace.flatMap W.macs
  collisionFree : CollisionFree W.hmac ((W.step s x).trace.flatMap W.asked)

/-! ## Agreement -/

/-- The agent sent exactly this request, protected under the keys of its run. -/
def Requested (before : List (Deed ι κ)) (j : ι) (serverNonce : Octets 32) (req : Request) : Prop :=
  ∃ seq plain, .agent j (.request serverNonce ⟨igMsgXorEnrollRequest, seq,
      sealProtected W.hmac igMsgXorEnrollRequest seq plain (materialKeys W.hmac (W.material j serverNonce))⟩) ∈ before ∧
    decodeRequest plain = some (.ok req)

/-- The server called `Enroll` with this request on the connection, and sealed this response to it. -/
def Responded (before : List (Deed ι κ)) (i : κ) (material : KeyMaterial) (req : Request) (resp : Response) : Prop :=
  (∃ expectedAgentID, .server i (.enroll material material.enrollmentID expectedAgentID req) ∈ before) ∧
    ∃ seq plain, encodeResponse resp = .ok plain ∧
      .server i (.response material resp ⟨msgXOREnrollResponse, seq,
        sealProtected W.hmac msgXOREnrollResponse seq plain (materialKeys W.hmac material)⟩) ∈ before

def Acknowledged (before : List (Deed ι κ)) (j : ι) (serverNonce : Octets 32) : Prop :=
  ∃ seq, .agent j (.ack serverNonce ⟨igMsgXorEnrollAck, seq,
    sealProtected W.hmac igMsgXorEnrollAck seq [] (materialKeys W.hmac (W.material j serverNonce))⟩) ∈ before

/-- What each deed of a party is entitled to by what happened before it. -/
def Justified (before : List (Deed ι κ)) : Deed ι κ → Prop
  | .server i (.enroll material enrollmentID _ req) =>
    W.known material.xorKey = false →
      ∃ j, material = W.material j (W.serverNonce i) ∧ enrollmentID = (W.call j).enrollmentId.bytes ∧
        W.Requested before j (W.serverNonce i) req
  | .agent j (.writeFile serverNonce file contents) =>
    W.known (W.call j).xorKey.bytes = false →
      ∃ i req resp, W.serverNonce i = serverNonce ∧ W.Requested before j serverNonce req ∧
        W.Responded before i (W.material j serverNonce) req resp ∧ contents = file.contents (readBack resp)
  | .server i (.markUsed material enrollmentID _) =>
    W.known material.xorKey = false →
      ∃ j req, material = W.material j (W.serverNonce i) ∧ enrollmentID = (W.call j).enrollmentId.bytes ∧
        W.Requested before j (W.serverNonce i) req ∧
        (∃ expectedAgentID, .server i (.enroll material enrollmentID expectedAgentID req) ∈ before) ∧
        W.Acknowledged before j (W.serverNonce i)
  | _ => True

/-! ## What the parties hold on to -/

/-- The server drew its nonce for the material, and has sent a challenge with it. -/
def Challenged (trace : List (Deed ι κ)) (i : κ) (m : KeyMaterial) : Prop :=
  Sized m ∧ m.serverNonce = (W.serverNonce i).bytes ∧ ∃ f, .server i (.challenge m f) ∈ trace

def AgentHolds (trace : List (Deed ι κ)) (j : ι) : EnrollAt → Prop
  | .requestSent serverNonce session =>
    keysOf session = materialKeys W.hmac (W.material j serverNonce) ∧ ∃ f, .agent j (.request serverNonce f) ∈ trace
  | _ => True

def ConnHolds (trace : List (Deed ι κ)) (i : κ) : ConnAt → Prop
  | .challenged m _ keys => keys = materialKeys W.hmac m ∧ W.Challenged trace i m
  | .responded m keys _ =>
    keys = materialKeys W.hmac m ∧ W.Challenged trace i m ∧
      ∃ e req, .server i (.enroll m m.enrollmentID e req) ∈ trace
  | _ => True

/-- What holds of a deed whoever the attacker is. -/
def Proper (trace : List (Deed ι κ)) : Deed ι κ → Prop
  | .agent j (.request serverNonce frame) =>
    ∃ plain, frame = ⟨igMsgXorEnrollRequest, 3,
      sealProtected W.hmac igMsgXorEnrollRequest 3 plain (materialKeys W.hmac (W.material j serverNonce))⟩
  | .agent j (.ack serverNonce frame) =>
    (∃ f, .agent j (.request serverNonce f) ∈ trace) ∧ frame = ⟨igMsgXorEnrollAck, 5,
      sealProtected W.hmac igMsgXorEnrollAck 5 [] (materialKeys W.hmac (W.material j serverNonce))⟩
  | .server i (.challenge m _) => W.Challenged trace i m
  | .server i (.response m resp frame) =>
    W.Challenged trace i m ∧ (∃ e req, .server i (.enroll m m.enrollmentID e req) ∈ trace) ∧
      ∃ seq plain, encodeResponse resp = .ok plain ∧ frame = ⟨msgXOREnrollResponse, seq,
        sealProtected W.hmac msgXOREnrollResponse seq plain (materialKeys W.hmac m)⟩
  | _ => True

structure Consistent (s : Network ι κ) : Prop where
  agents : ∀ j, W.AgentHolds s.trace j (s.agents j)
  conns : ∀ i, W.ConnHolds s.trace i (s.conns i)
  deeds : ∀ d ∈ s.trace, W.Proper s.trace d

section Mono

variable {W} {before after : List (Deed ι κ)} (hsub : before ⊆ after)
include hsub

theorem Challenged.mono {i : κ} {m : KeyMaterial} (h : W.Challenged before i m) : W.Challenged after i m := by
  obtain ⟨hs, hn, f, hf⟩ := h
  exact ⟨hs, hn, f, hsub hf⟩

theorem AgentHolds.mono {j : ι} {p : EnrollAt} (h : W.AgentHolds before j p) : W.AgentHolds after j p := by
  cases p with
  | requestSent serverNonce session =>
    obtain ⟨hk, f, hf⟩ := h
    exact ⟨hk, f, hsub hf⟩
  | _ => trivial

theorem ConnHolds.mono {i : κ} {p : ConnAt} (h : W.ConnHolds before i p) : W.ConnHolds after i p := by
  cases p with
  | challenged m e keys => exact ⟨h.1, h.2.mono hsub⟩
  | responded m keys agentID =>
    obtain ⟨hk, hc, e, req, hreq⟩ := h
    exact ⟨hk, hc.mono hsub, e, req, hsub hreq⟩
  | _ => trivial

theorem Proper.mono {d : Deed ι κ} (h : W.Proper before d) : W.Proper after d := by
  cases d with
  | agent j deed =>
    cases deed with
    | request serverNonce frame => exact h
    | ack serverNonce frame =>
      obtain ⟨⟨f, hf⟩, hframe⟩ := h
      exact ⟨⟨f, hsub hf⟩, hframe⟩
    | _ => trivial
  | server i deed =>
    cases deed with
    | challenge m frame => exact Challenged.mono hsub h
    | response m resp frame =>
      obtain ⟨hc, ⟨e, req, hreq⟩, hframe⟩ := h
      exact ⟨hc.mono hsub, ⟨e, req, hsub hreq⟩, hframe⟩
    | _ => trivial

theorem Requested.mono {j : ι} {serverNonce : Octets 32} {req : Request} (h : W.Requested before j serverNonce req) :
    W.Requested after j serverNonce req := by
  obtain ⟨seq, plain, hmem, hreq⟩ := h
  exact ⟨seq, plain, hsub hmem, hreq⟩

theorem Justified.mono {d : Deed ι κ} (h : W.Justified before d) : W.Justified after d := by
  cases d with
  | agent j deed =>
    cases deed with
    | writeFile serverNonce file contents =>
      intro hk
      obtain ⟨i, req, resp, hi, hreq, ⟨⟨e, he⟩, seq, plain, hp, hr⟩, hc⟩ := h hk
      exact ⟨i, req, resp, hi, hreq.mono hsub, ⟨⟨e, hsub he⟩, seq, plain, hp, hsub hr⟩, hc⟩
    | _ => trivial
  | server i deed =>
    cases deed with
    | enroll m enrollmentID e req =>
      intro hk
      obtain ⟨j, hm, hid, hreq⟩ := h hk
      exact ⟨j, hm, hid, hreq.mono hsub⟩
    | markUsed m enrollmentID agentID =>
      intro hk
      obtain ⟨j, req, hm, hid, hreq, ⟨e, he⟩, seq, hack⟩ := h hk
      exact ⟨j, req, hm, hid, hreq.mono hsub, ⟨e, hsub he⟩, seq, hsub hack⟩
    | _ => trivial

end Mono

section Steps

variable {W} {s : Network ι κ}

/-- New deeds that are proper leave the old ones proper. -/
theorem Consistent.deeds_append (h : W.Consistent s) {α : Type} {deed : α → Deed ι κ} {deeds : List α}
    (hd : ∀ d ∈ deeds, W.Proper (s.trace ++ deeds.map deed) (deed d)) :
    ∀ d ∈ s.trace ++ deeds.map deed, W.Proper (s.trace ++ deeds.map deed) d := by
  intro d hmem
  rcases List.mem_append.1 hmem with hold | hnew
  · exact (h.deeds d hold).mono (List.subset_append_left ..)
  · obtain ⟨d, hd', rfl⟩ := List.mem_map.1 hnew
    exact hd d hd'

theorem Consistent.agent_moves [DecidableEq ι] (h : W.Consistent s) {j : ι} {p : EnrollAt} {deeds : List EnrollDeed}
    (hp : W.AgentHolds (s.trace ++ deeds.map (.agent j)) j p)
    (hd : ∀ d ∈ deeds, W.Proper (s.trace ++ deeds.map (.agent j)) (.agent j d)) :
    W.Consistent { s with agents := Function.update s.agents j p, trace := s.trace ++ deeds.map (.agent j) } := by
  have hsub : s.trace ⊆ s.trace ++ deeds.map (.agent j) := List.subset_append_left ..
  constructor
  · intro k
    by_cases hk : k = j
    · subst hk
      simp only [Function.update_self]
      exact hp
    · simp only [Function.update_of_ne hk]
      exact (h.agents k).mono hsub
  · exact fun i => (h.conns i).mono hsub
  · exact h.deeds_append hd

theorem Consistent.server_moves [DecidableEq κ] (h : W.Consistent s) {i : κ} {p : ConnAt} {deeds : List ConnDeed}
    (hp : W.ConnHolds (s.trace ++ deeds.map (.server i)) i p)
    (hd : ∀ d ∈ deeds, W.Proper (s.trace ++ deeds.map (.server i)) (.server i d)) :
    W.Consistent { s with conns := Function.update s.conns i p, trace := s.trace ++ deeds.map (.server i) } := by
  have hsub : s.trace ⊆ s.trace ++ deeds.map (.server i) := List.subset_append_left ..
  constructor
  · exact fun j => (h.agents j).mono hsub
  · intro k
    by_cases hk : k = i
    · subst hk
      simp only [Function.update_self]
      exact hp
    · simp only [Function.update_of_ne hk]
      exact (h.conns k).mono hsub
  · exact h.deeds_append hd

/-- The agent's session keys are those of its material. -/
theorem keysOf_sessionOf (j : ι) (serverNonce : Octets 32) :
    keysOf (sessionOf W.hmac (W.call j).xorKey (W.call j).enrollmentId (W.call j).clientNonce serverNonce) =
      materialKeys W.hmac (W.material j serverNonce) := by
  unfold sessionOf
  rw [labelledData_eq]
  rfl

variable [DecidableEq ι] [DecidableEq κ]

theorem Consistent.step (h : W.Consistent s) (x : Delivery ι κ) : W.Consistent (W.step s x) := by
  cases x with
  | agent j io frame =>
    have hdoes := @igEnrollExecute_does W.hmac (W.call j) (s.agents j) io frame
    have hj := h.agents j
    simp only [World.step]
    generalize igEnrollExecute W.hmac (W.call j) (s.agents j) io frame = r at hdoes
    obtain ⟨p', deeds⟩ := r
    generalize s.agents j = p at hdoes hj
    cases hdoes with
    | quiet hp hd =>
      refine h.agent_moves ?_ fun d hmem => ?_
      · cases p' with
        | requestSent serverNonce session => exact absurd rfl (hp serverNonce session)
        | _ => trivial
      · obtain ⟨f, rfl⟩ := hd d hmem
        trivial
    | requests hs hplain hp =>
      subst hs
      rw [keysOf_sessionOf]
      refine h.agent_moves ?_ fun d hmem => ?_
      · rcases hp with rfl | rfl
        · exact ⟨keysOf_sessionOf j _, _, List.mem_append_right _ (List.mem_singleton.2 rfl)⟩
        · trivial
      · rw [List.mem_singleton.1 hmem]
        exact ⟨_, rfl⟩
    | finishes hresp hd =>
      obtain ⟨hkeys, f, hf⟩ := hj
      refine h.agent_moves trivial fun d hmem => ?_
      rcases hd d hmem with ⟨file, rfl⟩ | rfl
      · trivial
      · rw [hkeys]
        exact ⟨⟨f, List.mem_append_left _ hf⟩, rfl⟩
  | server i io frame =>
    have hdoes := @handleConn_does W.hmac W.decrypt W.pepper (W.serverNonce i) (s.conns i) io frame
    have hi := h.conns i
    simp only [World.step]
    generalize handleConn W.hmac W.decrypt W.pepper (W.serverNonce i) (s.conns i) io frame = r at hdoes
    obtain ⟨p', deeds⟩ := r
    generalize s.conns i = p at hdoes hi
    cases hdoes with
    | quiet hd =>
      refine h.server_moves trivial fun d hmem => ?_
      obtain ⟨f, rfl⟩ := hd d hmem
      trivial
    | @challenges _ _ m e f hm hn hp =>
      have hc : W.Challenged (s.trace ++ [ConnDeed.challenge m f].map (.server i)) i m :=
        ⟨hm, hn, f, List.mem_append_right _ (List.mem_singleton.2 rfl)⟩
      refine h.server_moves ?_ fun d hmem => ?_
      · rcases hp with rfl | rfl
        · exact ⟨rfl, hc⟩
        · trivial
      · rw [List.mem_singleton.1 hmem]
        exact hc
    | refuses hreq hd =>
      refine h.server_moves trivial fun d hmem => ?_
      rcases List.mem_cons.1 hmem with rfl | hmem
      · trivial
      · obtain ⟨f, rfl⟩ := hd d hmem
        trivial
    | responds hreq hresp hp =>
      obtain ⟨hkeys, hc⟩ := hi
      refine h.server_moves ?_ fun d hmem => ?_
      · rcases hp with rfl | rfl
        · exact ⟨hkeys, hc.mono (List.subset_append_left ..), _, _,
            List.mem_append_right _ List.mem_cons_self⟩
        · trivial
      · rcases List.mem_cons.1 hmem with rfl | hmem
        · trivial
        · rw [List.mem_singleton.1 hmem, hkeys]
          exact ⟨hc.mono (List.subset_append_left ..), ⟨_, _,
            List.mem_append_right _ List.mem_cons_self⟩, _, _, hresp, rfl⟩
    | marks =>
      refine h.server_moves trivial fun d hmem => ?_
      rw [List.mem_singleton.1 hmem]
      trivial

end Steps

/-! ## Who sealed a frame that opens -/

section Authentic

variable {W} {s : Network ι κ}

/-- Session keys were derived from the material. -/
def Opened (W : World ι κ) (trace : List (Deed ι κ)) (m : KeyMaterial) : Prop :=
  Sized m ∧ derivation W.hmac m ⊆ trace.flatMap W.asked

theorem opened_of_request {trace : List (Deed ι κ)} {j : ι} {serverNonce : Octets 32} {f : IgFrame}
    (h : .agent j (.request serverNonce f) ∈ trace) : W.Opened trace (W.material j serverNonce) :=
  ⟨⟨(W.call j).clientNonce.length_eq, serverNonce.length_eq⟩, fun _ hq => List.mem_flatMap.2 ⟨_, h, hq⟩⟩

theorem Challenged.opened {trace : List (Deed ι κ)} {i : κ} {m : KeyMaterial} (h : W.Challenged trace i m) :
    W.Opened trace m := by
  obtain ⟨hs, -, f, hf⟩ := h
  exact ⟨hs, fun _ hq => List.mem_flatMap.2 ⟨_, hf, hq⟩⟩

theorem Consistent.sealedBy_opens (h : W.Consistent s) {d : Deed ι κ} (hd : d ∈ s.trace) {y : Sealed}
    (hy : W.sealedBy d = some y) : y.opens W.hmac = true ∧ W.Opened s.trace y.material := by
  have hp := h.deeds d hd
  cases d with
  | agent j deed =>
    cases deed with
    | request serverNonce frame =>
      obtain ⟨plain, rfl⟩ := hp
      cases hy
      exact ⟨Sealed.opens_iff.2 ⟨plain, rfl⟩, opened_of_request hd⟩
    | ack serverNonce frame =>
      obtain ⟨⟨f, hf⟩, rfl⟩ := hp
      cases hy
      exact ⟨Sealed.opens_iff.2 ⟨[], rfl⟩, opened_of_request hf⟩
    | _ => cases hy
  | server i deed =>
    cases deed with
    | response m resp frame =>
      obtain ⟨hc, -, seq, plain, -, rfl⟩ := hp
      cases hy
      exact ⟨Sealed.opens_iff.2 ⟨plain, rfl⟩, hc.opened⟩
    | _ => cases hy

/-- A frame whose MAC a party has made is one that a party has sealed: under the same keys, and with the same type,
sequence number and ciphertext. -/
theorem Consistent.authentic (h : W.Consistent s) (hcf : CollisionFree W.hmac (s.trace.flatMap W.asked)) {y : Sealed}
    (hm : W.Opened s.trace y.material) (hopens : y.opens W.hmac = true)
    (htype : y.msgTyp ∈ [msgXOREnrollRequest, msgXOREnrollResponse, msgXOREnrollAck])
    (hmade : y.mac W.hmac ∈ s.trace.flatMap W.macs) : ∃ d ∈ s.trace, W.sealedBy d = some y := by
  obtain ⟨d, hd, hmac⟩ := List.mem_flatMap.1 hmade
  have hsealed :
      y.mac W.hmac ∈ (W.sealedBy d).toList.map (Sealed.mac W.hmac) → ∃ d ∈ s.trace, W.sealedBy d = some y := by
    intro hmem
    obtain ⟨z, hz, hmacs⟩ := List.mem_map.1 hmem
    have hz := Option.mem_toList.1 hz
    obtain ⟨hzopens, hzm⟩ := h.sealedBy_opens hd hz
    obtain ⟨hkey, hdata⟩ := Prod.mk.inj hmacs
    have hmaterial := material_eq hcf hzm.1 hm.1 hzm.2 hm.2 hkey
    rw [← Sealed.eq_of_mac hmaterial hdata hzopens hopens]
    exact ⟨d, hd, hz⟩
  cases d with
  | agent j deed => exact hsealed hmac
  | server i deed =>
    cases deed with
    | challenge m f =>
      -- the proof of a challenge starts with a letter, and a frame with its type
      have hdata := (Prod.mk.inj (List.mem_singleton.1 hmac)).2
      have hfirst := (List.cons.inj hdata).1
      rw [hfirst] at htype
      exact absurd htype (by decide)
    | _ => exact hsealed hmac

/-- The type of a sealed frame tells who sealed it. -/
theorem Consistent.sealedBy_cases (h : W.Consistent s) {d : Deed ι κ} (hd : d ∈ s.trace) {y : Sealed}
    (hy : W.sealedBy d = some y) :
    (∃ j serverNonce, y.msgTyp = msgXOREnrollRequest ∧ y.material = W.material j serverNonce ∧
        d = .agent j (.request serverNonce ⟨y.msgTyp, y.seqNum, y.payload⟩)) ∨
      (∃ i resp, y.msgTyp = msgXOREnrollResponse ∧
        d = .server i (.response y.material resp ⟨y.msgTyp, y.seqNum, y.payload⟩)) ∨
      ∃ j serverNonce, y.msgTyp = msgXOREnrollAck ∧ y.material = W.material j serverNonce ∧
        d = .agent j (.ack serverNonce ⟨y.msgTyp, y.seqNum, y.payload⟩) := by
  have hp := h.deeds d hd
  cases d with
  | agent j deed =>
    cases deed with
    | request serverNonce frame =>
      obtain ⟨plain, rfl⟩ := hp
      cases hy
      exact .inl ⟨j, serverNonce, rfl, rfl, rfl⟩
    | ack serverNonce frame =>
      obtain ⟨-, rfl⟩ := hp
      cases hy
      exact .inr (.inr ⟨j, serverNonce, rfl, rfl, rfl⟩)
    | _ => cases hy
  | server i deed =>
    cases deed with
    | response m resp frame =>
      obtain ⟨-, -, seq, plain, -, rfl⟩ := hp
      cases hy
      exact .inr (.inl ⟨i, resp, rfl, rfl⟩)
    | _ => cases hy

end Authentic

/-! ## What the parties may conclude -/

section Justify

variable {W} {s : Network ι κ}

theorem material_inj (hfresh : Function.Injective fun j => (W.call j).clientNonce) {j j' : ι} {n n' : Octets 32}
    (h : W.material j n = W.material j' n') : j = j' ∧ n = n' := by
  obtain ⟨-, -, hclient, hserver⟩ := KeyMaterial.mk.inj h
  exact ⟨hfresh (Octets.ext_bytes hclient), Octets.ext_bytes hserver⟩

theorem serverNonce_eq {i : κ} {j : ι} {n : Octets 32} {m : KeyMaterial} (hc : W.Challenged s.trace i m)
    (hm : m = W.material j n) : n = W.serverNonce i := by
  apply Octets.ext_bytes
  rw [← hc.2.1, hm]
  rfl

/-- A request that opens under keys the attacker does not know was sent by an agent in the run of the connection. -/
theorem Consistent.requested (h : W.Consistent s) (hcf : CollisionFree W.hmac (s.trace.flatMap W.asked)) {i : κ}
    {m : KeyMaterial} (hc : W.Challenged s.trace i m) {seq : UInt32} {plain : Bytes} {req : Request}
    (hreq : decodeRequest plain = some (.ok req))
    (hmade : Sealed.mac W.hmac ⟨m, msgXOREnrollRequest, seq,
      sealProtected W.hmac msgXOREnrollRequest seq plain (materialKeys W.hmac m)⟩ ∈ s.trace.flatMap W.macs) :
    ∃ j, m = W.material j (W.serverNonce i) ∧ W.Requested s.trace j (W.serverNonce i) req := by
  obtain ⟨d, hd, hy⟩ := h.authentic hcf hc.opened (Sealed.opens_iff.2 ⟨plain, rfl⟩) (by simp) hmade
  rcases h.sealedBy_cases hd hy with ⟨j, n, -, hm, rfl⟩ | ⟨_, _, ht, -⟩ | ⟨_, _, ht, -⟩
  · obtain rfl := serverNonce_eq hc hm
    obtain rfl : m = _ := hm
    exact ⟨j, rfl, seq, plain, hd, hreq⟩
  · cases ht
  · cases ht

theorem Consistent.enroll_justified (h : W.Consistent s) (hcf : CollisionFree W.hmac (s.trace.flatMap W.asked)) {i : κ}
    {m : KeyMaterial} (hc : W.Challenged s.trace i m) (seq : UInt32) {plain e : Bytes} {req : Request}
    (hreq : decodeRequest plain = some (.ok req))
    (hmade : W.known m.xorKey = false → Sealed.mac W.hmac ⟨m, msgXOREnrollRequest, seq,
      sealProtected W.hmac msgXOREnrollRequest seq plain (materialKeys W.hmac m)⟩ ∈ s.trace.flatMap W.macs) :
    W.Justified s.trace (.server i (.enroll m m.enrollmentID e req)) := by
  intro hk
  obtain ⟨j, hm, hr⟩ := h.requested hcf hc hreq (hmade hk)
  exact ⟨j, hm, by rw [hm]; rfl, hr⟩

/-- A response that opens under keys the attacker does not know was sealed on the connection of the run, for the
request of the run. -/
theorem Consistent.write_justified (hfresh : Function.Injective fun j => (W.call j).clientNonce) (h : W.Consistent s)
    (hjust : ∀ d ∈ s.trace, W.Justified s.trace d) (hcf : CollisionFree W.hmac (s.trace.flatMap W.asked)) {j : ι}
    {n : Octets 32} (ho : W.Opened s.trace (W.material j n)) (seq : UInt32) {plain : Bytes} {resp : IgEnrollResponse}
    (hresp : responseBytes plain resp)
    (hmade : W.known (W.call j).xorKey.bytes = false → Sealed.mac W.hmac ⟨W.material j n, msgXOREnrollResponse, seq,
      sealProtected W.hmac msgXOREnrollResponse seq plain (materialKeys W.hmac (W.material j n))⟩ ∈
        s.trace.flatMap W.macs) (file : CertFile) :
    W.Justified s.trace (.agent j (.writeFile n file (file.contents resp))) := by
  intro hk
  obtain ⟨d, hd, hy⟩ := h.authentic hcf ho (Sealed.opens_iff.2 ⟨plain, rfl⟩) (by simp) (hmade hk)
  rcases h.sealedBy_cases hd hy with ⟨_, _, ht, -⟩ | ⟨i, r, -, rfl⟩ | ⟨_, _, ht, -⟩
  · cases ht
  · obtain ⟨-, ⟨e, req, henroll⟩, seq', plain', hplain, hframe⟩ := h.deeds _ hd
    obtain ⟨-, rfl, hpayload⟩ := EnrollFrame.mk.inj hframe
    obtain rfl := sealProtected_inj hpayload
    -- the connection called Enroll for a run with the same nonces, so for this one
    obtain ⟨j', hm, -, hreq⟩ := hjust _ henroll hk
    obtain ⟨rfl, rfl⟩ := material_inj hfresh hm
    exact ⟨i, req, r, rfl, hreq, ⟨⟨e, henroll⟩, seq, plain, hplain, hd⟩, by rw [readBack_eq hplain hresp]⟩
  · cases ht

/-- An acknowledgement that opens under keys the attacker does not know is that of the run whose request
was enrolled. -/
theorem Consistent.mark_justified (hfresh : Function.Injective fun j => (W.call j).clientNonce) (h : W.Consistent s)
    (hjust : ∀ d ∈ s.trace, W.Justified s.trace d) (hcf : CollisionFree W.hmac (s.trace.flatMap W.asked)) {i : κ}
    {m : KeyMaterial} (hc : W.Challenged s.trace i m) {e : Bytes} {req : Request}
    (henroll : .server i (.enroll m m.enrollmentID e req) ∈ s.trace) (seq : UInt32) (plain : Bytes) {agentID : Bytes}
    (hmade : W.known m.xorKey = false → Sealed.mac W.hmac ⟨m, msgXOREnrollAck, seq,
      sealProtected W.hmac msgXOREnrollAck seq plain (materialKeys W.hmac m)⟩ ∈ s.trace.flatMap W.macs) :
    W.Justified s.trace (.server i (.markUsed m m.enrollmentID agentID)) := by
  intro hk
  obtain ⟨d, hd, hy⟩ := h.authentic hcf hc.opened (Sealed.opens_iff.2 ⟨plain, rfl⟩) (by simp) (hmade hk)
  rcases h.sealedBy_cases hd hy with ⟨_, _, ht, -⟩ | ⟨_, _, ht, -⟩ | ⟨j', n, -, hm', rfl⟩
  · cases ht
  · cases ht
  · obtain ⟨j, hm, hid, hreq⟩ := hjust _ henroll hk
    obtain rfl := serverNonce_eq hc hm'
    obtain ⟨rfl, -⟩ := material_inj hfresh (hm.symm.trans hm')
    obtain ⟨-, hframe⟩ := h.deeds _ hd
    exact ⟨j, req, hm, hid, hreq, ⟨e, henroll⟩, 5, by rw [← hframe]; exact hd⟩

variable [DecidableEq ι] [DecidableEq κ]

theorem trace_step (s : Network ι κ) (x : Delivery ι κ) : s.trace ⊆ (W.step s x).trace := by
  cases x with
  | agent j io frame => exact List.subset_append_left ..
  | server i io frame => exact List.subset_append_left ..

theorem Ideal.before {x : Delivery ι κ} (h : W.Ideal s x) : CollisionFree W.hmac (s.trace.flatMap W.asked) := by
  refine h.collisionFree.mono fun q hq => ?_
  obtain ⟨d, hd, hqd⟩ := List.mem_flatMap.1 hq
  exact List.mem_flatMap.2 ⟨d, trace_step s x hd, hqd⟩

/-- The deeds of an agent in a step. -/
theorem agent_justified (hfresh : Function.Injective fun j => (W.call j).clientNonce) (h : W.Consistent s)
    (hjust : ∀ d ∈ s.trace, W.Justified s.trace d) {j : ι} {io : EnrollIo} {frame : Option IgFrame}
    (hideal : W.Ideal s (.agent j io frame)) :
    ∀ deed ∈ (igEnrollExecute W.hmac (W.call j) (s.agents j) io frame).2, W.Justified s.trace (.agent j deed) := by
  have hcf := hideal.before
  have hdoes := @igEnrollExecute_does W.hmac (W.call j) (s.agents j) io frame
  have hj := h.agents j
  have hun := hideal.unforged
  generalize igEnrollExecute W.hmac (W.call j) (s.agents j) io frame = r at hdoes
  obtain ⟨p', deeds⟩ := r
  cases hp : s.agents j with
  | requestSent n session =>
    rw [hp] at hdoes hj
    intro deed hmem
    cases hdoes with
    | quiet _ hd =>
      obtain ⟨f, rfl⟩ := hd deed hmem
      trivial
    | @finishes _ _ _ seq plain resp _ hresp hd =>
      obtain ⟨hkeys, f, hf⟩ := hj
      rcases hd deed hmem with ⟨file, rfl⟩ | rfl
      · refine h.write_justified hfresh hjust hcf (opened_of_request hf) seq hresp (fun hk => ?_) file
        rw [hkeys] at hun
        refine hun ⟨W.material j n, _, seq, _⟩ (by simp [checked, hp]; exact ⟨rfl, rfl⟩) hk
          (Sealed.opens_iff.2 ⟨plain, rfl⟩)
      · trivial
  | helloSent =>
    rw [hp] at hdoes
    intro deed hmem
    cases hdoes with
    | quiet _ hd =>
      obtain ⟨f, rfl⟩ := hd deed hmem
      trivial
    | requests =>
      rw [List.mem_singleton.1 hmem]
      trivial
  | _ =>
    rw [hp] at hdoes
    intro deed hmem
    cases hdoes with
    | quiet _ hd =>
      obtain ⟨f, rfl⟩ := hd deed hmem
      trivial

/-- The deeds of a connection in a step. -/
theorem server_justified (hfresh : Function.Injective fun j => (W.call j).clientNonce) (h : W.Consistent s)
    (hjust : ∀ d ∈ s.trace, W.Justified s.trace d) {i : κ} {io : ConnIo} {frame : Option EnrollFrame}
    (hideal : W.Ideal s (.server i io frame)) :
    ∀ deed ∈ (handleConn W.hmac W.decrypt W.pepper (W.serverNonce i) (s.conns i) io frame).2,
      W.Justified s.trace (.server i deed) := by
  have hcf := hideal.before
  have hdoes := @handleConn_does W.hmac W.decrypt W.pepper (W.serverNonce i) (s.conns i) io frame
  have hi := h.conns i
  have hun := hideal.unforged
  generalize handleConn W.hmac W.decrypt W.pepper (W.serverNonce i) (s.conns i) io frame = r at hdoes
  obtain ⟨p', deeds⟩ := r
  intro deed hmem
  have hquiet : ∀ deeds : List ConnDeed, (∀ d ∈ deeds, ∃ f, d = .error f) → deed ∈ deeds →
      W.Justified s.trace (.server i deed) := by
    intro deeds hd hmem
    obtain ⟨f, rfl⟩ := hd deed hmem
    trivial
  cases hp : s.conns i with
  | accepted =>
    rw [hp] at hdoes
    cases hdoes with
    | quiet hd => exact hquiet _ hd hmem
    | challenges =>
      rw [List.mem_singleton.1 hmem]
      trivial
  | challenged m e keys =>
    rw [hp] at hdoes hi
    obtain ⟨rfl, hc⟩ := hi
    have henroll : ∀ seq plain req, frame = some ⟨msgXOREnrollRequest, seq,
        sealProtected W.hmac msgXOREnrollRequest seq plain (materialKeys W.hmac m)⟩ →
        decodeRequest plain = some (.ok req) →
          W.Justified s.trace (.server i (.enroll m m.enrollmentID e req)) := by
      rintro seq plain req rfl hreq
      refine h.enroll_justified hcf hc seq hreq fun hk => ?_
      exact hun ⟨m, _, seq, _⟩ (by simp [checked, hp]) hk (Sealed.opens_iff.2 ⟨plain, rfl⟩)
    cases hdoes with
    | quiet hd => exact hquiet _ hd hmem
    | refuses hreq hd =>
      rcases List.mem_cons.1 hmem with rfl | hmem
      · exact henroll _ _ _ rfl hreq
      · exact hquiet _ hd hmem
    | responds hreq hresp hp' =>
      rcases List.mem_cons.1 hmem with rfl | hmem
      · exact henroll _ _ _ rfl hreq
      · rw [List.mem_singleton.1 hmem]
        trivial
  | responded m keys agentID =>
    rw [hp] at hdoes hi
    obtain ⟨rfl, hc, e, req, henroll⟩ := hi
    cases hdoes with
    | quiet hd => exact hquiet _ hd hmem
    | @marks _ _ _ seq plain =>
      rw [List.mem_singleton.1 hmem]
      refine h.mark_justified hfresh hjust hcf hc henroll seq plain fun hk => ?_
      exact hun ⟨m, _, seq, _⟩ (by simp [checked, hp]) hk (Sealed.opens_iff.2 ⟨plain, rfl⟩)
  | closed =>
    rw [hp] at hdoes
    cases hdoes with
    | quiet hd => exact hquiet _ hd hmem

end Justify

/-! ## Every run -/

section Runs

variable {W}

/-- The parties hold on to what they may, and each deed is justified by those before it. -/
structure Agreed (W : World ι κ) (s : Network ι κ) : Prop where
  consistent : W.Consistent s
  justified : EachAfter W.Justified [] s.trace

theorem Agreed.all {s : Network ι κ} (h : W.Agreed s) : ∀ d ∈ s.trace, W.Justified s.trace d := by
  intro d hd
  obtain ⟨before, after, hs⟩ := List.append_of_mem hd
  refine Justified.mono (fun e he => ?_) (h.justified before d after hs)
  rw [hs]
  exact List.mem_append_left _ he

theorem eachAfter_new {before new : List (Deed ι κ)} (h : ∀ d ∈ new, W.Justified before d) :
    EachAfter W.Justified before new := by
  rintro done d after rfl
  exact Justified.mono (List.subset_append_left ..) (h d (by simp))

theorem agreed_init (W : World ι κ) : W.Agreed Network.init := by
  refine ⟨⟨fun _ => trivial, fun _ => trivial, fun d hd => ?_⟩, eachAfter_nil⟩
  cases hd

variable [DecidableEq ι] [DecidableEq κ]

theorem Agreed.step (hfresh : Function.Injective fun j => (W.call j).clientNonce) {s : Network ι κ}
    (h : W.Agreed s) {x : Delivery ι κ} (hideal : W.Ideal s x) : W.Agreed (W.step s x) := by
  refine ⟨h.consistent.step x, ?_⟩
  cases x with
  | agent j io frame =>
    refine eachAfter_append.2 ⟨h.justified, eachAfter_new fun d hd => ?_⟩
    obtain ⟨deed, hdeed, rfl⟩ := List.mem_map.1 hd
    exact agent_justified hfresh h.consistent h.all hideal deed hdeed
  | server i io frame =>
    refine eachAfter_append.2 ⟨h.justified, eachAfter_new fun d hd => ?_⟩
    obtain ⟨deed, hdeed, rfl⟩ := List.mem_map.1 hd
    exact server_justified hfresh h.consistent h.all hideal deed hdeed

/-- In every run against the attacker each call of `Enroll`, each certificate file and each mark of an enrollment as
used is justified by what came before it. -/
theorem enrollment_agreement (hfresh : Function.Injective fun j => (W.call j).clientNonce)
    {deliveries : List (Delivery ι κ)} (hideal : AllSteps W.step W.Ideal Network.init deliveries) :
    EachAfter W.Justified [] (deliveries.foldl W.step Network.init).trace := by
  have hstep : ∀ s x, W.Agreed s → W.Ideal s x → W.Agreed (W.step s x) := fun _ _ h hx => h.step hfresh hx
  exact (foldl_invariant hstep deliveries Network.init (agreed_init W) hideal).justified

end Runs

end World

/-! ## One enrollment -/

instance {ι κ : Type} [DecidableEq ι] [DecidableEq κ] (W : World ι κ) (s : Network ι κ) (x : Delivery ι κ) :
    Decidable (W.Ideal s x) :=
  decidable_of_iff ((∀ y ∈ W.checked s x, W.known y.material.xorKey = false → y.opens W.hmac = true →
      y.mac W.hmac ∈ s.trace.flatMap W.macs) ∧ CollisionFree W.hmac ((W.step s x).trace.flatMap W.asked))
    ⟨fun h => ⟨h.1, h.2⟩, fun h => ⟨h.unforged, h.collisionFree⟩⟩

/-- A keyed function that tells its inputs apart in the run below. -/
def polyHmac (key data : Bytes) : Octets 32 :=
  ⟨beBytes 32 ((key ++ data).foldl (fun acc b => acc * 65599 + b.toNat + 1) key.length), beBytes_length 32 _⟩

theorem webOs_noZero : 0 ∉ ascii "Linux" := by decide

/-- The host `web` enrolls with the key `shared`. -/
def webEnrollment : World Unit Unit where
  hmac := polyHmac
  decrypt ciphertext _ := some ciphertext
  pepper := ascii "pepper"
  call _ :=
    ⟨⟨ascii "enr-1", by decide⟩, ⟨ascii "shared", by decide⟩,
      ⟨⟨ascii "web", by decide⟩, ⟨ascii "10.0.0.1", by decide⟩, ⟨ascii "Linux", webOs_noZero⟩, 1⟩, nonce 1⟩
  serverNonce _ := nonce 2
  known _ := false

def webMaterial : KeyMaterial := ⟨ascii "shared", ascii "enr-1", (nonce 1).bytes, (nonce 2).bytes⟩

def webResponse : Response := ⟨ascii "17", ascii "cert", ascii "key", ascii "ca", 1000⟩

def webRow : Enrollment :=
  { enrollmentID := ascii "enr-1", agentID := [],
    secretHash := hashXORKey polyHmac (ascii "enr-1") (ascii "shared") (ascii "pepper"),
    keyCiphertext := ascii "shared", keyNonce := [], status := .pending, expiresAt := 9, createdAt := 1 }

/-- The attacker hands on every frame as it is. -/
def webDeliveries : List (Delivery Unit Unit) :=
  let keys := materialKeys polyHmac webMaterial
  let proof := polyHmac keys.mac.bytes (proofData webMaterial)
  let request := counted (ascii "web") ++ counted (ascii "10.0.0.1") ++ counted (ascii "Linux") ++ [1]
  let response := counted (ascii "17") ++ counted (ascii "cert") ++ counted (ascii "key") ++ counted (ascii "ca") ++
    beBytes 8 1000
  let atAgent frame := .agent () ⟨true, true, fun _ => true, true, fun _ => true⟩ frame
  let atServer msgTyp seqNum payload :=
    .server () ⟨.ok webRow, true, true, .ok webResponse⟩ (some ⟨msgTyp, seqNum, payload⟩)
  [atAgent none, atServer msgXORHello 1 (counted (ascii "enr-1") ++ counted (nonce 1).bytes),
    atAgent (some ⟨igMsgXorChallenge, 2, counted (nonce 2).bytes ++ counted proof.bytes⟩),
    atServer msgXOREnrollRequest 3 (sealProtected polyHmac msgXOREnrollRequest 3 request keys),
    atAgent (some ⟨igMsgXorEnrollResponse, 4, sealProtected polyHmac igMsgXorEnrollResponse 4 response keys⟩),
    atServer msgXOREnrollAck 5 (sealProtected polyHmac msgXOREnrollAck 5 [] keys)]

namespace World

theorem enrollment_agreement_web :
    EachAfter webEnrollment.Justified [] (webDeliveries.foldl webEnrollment.step Network.init).trace ∧
      ((webDeliveries.foldl webEnrollment.step Network.init).trace.any
        fun d => d matches .server () (.markUsed ..)) = true :=
  ⟨enrollment_agreement (fun _ _ _ => rfl)
    (show AllSteps webEnrollment.step webEnrollment.Ideal Network.init webDeliveries by decide +kernel),
    by decide +kernel⟩

end World

end KnIg.Enroll
