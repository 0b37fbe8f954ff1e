/-
An enrolled agent can register: the id its enrollment puts into the certificate, from the text of its
address, is the one its REGISTER message gives the server, from the address itself.
-/
import KnIg.Agent.Register
import KnIg.Backend.Enrollment.Service
import KnIg.Backend.Collector.AgentSession

namespace KnIg.Enroll

open Lib Agent Backend Reader

/-! ## Addresses and identities -/

/-- `net.ParseIP`: the first `.`, `:` or `%` of the text says what it is. An IPv4 address comes in its
16-byte form; the texts of IPv6 addresses are read by a parameter. -/
def netParseIP (parseIPv6 : Bytes → Option Bytes) (s : Bytes) : Option Bytes :=
  match s.find? fun c => c = dot ∨ c = 0x3A ∨ c = 0x25 with
  | none => none
  | some c =>
    if c = dot then (parseQuad s).map fun ip => List.replicate 10 0 ++ [0xFF, 0xFF] ++ ip.bytes
    else if c = 0x3A then parseIPv6 s
    else none

/-- The identity that `Enroll` asks a certificate for. -/
def enrollIdentity (agentID : Bytes) : Bytes := ascii "spiffe://kn-ig/agent/" ++ agentID

/-- The names in a certificate: its SAN URIs and its common name. -/
structure CertNames where
  uris : List Bytes
  commonName : Bytes

/-- The template of `IssueAgentCertificate`; parsing the identity as a URL and printing it changes nothing. -/
def issuedNames (agentIdentity : Bytes) : CertNames := ⟨[agentIdentity], agentIdentity⟩

def peerIdentityFromCert (cert : CertNames) : Except String Bytes :=
  match cert.uris.find? (isAgentIdentity ·) with
  | some identity => .ok identity
  | none =>
    if cert.uris.length > 0 then .error "에이전트 인증서 SAN URI에 SPIFFE agent identity가 없음"
    else if isAgentIdentity cert.commonName then .ok cert.commonName
    else .error "에이전트 인증서에 SPIFFE agent identity가 없음"

/-! ## The two routes -/

/-- The text of an address is read as the address in its 16-byte form. -/
theorem netParseIP_dotted (parseIPv6 : Bytes → Option Bytes) (address : Octets 4) :
    netParseIP parseIPv6 (dotted address) = some (List.replicate 10 0 ++ [0xFF, 0xFF] ++ address.bytes) := by
  have hfind : (dotted address).find? (fun c => c = dot ∨ c = 0x3A ∨ c = 0x25) = some dot := by
    refine find_dotted (by decide) (fun c hc hsep => ?_) address
    simp only [decide_eq_true_eq] at hsep
    rcases hsep with rfl | rfl | rfl <;> exact absurd hc (by decide)
  simp only [netParseIP, hfind, if_true, parseQuad_dotted, Option.map_some]

/-- Both forms of an IPv4 address give the same id. -/
theorem generateAgentID_mapped (hostname : Bytes) (address : Octets 4) :
    generateAgentID hostname (List.replicate 10 0 ++ [0xFF, 0xFF] ++ address.bytes) =
      generateAgentID hostname address.bytes := by
  have hmapped : to4 (List.replicate 10 0 ++ [0xFF, 0xFF] ++ address.bytes) = some address.bytes := by
    simp [to4]
  have hplain : to4 address.bytes = some address.bytes := if_pos address.length_eq
  simp only [generateAgentID, hmapped, hplain]

/-- The server reads a registration back. -/
theorem decodeRegister_wire {hostname os : Bytes} (hhost : hostname.length < 2 ^ 16) (hos : os.length < 2 ^ 16)
    (address : Octets 4) (monitorType : UInt8) :
    decodeRegister ((beBytes 2 hostname.length ++ hostname) ++ (address.bytes ++ ([monitorType] ++
      (beBytes 2 os.length ++ os)))) = .ok ⟨hostname, address.bytes, monitorType, os⟩ := by
  have haddr : Reads readU32 address.bytes (ntohl address) := by
    have h := reads_readU32 (ntohl address)
    rwa [beBytes_ntohl] at h
  have hfields : Reads (do
      let hostname ← readStr
      let ipRaw ← readU32
      let monType ← readU8
      let osName ← readStr
      return RegisterMsg.mk hostname (beBytes 4 ipRaw.toNat) monType osName)
      ((beBytes 2 hostname.length ++ hostname) ++ (address.bytes ++ ([monitorType] ++ (beBytes 2 os.length ++ os))))
      ⟨hostname, beBytes 4 (ntohl address).toNat, monitorType, os⟩ :=
    (reads_readStr hhost).bind <| haddr.bind <| (reads_readU8 monitorType).bind <| (reads_readStr hos).last
  simp only [decodeRegister]
  rw [hfields.all, beBytes_ntohl]
  rfl

theorem peerIdentity_issued {agentID : Bytes} (hid : agentID ≠ []) :
    peerIdentityFromCert (issuedNames (enrollIdentity agentID)) = .ok (enrollIdentity agentID) := by
  have hagent : isAgentIdentity (enrollIdentity agentID) = true := ((isAgentIdentity_iff hid).2 rfl).1
  simp [peerIdentityFromCert, issuedNames, hagent]

theorem matchesAgent_issued {c : PeerCert} {s : AgentSession} (hid : s.agentID ≠ [])
    (hsubject : c.subject = enrollIdentity s.agentID) : c.certificateIdentityMatchesAgent s = true := by
  obtain ⟨hagent, htrim⟩ := (isAgentIdentity_iff hid).2 hsubject
  simp [PeerCert.certificateIdentityMatchesAgent, hagent, htrim]

/-! ## Enrollment and registration meet -/

/-- A registration whose id is that of the certificate reaches the store. -/
theorem handleRegister_registers {c : PeerCert} {s : AgentSession} {f : Frame} {reg : RegisterMsg}
    (hnew : s.agentID = []) (hreg : decodeRegister f.payload = .ok reg) (hhash : c.subjectHash ≠ [])
    (hprint : c.fingerprint ≠ [])
    (hsubject : c.subject = enrollIdentity (formatUint (generateAgentID reg.hostname reg.ip))) :
    (c.handleRegister s f).1.agentID = formatUint (generateAgentID reg.hostname reg.ip) ∧
      c.certificateIdentityMatchesAgent (c.handleRegister s f).1 ∧
      ∃ p cert, .register (formatUint (generateAgentID reg.hostname reg.ip)) p cert f.answer ∈
        (c.handleRegister s f).2 := by
  have hstart : ¬ s.agentID ≠ [] := not_not.2 hnew
  have hbound : ¬ (c.subjectHash = [] ∨ c.fingerprint = []) := by simp [hhash, hprint]
  have hmatch : ∀ t : AgentSession, t.agentID = formatUint (generateAgentID reg.hostname reg.ip) →
      c.certificateIdentityMatchesAgent t = true := fun t ht =>
    matchesAgent_issued (ht ▸ formatUint_ne_nil _) (ht ▸ hsubject)
  have hnamed :=
    hmatch ⟨formatUint (generateAgentID reg.hostname reg.ip), generateAgentID reg.hostname reg.ip, s.lastSeq⟩ rfl
  simp only [PeerCert.handleRegister, if_neg hstart, hreg, if_neg hbound, hnamed, not_true_eq_false, if_false]
  -- whatever the store answers, it was asked
  split
  all_goals exact ⟨rfl, hmatch _ rfl, _, _, List.mem_cons_self⟩

/-- `Enroll` passes its checks for a dotted-quad address, with the id of the address. -/
theorem checkRequest_dotted (parseIPv6 : Bytes → Option Bytes) {enrollmentID expectedAgentID hostname : Bytes}
    (hid : enrollmentID ≠ []) (hhost : hostname ≠ []) (address : Octets 4) (monitorType : UInt8) (os : Bytes)
    (hexpected : expectedAgentID = [] ∨ expectedAgentID = formatUint (generateAgentID hostname address.bytes)) :
    ∃ e, checkRequest (netParseIP parseIPv6) enrollmentID expectedAgentID ⟨hostname, dotted address, monitorType, os⟩ =
        .ok e ∧ e.agentID = formatUint (generateAgentID hostname address.bytes) := by
  have hip : dotted address ≠ [] := by
    intro hnil
    have hparse := parseQuad_dotted address
    rw [hnil] at hparse
    cases hparse
  have hgo : ¬ (enrollmentID = [] ∨ hostname = [] ∨ dotted address = []) := by simp [hid, hhost, hip]
  have hagree : ¬ (expectedAgentID ≠ [] ∧ expectedAgentID ≠ formatUint (generateAgentID hostname address.bytes)) := by
    rintro ⟨hne, hna⟩
    exact hexpected.elim hne hna
  simp only [checkRequest, if_neg hgo, netParseIP_dotted, generateAgentID_mapped, dif_neg hagree]
  exact ⟨_, rfl, rfl⟩

/-- An enrolled agent's registration is accepted: the server derives the id its certificate carries, and
reads back what the agent encoded. -/
theorem enrolled_registers (parseIPv6 : Bytes → Option Bytes) (hostname : CStr) (hne : hostname.bytes ≠ [])
    (hlen : hostname.length ≤ 255) (address : Octets 4) (monitorType : UInt8) (os : TermArr 64) :
    ∃ msg payload,
      registerMsg hostname (inetNtop address) os.str monitorType = some msg ∧
      igRegisterEncode msg registerBufSize = .ok payload ∧
      decodeRegister payload = .ok ⟨hostname.bytes, address.bytes, monitorType, os.str.bytes⟩ ∧
      ∀ enrollmentID expectedAgentID reqMonitorType reqOS,
        enrollmentID ≠ [] →
        (expectedAgentID = [] ∨ expectedAgentID = formatUint (generateAgentID hostname.bytes address.bytes)) →
        ∃ e identity,
          checkRequest (netParseIP parseIPv6) enrollmentID expectedAgentID
            ⟨hostname.bytes, (inetNtop address).bytes, reqMonitorType, reqOS⟩ = .ok e ∧
          peerIdentityFromCert (issuedNames (enrollIdentity e.agentID)) = .ok identity ∧
          ∀ (c : PeerCert) (s : AgentSession) (f : Frame),
            c.subject = identity → c.subjectHash ≠ [] → c.fingerprint ≠ [] → s.agentID = [] → f.payload = payload →
            (c.handleRegister s f).1.agentID = e.agentID ∧
            c.certificateIdentityMatchesAgent (c.handleRegister s f).1 ∧
            ∃ p cert, .register e.agentID p cert f.answer ∈ (c.handleRegister s f).2 := by
  have hhost : hostname.length < 2 ^ 16 := by omega
  have hosLen := os.fits
  have hos : os.str.length < 2 ^ 16 := by omega
  have hfits : 9 + hostname.length + os.str.length ≤ registerBufSize := by
    unfold registerBufSize
    omega
  obtain ⟨msg, hmsg, hencode⟩ := igRegisterEncode_eq hhost hos hfits address monitorType
  refine ⟨msg, _, hmsg, hencode, decodeRegister_wire hhost hos address monitorType, ?_⟩
  intro enrollmentID expectedAgentID reqMonitorType reqOS hid hexpected
  obtain ⟨e, he, hagent⟩ := checkRequest_dotted parseIPv6 hid hne address reqMonitorType reqOS hexpected
  have hidentity := peerIdentity_issued (formatUint_ne_nil (generateAgentID hostname.bytes address.bytes))
  rw [← hagent] at hidentity
  refine ⟨e, _, he, hidentity, fun c s f hsubject hhash hprint hnew hpayload => ?_⟩
  have hreg := decodeRegister_wire hhost hos address monitorType
  rw [← hpayload] at hreg
  rw [hagent] at hsubject ⊢
  have hregisters := handleRegister_registers hnew hreg hhash hprint hsubject
  exact hregisters

theorem enrolled_registers_host :
    ∃ msg payload,
      registerMsg ⟨ascii "web-1", by decide⟩ (inetNtop ⟨[10, 0, 0, 7], rfl⟩) ⟨ascii "Linux", by decide⟩ 3 = some msg ∧
      igRegisterEncode msg registerBufSize = .ok payload ∧
      decodeRegister payload = .ok ⟨ascii "web-1", [10, 0, 0, 7], 3, ascii "Linux"⟩ := by
  obtain ⟨msg, payload, hmsg, hencode, hdecode, -⟩ :=
    enrolled_registers (fun _ => none) ⟨ascii "web-1", by decide⟩ (by decide) (by decide) ⟨[10, 0, 0, 7], rfl⟩ 3
      ⟨⟨ascii "Linux", by decide⟩, by decide⟩
  exact ⟨msg, payload, hmsg, hencode, hdecode⟩

end KnIg.Enroll
