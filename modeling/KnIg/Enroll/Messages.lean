/-
The four enrollment messages across the wire: each side reads back what the other wrote, and no decoder
reads outside its payload or accepts anything but a whole message.
-/
import KnIg.Agent.Enroll.Messages
import KnIg.Backend.Enrollment.Messages

namespace KnIg.Enroll

open Lib Agent Backend

/-! ## Strict decoders -/

/-- A decoder that never reads outside its payload, accepts exactly the encodings of its values, and accepts
no message that is cut short or followed by more bytes. -/
structure Strict {ε α : Type} (decode : Bytes → Option (Except ε α)) (encodes : Bytes → α → Prop) : Prop where
  inside : ∀ payload, (decode payload).isSome
  exact : ∀ payload a, decode payload = some (.ok a) ↔ encodes payload a
  whole : ∀ payload t a b, decode payload = some (.ok a) → decode (payload ++ t) = some (.ok b) → t = []

/-- Where no encoding is the beginning of another, a decoder of exactly the encodings is strict. -/
theorem strict_of_exact {ε α : Type} {decode : Bytes → Option (Except ε α)} {encodes : Bytes → α → Prop}
    (hdecode : ∀ payload, ∃ res, decode payload = some res ∧ ∀ a, res = .ok a ↔ encodes payload a)
    (hwhole : ∀ payload t a b, encodes payload a → encodes (payload ++ t) b → t = []) : Strict decode encodes := by
  have hexact : ∀ payload a, decode payload = some (.ok a) ↔ encodes payload a := by
    intro payload a
    obtain ⟨res, hres, hiff⟩ := hdecode payload
    rw [hres, Option.some.injEq, hiff]
  refine ⟨fun payload => ?_, hexact, fun payload t a b ha hb => ?_⟩
  · obtain ⟨res, hres, -⟩ := hdecode payload
    rw [hres]
    rfl
  · exact hwhole payload t a b ((hexact _ _).1 ha) ((hexact _ _).1 hb)

/-! ## What each message is -/

def helloBytes (payload : Bytes) (hello : Hello) : Prop :=
  payload = counted hello.enrollmentID ++ counted hello.clientNonce ∧ hello.enrollmentID ≠ [] ∧
    hello.enrollmentID.length < 2 ^ 16 ∧ hello.clientNonce.length = nonceSize

def requestBytes (payload : Bytes) (req : Request) : Prop :=
  payload = counted req.hostname ++ counted req.ip ++ counted req.os ++ [req.monitorType] ∧
    req.hostname.length < 2 ^ 16 ∧ req.ip.length < 2 ^ 16 ∧ req.os.length < 2 ^ 16

def challengeBytes (payload : Bytes) (challenge : Octets 32 × Octets 32) : Prop :=
  payload = counted challenge.1.bytes ++ counted challenge.2.bytes

/-- The agent's strings end at the first zero byte of a field. -/
def responseBytes (payload : Bytes) (resp : IgEnrollResponse) : Prop :=
  ∃ agentId cert key ca expires : Bytes,
    payload = counted agentId ++ (counted cert ++ (counted key ++ (counted ca ++ expires))) ∧
      (∀ s ∈ [agentId, cert, key, ca], s.length < 2 ^ 16) ∧ expires.length = 8 ∧
      resp = ⟨cString agentId, cString cert, cString key, cString ca, be64ToHost expires⟩

theorem decodeHello_strict : Strict decodeHello helloBytes := by
  refine strict_of_exact decodeHello_spec ?_
  rintro payload t a b ⟨rfl, -, hla, hna⟩ ⟨hb, -, hlb, hnb⟩
  have hnonce : ∀ n : Bytes, n.length = nonceSize → n.length < 2 ^ 16 := fun n hn => by rw [hn]; decide
  rw [List.append_assoc] at hb
  obtain ⟨-, hb⟩ := counted_append_inj hla hlb hb
  rw [← List.append_nil (counted b.clientNonce)] at hb
  exact (counted_append_inj (hnonce _ hna) (hnonce _ hnb) hb).2

theorem decodeRequest_strict : Strict decodeRequest requestBytes := by
  refine strict_of_exact decodeRequest_spec ?_
  rintro payload t a b ⟨rfl, ha₁, ha₂, ha₃⟩ ⟨hb, hb₁, hb₂, hb₃⟩
  simp only [List.append_assoc] at hb
  obtain ⟨-, hb⟩ := counted_append_inj ha₁ hb₁ hb
  obtain ⟨-, hb⟩ := counted_append_inj ha₂ hb₂ hb
  obtain ⟨-, hb⟩ := counted_append_inj ha₃ hb₃ hb
  exact (List.cons.inj hb).2

theorem decodeChallenge_strict (seq : UInt32) :
    Strict (fun payload => decodeChallenge true true ⟨igMsgXorChallenge, seq, payload⟩) challengeBytes := by
  refine strict_of_exact (fun payload => ?_) ?_
  · obtain ⟨res, hres, hiff⟩ := decodeChallenge_spec true true seq payload
    refine ⟨res, hres, fun a => ?_⟩
    rw [hiff a.1 a.2]
    exact ⟨And.left, fun h => ⟨h, rfl, rfl⟩⟩
  · rintro payload t a b rfl hb
    have hl : ∀ o : Octets 32, o.bytes.length < 2 ^ 16 := fun o => by simp
    rw [challengeBytes, List.append_assoc] at hb
    obtain ⟨-, hb⟩ := counted_append_inj (hl _) (hl _) hb
    rw [← List.append_nil (counted b.2.bytes)] at hb
    exact (counted_append_inj (hl _) (hl _) hb).2

theorem decodeResponsePlain_strict : Strict (decodeResponsePlain fun _ => true) responseBytes := by
  refine strict_of_exact (fun payload => ?_) ?_
  · obtain ⟨res, hres, hiff⟩ := decodeResponsePlain_spec (fun _ => true) payload
    refine ⟨res, hres, fun a => ?_⟩
    rw [hiff]
    exact ⟨And.right, fun h => ⟨fun _ => rfl, h⟩⟩
  · rintro payload t a b ⟨i, c, k, ca, e, rfl, hl, he, -⟩ ⟨i', c', k', ca', e', hb, hl', he', -⟩
    simp only [List.mem_cons, List.not_mem_nil, or_false, forall_eq_or_imp, forall_eq] at hl hl'
    simp only [List.append_assoc] at hb
    obtain ⟨-, hb⟩ := counted_append_inj hl.1 hl'.1 hb
    obtain ⟨-, hb⟩ := counted_append_inj hl.2.1 hl'.2.1 hb
    obtain ⟨-, hb⟩ := counted_append_inj hl.2.2.1 hl'.2.2.1 hb
    obtain ⟨-, hb⟩ := counted_append_inj hl.2.2.2 hl'.2.2.2 hb
    have hlen := congrArg List.length hb
    rw [List.length_append] at hlen
    exact List.eq_nil_of_length_eq_zero (by omega)

/-! ## Across the wire -/

theorem cString_bytes (s : CStr) : cString s.bytes = s := by
  apply CStr.ext_bytes
  refine List.takeWhile_eq_self_iff.2 fun b hb => ?_
  simp only [ne_eq, decide_not, Bool.not_eq_eq_eq_not, Bool.not_true, decide_eq_false_iff_not]
  rintro rfl
  exact s.noNul hb

/-- The agent reads the eight bytes of a word back. -/
theorem be64ToHost_beBytes (v : UInt64) : be64ToHost (beBytes 8 v.toNat) = v := by
  have hsplit : beBytes 8 v.toNat = beBytes 4 (v.toNat / 256 ^ 4) ++ beBytes 4 v.toNat := beBytes_add 4 4 v.toNat
  have hhi : UInt32.ofNat (beNat (beBytes 4 (v.toNat / 256 ^ 4))) = (v >>> 32).toUInt32 := by
    apply UInt32.toNat.inj
    have := v.toNat_lt
    simp [beNat_beBytes, Nat.shiftRight_eq_div_pow]
  have hlo : UInt32.ofNat (beNat (beBytes 4 v.toNat)) = (v &&& 0xFFFFFFFF).toUInt32 := by
    apply UInt32.toNat.inj
    rw [beNat_beBytes, UInt64.toNat_toUInt32, UInt64.toNat_and]
    show _ = (v.toNat &&& (2 ^ 32 - 1)) % 2 ^ 32
    rw [Nat.and_two_pow_sub_one_eq_mod]
    simp
  rw [be64ToHost, hsplit, List.take_left' (beBytes_length 4 _), List.drop_left' (beBytes_length 4 _), hhi, hlo,
    u64_halves]

/-- Each side reads back what the other wrote; the server takes no hello without an enrollment id. -/
theorem messages_agree :
    (∀ (enrollmentId : CStr) (clientNonce : Octets 32),
      enrollmentId.bytes ≠ [] → enrollmentId.length < 2 ^ 16 →
        ∃ payload, encodeHello true enrollmentId clientNonce = some payload ∧
          decodeHello payload = some (.ok ⟨enrollmentId.bytes, clientNonce.bytes⟩)) ∧
    (∀ cfg : IgEnrollConfig,
      cfg.hostname.length < 2 ^ 16 → cfg.ip.length < 2 ^ 16 → cfg.os.length < 2 ^ 16 →
        ∃ payload, encodeRequestPlain true cfg = some payload ∧
          decodeRequest payload = some (.ok ⟨cfg.hostname.bytes, cfg.ip.bytes, cfg.monitorType, cfg.os.bytes⟩)) ∧
    (∀ (serverNonce proof : Octets 32) (seq : UInt32),
      ∃ payload, encodeChallenge ⟨serverNonce.bytes, proof.bytes⟩ = .ok payload ∧
        decodeChallenge true true ⟨igMsgXorChallenge, seq, payload⟩ = some (.ok (serverNonce, proof))) ∧
    (∀ (agentId cert key ca : CStr) (expiresAt : Int64),
      (∀ s ∈ [agentId, cert, key, ca], s.length < 2 ^ 16) →
        ∃ payload, encodeResponse ⟨agentId.bytes, cert.bytes, key.bytes, ca.bytes, expiresAt⟩ = .ok payload ∧
          decodeResponsePlain (fun _ => true) payload =
            some (.ok ⟨agentId, cert, key, ca, expiresAt.toUInt64⟩)) ∧
    Strict decodeHello helloBytes ∧ Strict decodeRequest requestBytes ∧
    (∀ seq, Strict (fun payload => decodeChallenge true true ⟨igMsgXorChallenge, seq, payload⟩) challengeBytes) ∧
    Strict (decodeResponsePlain fun _ => true) responseBytes ∧
    (∀ callocNonce callocProof frame, (decodeChallenge callocNonce callocProof frame).isSome) ∧
    ∀ calloc payload, (decodeResponsePlain calloc payload).isSome := by
  refine ⟨?_, ?_, ?_, ?_, decodeHello_strict, decodeRequest_strict, decodeChallenge_strict,
    decodeResponsePlain_strict, ?_, ?_⟩
  · intro enrollmentId clientNonce hne hid
    refine ⟨_, encodeHello_eq hid clientNonce, (decodeHello_strict.exact _ _).2 ⟨rfl, hne, hid, ?_⟩⟩
    exact clientNonce.length_eq
  · intro cfg hhost hip hos
    exact ⟨_, encodeRequestPlain_eq hhost hip hos, (decodeRequest_strict.exact _ _).2 ⟨rfl, hhost, hip, hos⟩⟩
  · intro serverNonce proof seq
    refine ⟨_, encodeChallenge_eq (by simp) (by simp), ((decodeChallenge_strict seq).exact _ _).2 rfl⟩
  · intro agentId cert key ca expiresAt hl
    simp only [List.mem_cons, List.not_mem_nil, or_false, forall_eq_or_imp, forall_eq, CStr.length] at hl
    have hfits : ∀ s ∈ [agentId.bytes, cert.bytes, key.bytes, ca.bytes], s.length < 2 ^ 16 := by
      simpa only [List.mem_cons, List.not_mem_nil, or_false, forall_eq_or_imp, forall_eq] using hl
    refine ⟨_, encodeResponse_eq hfits, (decodeResponsePlain_strict.exact _ _).2 ?_⟩
    refine ⟨agentId.bytes, cert.bytes, key.bytes, ca.bytes, _, rfl, hfits, beBytes_length 8 _, ?_⟩
    simp only [cString_bytes, be64ToHost_beBytes]
  · rintro callocNonce callocProof ⟨type, seq, payload⟩
    by_cases htype : type = igMsgXorChallenge
    · subst htype
      obtain ⟨res, hres, -⟩ := decodeChallenge_spec callocNonce callocProof seq payload
      rw [hres]
      rfl
    · unfold decodeChallenge
      rw [if_pos htype]
      split <;> rfl
  · intro calloc payload
    obtain ⟨res, hres, -⟩ := decodeResponsePlain_spec calloc payload
    rw [hres]
    rfl

theorem messages_agree_hello :
    ∃ payload, encodeHello true ⟨ascii "enr-1", by decide⟩ ⟨List.replicate 32 7, rfl⟩ = some payload ∧
      decodeHello payload = some (.ok ⟨ascii "enr-1", List.replicate 32 7⟩) :=
  messages_agree.1 ⟨ascii "enr-1", by decide⟩ ⟨List.replicate 32 7, rfl⟩ (by decide) (by decide)

/-- The agent encodes a hello with an empty id, which the server refuses. -/
theorem messages_agree_emptyID_fails :
    ¬ ∀ (enrollmentId : CStr) (clientNonce : Octets 32), enrollmentId.length < 2 ^ 16 →
      ∃ payload, encodeHello true enrollmentId clientNonce = some payload ∧
        decodeHello payload = some (.ok ⟨enrollmentId.bytes, clientNonce.bytes⟩) := by
  intro h
  obtain ⟨payload, -, hdecode⟩ := h ⟨[], by decide⟩ ⟨List.replicate 32 7, rfl⟩ (by decide)
  obtain ⟨-, hne, -⟩ := (decodeHello_strict.exact _ _).1 hdecode
  exact hne rfl

end KnIg.Enroll
