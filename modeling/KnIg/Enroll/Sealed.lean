/-
Frames under the session keys of an enrollment: what the keys and the MACs are computed from, and that a MAC
tells from which keys, for which type and sequence number and over which ciphertext it was made.
-/
import KnIg.Lib.Oracle
import KnIg.Backend.Enrollment.Connection

namespace KnIg.Enroll

open Lib Backend

section Keys

variable (hmac : Bytes → Bytes → Octets 32)

/-- What is hashed to the session key, and what to the proof of the challenge. -/
def sessionData (m : KeyMaterial) : Bytes :=
  ascii "knig enrollment v2 session" ++ [0] ++ m.enrollmentID ++ [0] ++ m.clientNonce ++ m.serverNonce

def proofData (m : KeyMaterial) : Bytes :=
  ascii "knig enrollment server proof" ++ [0] ++ m.enrollmentID ++ [0] ++ m.clientNonce ++ m.serverNonce

def macLabel : Bytes := ascii "knig enrollment mac"

def materialKeys (m : KeyMaterial) : SessionKeys :=
  let session := hmac m.xorKey (sessionData m)
  ⟨session, hmac session.bytes (ascii "knig enrollment enc"), hmac session.bytes macLabel⟩

/-- The inputs of HMAC on the way to the MAC key. -/
def derivation (m : KeyMaterial) : List (Bytes × Bytes) := ladder hmac Octets.bytes m.xorKey (sessionData m) macLabel

/-- Both nonces have their size. -/
structure Sized (m : KeyMaterial) : Prop where
  client : m.clientNonce.length = nonceSize
  server : m.serverNonce.length = nonceSize

/-- A frame under the session keys of the material. -/
structure Sealed where
  material : KeyMaterial
  msgTyp : UInt8
  seqNum : UInt32
  payload : Bytes
deriving DecidableEq

/-- What the MAC of a frame is over. -/
def Sealed.data (x : Sealed) : Bytes := [x.msgTyp] ++ beBytes 4 x.seqNum.toNat ++ x.payload.drop protectedMACSz

/-- The key and the bytes of the MAC. -/
def Sealed.mac (x : Sealed) : Octets 32 × Bytes := ((materialKeys hmac x.material).mac, x.data)

def Sealed.opens (x : Sealed) : Bool :=
  (openProtected hmac x.msgTyp x.seqNum x.payload (materialKeys hmac x.material)).isOk

variable {hmac}

theorem deriveSessionKeys_ok {m : KeyMaterial} {keys : SessionKeys}
    (h : deriveSessionKeys hmac m.xorKey m.enrollmentID m.clientNonce m.serverNonce = .ok keys) :
    keys = materialKeys hmac m ∧ Sized m := by
  unfold deriveSessionKeys at h
  split at h
  · cases h
  · next hbad =>
    cases h
    simp only [not_or, not_not] at hbad
    exact ⟨rfl, hbad.2.2.1, hbad.2.2.2⟩

/-- A MAC key determines the material. -/
theorem material_eq {asked : List (Bytes × Bytes)} (hcf : CollisionFree hmac asked) {m m' : KeyMaterial}
    (hs : Sized m) (hs' : Sized m') (hm : derivation hmac m ⊆ asked) (hm' : derivation hmac m' ⊆ asked)
    (hk : (materialKeys hmac m).mac = (materialKeys hmac m').mac) : m = m' := by
  have hinj : Function.Injective (Octets.bytes (n := 32)) := fun _ _ => Octets.ext_bytes
  obtain ⟨hkey, hdata⟩ := hcf.ladder_inj hinj hm hm' hk
  -- the nonces have a fixed length at the end, the label a fixed one at the front
  simp only [sessionData, List.append_assoc, List.append_cancel_left_eq] at hdata
  have hsizes := hs.client.trans hs'.client.symm
  have hservers := hs.server.trans hs'.server.symm
  obtain ⟨hid, hrest⟩ := List.append_inj' hdata (by simp [hsizes, hservers])
  obtain ⟨hclient, hserver⟩ := List.append_inj (List.append_cancel_left hrest) hsizes
  cases m
  cases m'
  simp_all

theorem beBytes_inj {a b : UInt32} (h : beBytes 4 a.toNat = beBytes 4 b.toNat) : a = b := by
  have hn := congrArg beNat h
  rw [beNat_beBytes, beNat_beBytes] at hn
  apply UInt32.toNat.inj
  have ha := a.toNat_lt
  have hb := b.toNat_lt
  omega

/-- The bytes under a MAC tell the type, the sequence number and the ciphertext apart. -/
theorem Sealed.data_inj {x y : Sealed} (h : x.data = y.data) :
    x.msgTyp = y.msgTyp ∧ x.seqNum = y.seqNum ∧ x.payload.drop protectedMACSz = y.payload.drop protectedMACSz := by
  obtain ⟨hfront, hdrop⟩ := List.append_inj h (by simp)
  obtain ⟨htype, hseq⟩ := List.cons.inj hfront
  exact ⟨htype, beBytes_inj hseq, hdrop⟩

theorem Sealed.opens_iff {x : Sealed} :
    x.opens hmac = true ↔
      ∃ plain, x.payload = sealProtected hmac x.msgTyp x.seqNum plain (materialKeys hmac x.material) := by
  unfold Sealed.opens
  constructor
  · intro h
    cases ho : openProtected hmac x.msgTyp x.seqNum x.payload (materialKeys hmac x.material) with
    | error err =>
      rw [ho] at h
      cases h
    | ok plain => exact ⟨plain, openProtected_eq_ok.1 ho⟩
  · rintro ⟨plain, h⟩
    rw [openProtected_eq_ok.2 h]
    rfl

theorem sealProtected_drop (msgTyp : UInt8) (seqNum : UInt32) (plain : Bytes) (keys : SessionKeys) :
    (sealProtected hmac msgTyp seqNum plain keys).drop protectedMACSz = xorKeystream hmac plain keys.enc seqNum :=
  List.drop_left' (frameMAC ..).length_eq

theorem xorKeystream_inj {seqNum : UInt32} {plain plain' : Bytes} {encKey : Octets 32}
    (h : xorKeystream hmac plain encKey seqNum = xorKeystream hmac plain' encKey seqNum) : plain = plain' := by
  rw [← xorKeystream_xorKeystream plain encKey seqNum, h, xorKeystream_xorKeystream]

theorem sealProtected_inj {msgTyp : UInt8} {seqNum : UInt32} {plain plain' : Bytes} {keys : SessionKeys}
    (h : sealProtected hmac msgTyp seqNum plain keys = sealProtected hmac msgTyp seqNum plain' keys) :
    plain = plain' := by
  apply xorKeystream_inj
  rw [← sealProtected_drop, ← sealProtected_drop, h]

/-- Frames that open under the same MAC are the same. -/
theorem Sealed.eq_of_mac {x y : Sealed} (hm : x.material = y.material) (hd : x.data = y.data)
    (hx : x.opens hmac = true) (hy : y.opens hmac = true) : x = y := by
  obtain ⟨htype, hseq, hdrop⟩ := Sealed.data_inj hd
  obtain ⟨px, hpx⟩ := Sealed.opens_iff.1 hx
  obtain ⟨py, hpy⟩ := Sealed.opens_iff.1 hy
  rw [hpx, hpy, sealProtected_drop, sealProtected_drop, hm, hseq] at hdrop
  have hplain := xorKeystream_inj hdrop
  have hpayload : x.payload = y.payload := by rw [hpx, hpy, hm, htype, hseq, hplain]
  cases x
  cases y
  simp_all

end Keys

end KnIg.Enroll
