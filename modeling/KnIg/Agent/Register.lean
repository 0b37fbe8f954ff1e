/-
The agent's REGISTER message: the address text it is built from, and the payload it becomes.
-/
import KnIg.Agent.Transport
import KnIg.Lib.DottedQuad

namespace KnIg.Agent

open Lib

/-- `inet_ntop(AF_INET, …)`. -/
def inetNtop (address : Octets 4) : CStr := ⟨dotted address, zero_notMem_dotted address⟩

/-- `inet_pton(AF_INET, …)`: the four bytes of `s_addr` as they stand in memory. -/
def inetPton (s : CStr) : Option (Octets 4) := parseQuad s.bytes

/-- `ntohl` of the word that stands in memory as these bytes. -/
def ntohl (word : Octets 4) : UInt32 := UInt32.ofNat (beNat word.bytes)

/-- `ig_msg_register_t`. -/
structure IgMsgRegister where
  hostnameLen : UInt16
  hostname : Bytes
  ip : UInt32
  monitorType : UInt8
  osLen : UInt16
  os : Bytes

/-- The message of `ig_tcp_register_internal_locked`; `none` where the address text is none. -/
def registerMsg (hostname ipStr os : CStr) (monitorType : UInt8) : Option IgMsgRegister :=
  match inetPton ipStr with
  | none => none
  | some addr =>
    some
      { hostnameLen := UInt16.ofNat hostname.length
        hostname := hostname.bytes
        ip := ntohl addr
        monitorType
        osLen := UInt16.ofNat os.length
        os := os.bytes }

/-- `sizeof(buf)` in `ig_tcp_register_internal_locked`. -/
def registerBufSize : Nat := 1024

def igRegisterEncode (msg : IgMsgRegister) (bufSize : Nat) : Encoded :=
  let need := 2 + msg.hostnameLen.toNat + 4 + 1 + 2 + msg.osLen.toNat
  if need > bufSize then .error []
  else
    let p := writeStr [] msg.hostname msg.hostnameLen
    let p := writeU32 p msg.ip
    let p := writeU8 p msg.monitorType
    let p := writeStr p msg.os msg.osLen
    .ok p

/-! ## What is written -/

/-- The word of an address goes onto the wire as the bytes of the address. -/
theorem beBytes_ntohl (address : Octets 4) : beBytes 4 (ntohl address).toNat = address.bytes := by
  have hlt : beNat address.bytes < 2 ^ 32 := by
    have h := beNat_lt address.bytes
    rwa [address.length_eq] at h
  have h := beBytes_beNat address.bytes
  rw [address.length_eq] at h
  rw [ntohl, UInt32.toNat_ofNat_of_lt' hlt, h]

theorem writeStr_cstr {s : CStr} (hs : s.length < 2 ^ 16) (p : Bytes) :
    writeStr p s.bytes (UInt16.ofNat s.length) = p ++ (beBytes 2 s.bytes.length ++ s.bytes) := by
  have hlen : (UInt16.ofNat s.length).toNat = s.bytes.length := UInt16.toNat_ofNat_of_lt' hs
  rw [writeStr_eq, hlen, List.take_length]

/-- The payload of a registration that fits its buffer. -/
theorem igRegisterEncode_eq {hostname os : CStr} (hhost : hostname.length < 2 ^ 16) (hos : os.length < 2 ^ 16)
    {bufSize : Nat} (hfits : 9 + hostname.length + os.length ≤ bufSize) (address : Octets 4) (monitorType : UInt8) :
    ∃ msg, registerMsg hostname (inetNtop address) os monitorType = some msg ∧
      igRegisterEncode msg bufSize =
        .ok ((beBytes 2 hostname.bytes.length ++ hostname.bytes) ++ (address.bytes ++ ([monitorType] ++
          (beBytes 2 os.bytes.length ++ os.bytes)))) := by
  have haddr : inetPton (inetNtop address) = some address := parseQuad_dotted address
  refine ⟨_, by simp only [registerMsg, haddr]; rfl, ?_⟩
  have hneed : ¬ 2 + (UInt16.ofNat hostname.length).toNat + 4 + 1 + 2 + (UInt16.ofNat os.length).toNat > bufSize := by
    rw [UInt16.toNat_ofNat_of_lt' hhost, UInt16.toNat_ofNat_of_lt' hos]
    omega
  simp only [igRegisterEncode, if_neg hneed, writeU32, writeU8, writeStr_cstr hhost, writeStr_cstr hos,
    beBytes_ntohl, List.nil_append, List.append_assoc]

end KnIg.Agent
