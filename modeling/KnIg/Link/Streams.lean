/-
Frames over a connection that delivers its bytes in pieces of any size. The four writers put down a header
of nine bytes and the payload, with a length that counts the payload (transport) or the whole frame
(enrollment), and the readers of the other side get the sequence of frames back.
-/
import KnIg.Agent.Enroll.Execute
import KnIg.Backend.Enrollment.Connection
import KnIg.Lib.Chunks
import KnIg.Link.Framing

namespace KnIg

open Lib Lib.ChunkReader

/-! ## The agent -/

namespace Agent

def igFrameHeaderDecode (buf : Bytes) : IgFrameHeader :=
  ⟨UInt32.ofNat (beNat (buf.take 4)), buf.getD 4 0, UInt32.ofNat (beNat ((buf.drop 5).take 4))⟩

/-- `ssl_read_all`: an `SSL_read` that brings nothing ends it. -/
def sslReadAll (len : Nat) : ChunkReader Unit Bytes := readFull false (fun _ => ()) len

/-- `ig_tcp_recv_frame_locked` once the client has a connection. -/
def recvFrameOn (malloc : Bool) : ChunkReader Unit (IgFrameHeader × Bytes) := do
  let hdrBuf ← sslReadAll igFrameHeaderSize
  let hdr := igFrameHeaderDecode hdrBuf
  if hdr.length.toNat > igMaxFrameSize then throw ()
  else if hdr.length > 0 then
    if !malloc then throw ()
    else
      let payload ← sslReadAll hdr.length.toNat
      return (hdr, payload)
  else return (hdr, [])

def igTcpRecvFrameLocked (cli : IgTcpClient) (malloc : Bool) : ChunkReader Unit (IgFrameHeader × Bytes) :=
  if cli.state ≠ .connected ∨ cli.ssl = none then throw () else recvFrameOn malloc

/-- The bytes of a frame of the enrollment: the length counts the header. -/
def IgFrame.bytes (f : IgFrame) : Bytes :=
  beBytes 4 (f.payload.length + igEnrollFrameHeaderSize) ++ f.type :: beBytes 4 f.seq.toNat ++ f.payload

/-- What `send_frame` writes, when its writes go through. -/
def IgFrame.sent (f : IgFrame) : Bytes := ((sendFrame true f.type f.seq f.payload).1.map IgFrame.bytes).getD []

/-- `read_all`: an interrupted read is repeated. -/
def readAllFd (len : Nat) : ChunkReader Unit Bytes := readFull true (fun _ => ()) len

/-- `read_frame`. -/
def enrollReadFrame (calloc : Bool) : ChunkReader Unit IgFrame := do
  let hdr ← readAllFd igEnrollFrameHeaderSize
  let frameLen := beNat (hdr.take 4)
  if frameLen < igEnrollFrameHeaderSize ∨ frameLen > igEnrollMaxFrameSize then throw ()
  else
    let payloadLen := frameLen - igEnrollFrameHeaderSize
    if !calloc then throw ()
    else
      let payload ← if payloadLen = 0 then pure [] else readAllFd payloadLen
      return ⟨hdr.getD 4 0, UInt32.ofNat (beNat ((hdr.drop 5).take 4)), payload⟩

end Agent

/-! ## The server -/

namespace Backend

/-- `io.ReadFull`, with the error put in a context. -/
def ioReadFull (f : String → String) (n : Nat) : ChunkReader String Bytes :=
  ChunkReader.readFull true (fun got => f (if got = [] then "EOF" else "unexpected EOF")) n

/-- `ReadFrame` of the collector. -/
def Collector.readFrame : ChunkReader String (FrameHeader × Bytes) := do
  let hdrBuf ← ioReadFull (fun err => "프레임 헤더 읽기 실패: " ++ err) frameHeaderSize
  let hdr : FrameHeader :=
    ⟨UInt32.ofNat (beNat (hdrBuf.take 4)), hdrBuf.getD 4 0, UInt32.ofNat (beNat ((hdrBuf.drop 5).take 4))⟩
  if hdr.length.toNat > maxFrameSize then
    throw ("프레임 크기 초과: " ++ toString hdr.length.toNat ++ " > " ++ toString maxFrameSize)
  else if hdr.length > 0 then
    let payload ← ioReadFull (fun err => "payload 읽기 실패: " ++ err) hdr.length.toNat
    return (hdr, payload)
  else return (hdr, [])

/-- What `WriteFrame` of the collector writes, when its writes go through. -/
def Collector.writeFrame (msgType : UInt8) (seqNum : UInt32) (payload : Bytes) : Bytes :=
  beBytes 4 (UInt32.ofNat payload.length).toNat ++ msgType :: beBytes 4 seqNum.toNat ++ payload

/-- `readFrame` of the enrollment. -/
def enrollReadFrame : ChunkReader String EnrollFrame := do
  let hdrBuf ← ioReadFull id enrollFrameHeaderSize
  let length := beNat (hdrBuf.take 4)
  if length > enrollMaxFrameSize then throw ("frame length 초과: " ++ toString length)
  else if length < enrollFrameHeaderSize then throw ("잘못된 frame length: " ++ toString length)
  else
    let payload ← ioReadFull id (length - enrollFrameHeaderSize)
    return ⟨hdrBuf.getD 4 0, UInt32.ofNat (beNat ((hdrBuf.drop 5).take 4)), payload⟩

/-- The bytes of a frame of the enrollment. -/
def EnrollFrame.bytes (f : EnrollFrame) : Bytes :=
  beBytes 4 (f.payload.length + enrollFrameHeaderSize) ++ f.msgTyp :: beBytes 4 f.seqNum.toNat ++ f.payload

/-- What `writeFrame` of the enrollment writes, when its writes go through. -/
def EnrollFrame.sent (f : EnrollFrame) : Bytes :=
  ((writeFrame true f.msgTyp f.seqNum f.payload).1.map EnrollFrame.bytes).getD []

end Backend

namespace Link

open Agent Backend

/-! ## Headers -/

/-- The three fields of a header of nine bytes. -/
structure Header (hdr : Bytes) (length : Nat) (type : UInt8) (seq : UInt32) : Prop where
  size : hdr.length = 9
  length_eq : beNat (hdr.take 4) = length
  type_eq : hdr.getD 4 0 = type
  seq_eq : UInt32.ofNat (beNat ((hdr.drop 5).take 4)) = seq

theorem header_fields {length : Nat} (h : length < 2 ^ 32) (type : UInt8) (seq : UInt32) :
    Header (beBytes 4 length ++ type :: beBytes 4 seq.toNat) length type seq := by
  refine ⟨by simp, ?_, ?_, ?_⟩
  · rw [List.take_left' (beBytes_length 4 length), beNat_beBytes, Nat.mod_eq_of_lt (b := 256 ^ 4) h]
  · simp [List.getD_eq_getElem?_getD]
  · rw [show (5 : Nat) = (beBytes 4 length).length + 1 by rw [beBytes_length], ← List.drop_drop, List.drop_left,
      List.drop_one, List.tail_cons, List.take_of_length_le (beBytes_length 4 _).le, beNat_beBytes,
      Nat.mod_eq_of_lt (b := 256 ^ 4) seq.toNat_lt, UInt32.ofNat_toNat]

section Readers

variable {retry : Bool} {hdr payload : Bytes} {length : Nat} {type : UInt8} {seq : UInt32}

/-- A header of nine bytes is read as it is. -/
theorem Header.reads {ε : Type} (h : Header hdr length type seq) (short : Bytes → ε) :
    ChunkReader.Reads retry (ChunkReader.readFull retry short 9) hdr hdr := by
  have hr : ChunkReader.Reads retry (ChunkReader.readFull retry short hdr.length) hdr hdr :=
    ChunkReader.reads_readFull short hdr
  rwa [h.size] at hr

/-! ## The transport -/

/-- In pieces or whole, the server reads the same. -/
theorem follows_readFrame : Follows true Collector.readFrame Backend.readFrame := by
  have hfull : ∀ f n, Follows true (ioReadFull f n) (Reader.wrap f (Backend.readFull n)) := by
    intro f n
    have hwrap : Reader.wrap f (Backend.readFull n) =
        fun bs => if bs.length < n then .error (f (if bs = [] then "EOF" else "unexpected EOF"))
          else .ok (bs.take n, bs.drop n) := by
      funext bs
      unfold Reader.wrap Backend.readFull
      split <;> rfl
    rw [hwrap]
    exact follows_readFull _ n
  refine (hfull _ frameHeaderSize).bind fun hdrBuf => ?_
  dsimp only
  split
  · exact follows_throw _
  split
  · exact (hfull _ _).bind fun payload => follows_pure _
  · exact follows_pure _

theorem readFrame_end {pieces : List Bytes} (h : pieces.flatten = []) :
    ∃ err rest, Collector.readFrame pieces = (.error err, rest) := by
  have hplain : Backend.readFrame pieces.flatten = .error ("프레임 헤더 읽기 실패: " ++ "EOF") := by
    rw [h]
    rfl
  exact ⟨_, follows_readFrame.error pieces _ (.inl rfl) hplain⟩

/-- The agent reads a frame of the server. -/
theorem reads_recvFrame (f : SentFrame) :
    ChunkReader.Reads false (recvFrameOn true) (Collector.writeFrame f.type f.seqNum f.payload)
      (⟨UInt32.ofNat f.payload.length, f.type, f.seqNum⟩, f.payload) := by
  have hlen : (UInt32.ofNat f.payload.length).toNat = f.payload.length :=
    UInt32.toNat_ofNat_of_lt' (f.fits.trans_lt (by decide))
  have hh := header_fields (UInt32.ofNat f.payload.length).toNat_lt f.type f.seqNum
  refine (hh.reads _).bind ?_
  simp only [igFrameHeaderDecode, hh.length_eq, hh.type_eq, hh.seq_eq, UInt32.ofNat_toNat]
  rw [if_neg (by rw [hlen]; exact not_lt.2 f.fits)]
  split
  · have hp : ChunkReader.Reads false (sslReadAll f.payload.length) f.payload f.payload :=
      ChunkReader.reads_readFull (fun _ => ()) f.payload
    rw [← hlen] at hp
    exact hp.last
  · next h0 =>
    have hnil : f.payload = [] := by
      rw [← List.length_eq_zero_iff, ← hlen]
      simpa [UInt32.lt_iff_toNat_lt] using h0
    rw [hnil]
    exact ChunkReader.reads_pure _

theorem igTcpRecvFrameLocked_connected {cli : IgTcpClient} (hs : cli.state = .connected) (hl : cli.ssl.isSome) :
    igTcpRecvFrameLocked cli = recvFrameOn := by
  have hne : cli.ssl ≠ none := Option.isSome_iff_ne_none.1 hl
  funext malloc
  exact if_neg (by simp [hs, hne])

theorem recvFrame_end {pieces : List Bytes} (hflows : Flows false pieces) (h : pieces.flatten = []) :
    ∃ err rest, recvFrameOn true pieces = (.error err, rest) := by
  obtain ⟨rest, hr⟩ := readFull_end (n := igFrameHeaderSize) (by decide) (fun _ => ()) hflows h
  exact ⟨(), rest, bind_of_error hr⟩

/-! ## The enrollment -/

theorem IgFrame.sent_eq {f : IgFrame} (hf : f.payload.length + 9 ≤ 65535) : f.sent = f.bytes := by
  have hfits : ¬ f.payload.length + igEnrollFrameHeaderSize > igEnrollMaxFrameSize := not_lt.2 hf
  rw [IgFrame.sent, sendFrame, if_neg hfits]
  rfl

theorem EnrollFrame.sent_eq {f : EnrollFrame} (hf : f.payload.length + 9 ≤ 65535) : f.sent = f.bytes := by
  have hfits : ¬ f.payload.length + enrollFrameHeaderSize > enrollMaxFrameSize := not_lt.2 hf
  rw [EnrollFrame.sent, writeFrame, if_neg hfits]
  rfl

/-- The server reads a frame of the agent. -/
theorem reads_sent_agent {f : IgFrame} (hf : f.payload.length + 9 ≤ 65535) :
    ChunkReader.Reads true Backend.enrollReadFrame f.sent ⟨f.type, f.seq, f.payload⟩ := by
  have hlt : f.payload.length + igEnrollFrameHeaderSize < 2 ^ 32 := hf.trans_lt (by decide)
  have hh := header_fields hlt f.type f.seq
  have hlong : ¬ f.payload.length + igEnrollFrameHeaderSize > enrollMaxFrameSize := not_lt.2 hf
  have hshort : ¬ f.payload.length + igEnrollFrameHeaderSize < enrollFrameHeaderSize :=
    not_lt.2 (Nat.le_add_left 9 f.payload.length)
  rw [IgFrame.sent_eq hf]
  refine (hh.reads _).bind ?_
  simp only [hh.length_eq, hh.type_eq, hh.seq_eq]
  rw [if_neg hlong, if_neg hshort]
  exact (ChunkReader.reads_readFull _ f.payload).last

/-- The agent reads a frame of the server. -/
theorem reads_sent_server {f : EnrollFrame} (hf : f.payload.length + 9 ≤ 65535) :
    ChunkReader.Reads true (Agent.enrollReadFrame true) f.sent ⟨f.msgTyp, f.seqNum, f.payload⟩ := by
  have hlt : f.payload.length + enrollFrameHeaderSize < 2 ^ 32 := hf.trans_lt (by decide)
  have hh := header_fields hlt f.msgTyp f.seqNum
  have hfits : ¬ (f.payload.length + enrollFrameHeaderSize < igEnrollFrameHeaderSize ∨
      f.payload.length + enrollFrameHeaderSize > igEnrollMaxFrameSize) := by
    simp only [enrollFrameHeaderSize, igEnrollFrameHeaderSize, igEnrollMaxFrameSize]
    omega
  rw [EnrollFrame.sent_eq hf]
  refine (hh.reads _).bind ?_
  simp only [hh.length_eq, hh.type_eq, hh.seq_eq]
  rw [if_neg hfits, if_neg (by decide)]
  split
  · next h0 =>
    have hnil : f.payload = [] := List.length_eq_zero_iff.1 h0
    rw [hnil]
    exact ChunkReader.reads_pure _
  · exact (ChunkReader.reads_readFull (fun _ => ()) f.payload).last

theorem enrollReadFrame_agent_end {pieces : List Bytes} (h : pieces.flatten = []) :
    ∃ err rest, Agent.enrollReadFrame true pieces = (.error err, rest) := by
  have hflows : Flows true pieces := .inl rfl
  obtain ⟨rest, hr⟩ := readFull_end (n := igEnrollFrameHeaderSize) (by decide) (fun _ => ()) hflows h
  exact ⟨(), rest, bind_of_error hr⟩

theorem enrollReadFrame_server_end {pieces : List Bytes} (h : pieces.flatten = []) :
    ∃ err rest, Backend.enrollReadFrame pieces = (.error err, rest) := by
  have hflows : Flows true pieces := .inl rfl
  obtain ⟨rest, hr⟩ := readFull_end (n := enrollFrameHeaderSize) (by decide)
    (fun got => id (if got = [] then "EOF" else "unexpected EOF")) hflows h
  exact ⟨_, rest, bind_of_error hr⟩

/-! ## Headers that announce too much -/

theorem Header.of_size (hsize : hdr.length = 9) :
    Header hdr (beNat (hdr.take 4)) (hdr.getD 4 0) (UInt32.ofNat (beNat ((hdr.drop 5).take 4))) :=
  ⟨hsize, rfl, rfl, rfl⟩

theorem length_field_toNat (hsize : hdr.length = 9) :
    (UInt32.ofNat (beNat (hdr.take 4))).toNat = beNat (hdr.take 4) := by
  have hlt := beNat_lt (hdr.take 4)
  rw [List.length_take, hsize] at hlt
  exact UInt32.toNat_ofNat_of_lt' hlt

/-- A reader that refuses a header leaves the payload unread. -/
theorem refuses_recvFrame (hsize : hdr.length = 9) (hbig : 65535 < beNat (hdr.take 4)) :
    Refuses false (recvFrameOn true) hdr () := by
  refine ((Header.of_size hsize).reads _).refuses ?_
  simp only [igFrameHeaderDecode, length_field_toNat hsize]
  exact if_pos hbig

theorem refuses_readFrame (hsize : hdr.length = 9) (hbig : 65535 < beNat (hdr.take 4)) :
    Refuses true Collector.readFrame hdr
      ("프레임 크기 초과: " ++ toString (beNat (hdr.take 4)) ++ " > " ++ toString maxFrameSize) := by
  refine ((Header.of_size hsize).reads _).refuses ?_
  simp only [length_field_toNat hsize]
  exact if_pos hbig

theorem refuses_enrollReadFrame_agent (hsize : hdr.length = 9)
    (hbad : beNat (hdr.take 4) < 9 ∨ 65535 < beNat (hdr.take 4)) :
    Refuses true (Agent.enrollReadFrame true) hdr () := by
  refine ((Header.of_size hsize).reads _).refuses ?_
  exact if_pos hbad

theorem refuses_enrollReadFrame_server (hsize : hdr.length = 9)
    (hbad : beNat (hdr.take 4) < 9 ∨ 65535 < beNat (hdr.take 4)) :
    ∃ err, Refuses true Backend.enrollReadFrame hdr err := by
  have hr : ChunkReader.Reads true (ioReadFull id enrollFrameHeaderSize) hdr hdr := (Header.of_size hsize).reads _
  by_cases hbig : beNat (hdr.take 4) > enrollMaxFrameSize
  · exact ⟨_, hr.refuses (if_pos hbig)⟩
  · have hsmall : beNat (hdr.take 4) < enrollFrameHeaderSize := hbad.resolve_right hbig
    refine ⟨"잘못된 frame length: " ++ toString (beNat (hdr.take 4)), hr.refuses ?_⟩
    dsimp only
    rw [if_neg hbig, if_pos hsmall]

end Readers

/-! ## Sequences of frames -/

/-- The client with its counter just before a frame's number. -/
def before (cli : IgTcpClient) (f : SentFrame) : IgTcpClient := { cli with seqNum := f.seqNum - 1 }

/-- `ig_tcp_send_frame` of a frame. -/
def sendNumbered (cli : IgTcpClient) (f : SentFrame) (results : List Int) : IgTcpClient :=
  ((before cli f).sendFrameLocked f.type f.payload results).cli

/-- One frame after the other, each with what its writes return. -/
def sendAll (cli : IgTcpClient) (sends : List (SentFrame × List Int)) : IgTcpClient :=
  sends.foldl (fun cli s => sendNumbered cli s.1 s.2) cli

theorem sendNumbered_carries {cli : IgTcpClient} (hs : cli.state = .connected) {stream : Bytes}
    (hl : cli.ssl = some stream) {f : SentFrame} {results : List Int} (hf : Carries results f.payload.length) :
    (sendNumbered cli f results).state = .connected ∧ (sendNumbered cli f results).ssl = some (stream ++ f.bytes) := by
  have hs' : (before cli f).state = .connected := hs
  have hl' : (before cli f).ssl = some stream := hl
  have hseq : (before cli f).seqNum + 1 = f.seqNum := by simp [before]
  obtain ⟨written, -, hall, -, heq⟩ := IgTcpClient.sendFrameLocked_eq hs' hl' f.fits f.type results
  rw [if_pos hf] at heq
  rw [sendNumbered, heq, hall.1 hf, hseq]
  exact ⟨hs, rfl⟩

/-- Writes that carry all of each frame put down the frames. -/
theorem sendAll_ssl {cli : IgTcpClient} {sends : List (SentFrame × List Int)}
    (hw : ∀ s ∈ sends, Carries s.2 s.1.payload.length) (hs : cli.state = .connected) {stream : Bytes}
    (hl : cli.ssl = some stream) :
    (sendAll cli sends).ssl = some (stream ++ sends.flatMap fun s => s.1.bytes) := by
  induction sends generalizing cli stream with
  | nil => simp [sendAll, hl]
  | cons s sends ih =>
    obtain ⟨hs', hl'⟩ := sendNumbered_carries hs hl (hw s List.mem_cons_self)
    have hrest := ih (fun t ht => hw t (List.mem_cons_of_mem s ht)) hs' hl'
    rw [List.flatMap_cons, ← List.append_assoc]
    exact hrest

/-- What one side writes, in any pieces, the other reads back as the same sequence of frames, and a header
that announces more than a frame holds is refused before the payload is read; so in both framings. -/
theorem frames_read_back :
    (∀ (cli : IgTcpClient) (sends : List (SentFrame × List Int)) (pieces : List Bytes),
      (∀ s ∈ sends, Carries s.2 s.1.payload.length) → (sendAll cli.connected sends).ssl = some pieces.flatten →
        ReadBack Collector.readFrame pieces (sends.map fun s => ((received s.1).hdr, s.1.payload))) ∧
    (∀ (cli : IgTcpClient) (fs : List SentFrame) (pieces : List Bytes),
      cli.state = .connected → cli.ssl.isSome → [] ∉ pieces →
      pieces.flatten = fs.flatMap (fun f => Collector.writeFrame f.type f.seqNum f.payload) →
        ReadBack (igTcpRecvFrameLocked cli true) pieces
          (fs.map fun f => (⟨UInt32.ofNat f.payload.length, f.type, f.seqNum⟩, f.payload))) ∧
    (∀ (fs : List IgFrame) (pieces : List Bytes), (∀ f ∈ fs, f.payload.length + 9 ≤ 65535) →
      pieces.flatten = fs.flatMap IgFrame.sent →
        ReadBack Backend.enrollReadFrame pieces (fs.map fun f => ⟨f.type, f.seq, f.payload⟩)) ∧
    (∀ (fs : List EnrollFrame) (pieces : List Bytes), (∀ f ∈ fs, f.payload.length + 9 ≤ 65535) →
      pieces.flatten = fs.flatMap EnrollFrame.sent →
        ReadBack (Agent.enrollReadFrame true) pieces (fs.map fun f => ⟨f.msgTyp, f.seqNum, f.payload⟩)) ∧
    ∀ hdr : Bytes, hdr.length = 9 →
      (65535 < beNat (hdr.take 4) →
        (∃ err, Refuses true Collector.readFrame hdr err) ∧
          ∀ cli : IgTcpClient, cli.state = .connected → cli.ssl.isSome →
            Refuses false (igTcpRecvFrameLocked cli true) hdr ()) ∧
      (beNat (hdr.take 4) < 9 ∨ 65535 < beNat (hdr.take 4) →
        (∃ err, Refuses true Backend.enrollReadFrame hdr err) ∧ Refuses true (Agent.enrollReadFrame true) hdr ()) := by
  refine ⟨?_, ?_, ?_, ?_, fun hdr hsize => ⟨fun hbig => ⟨⟨_, refuses_readFrame hsize hbig⟩, ?_⟩, fun hbad => ?_⟩⟩
  · intro cli sends pieces hw hpieces
    rw [sendAll_ssl hw rfl rfl, List.nil_append, Option.some.injEq] at hpieces
    exact readBack_flatMap (fun _ _ h => readFrame_end h) (fun s _ => follows_readFrame.reads (reads_sentFrame s.1))
      (.inl rfl) hpieces.symm
  · intro cli fs pieces hs hl hne hpieces
    rw [igTcpRecvFrameLocked_connected hs hl]
    exact readBack_flatMap (fun _ hflows h => recvFrame_end hflows h) (fun f _ => reads_recvFrame f) (.inr hne) hpieces
  · intro fs pieces hfits hpieces
    exact readBack_flatMap (fun _ hflows h => enrollReadFrame_server_end h)
      (fun f hf => reads_sent_agent (hfits f hf)) (.inl rfl) hpieces
  · intro fs pieces hfits hpieces
    exact readBack_flatMap (fun _ hflows h => enrollReadFrame_agent_end h)
      (fun f hf => reads_sent_server (hfits f hf)) (.inl rfl) hpieces
  · intro cli hs hl
    rw [igTcpRecvFrameLocked_connected hs hl]
    exact refuses_recvFrame hsize hbig
  · exact ⟨refuses_enrollReadFrame_server hsize hbad, refuses_enrollReadFrame_agent hsize hbad⟩

/-- Two frames of the transport, the second one empty. -/
def frames : List SentFrame := [⟨2, 1, ascii "on", by decide⟩, ⟨3, 2, [], by decide⟩]

/-- Two frames of an agent that enrolls, the second one empty. -/
def enrollFrames : List IgFrame := [⟨igMsgXorHello, 1, ascii "hello"⟩, ⟨igMsgXorEnrollAck, 5, []⟩]

/-- They arrive one byte at a time. -/
theorem frames_read_back_bytewise :
    ReadBack Collector.readFrame ((frames.flatMap SentFrame.bytes).map fun b => [b])
      (frames.map fun f => ((received f).hdr, f.payload)) ∧
    ReadBack (igTcpRecvFrameLocked freshClient.connected true)
      ((frames.flatMap fun f => Collector.writeFrame f.type f.seqNum f.payload).map fun b => [b])
      (frames.map fun f => (⟨UInt32.ofNat f.payload.length, f.type, f.seqNum⟩, f.payload)) ∧
    ReadBack Backend.enrollReadFrame ((enrollFrames.flatMap IgFrame.sent).map fun b => [b])
      [⟨igMsgXorHello, 1, ascii "hello"⟩, ⟨igMsgXorEnrollAck, 5, []⟩] :=
  ⟨frames_read_back.1 freshClient [(frames.head (by decide), [9, 2]), (frames.getLast (by decide), [4, 5])] _
      (by decide) (by decide),
    frames_read_back.2.1 freshClient.connected frames _ rfl rfl (by decide) (by decide),
    frames_read_back.2.2.1 enrollFrames _ (by decide) (by decide)⟩

end Link

end KnIg
