/-
  NovaMP.Client.Sending — the messages of a client as the server gets them.

  Two programs write the same stream: the Lua mod with a format string (`tcpSend` in
  `client/Resources/Client/main.lua`) and the C++ client with a packed struct
  (`NetworkClient::sendTCP` in `client/src/network/client.cpp`). The server takes it apart
  with `readLen` and `readPayload` (`TCPSession.receive`).

  - `tcpSend_eq`, `sendTCP_eq`: either writes `Sent.data`, framed.
  - `sent_received`: so both write the same bytes for any messages, and the server gets
    these messages back, however the stream is cut, and closes no session.
  - `sendAll_agree`: the numbers of the two clients agree for 2^32 - 1 messages;
    at the next one `tcpSend` raises (`tcpSend_overflow`) and `sendTCP` starts again at 0.
-/

import NovaMP.Client.Stream

namespace NovaMP

open Lib

namespace Client

open StringPack

/-! ## The Lua mod -/

/-- `player_id` and `tcp_seq`; there is a socket. -/
structure Mod where
  playerId : Int
  tcpSeq : Int

/-- `"<BHIHb"` -/
def headerFormat : List Opt := (options "<BHIHb".toList).getD []

/-- The bytes `socket:send` is called with. -/
def tcpSend (s : Mod) (ptype : Int) (payload : Option Bytes) : Mod × Except PackError Bytes :=
  let payloadStr := payload.getD []
  let s := { s with tcpSeq := s.tcpSeq + 1 }
  (s, do
    let header ← pack headerFormat [.int ptype, .int s.playerId, .int s.tcpSeq, .int payloadStr.length, .int 0]
    let frame ← pack lengthFormat [.int (header.length + payloadStr.length)]
    pure (frame ++ header ++ payloadStr))

/-- What successive calls write. -/
def Mod.sendAll (s : Mod) : List (UInt8 × Bytes) → List (Except PackError Bytes)
  | [] => []
  | m :: ms => (tcpSend s m.1.toNat (some m.2)).2 :: (tcpSend s m.1.toNat (some m.2)).1.sendAll ms

end Client

/-! ## The C++ client -/

/-- `m_player_id` and `m_tcp_seq`. -/
structure NetworkClient where
  playerId : UInt16
  tcpSeq : UInt32

namespace NetworkClient

/-- `Packet::build` of the client; `t` is the value of the enumerator. -/
def build (t : UInt8) (sid : UInt16) (seq : UInt32) (p : Bytes) (plen : UInt16) (f : UInt8) : Bytes :=
  PacketHeader.codec.encode ⟨t, sid, seq, plen, f⟩ ++ p.take plen.toNat

def buildStr (t : UInt8) (sid : UInt16) (seq : UInt32) (s : Bytes) : Bytes :=
  build t sid seq s (UInt16.ofNat s.length) 0

/-- `sendTCP` of a packet writes what `TCPSession::send` writes. -/
def sendFramed (data : Bytes) : Bytes := TCPSession.framed data

def sendTCP (c : NetworkClient) (t : UInt8) (payload : Bytes) : NetworkClient × Bytes :=
  let c := { c with tcpSeq := c.tcpSeq + 1 }
  (c, sendFramed (buildStr t c.playerId c.tcpSeq payload))

/-- What successive calls write. -/
def sendAll (c : NetworkClient) : List (UInt8 × Bytes) → List Bytes
  | [] => []
  | m :: ms => (c.sendTCP m.1 m.2).2 :: (c.sendTCP m.1 m.2).1.sendAll ms

end NetworkClient

namespace Client

open StringPack

/-! ## One message -/

structure Sent where
  type : UInt8
  playerId : UInt16
  sequence : UInt32
  payload : Bytes
  fits : payload.length ≤ 65535

namespace Sent

variable (m : Sent)

def header : PacketHeader := ⟨m.type, m.playerId, m.sequence, UInt16.ofNat m.payload.length, 0⟩

def data : Bytes := PacketHeader.codec.encode m.header ++ m.payload

/-- What the mod writes when this is its next message. -/
def byMod : Except PackError Bytes :=
  (tcpSend ⟨m.playerId.toNat, m.sequence.toNat - 1⟩ m.type.toNat (some m.payload)).2

/-- What the C++ client writes when this is its next message. -/
def byClient : Bytes := (NetworkClient.sendTCP ⟨m.playerId, m.sequence - 1⟩ m.type m.payload).2

theorem payloadLen_toNat : (UInt16.ofNat m.payload.length).toNat = m.payload.length := by
  rw [UInt16.toNat_ofNat']
  exact Nat.mod_eq_of_lt (Nat.lt_succ_of_le m.fits)

theorem data_length : m.data.length = 10 + m.payload.length := by simp [data]

theorem data_bounds : 1 ≤ m.data.length ∧ m.data.length ≤ GameServer.maxFrame := by
  have hfits := m.fits
  have hmax : 65545 ≤ GameServer.maxFrame := by decide
  rw [data_length]
  omega

theorem parseHeader_data : Packet.parseHeader m.data = .ok m.header := by
  rw [Packet.parseHeader_of_le (by rw [data_length]; omega), data]
  rw [show (10 : Nat) = PacketHeader.codec.size from rfl, Codec.take_encode_append, Codec.decode_encode]

theorem payload_data : Packet.payload m.data = m.payload := Codec.drop_encode_append _ _ _

end Sent

theorem headerFormat_eq : headerFormat = [.unsigned 1, .unsigned 2, .unsigned 4, .unsigned 2, .signed 1] := by decide

/-- The format string packs the struct. -/
theorem pack_header (m : Sent) :
    pack headerFormat [.int m.type.toNat, .int m.playerId.toNat, .int m.sequence.toNat, .int m.payload.length, .int 0] =
      .ok (PacketHeader.codec.encode m.header) := by
  have htype : leBytes 1 m.type.toNat = [m.type] := by simp [leBytes]
  have hlen : m.payload.length < 256 ^ 2 := Nat.lt_succ_of_le m.fits
  have hflags : (Opt.signed 1).put (.int 0) = .ok [0] := rfl
  rw [headerFormat_eq, PacketHeader.encode_eq, Sent.header, m.payloadLen_toNat]
  rw [pack_cons (put_unsigned m.type.toNat_lt) (pack_cons (put_unsigned m.playerId.toNat_lt)
    (pack_cons (put_unsigned m.sequence.toNat_lt) (pack_cons (put_unsigned hlen) (pack_cons hflags rfl)))), htype]
  rfl

theorem tcpSend_packed {s : Mod} {ptype : Int} {payload header frame : Bytes}
    (hheader : pack headerFormat [.int ptype, .int s.playerId, .int (s.tcpSeq + 1), .int payload.length, .int 0] = .ok header)
    (hframe : pack lengthFormat [.int (header.length + payload.length)] = .ok frame) :
    tcpSend s ptype (some payload) = (⟨s.playerId, s.tcpSeq + 1⟩, .ok (frame ++ header ++ payload)) := by
  have hbind : ∀ (bs : Bytes) (f : Bytes → Except PackError Bytes), (Except.ok bs >>= f) = f bs := fun _ _ => rfl
  simp only [tcpSend, Option.getD_some, hheader, hbind, hframe]
  rfl

theorem tcpSend_eq (m : Sent) {s : Mod} (hid : s.playerId = m.playerId.toNat) (hseq : s.tcpSeq + 1 = m.sequence.toNat) :
    tcpSend s m.type.toNat (some m.payload) = (⟨s.playerId, m.sequence.toNat⟩, .ok (Framing.frame m.data)) := by
  have hlt : m.data.length < 256 ^ 4 := by
    have hfits := m.fits
    rw [m.data_length]
    omega
  have hlen : ((PacketHeader.codec.encode m.header).length : Int) + m.payload.length = (m.data.length : Nat) := by
    rw [Sent.data, List.length_append, Int.natCast_add]
  have hframe : pack lengthFormat [.int m.data.length] = .ok (leBytes 4 m.data.length) := by
    rw [lengthFormat_eq, pack_cons (put_unsigned hlt) rfl, List.append_nil]
  have hheader := pack_header m
  rw [← hid, ← hseq] at hheader
  rw [tcpSend_packed hheader (hlen ▸ hframe), hseq, Framing.frame, Sent.data, List.append_assoc]

theorem sendTCP_eq (m : Sent) {c : NetworkClient} (hid : c.playerId = m.playerId) (hseq : c.tcpSeq + 1 = m.sequence) :
    NetworkClient.sendTCP c m.type m.payload = (⟨c.playerId, m.sequence⟩, Framing.frame m.data) := by
  have hbuild : NetworkClient.buildStr m.type m.playerId m.sequence m.payload = m.data := by
    rw [NetworkClient.buildStr, NetworkClient.build, ← Sent.header, m.payloadLen_toNat, List.take_length]
    rfl
  simp only [NetworkClient.sendTCP, hid, hseq, NetworkClient.sendFramed, TCPSession.framed_eq, hbuild]

theorem byMod_eq (m : Sent) : m.byMod = .ok (Framing.frame m.data) := by
  rw [Sent.byMod, tcpSend_eq m rfl (Int.sub_add_cancel _ 1)]

theorem byClient_eq (m : Sent) : m.byClient = Framing.frame m.data := by
  rw [Sent.byClient, sendTCP_eq m rfl (UInt32.sub_add_cancel _ 1)]

/-! ## Any messages -/

/-- What both write for some messages. -/
def sentStream (ms : List Sent) : Bytes := ms.flatMap Sent.byClient

theorem sentStream_eq (ms : List Sent) : sentStream ms = (ms.map Sent.data).flatMap Framing.frame := by
  rw [sentStream, List.flatMap_map]
  exact congrArg (ms.flatMap ·) (funext byClient_eq)

theorem feed_sentStream (ms : List Sent) :
    Framing.feed (Framing.start : TCPSession.Reader) (sentStream ms) = (Framing.start, ms.map Sent.data) := by
  rw [sentStream_eq]
  refine Framing.feed_frames ?_ (by decide)
  simp only [List.mem_map]
  rintro d ⟨m, -, rfl⟩
  exact m.data_bounds

/-- A session that is open at the end was never closed. -/
theorem receive_take_open {chunks : List Bytes} (h : (TCPSession.receive chunks).1 ≠ .closed) (k : Nat) :
    (TCPSession.receive (chunks.take k)).1 ≠ .closed := by
  intro hclosed
  rw [TCPSession.receive, Framing.feed_chunks] at h hclosed
  rw [← List.take_append_drop k chunks, List.flatten_append, Framing.feed_append, hclosed, Framing.feed_closed] at h
  exact h rfl

/-- The mod and the C++ client write the same bytes for any messages; the server gets
    these messages out of them, however they are cut, and closes the session nowhere. -/
theorem sent_received (ms : List Sent) (chunks : List Bytes) (hcut : chunks.flatten = sentStream ms) :
    (∀ m ∈ ms, m.byMod = .ok m.byClient) ∧
      (∀ k, (TCPSession.receive (chunks.take k)).1 ≠ .closed) ∧
      (TCPSession.receive chunks).2.map (fun data => (Packet.parseHeader data, Packet.payload data)) =
        ms.map (fun m => (.ok ⟨m.type, m.playerId, m.sequence, UInt16.ofNat m.payload.length, 0⟩, m.payload)) ∧
      ∀ m ∈ ms, (UInt16.ofNat m.payload.length).toNat = m.payload.length := by
  have hfeed : TCPSession.receive chunks = (Framing.start, ms.map Sent.data) := by
    rw [TCPSession.receive, Framing.feed_chunks, hcut, feed_sentStream]
  refine ⟨fun m _ => ?_, receive_take_open ?_, ?_, fun m _ => m.payloadLen_toNat⟩
  · rw [byMod_eq, byClient_eq]
  · rw [hfeed, Framing.start]
    exact fun h => by cases h
  · rw [hfeed, List.map_map]
    refine List.map_congr_left fun m _ => ?_
    rw [Function.comp_apply, m.parseHeader_data, m.payload_data, Sent.header]

/-- A chat message and one with neither number nor payload. -/
def sampleSent : List Sent :=
  [⟨11, 513, 67305985, [0x6F, 0x6B], by decide⟩, ⟨255, 65535, 0, [], by decide⟩]

/-- Cut within the first header and the second length. -/
theorem sent_received_sample :
    (TCPSession.receive [[12, 0, 0, 0, 11, 1], [2, 1, 2, 3, 4, 2, 0, 0, 0x6F, 0x6B, 10], [0, 0, 0, 255, 255, 255],
        [0, 0, 0, 0, 0, 0, 0]]).2.map (fun data => (Packet.parseHeader data, Packet.payload data)) =
      [(.ok ⟨11, 513, 67305985, 2, 0⟩, [0x6F, 0x6B]), (.ok ⟨255, 65535, 0, 0, 0⟩, [])] :=
  (sent_received sampleSent _ (by decide)).2.2.1

/-! ## A connection -/

/-- The two clients after `n` messages. -/
theorem tcpSend_agree (pid : UInt16) {n : Nat} (hn : n + 1 < 2 ^ 32) (t : UInt8) {payload : Bytes}
    (hfits : payload.length ≤ 65535) :
    tcpSend ⟨pid.toNat, n⟩ t.toNat (some payload) =
      (⟨pid.toNat, (n + 1 : Nat)⟩, .ok (NetworkClient.sendTCP ⟨pid, UInt32.ofNat n⟩ t payload).2) ∧
      (NetworkClient.sendTCP ⟨pid, UInt32.ofNat n⟩ t payload).1 = ⟨pid, UInt32.ofNat (n + 1)⟩ := by
  let m : Sent := ⟨t, pid, UInt32.ofNat (n + 1), payload, hfits⟩
  have hseq : m.sequence.toNat = n + 1 := by
    show (UInt32.ofNat (n + 1)).toNat = n + 1
    rw [UInt32.toNat_ofNat']
    exact Nat.mod_eq_of_lt hn
  have hnext : (NetworkClient.mk pid (UInt32.ofNat n)).tcpSeq + 1 = m.sequence := (UInt32.ofNat_add n 1).symm
  have hmod := tcpSend_eq m (s := ⟨pid.toNat, n⟩) rfl (by rw [hseq]; rfl)
  have hclient := sendTCP_eq m rfl hnext
  rw [hseq] at hmod
  exact ⟨hmod.trans (by rw [hclient]), by rw [hclient]⟩

/-- From the connection on the two clients write the same, 2^32 - 1 messages long. -/
theorem sendAll_agree (pid : UInt16) {ms : List (UInt8 × Bytes)} (hfits : ∀ m ∈ ms, m.2.length ≤ 65535) (n : Nat)
    (hn : n + ms.length < 2 ^ 32) :
    Mod.sendAll ⟨pid.toNat, n⟩ ms = (NetworkClient.sendAll ⟨pid, UInt32.ofNat n⟩ ms).map .ok := by
  induction ms generalizing n with
  | nil => rfl
  | cons m ms ih =>
    obtain ⟨hm, hrest⟩ := List.forall_mem_cons.mp hfits
    rw [List.length_cons] at hn
    obtain ⟨hmod, hclient⟩ := tcpSend_agree pid (show n + 1 < 2 ^ 32 by omega) m.1 hm
    rw [Mod.sendAll, hmod, NetworkClient.sendAll, hclient, List.map_cons]
    exact congrArg _ (ih hrest (n + 1) (by omega))

/-- After that `tcpSend` raises; `sendTCP` goes on with the number 0. -/
theorem tcpSend_overflow (pid : UInt16) (t : UInt8) (payload : Bytes) :
    (tcpSend ⟨pid.toNat, 2 ^ 32 - 1⟩ t.toNat (some payload)).2 = .error .overflow ∧
      (NetworkClient.sendTCP ⟨pid, UInt32.ofNat (2 ^ 32 - 1)⟩ t payload).1 = ⟨pid, 0⟩ := by
  have hseq : pack [.unsigned 4, .unsigned 2, .signed 1] [.int (2 ^ 32 - 1 + 1), .int payload.length, .int 0] =
      .error .overflow := rfl
  have hheader : pack headerFormat [.int t.toNat, .int pid.toNat, .int (2 ^ 32 - 1 + 1), .int payload.length, .int 0] =
      .error .overflow := by
    rw [headerFormat_eq, pack_error (put_unsigned t.toNat_lt) (pack_error (put_unsigned pid.toNat_lt) hseq)]
  have hwrap : UInt32.ofNat (2 ^ 32 - 1) + 1 = 0 := by decide
  constructor
  · simp only [tcpSend, Option.getD_some, hheader]
    rfl
  · simp only [NetworkClient.sendTCP, hwrap]

end Client

end NovaMP
