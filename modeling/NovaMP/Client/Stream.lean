/-
  NovaMP.Client.Stream — the packets of the server as the Lua client gets them
  (`pollTCP` in `client/Resources/Client/main.lua`).

  `TCPSession::send` puts four length bytes before a packet. `pollTCP` adds what
  `socket:receive()` returns to `recv_buf` and takes the complete packets out of it, so a
  packet may come in any number of pieces. `handlePacket` is taken not to raise: its
  calls are listed with their arguments.

  - `body_frame`, `body_short`: a pass of the loop takes one complete packet, and the
    loop is left at an incomplete one.
  - `Delivered.poll`: one poll keeps what has been handed over exact (`Delivered`).
  - `pollTCP_stream`: so, however the stream is cut, every packet is handed over once, in
    order, by the poll that completes it; and the loop ends on any bytes.
-/

import NovaMP.Lib.Loop
import NovaMP.Lib.StringPack
import NovaMP.Server.Frames

namespace NovaMP

open Lib

/-! ## The server's side -/

/-- What `TCPSession::send` writes for a packet. -/
def TCPSession.framed (data : Bytes) : Bytes := Codec.u32.encode (UInt32.ofNat data.length) ++ data

theorem TCPSession.framed_eq (data : Bytes) : framed data = Framing.frame data := by
  have hmod : (UInt32.ofNat data.length).toNat = data.length % 256 ^ 4 := UInt32.toNat_ofNat'
  have hbytes : leBytes 4 (UInt32.ofNat data.length).toNat = leBytes 4 data.length := by
    have h := leBytes_ofLE (leBytes 4 data.length)
    rw [leBytes_length, ofLE_leBytes] at h
    rw [hmod, h]
  rw [framed, Framing.frame, ← hbytes]
  rfl

namespace Client

open StringPack

/-- A packet of `Packet::build` with a payload whose length fits. -/
structure Outgoing where
  type : PacketType
  senderId : UInt16
  sequence : UInt32
  payload : Bytes
  flags : UInt8
  fits : payload.length ≤ 65535

namespace Outgoing

def packet (p : Outgoing) : Bytes :=
  Packet.build p.type p.senderId p.sequence p.payload (UInt16.ofNat p.payload.length) p.flags

/-- The stream of a list of packets. -/
def stream (ps : List Outgoing) : Bytes := ps.flatMap fun p => TCPSession.framed p.packet

end Outgoing

/-! ## `pollTCP` -/

/-- `recv_buf`, and the calls of `handlePacket` so far. -/
structure Poll where
  recvBuf : Bytes
  handled : List (Option UInt8 × Bytes)

/-- `"<I"` -/
def lengthFormat : List Opt := (options "<I".toList).getD []

/-- `"<H"` -/
def payloadFormat : List Opt := (options "<H".toList).getD []

/-- The body of the loop. -/
def body (s : Poll) : Pass Poll PackError :=
  if 4 ≤ s.recvBuf.length then
    match unpackInteger lengthFormat s.recvBuf 1 with
    | .error e => .raise e
    | .ok frameLen =>
      if (s.recvBuf.length : Int) < 4 + frameLen then .leave
      else
        let packet := sub s.recvBuf 5 (4 + frameLen.toNat)
        let recvBuf := subFrom s.recvBuf (5 + frameLen.toNat)
        if 10 ≤ packet.length then
          match unpackInteger payloadFormat packet 8 with
          | .error e => .raise e
          | .ok plen => .next ⟨recvBuf, s.handled ++ [(byte packet 1, sub packet 11 (10 + plen.toNat))]⟩
        else .next ⟨recvBuf, s.handled⟩
  else .leave

theorem body_decreases (s t : Poll) (h : body s = .next t) : t.recvBuf.length < s.recvBuf.length := by
  have hcut : ∀ n, 4 ≤ s.recvBuf.length → (subFrom s.recvBuf (5 + n)).length < s.recvBuf.length := by
    intro n hlen
    rw [subFrom, List.length_drop]
    omega
  unfold body at h
  by_cases hlen : 4 ≤ s.recvBuf.length
  · rw [if_pos hlen] at h
    cases hl : unpackInteger lengthFormat s.recvBuf 1 with
    | error e => rw [hl] at h; cases h
    | ok frameLen =>
      rw [hl] at h
      dsimp only at h
      split at h
      · cases h
      split at h
      · split at h
        · cases h
        · cases h
          exact hcut _ hlen
      · cases h
        exact hcut _ hlen
  · rw [if_neg hlen] at h
    cases h

def pollLoop : Loop Poll PackError := ⟨body, fun s => s.recvBuf.length, body_decreases⟩

/-- `data` is what `socket:receive()` returns. -/
def pollTCP (data : Option Bytes) (s : Poll) : Except PackError Poll :=
  match data with
  | none => .ok s
  | some data => if data.length = 0 then .ok s else pollLoop.run { s with recvBuf := s.recvBuf ++ data }

/-- A client that has just connected. -/
def Poll.init : Poll := ⟨[], []⟩

/-- Successive polls. -/
def polls (s : Poll) : List Bytes → Except PackError Poll
  | [] => .ok s
  | data :: rest => do polls (← pollTCP (some data) s) rest

/-! ## One packet -/

/-- The call of `handlePacket` for a packet. -/
def Outgoing.call (p : Outgoing) : Option UInt8 × Bytes := (some p.type.code, p.payload)

theorem lengthFormat_eq : lengthFormat = [.unsigned 4] := by decide

theorem payloadFormat_eq : payloadFormat = [.unsigned 2] := by decide

namespace Outgoing

variable (p : Outgoing)

/-- What comes before `payload_len`. -/
def beforeLength : Bytes := p.type.code :: (leBytes 2 p.senderId.toNat ++ leBytes 4 p.sequence.toNat)

theorem beforeLength_length : p.beforeLength.length = 7 := by simp [beforeLength]

theorem packet_eq : p.packet = p.beforeLength ++ (leBytes 2 p.payload.length ++ (p.flags :: p.payload)) := by
  have hlen : (UInt16.ofNat p.payload.length).toNat = p.payload.length := by
    rw [UInt16.toNat_ofNat']
    exact Nat.mod_eq_of_lt (Nat.lt_succ_of_le p.fits)
  rw [packet, Packet.build, PacketHeader.encode_eq, hlen, List.take_length]
  simp [beforeLength]

theorem packet_length : p.packet.length = 10 + p.payload.length := by
  rw [packet_eq]
  simp only [List.length_append, List.length_cons, leBytes_length, beforeLength_length]
  omega

theorem packet_lt : p.packet.length < 2 ^ 32 := by
  have hfits := p.fits
  rw [packet_length]
  omega

theorem byte_packet : byte p.packet 1 = some p.type.code := by
  rw [packet_eq]
  rfl

theorem unpack_packet : unpackInteger payloadFormat p.packet 8 = .ok p.payload.length := by
  have hdrop : p.packet.drop (8 - 1) = leBytes 2 p.payload.length ++ (p.flags :: p.payload) := by
    rw [packet_eq]
    exact List.drop_left' p.beforeLength_length
  have hmod : p.payload.length % 256 ^ 2 = p.payload.length := Nat.mod_eq_of_lt (Nat.lt_succ_of_le p.fits)
  rw [payloadFormat_eq, unpackInteger_unsigned (by rw [hdrop]; simp), hdrop, List.take_left' (leBytes_length 2 _),
    ofLE_leBytes, hmod]

theorem sub_packet : sub p.packet 11 (10 + p.payload.length) = p.payload := by
  have hlen : (p.beforeLength ++ (leBytes 2 p.payload.length ++ [p.flags])).length = 10 := by
    simp [beforeLength_length]
  have hsub := sub_append (p.beforeLength ++ (leBytes 2 p.payload.length ++ [p.flags])) p.payload []
  rw [hlen, List.append_nil] at hsub
  rw [packet_eq]
  simpa using hsub

theorem framed_length : (TCPSession.framed p.packet).length = 4 + p.packet.length := by
  rw [TCPSession.framed_eq, Framing.frame_length]

end Outgoing

/-- The length bytes of a frame, also when the frame is not complete. -/
theorem unpack_length {p : Outgoing} {buf later more : Bytes} (hcut : buf ++ later = TCPSession.framed p.packet ++ more)
    (h : 4 ≤ buf.length) : unpackInteger lengthFormat buf 1 = .ok p.packet.length := by
  have htake : buf.take 4 = leBytes 4 p.packet.length := by
    rw [← Framing.take_frame, ← TCPSession.framed_eq, ← hcut, List.take_append_of_le_length h]
  rw [lengthFormat_eq, unpackInteger_unsigned (by simpa using h)]
  show Except.ok (ofLE (buf.take 4) : Int) = _
  rw [htake, Framing.ofLE_length _ p.packet_lt]

/-- A pass takes a complete packet, and calls `handlePacket` with it. -/
theorem body_frame (p : Outgoing) (rest : Bytes) (handled : List (Option UInt8 × Bytes)) :
    body ⟨TCPSession.framed p.packet ++ rest, handled⟩ = .next ⟨rest, handled ++ [p.call]⟩ := by
  have hlen : (TCPSession.framed p.packet ++ rest).length = 4 + p.packet.length + rest.length := by
    rw [List.length_append, p.framed_length]
  have hlong : 4 ≤ (TCPSession.framed p.packet ++ rest).length := by omega
  have hunpack : unpackInteger lengthFormat (TCPSession.framed p.packet ++ rest) 1 = .ok p.packet.length :=
    unpack_length (List.append_nil _) hlong
  have hpacket : sub (TCPSession.framed p.packet ++ rest) 5 (4 + p.packet.length) = p.packet := by
    have hsub := sub_append (leBytes 4 p.packet.length) p.packet rest
    rwa [leBytes_length, ← List.append_assoc] at hsub
  have hrest : subFrom (TCPSession.framed p.packet ++ rest) (5 + p.packet.length) = rest := by
    have hsub := subFrom_append (TCPSession.framed p.packet) rest
    rwa [p.framed_length, Nat.add_right_comm] at hsub
  have hfull : ¬ ((TCPSession.framed p.packet ++ rest).length : Int) < 4 + (p.packet.length : Int) := by omega
  have hheader : 10 ≤ p.packet.length := by rw [p.packet_length]; omega
  rw [body, if_pos hlong, hunpack]
  dsimp only
  rw [if_neg hfull, Int.toNat_natCast, hpacket, hrest, if_pos hheader, p.unpack_packet]
  dsimp only
  rw [p.byte_packet, Int.toNat_natCast, p.sub_packet]
  rfl

/-- The loop is left at a packet that is not complete. -/
theorem body_short {p : Outgoing} {buf later more : Bytes} (hcut : buf ++ later = TCPSession.framed p.packet ++ more)
    (hshort : buf.length < 4 + p.packet.length) (handled : List (Option UInt8 × Bytes)) :
    body ⟨buf, handled⟩ = .leave := by
  rw [body]
  by_cases h : 4 ≤ buf.length
  · have hless : (buf.length : Int) < 4 + (p.packet.length : Int) := by omega
    rw [if_pos h, unpack_length hcut h]
    dsimp only
    rw [if_pos hless]
  · rw [if_neg h]

/-! ## Polls -/

namespace Outgoing

@[simp] theorem stream_cons (p : Outgoing) (ps : List Outgoing) :
    stream (p :: ps) = TCPSession.framed p.packet ++ stream ps := rfl

theorem stream_append (ps qs : List Outgoing) : stream (ps ++ qs) = stream ps ++ stream qs := List.flatMap_append

theorem stream_take_drop (ps : List Outgoing) (j : Nat) : stream (ps.take j) ++ stream (ps.drop j) = stream ps := by
  rw [← stream_append, List.take_append_drop]

theorem stream_take_succ {ps : List Outgoing} {j : Nat} (hj : j < ps.length) :
    stream (ps.take (j + 1)) = stream (ps.take j) ++ TCPSession.framed ps[j].packet := by
  rw [List.take_add_one, List.getElem?_eq_getElem hj, stream_append]
  exact congrArg _ (List.append_nil _)

theorem stream_take_mono (ps : List Outgoing) {i j : Nat} (h : i ≤ j) :
    (stream (ps.take i)).length ≤ (stream (ps.take j)).length := by
  obtain ⟨k, rfl⟩ := Nat.exists_eq_add_of_le h
  rw [List.take_add, stream_append, List.length_append]
  omega

end Outgoing

open Outgoing

/-- After `received`, `recv_buf` is what follows the first `j` packets, and these have been
    handed over. -/
structure Kept (ps : List Outgoing) (received : Bytes) (j : Nat) (s : Poll) : Prop where
  handled : s.handled = (ps.take j).map call
  suffix : received = stream (ps.take j) ++ s.recvBuf

/-- Also, no packet is complete that has not been handed over. -/
structure Delivered (ps : List Outgoing) (received : Bytes) (j : Nat) (s : Poll) : Prop extends
    Kept ps received j s where
  prompt : ∀ i < ps.length, (stream (ps.take (i + 1))).length ≤ received.length → i < j

section Poll

variable {ps : List Outgoing} {received later : Bytes} {j : Nat} {s t : Poll}

/-- What is kept, against what is still to come. -/
theorem Kept.cut (h : Kept ps received j s) (hcut : received ++ later = stream ps) :
    s.recvBuf ++ later = stream (ps.drop j) := by
  rw [h.suffix, ← stream_take_drop ps j, List.append_assoc] at hcut
  exact List.append_cancel_left hcut

/-- A pass hands over the next packet, or its last byte has not come. -/
theorem Kept.pass (h : Kept ps received j s) (hcut : received ++ later = stream ps) :
    (∃ t, body s = .next t ∧ Kept ps received (j + 1) t) ∨
      (body s = .leave ∧ ∀ i < ps.length, (stream (ps.take (i + 1))).length ≤ received.length → i < j) := by
  have hbuf := h.cut hcut
  obtain ⟨buf, handled⟩ := s
  by_cases hj : j < ps.length
  · rw [List.drop_eq_getElem_cons hj, stream_cons] at hbuf
    by_cases hshort : buf.length < 4 + ps[j].packet.length
    · refine .inr ⟨body_short hbuf hshort handled, fun i _ hi => ?_⟩
      by_contra hge
      have hmono := stream_take_mono ps (show j + 1 ≤ i + 1 by omega)
      have hnext : (stream (ps.take (j + 1))).length = (stream (ps.take j)).length + (4 + ps[j].packet.length) := by
        rw [stream_take_succ hj, List.length_append, framed_length]
      have hreceived : received.length = (stream (ps.take j)).length + buf.length := by
        rw [h.suffix, List.length_append]
      omega
    · obtain ⟨rest, rfl⟩ : TCPSession.framed ps[j].packet <+: buf :=
        List.prefix_of_prefix_length_le ⟨_, hbuf.symm⟩ (List.prefix_append buf later)
          (by rw [ps[j].framed_length]; omega)
      refine .inl ⟨_, body_frame ps[j] rest handled, ?_, ?_⟩
      · rw [List.take_add_one, List.getElem?_eq_getElem hj, List.map_append]
        exact congrArg (· ++ [ps[j].call]) h.handled
      · rw [h.suffix, stream_take_succ hj, List.append_assoc]
  · rw [List.drop_eq_nil_of_le (by omega)] at hbuf
    obtain ⟨rfl, -⟩ := List.append_eq_nil_iff.mp hbuf
    exact .inr ⟨rfl, fun i hi _ => by omega⟩

theorem Kept.next (h : Kept ps received j s) (hcut : received ++ later = stream ps) (hb : body s = .next t) :
    Kept ps received (j + 1) t := by
  rcases h.pass hcut with ⟨t', ht', hkept⟩ | ⟨hl, -⟩
  · obtain rfl : t' = t := Pass.next.inj (ht'.symm.trans hb)
    exact hkept
  · exact absurd (hl.symm.trans hb) (by simp)

theorem Kept.body_ne_raise (h : Kept ps received j s) (hcut : received ++ later = stream ps) (e : PackError) :
    body s ≠ .raise e := by
  intro hb
  rcases h.pass hcut with ⟨t', ht', -⟩ | ⟨hl, -⟩
  · exact absurd (ht'.symm.trans hb) (by simp)
  · exact absurd (hl.symm.trans hb) (by simp)

theorem Kept.prompt (h : Kept ps received j s) (hcut : received ++ later = stream ps) (hb : body s = .leave) :
    ∀ i < ps.length, (stream (ps.take (i + 1))).length ≤ received.length → i < j := by
  rcases h.pass hcut with ⟨t', ht', -⟩ | ⟨-, hprompt⟩
  · exact absurd (ht'.symm.trans hb) (by simp)
  · exact hprompt

/-- A poll hands over the packets it completes. -/
theorem Delivered.poll {data : Bytes} (h : Delivered ps received j s)
    (hcut : (received ++ data) ++ later = stream ps) :
    ∃ t k, pollTCP (some data) s = .ok t ∧ Delivered ps (received ++ data) k t := by
  by_cases hdata : data.length = 0
  · obtain rfl := List.length_eq_zero_iff.mp hdata
    exact ⟨s, j, rfl, by rwa [List.append_nil]⟩
  · have hstart : Kept ps (received ++ data) j { s with recvBuf := s.recvBuf ++ data } := by
      refine ⟨h.handled, ?_⟩
      rw [h.suffix, List.append_assoc]
    obtain ⟨t, hrun, ⟨k, hk⟩, hleave⟩ :=
      pollLoop.run_invariant (I := fun t => ∃ k, Kept ps (received ++ data) k t)
        (fun _ _ ⟨k, hk⟩ hb => ⟨k + 1, hk.next hcut hb⟩) (fun _ e ⟨_, hk⟩ => hk.body_ne_raise hcut e) ⟨j, hstart⟩
    refine ⟨t, k, ?_, hk, hk.prompt hcut hleave⟩
    rw [pollTCP, if_neg hdata]
    exact hrun

theorem Delivered.polls {chunks : List Bytes} (h : Delivered ps received j s)
    (hcut : (received ++ chunks.flatten) ++ later = stream ps) :
    ∃ t k, polls s chunks = .ok t ∧ Delivered ps (received ++ chunks.flatten) k t := by
  induction chunks generalizing received j s with
  | nil => exact ⟨s, j, rfl, by rwa [List.flatten_nil, List.append_nil]⟩
  | cons data chunks ih =>
    rw [List.flatten_cons, ← List.append_assoc] at hcut ⊢
    obtain ⟨t, k, hpoll, hk⟩ := h.poll ((List.append_assoc _ _ later).symm.trans hcut)
    obtain ⟨u, m, hpolls, hm⟩ := ih hk hcut
    refine ⟨u, m, ?_, hm⟩
    rw [Client.polls, hpoll]
    exact hpolls

theorem Delivered.init (ps : List Outgoing) : Delivered ps [] 0 Poll.init := by
  refine ⟨⟨rfl, rfl⟩, fun i hi h => ?_⟩
  rw [stream_take_succ hi, List.length_append, framed_length, List.length_nil] at h
  omega

/-- All of the stream has come. -/
theorem Delivered.whole (h : Delivered ps (stream ps) j s) : s = ⟨[], ps.map call⟩ := by
  have htake : ps.take j = ps := by
    apply List.take_of_length_le
    by_contra hj
    have hone : ps.length - 1 + 1 = ps.length := by omega
    have hlast := h.prompt (ps.length - 1) (by omega) (by rw [hone, List.take_length])
    omega
  have hhandled := h.handled
  have hsuffix := h.suffix
  rw [htake] at hhandled hsuffix
  obtain ⟨buf, handled⟩ := s
  rw [show buf = [] from List.append_cancel_left (hsuffix.symm.trans (List.append_nil _).symm),
    show handled = ps.map call from hhandled]

end Poll

/-- However the stream of some packets is cut, after every poll exactly the complete
    packets have been handed over, and the rest of what has come is kept; at the end all
    have been. On any bytes the loop ends. -/
theorem pollTCP_stream (ps : List Outgoing) (chunks : List Bytes) (hcut : chunks.flatten = stream ps) :
    (∀ k, ∃ s j, polls Poll.init (chunks.take k) = .ok s ∧ Delivered ps (chunks.take k).flatten j s) ∧
      polls Poll.init chunks = .ok ⟨[], ps.map call⟩ ∧
      ∀ s, ∃ n r, n ≤ s.recvBuf.length ∧ Loop.Ends body s n r := by
  have hpolls : ∀ k, ∃ s j,
      polls Poll.init (chunks.take k) = .ok s ∧ Delivered ps (chunks.take k).flatten j s := by
    intro k
    have hk : ([] ++ (chunks.take k).flatten) ++ (chunks.drop k).flatten = stream ps := by
      rw [List.nil_append, ← List.flatten_append, List.take_append_drop, hcut]
    exact (Delivered.init ps).polls hk
  refine ⟨hpolls, ?_, fun s => ?_⟩
  · obtain ⟨s, j, hs, hj⟩ := hpolls chunks.length
    rw [List.take_length] at hs hj
    rw [hcut] at hj
    rw [hs, hj.whole]
  · obtain ⟨n, hn, hends⟩ := pollLoop.run_ends s
    exact ⟨n, _, hn, hends⟩

/-- A chat message and a vehicle deletion. -/
def sampleStream : List Outgoing :=
  [⟨.chatMessage, 3, 258, [0x68, 0x69], 0, by decide⟩, ⟨.vehicleDelete, 3, 0, [7], 1, by decide⟩]

/-- Cut within the length of the first packet and the header of the second. -/
def sampleChunks : List Bytes :=
  [[12, 0], [0, 0, 11, 3, 0, 2, 1, 0, 0, 2, 0, 0, 0x68, 0x69, 11, 0, 0, 0, 7], [3, 0, 0, 0, 0, 0, 1, 0, 1, 7]]

theorem pollTCP_stream_sample :
    polls Poll.init sampleChunks = .ok ⟨[], [(some 0x0B, [0x68, 0x69]), (some 0x07, [7])]⟩ ∧
      ∃ s j, polls Poll.init (sampleChunks.take 2) = .ok s ∧
        Delivered sampleStream (sampleChunks.take 2).flatten j s := by
  have h := pollTCP_stream sampleStream sampleChunks (by decide)
  exact ⟨h.2.1, h.1 2⟩

end Client

end NovaMP
