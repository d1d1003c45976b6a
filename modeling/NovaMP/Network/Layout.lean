/-
  NovaMP.Network.Layout — what goes through the packet codec comes back
  (`servers/src/network/packet.hpp`, its copy `client/src/network/packet.hpp`,
  `docs/protocol.md`).

  `PacketType` has 30 enumerators, but any byte can be cast to it, so `buildCode` is
  `build` for any byte. The client has the same structs and builders; its `parseHeader`
  throws another text, and it has no `parseVehicleState`.

  - `buildCode_returns`: the header and the payload of a packet are those it was built of.
  - `header_returns`, `state_returns`: any 10 or 66 bytes are the bytes of what is read
    from them, with each field at its offset (`PacketHeader.fields`, `VehicleState.fields`).
  - `codec_bijective`: both directions, on both sides.
-/

import NovaMP.Network.Packet

namespace NovaMP

open Lib

/-! ## The documented layout -/

/-- The fields with their offsets. -/
def PacketHeader.fields (h : PacketHeader) : List (Nat × Bytes) :=
  [(0, [h.type]),
    (1, leBytes 2 h.senderId.toNat),
    (3, leBytes 4 h.sequence.toNat),
    (7, leBytes 2 h.payloadLen.toNat),
    (9, [h.flags])]

def floats3 (v : Arr3 UInt32) : Bytes := leBytes 4 v.a0.toNat ++ leBytes 4 v.a1.toNat ++ leBytes 4 v.a2.toNat

def floats4 (v : Arr4 UInt32) : Bytes :=
  leBytes 4 v.a0.toNat ++ leBytes 4 v.a1.toNat ++ leBytes 4 v.a2.toNat ++ leBytes 4 v.a3.toNat

def VehicleState.fields (vs : VehicleState) : List (Nat × Bytes) :=
  [(0, [vs.vehicleId]),
    (1, [vs.vflags]),
    (2, floats3 vs.pos),
    (14, floats4 vs.rot),
    (30, floats3 vs.vel),
    (42, floats3 vs.angVel),
    (54, [vs.wheels.a0, vs.wheels.a1, vs.wheels.a2, vs.wheels.a3]),
    (58, [vs.lights]),
    (59, [vs.gear.toUInt8]),
    (60, leBytes 4 vs.rpm.toNat),
    (64, leBytes 2 vs.health.toNat)]

/-- Each field is where it should be. -/
def Placed (fields : List (Nat × Bytes)) (data : Bytes) : Prop :=
  ∀ f ∈ fields, (data.drop f.1).take f.2.length = f.2

theorem placed_of_offsets {fields : List (Nat × Bytes)} (h : offsets 0 (fields.map (·.2)) = fields) :
    Placed fields (fields.map (·.2)).flatten := by
  intro f hf
  rw [← h] at hf
  exact read_offsets [] hf

theorem PacketHeader.placed (h : PacketHeader) : Placed h.fields (PacketHeader.codec.encode h) := by
  have hplaced : Placed h.fields _ := placed_of_offsets rfl
  have hencode : PacketHeader.codec.encode h = (h.fields.map (·.2)).flatten := by
    simp [PacketHeader.encode_eq, PacketHeader.fields]
  rw [hencode]
  exact hplaced

theorem VehicleState.placed (vs : VehicleState) : Placed vs.fields (VehicleState.codec.encode vs) := by
  have hplaced : Placed vs.fields _ := placed_of_offsets rfl
  have hencode : VehicleState.codec.encode vs = (vs.fields.map (·.2)).flatten := by
    simp [VehicleState.codec, VehicleState.fields, Codec.congr, Codec.prod, Codec.arr3, Codec.arr4, Codec.u8, Codec.u16,
      Codec.u32, Codec.i8, floats3, floats4]
  rw [hencode]
  exact hplaced

/-! ## Any type byte, and the client's copy -/

namespace Packet

/-- `build` of a byte cast to a `PacketType`. -/
def buildCode (code : UInt8) (senderId : UInt16) (sequence : UInt32) (payload : Bytes) (payloadLen : UInt16)
    (flags : UInt8) : Bytes :=
  PacketHeader.codec.encode ⟨code, senderId, sequence, payloadLen, flags⟩ ++ payload.take payloadLen.toNat

theorem build_eq_buildCode (type : PacketType) (senderId : UInt16) (sequence : UInt32) (payload : Bytes)
    (payloadLen : UInt16) (flags : UInt8) :
    build type senderId sequence payload payloadLen flags =
      buildCode type.code senderId sequence payload payloadLen flags := rfl

end Packet

namespace ClientPacket

def build (t : UInt8) (sid : UInt16) (seq : UInt32) (p : Bytes) (plen : UInt16) (f : UInt8) : Bytes :=
  PacketHeader.codec.encode ⟨t, sid, seq, plen, f⟩ ++ p.take plen.toNat

def buildVehicleUpdate (sid : UInt16) (seq : UInt32) (vs : VehicleState) : Bytes :=
  build PacketType.vehicleUpdate.code sid seq (VehicleState.codec.encode vs) 66 0

def parseHeader (d : Bytes) : Except Fault PacketHeader :=
  if d.length < Packet.headerSize then .error (.runtimeError "too short")
  else .ok (PacketHeader.codec.decode (d.take Packet.headerSize))

def payload (d : Bytes) : Bytes := d.drop Packet.headerSize

/-- The two differ in the text of the exception. -/
theorem parseHeader_ok_iff {d : Bytes} {hdr : PacketHeader} :
    parseHeader d = .ok hdr ↔ Packet.parseHeader d = .ok hdr := by
  unfold parseHeader Packet.parseHeader
  split
  · exact iff_of_false nofun nofun
  · exact Iff.rfl

end ClientPacket

/-! ## There and back -/

/-- Server and client read the header and the payload in a packet. -/
structure Reads (pkt : Bytes) (hdr : PacketHeader) (body : Bytes) : Prop where
  header : Packet.parseHeader pkt = .ok hdr
  payload : Packet.payload pkt = body
  clientHeader : ClientPacket.parseHeader pkt = .ok hdr
  clientPayload : ClientPacket.payload pkt = body

theorem buildCode_returns (code : UInt8) (senderId : UInt16) (sequence : UInt32) (flags : UInt8) {payload : Bytes}
    (h : payload.length ≤ 65535) :
    let hdr : PacketHeader := ⟨code, senderId, sequence, UInt16.ofNat payload.length, flags⟩
    hdr.payloadLen.toNat = payload.length ∧
      Reads (Packet.buildCode code senderId sequence payload hdr.payloadLen flags) hdr payload := by
  intro hdr
  have hlen : hdr.payloadLen.toNat = payload.length := by
    rw [UInt16.toNat_ofNat', Nat.mod_eq_of_lt (by omega)]
  have hpkt : Packet.buildCode code senderId sequence payload hdr.payloadLen flags =
      PacketHeader.codec.encode hdr ++ payload := by
    rw [Packet.buildCode, hlen, List.take_length]
  have hheader : Packet.parseHeader (PacketHeader.codec.encode hdr ++ payload) = .ok hdr := by
    rw [Packet.parseHeader_of_le (by simp)]
    rw [show (10 : Nat) = PacketHeader.codec.size from rfl, Codec.take_encode_append, Codec.decode_encode]
  have hpayload : (PacketHeader.codec.encode hdr ++ payload).drop Packet.headerSize = payload :=
    Codec.drop_encode_append _ _ _
  rw [hpkt]
  exact ⟨hlen, hheader, hpayload, ClientPacket.parseHeader_ok_iff.mpr hheader, hpayload⟩

theorem header_returns {data : Bytes} (h : data.length = 10) :
    ∃ hdr, Reads data hdr [] ∧ PacketHeader.codec.encode hdr = data ∧ Placed hdr.fields data := by
  have hencode : PacketHeader.codec.encode (PacketHeader.codec.decode data) = data := Codec.encode_decode _ _ h
  have hheader : Packet.parseHeader data = .ok (PacketHeader.codec.decode data) := by
    rw [Packet.parseHeader_of_le (Nat.le_of_eq h.symm), List.take_of_length_le (Nat.le_of_eq h)]
  have hpayload : data.drop Packet.headerSize = [] := List.drop_eq_nil_of_le (Nat.le_of_eq h)
  refine ⟨PacketHeader.codec.decode data, ?_, hencode, ?_⟩
  · exact ⟨hheader, hpayload, ClientPacket.parseHeader_ok_iff.mpr hheader, hpayload⟩
  · have hplaced := (PacketHeader.codec.decode data).placed
    rw [hencode] at hplaced
    exact hplaced

theorem state_returns {data : Bytes} (h : data.length = 66) :
    ∃ vs, Packet.parseVehicleState data 66 = .ok vs ∧ VehicleState.codec.encode vs = data ∧ Placed vs.fields data := by
  have hstate : ∃ vs, Packet.parseVehicleState data 66 = .ok vs ∧ VehicleState.codec.encode vs = data.take 66 :=
    Packet.parseVehicleState_eq (Nat.le_refl 66) (Nat.le_of_eq h.symm)
  obtain ⟨vs, hparse, hencode⟩ := hstate
  rw [List.take_of_length_le (Nat.le_of_eq h)] at hencode
  have hplaced := vs.placed
  rw [hencode] at hplaced
  exact ⟨vs, hparse, hencode, hplaced⟩

/-- The header fields and a payload of at most 65535 bytes come back out of the packet, and
    10 bytes out of the header read from them; a vehicle state comes back out of its
    update, and 66 bytes out of the state read from them, with each field at its offset.
    Both sides build the same packets. -/
theorem codec_bijective :
    (∀ (code : UInt8) (senderId : UInt16) (sequence : UInt32) (flags : UInt8) (payload : Bytes), payload.length ≤ 65535 →
      let hdr : PacketHeader := ⟨code, senderId, sequence, UInt16.ofNat payload.length, flags⟩
      hdr.payloadLen.toNat = payload.length ∧
        Reads (Packet.buildCode code senderId sequence payload hdr.payloadLen flags) hdr payload ∧
        Reads (ClientPacket.build code senderId sequence payload hdr.payloadLen flags) hdr payload) ∧
    (∀ data : Bytes, data.length = 10 →
      ∃ hdr, Reads data hdr [] ∧ PacketHeader.codec.encode hdr = data ∧ Placed hdr.fields data) ∧
    (∀ (senderId : UInt16) (sequence : UInt32) (vs : VehicleState),
      Packet.parseVehicleState (Packet.payload (Packet.buildVehicleUpdate senderId sequence vs)) 66 = .ok vs ∧
        Placed vs.fields (Packet.payload (Packet.buildVehicleUpdate senderId sequence vs)) ∧
        ClientPacket.buildVehicleUpdate senderId sequence vs = Packet.buildVehicleUpdate senderId sequence vs) ∧
    ∀ data : Bytes, data.length = 66 → ∃ vs, Packet.parseVehicleState data 66 = .ok vs ∧ Placed vs.fields data ∧
      ∀ senderId sequence, Packet.payload (Packet.buildVehicleUpdate senderId sequence vs) = data := by
  refine ⟨fun code senderId sequence flags payload h => ?_, fun data h => header_returns h,
    fun senderId sequence vs => ⟨?_, ?_, rfl⟩, fun data h => ?_⟩
  · obtain ⟨hlen, hreads⟩ := buildCode_returns code senderId sequence flags h
    exact ⟨hlen, hreads, hreads⟩
  · exact Packet.parseVehicleState_build senderId sequence vs
  · rw [Packet.payload_buildVehicleUpdate]
    exact vs.placed
  · obtain ⟨vs, hparse, hencode, hplaced⟩ := state_returns h
    refine ⟨vs, hparse, hplaced, fun senderId sequence => ?_⟩
    rw [Packet.payload_buildVehicleUpdate, hencode]

end NovaMP
