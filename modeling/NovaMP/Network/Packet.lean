/-
  NovaMP.Network.Packet — the binary packets (`servers/src/network/packet.hpp`).

  A packet is a 10-byte packed header and a payload; a `VehicleState` is a 66-byte
  packed struct. Hosts are little-endian and floats are their 32-bit patterns. A
  pointer into a received packet is the list of bytes from it to the end of the
  packet, so a read past the packet is the fault `outOfRange`.
-/

import NovaMP.Lib.Codec

namespace NovaMP

open Lib

/-- How a call can fail. -/
inductive Fault where
  /-- A byte past the end of the received packet is read. -/
  | outOfRange
  /-- `std::runtime_error` -/
  | runtimeError (what : String)
  /-- `nlohmann::json::type_error` with its id -/
  | typeError (id : Nat)
  deriving DecidableEq, Repr

/-- `n` bytes from a pointer into a packet. -/
def readBytes (p : Bytes) (n : Nat) : Except Fault Bytes :=
  if n ≤ p.length then .ok (p.take n) else .error .outOfRange

def readByte (p : Bytes) (i : Nat) : Except Fault UInt8 :=
  match p[i]? with
  | some b => .ok b
  | none => .error .outOfRange

theorem readBytes_of_le {p : Bytes} {n : Nat} (h : n ≤ p.length) : readBytes p n = .ok (p.take n) := if_pos h

theorem readBytes_of_lt {p : Bytes} {n : Nat} (h : p.length < n) : readBytes p n = .error .outOfRange :=
  if_neg (by omega)

theorem readByte_of_lt {p : Bytes} {i : Nat} (h : i < p.length) : readByte p i = .ok p[i] := by
  simp [readByte, List.getElem?_eq_getElem h]

theorem readByte_of_le {p : Bytes} {i : Nat} (h : p.length ≤ i) : readByte p i = .error .outOfRange := by
  simp [readByte, List.getElem?_eq_none h]

/-! ## Packet types and flags -/

inductive PacketType where
  | heartbeat | authRequest | authResponse | playerJoin | playerLeave | playerInfo
  | vehicleSpawn | vehicleDelete | vehicleUpdate | vehicleDamage | vehicleElectrics
  | chatMessage | serverInfo | modList | modData | modOk | ping | pong | rconAuth
  | rconCommand | rconResponse | serverEvent | playerTeleport | ready | kick | ban
  | authorityClaim | authorityGrant | authorityRevoke | error
  deriving DecidableEq, Repr

namespace PacketType

def code : PacketType → UInt8
  | heartbeat => 0x00 | authRequest => 0x01 | authResponse => 0x02
  | playerJoin => 0x03 | playerLeave => 0x04 | playerInfo => 0x05
  | vehicleSpawn => 0x06 | vehicleDelete => 0x07 | vehicleUpdate => 0x08
  | vehicleDamage => 0x09 | vehicleElectrics => 0x0A | chatMessage => 0x0B
  | serverInfo => 0x0C | modList => 0x0D | modData => 0x0E | modOk => 0x0F
  | ping => 0x10 | pong => 0x11 | rconAuth => 0x12 | rconCommand => 0x13
  | rconResponse => 0x14 | serverEvent => 0x15 | playerTeleport => 0x16
  | ready => 0x17 | kick => 0x18 | ban => 0x19
  | authorityClaim => 0x20 | authorityGrant => 0x21 | authorityRevoke => 0x22
  | error => 0xFF

def all : List PacketType :=
  [heartbeat, authRequest, authResponse, playerJoin, playerLeave, playerInfo, vehicleSpawn, vehicleDelete,
    vehicleUpdate, vehicleDamage, vehicleElectrics, chatMessage, serverInfo, modList, modData, modOk, ping, pong,
    rconAuth, rconCommand, rconResponse, serverEvent, playerTeleport, ready, kick, ban, authorityClaim,
    authorityGrant, authorityRevoke, error]

/-- `static_cast<PacketType>` of a byte; `none` is a value no enumerator has. -/
def ofCode (b : UInt8) : Option PacketType := all.find? (·.code == b)

@[simp] theorem ofCode_code (t : PacketType) : ofCode t.code = some t := by cases t <;> rfl

end PacketType

def vfIsAi : UInt8 := 1

/-! ## The packed structs -/

structure PacketHeader where
  type : UInt8
  senderId : UInt16
  sequence : UInt32
  payloadLen : UInt16
  flags : UInt8
  deriving DecidableEq, Repr

structure VehicleState where
  vehicleId : UInt8
  vflags : UInt8
  pos : Arr3 UInt32
  rot : Arr4 UInt32
  vel : Arr3 UInt32
  angVel : Arr3 UInt32
  wheels : Arr4 UInt8
  lights : UInt8
  gear : Int8
  rpm : UInt32
  health : UInt16
  deriving DecidableEq, Repr

def PacketHeader.codec : Codec PacketHeader :=
  (Codec.u8.prod (Codec.u16.prod (Codec.u32.prod (Codec.u16.prod Codec.u8)))).congr
    { toFun := fun ⟨a, b, c, d, e⟩ => ⟨a, b, c, d, e⟩
      invFun := fun h => (h.type, h.senderId, h.sequence, h.payloadLen, h.flags)
      left_inv := fun _ => rfl
      right_inv := fun _ => rfl }

def VehicleState.codec : Codec VehicleState :=
  (Codec.u8.prod (Codec.u8.prod (Codec.u32.arr3.prod (Codec.u32.arr4.prod (Codec.u32.arr3.prod
    (Codec.u32.arr3.prod (Codec.u8.arr4.prod (Codec.u8.prod (Codec.i8.prod (Codec.u32.prod Codec.u16)))))))))).congr
    { toFun := fun ⟨a, b, c, d, e, f, g, h, i, j, k⟩ => ⟨a, b, c, d, e, f, g, h, i, j, k⟩
      invFun := fun v => (v.vehicleId, v.vflags, v.pos, v.rot, v.vel, v.angVel, v.wheels, v.lights, v.gear, v.rpm,
        v.health)
      left_inv := fun _ => rfl
      right_inv := fun _ => rfl }

/-- `VehicleState{}` -/
def VehicleState.zero : VehicleState :=
  ⟨0, 0, ⟨0, 0, 0⟩, ⟨0, 0, 0, 0⟩, ⟨0, 0, 0⟩, ⟨0, 0, 0⟩, ⟨0, 0, 0, 0⟩, 0, 0, 0, 0⟩

/-- The two `static_assert`s. -/
@[simp] theorem PacketHeader.codec_size : PacketHeader.codec.size = 10 := rfl

@[simp] theorem VehicleState.codec_size : VehicleState.codec.size = 66 := rfl

/-- The fields in their order, without padding. -/
theorem PacketHeader.encode_eq (h : PacketHeader) : PacketHeader.codec.encode h =
    h.type :: (leBytes 2 h.senderId.toNat ++ (leBytes 4 h.sequence.toNat ++ (leBytes 2 h.payloadLen.toNat ++ [h.flags]))) :=
  rfl

/-! ## Packets -/

namespace Packet

def headerSize : Nat := PacketHeader.codec.size

@[simp] theorem headerSize_eq : headerSize = 10 := rfl

/-- `payload` holds at least `payloadLen` bytes (all callers pass its own size, cut to 16 bits). -/
def build (type : PacketType) (senderId : UInt16) (sequence : UInt32) (payload : Bytes) (payloadLen : UInt16)
    (flags : UInt8) : Bytes :=
  PacketHeader.codec.encode ⟨type.code, senderId, sequence, payloadLen, flags⟩ ++ payload.take payloadLen.toNat

def buildStr (type : PacketType) (senderId : UInt16) (sequence : UInt32) (payload : Bytes) : Bytes :=
  build type senderId sequence payload (UInt16.ofNat payload.length) 0

def buildVehicleUpdate (senderId : UInt16) (sequence : UInt32) (vs : VehicleState) : Bytes :=
  build .vehicleUpdate senderId sequence (VehicleState.codec.encode vs) 66 0

def parseHeader (data : Bytes) : Except Fault PacketHeader :=
  if data.length < headerSize then .error (.runtimeError "Packet too short")
  else .ok (PacketHeader.codec.decode (data.take headerSize))

def payload (data : Bytes) : Bytes := data.drop headerSize

def parseVehicleState (payload : Bytes) (len : UInt16) : Except Fault VehicleState :=
  if len.toNat < VehicleState.codec.size then .error (.runtimeError "VehicleState payload too short")
  else do
    let bytes ← readBytes payload VehicleState.codec.size
    pure (VehicleState.codec.decode bytes)

/-! ## What the builders and parsers do -/

theorem parseHeader_of_le {data : Bytes} (h : 10 ≤ data.length) :
    parseHeader data = .ok (PacketHeader.codec.decode (data.take 10)) :=
  if_neg (Nat.not_lt.mpr h)

theorem parseHeader_of_lt {data : Bytes} (h : data.length < 10) :
    parseHeader data = .error (.runtimeError "Packet too short") :=
  if_pos h

theorem build_length_le (type : PacketType) (senderId : UInt16) (sequence : UInt32) (payload : Bytes)
    (payloadLen : UInt16) (flags : UInt8) : 10 ≤ (build type senderId sequence payload payloadLen flags).length := by
  simp [build]

theorem parseHeader_build (type : PacketType) (senderId : UInt16) (sequence : UInt32) (pl : Bytes)
    (payloadLen : UInt16) (flags : UInt8) (rest : Bytes) :
    parseHeader (build type senderId sequence pl payloadLen flags ++ rest) =
      .ok ⟨type.code, senderId, sequence, payloadLen, flags⟩ := by
  have hle := build_length_le type senderId sequence pl payloadLen flags
  rw [parseHeader_of_le (by rw [List.length_append]; omega), build, List.append_assoc]
  rw [show (10 : Nat) = PacketHeader.codec.size from rfl, Codec.take_encode_append, Codec.decode_encode]

theorem payload_build (type : PacketType) (senderId : UInt16) (sequence : UInt32) (pl : Bytes)
    (payloadLen : UInt16) (flags : UInt8) (rest : Bytes) :
    payload (build type senderId sequence pl payloadLen flags ++ rest) = pl.take payloadLen.toNat ++ rest := by
  rw [payload, build, List.append_assoc]
  exact Codec.drop_encode_append _ _ _

/-- A text loses what `uint16_t` drops of its length. -/
theorem payload_buildStr (type : PacketType) (senderId : UInt16) (sequence : UInt32) (text : Bytes) :
    payload (buildStr type senderId sequence text) = text.take (text.length % 65536) := by
  have hp := payload_build type senderId sequence text (UInt16.ofNat text.length) 0 []
  rwa [List.append_nil, List.append_nil, UInt16.toNat_ofNat'] at hp

@[simp] theorem payload_length (data : Bytes) : (payload data).length = data.length - 10 := by simp [payload]

theorem payload_buildVehicleUpdate (senderId : UInt16) (sequence : UInt32) (vs : VehicleState) :
    payload (buildVehicleUpdate senderId sequence vs) = VehicleState.codec.encode vs := by
  have hp := payload_build .vehicleUpdate senderId sequence (VehicleState.codec.encode vs) 66 0 []
  rw [List.append_nil, List.append_nil, List.take_of_length_le (by simp)] at hp
  exact hp

/-- A 66-byte payload goes out and comes back as the same state. -/
theorem parseVehicleState_build (senderId : UInt16) (sequence : UInt32) (vs : VehicleState) :
    parseVehicleState (payload (buildVehicleUpdate senderId sequence vs)) 66 = .ok vs := by
  have hn : ¬ (66 : UInt16).toNat < VehicleState.codec.size := by decide
  rw [parseVehicleState, if_neg hn, payload_buildVehicleUpdate, readBytes_of_le (by simp)]
  show Except.ok (VehicleState.codec.decode (List.take _ _)) = _
  rw [List.take_of_length_le (by simp), Codec.decode_encode]

/-- Decoding 66 received bytes keeps every one of them. -/
theorem parseVehicleState_eq {pl : Bytes} {len : UInt16} (h : 66 ≤ len.toNat) (hl : 66 ≤ pl.length) :
    ∃ vs, parseVehicleState pl len = .ok vs ∧ VehicleState.codec.encode vs = pl.take 66 := by
  have hn : ¬ len.toNat < VehicleState.codec.size := by rw [VehicleState.codec_size]; omega
  refine ⟨VehicleState.codec.decode (pl.take 66), ?_, ?_⟩
  · rw [parseVehicleState, if_neg hn, VehicleState.codec_size, readBytes_of_le hl]
    rfl
  · exact Codec.encode_decode _ _ (by simp; omega)

end Packet

end NovaMP
