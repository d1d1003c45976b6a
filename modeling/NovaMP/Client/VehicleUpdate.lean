/-
  NovaMP.Client.VehicleUpdate — the vehicle updates of the Lua client
  (`client/Resources/Client/vehicle_sync.lua`, `ai_authority.lua`).

  Both scripts pack an update with one format, and `vehicle_sync.lua` unpacks with it. It
  has sixteen `f` where thirteen floats are written, so three of the four wheel bytes
  are packed as floats: 75 bytes, not the 66 of `VehicleState`.

  - `update_is_75_bytes`: so both scripts send 75 bytes for every vehicle.
  - `server_reads_update`: the server reads the position and motion out of them, and
    zeros for lights, gear, rpm and health.
  - `onRemoteVehicleUpdate_raises_iff`: unpacking raises on 66 to 74 bytes, the server's
    updates among them.
  - `layouts_never_agree`: no state is packed or unpacked as the server has it.

  What the engine reports (`Reading`) is the value of the script's locals where it
  packs.
-/

import NovaMP.Lib.StringPack
import NovaMP.Lib.Table
import NovaMP.Network.Packet

namespace NovaMP.Client

open Lib StringPack

/-! ## Packing -/

/-- `x`, `y` and `z` of a table. -/
abbrev Vec3 := Arr3 Value

/-- `x`, `y`, `z` and `w` of a table. -/
abbrev Quat := Arr4 Value

structure Reading where
  pos : Vec3
  rot : Quat
  vel : Vec3
  avel : Vec3
  lights : Value
  gear : Value
  rpm : Value
  health : Value

/-- The format string of all three calls. -/
def format : String := "<BBffffffffffffffff BBbfH"

def formatOptions : List Opt := (options format.toList).getD []

/-- The values of an update in the order of its fields. -/
def updateValues (vid vflags : Value) (r : Reading) (wheels : Quat) : List Value :=
  [vid, vflags,
    r.pos.a0, r.pos.a1, r.pos.a2,
    r.rot.a0, r.rot.a1, r.rot.a2, r.rot.a3,
    r.vel.a0, r.vel.a1, r.vel.a2,
    r.avel.a0, r.avel.a1, r.avel.a2,
    wheels.a0, wheels.a1, wheels.a2, wheels.a3,
    r.lights, r.gear, r.rpm, r.health]

/-- The wheels the scripts send. -/
def noWheels : Quat := ⟨.int 0, .int 0, .int 0, .int 0⟩

/-- `onUpdate` of `vehicle_sync.lua`: the payload it sends. -/
def onUpdate (vid : Value) (r : Reading) : Except PackError Bytes :=
  pack formatOptions (updateValues vid (.int 0) r noWheels)

/-- `buildVehicleStatePayload` of `ai_authority.lua`. -/
def buildVehicleStatePayload (svid : Value) (r : Reading) : Except PackError Bytes :=
  pack formatOptions (updateValues svid (.int vfIsAi.toNat) r noWheels)

/-! ## Unpacking -/

/-- What the game is asked to do. -/
inductive Order where
  | spawnVehicle (model : String) (pos : Vec3) (rot : Quat)
  | setPositionRotation (gid : Nat) (pos : Vec3) (rot : Quat)
  | setVelocity (gid : Nat) (vel : Vec3)
  deriving DecidableEq, Repr

/-- What the game answers. -/
structure Game where
  spawned : Option Nat
  hasVehicle : Nat → Bool

structure SyncState where
  /-- `player_id -> { vehicle_id -> game_vid }`, in the order `pairs` goes through it. -/
  remoteVehicles : List (Int × Table Int Nat)
  aiVehicles : Table Int Nat

/-- The first remote vehicle with this id, whoever its player is. -/
def findRemote (s : SyncState) (vid : Int) : Option Nat := s.remoteVehicles.findSome? fun e => e.2.lookup vid

/-- `onRemoteVehicleUpdate` once the payload is unpacked. -/
def applyUpdate (g : Game) (s : SyncState) (vid vflags : Int) (pos : Vec3) (rot : Quat) (vel : Vec3) :
    SyncState × List Order :=
  let move (gid : Nat) : List Order :=
    if g.hasVehicle gid then [.setPositionRotation gid pos rot, .setVelocity gid vel] else []
  if vflags.toNat &&& vfIsAi.toNat ≠ 0 then
    match s.aiVehicles.lookup vid with
    | some gid => (s, move gid)
    | none =>
      match g.spawned with
      | some gid => ({ s with aiVehicles := s.aiVehicles.insert vid gid }, .spawnVehicle "etk800" pos rot :: move gid)
      | none => (s, [.spawnVehicle "etk800" pos rot])
  else
    match findRemote s vid with
    | some gid => (s, move gid)
    | none => (s, [])

def onRemoteVehicleUpdate (g : Game) (s : SyncState) (payload : Bytes) : Except PackError (SyncState × List Order) :=
  if payload.length < 66 then .ok (s, [])
  else do
    match ← unpack formatOptions payload with
    | .int vid :: .int vflags :: px :: py :: pz :: rx :: ry :: rz :: rw :: vx :: vy :: vz :: _ =>
      pure (applyUpdate g s vid vflags ⟨px, py, pz⟩ ⟨rx, ry, rz, rw⟩ ⟨vx, vy, vz⟩)
    | _ => pure (s, [])

/-! ## The length of an update -/

theorem formatOptions_size : size formatOptions = 75 := by decide

theorem update_is_75_bytes {vid vflags : Value} {r : Reading} {wheels : Quat} {bytes : Bytes}
    (h : pack formatOptions (updateValues vid vflags r wheels) = .ok bytes) : bytes.length = 75 := by
  rw [pack_length h, formatOptions_size]

/-- No update is the packed struct of any vehicle. -/
theorem update_ne_encode (vid vflags : Value) (r : Reading) (wheels : Quat) (vs : VehicleState) :
    pack formatOptions (updateValues vid vflags r wheels) ≠ .ok (VehicleState.codec.encode vs) := by
  intro h
  have hlen := update_is_75_bytes h
  rw [Codec.length_encode, VehicleState.codec_size] at hlen
  omega

theorem onRemoteVehicleUpdate_raises (g : Game) (s : SyncState) {payload : Bytes} (h66 : 66 ≤ payload.length)
    (h75 : payload.length < 75) : onRemoteVehicleUpdate g s payload = .error .tooShort := by
  have hn : ¬ payload.length < 66 := by omega
  have hshort : payload.length < size formatOptions := by
    rw [formatOptions_size]
    exact h75
  rw [onRemoteVehicleUpdate, if_neg hn, unpack_short hshort]
  rfl

theorem onRemoteVehicleUpdate_raises_iff (g : Game) (s : SyncState) (payload : Bytes) :
    (∃ e, onRemoteVehicleUpdate g s payload = .error e) ↔ 66 ≤ payload.length ∧ payload.length < 75 := by
  by_cases h66 : payload.length < 66
  · rw [onRemoteVehicleUpdate, if_pos h66]
    exact iff_of_false (fun ⟨_, h⟩ => nomatch h) (by omega)
  by_cases h75 : payload.length < 75
  · exact iff_of_true ⟨_, onRemoteVehicleUpdate_raises g s (by omega) h75⟩ ⟨by omega, h75⟩
  · have hlong : size formatOptions ≤ payload.length := by
      rw [formatOptions_size]
      omega
    obtain ⟨vs, hvs⟩ := unpack_long hlong
    rw [onRemoteVehicleUpdate, if_neg h66, hvs]
    refine iff_of_false ?_ (by omega)
    intro hex
    obtain ⟨e, he⟩ := hex
    simp only [bind, Except.bind] at he
    split at he <;> cases he

/-! ## What the server makes of an update -/

/-- The locals of a script that packs the fields of `vs`. -/
def Reading.of (vs : VehicleState) : Reading where
  pos := ⟨.single vs.pos.a0, .single vs.pos.a1, .single vs.pos.a2⟩
  rot := ⟨.single vs.rot.a0, .single vs.rot.a1, .single vs.rot.a2, .single vs.rot.a3⟩
  vel := ⟨.single vs.vel.a0, .single vs.vel.a1, .single vs.vel.a2⟩
  avel := ⟨.single vs.angVel.a0, .single vs.angVel.a1, .single vs.angVel.a2⟩
  lights := .int vs.lights.toNat
  gear := .int vs.gear.toInt
  rpm := .single vs.rpm
  health := .int vs.health.toNat

theorem put_u8 (b : UInt8) : (Opt.unsigned 1).put (.int b.toNat) = .ok [b] := by
  have hb : b.toNat < 256 := b.toNat_lt
  have hfits : (0 : Int) ≤ b.toNat ∧ (b.toNat : Int) < 256 ^ 1 := by omega
  simp only [Opt.put, Value.checkInteger, if_pos hfits, Int.toNat_natCast, leBytes, UInt8.ofNat_toNat]

theorem put_u16 (n : UInt16) : (Opt.unsigned 2).put (.int n.toNat) = .ok (leBytes 2 n.toNat) := by
  have hn : n.toNat < 65536 := n.toNat_lt
  have hfits : (0 : Int) ≤ n.toNat ∧ (n.toNat : Int) < 256 ^ 2 := by omega
  simp only [Opt.put, Value.checkInteger, if_pos hfits, Int.toNat_natCast]

theorem put_i8 (b : Int8) : (Opt.signed 1).put (.int b.toInt) = .ok [b.toUInt8] := by
  have hlo := b.le_toInt
  have hhi := b.toInt_lt
  have hfits : -(256 ^ 1) ≤ 2 * b.toInt ∧ 2 * b.toInt < 256 ^ 1 := by omega
  have hbyte : (b.toInt % 256 ^ 1).toNat = b.toUInt8.toNat := by
    have hb : b.toUInt8.toNat < 256 := b.toUInt8.toNat_lt
    have hcond : b.toInt = if 2 * b.toUInt8.toNat < 2 ^ 8 then (b.toUInt8.toNat : Int) else b.toUInt8.toNat - 2 ^ 8 :=
      BitVec.toInt_eq_toNat_cond b.toBitVec
    split at hcond <;> omega
  simp only [Opt.put, Value.checkInteger, if_pos hfits, leBytes, hbyte, UInt8.ofNat_toNat]

theorem put_single (bits : UInt32) : Opt.single.put (.single bits) = .ok (leBytes 4 bits.toNat) := rfl

theorem put_zero : Opt.single.put (.int 0) = .ok [0, 0, 0, 0] := by decide

theorem put_zero_u8 : (Opt.unsigned 1).put (.int 0) = .ok [0] := by decide

theorem formatOptions_eq : formatOptions =
    [.unsigned 1, .unsigned 1, .single, .single, .single, .single, .single, .single, .single, .single, .single,
      .single, .single, .single, .single, .single, .single, .single, .unsigned 1, .unsigned 1, .signed 1, .single,
      .unsigned 2] := by decide

/-- The bytes an update has past the packed struct. -/
def excess (vs : VehicleState) : Bytes :=
  [0, vs.lights, vs.gear.toUInt8] ++ leBytes 4 vs.rpm.toNat ++ leBytes 2 vs.health.toNat

/-- The state that the first 66 bytes of an update hold. -/
def asSent (vs : VehicleState) (vflags : UInt8) : VehicleState :=
  { vs with vflags, wheels := ⟨0, 0, 0, 0⟩, lights := 0, gear := 0, rpm := 0, health := 0 }

theorem pack_update (vs : VehicleState) (vflags : UInt8) :
    pack formatOptions (updateValues (.int vs.vehicleId.toNat) (.int vflags.toNat) (.of vs) noWheels) =
      .ok (VehicleState.codec.encode (asSent vs vflags) ++ excess vs) := by
  rw [formatOptions_eq]
  simp only [updateValues, Reading.of, noWheels, pack, put_u8, put_u16, put_i8, put_single, put_zero, put_zero_u8]
  simp only [bind, Except.bind, pure, Except.pure, VehicleState.codec, asSent, excess, Codec.congr, Codec.prod,
    Codec.arr3, Codec.arr4, Codec.u8, Codec.u16, Codec.u32, Codec.i8, Equiv.coe_fn_symm_mk, List.append_assoc]
  rfl

/-- The server takes the position and the motion from an update, and zeros for the rest. -/
theorem server_reads_update (vs : VehicleState) (vflags : UInt8) :
    ∃ bytes, pack formatOptions (updateValues (.int vs.vehicleId.toNat) (.int vflags.toNat) (.of vs) noWheels) = .ok bytes ∧
      Packet.parseVehicleState bytes 75 = .ok (asSent vs vflags) := by
  refine ⟨_, pack_update vs vflags, ?_⟩
  have hlen : 66 ≤ (VehicleState.codec.encode (asSent vs vflags) ++ excess vs).length := by simp
  have hlong : ¬ (75 : UInt16).toNat < VehicleState.codec.size := by decide
  rw [Packet.parseVehicleState, if_neg hlong, readBytes_of_le (by simp), Codec.take_encode_append]
  exact congrArg Except.ok (Codec.decode_encode _ _)

/-! ## The three layouts -/

/-- The fields of a state, as `onRemoteVehicleUpdate` should find them. -/
def fieldValues (vs : VehicleState) : List Value :=
  updateValues (.int vs.vehicleId.toNat) (.int vs.vflags.toNat) (.of vs)
    ⟨.int vs.wheels.a0.toNat, .int vs.wheels.a1.toNat, .int vs.wheels.a2.toNat, .int vs.wheels.a3.toNat⟩

/-- The client and the server agree on the update of a vehicle in the state `vs`. -/
structure LayoutsAgree (vs : VehicleState) : Prop where
  player : onUpdate (.int vs.vehicleId.toNat) (.of vs) =
    .ok (VehicleState.codec.encode { vs with vflags := 0, wheels := ⟨0, 0, 0, 0⟩ })
  ai : buildVehicleStatePayload (.int vs.vehicleId.toNat) (.of vs) =
    .ok (VehicleState.codec.encode { vs with vflags := vfIsAi, wheels := ⟨0, 0, 0, 0⟩ })
  remote : ∀ senderId sequence g s,
    unpack formatOptions (Packet.payload (Packet.buildVehicleUpdate senderId sequence vs)) = .ok (fieldValues vs) ∧
      ∃ r, onRemoteVehicleUpdate g s (Packet.payload (Packet.buildVehicleUpdate senderId sequence vs)) = .ok r

/-- For no state do the scripts send the packed struct of it or of any other state, and
    every update the server sends makes `onRemoteVehicleUpdate` raise. -/
theorem layouts_never_agree (vs : VehicleState) :
    ¬ LayoutsAgree vs ∧
    (∀ vs', onUpdate (.int vs.vehicleId.toNat) (.of vs) ≠ .ok (VehicleState.codec.encode vs')) ∧
    (∀ vs', buildVehicleStatePayload (.int vs.vehicleId.toNat) (.of vs) ≠ .ok (VehicleState.codec.encode vs')) ∧
    ∀ senderId sequence g s,
      onRemoteVehicleUpdate g s (Packet.payload (Packet.buildVehicleUpdate senderId sequence vs)) = .error .tooShort := by
  refine ⟨?_, ?_, ?_, ?_⟩
  · intro h
    exact update_ne_encode _ _ _ _ _ h.player
  · intro vs'
    exact update_ne_encode _ _ _ _ vs'
  · intro vs'
    exact update_ne_encode _ _ _ _ vs'
  · intro senderId sequence g s
    rw [Packet.payload_buildVehicleUpdate]
    exact onRemoteVehicleUpdate_raises g s (by simp) (by simp)

theorem layouts_differ_at_zero : ¬ ∀ vs, LayoutsAgree vs := by
  intro h
  have hlen := congrArg (fun r => (r.toOption.map List.length)) (h VehicleState.zero).player
  exact absurd hlen (by decide)

end NovaMP.Client
