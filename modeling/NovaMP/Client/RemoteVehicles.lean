/-
  NovaMP.Client.RemoteVehicles — which vehicle a remote update moves
  (`pollUDP` and `handlePacket` in `client/Resources/Client/main.lua`,
  `onRemoteVehicleUpdate` in `vehicle_sync.lua`).

  `remote_vehicles` is keyed by player and vehicle id. But `pollUDP` hands over the type
  and the payload only, so `onRemoteVehicleUpdate` does not know the sender: it takes
  the first vehicle of that id that `pairs` comes to. Every player has a vehicle 0.

  - `findRemote_some_iff`: the search ends at the first player with such a vehicle.
  - `update_moves_right_iff`: the update moves the vehicle of its sender and no other
    exactly when that player is the sender (`FirstIsSender`).
  - `other_car_moved`: two players, and an update of the second.
-/

import NovaMP.Client.Stream
import NovaMP.Client.VehicleUpdate

namespace NovaMP.Client

open Lib StringPack

/-! ## From the socket to the handler -/

/-- The call of `handlePacket` that `pollUDP` makes, if any; `data` is what
    `udp_socket:receive()` returns. -/
def pollUDP (data : Option Bytes) : Except PackError (Option (Option UInt8 × Bytes)) :=
  match data with
  | none => .ok none
  | some data =>
    if data.length < 10 then .ok none
    else do
      let plen ← unpackInteger payloadFormat data 8
      pure (some (byte data 1, sub data 11 (10 + plen.toNat)))

/-- `handlePacket` of an update; `others` is what it does with the other packets. -/
def handlePacket (others : UInt8 → Bytes → SyncState → Except PackError (SyncState × List Order)) (g : Game)
    (s : SyncState) (ptype : UInt8) (payload : Bytes) : Except PackError (SyncState × List Order) :=
  if ptype = 0x08 then onRemoteVehicleUpdate g s payload else others ptype payload s

/-- A datagram comes in. -/
def onDatagram (others : UInt8 → Bytes → SyncState → Except PackError (SyncState × List Order)) (g : Game)
    (s : SyncState) (data : Bytes) : Except PackError (SyncState × List Order) := do
  match ← pollUDP (some data) with
  | some (some ptype, payload) => handlePacket others g s ptype payload
  | _ => pure (s, [])

/-! ## The right vehicle -/

/-- `remote_vehicles[p][v]`; no two entries of the table have the same player. -/
def remoteVehicle (s : SyncState) (p v : Int) : Option Nat :=
  s.remoteVehicles.findSome? fun e => if e.1 = p then e.2.lookup v else none

/-- What an update of the game vehicle asks for, if there is one. -/
def moves (g : Game) (pos : Vec3) (rot : Quat) (vel : Vec3) : Option Nat → List Order
  | none => []
  | some gid => if g.hasVehicle gid then [.setPositionRotation gid pos rot, .setVelocity gid vel] else []

/-- The first player with a vehicle `v`, in the order of `pairs`, is `p`; or the game has
    neither vehicle, or the same one for both. -/
def FirstIsSender (g : Game) (s : SyncState) (p v : Int) : Prop :=
  ∀ before q vids after gid, s.remoteVehicles = before ++ (q, vids) :: after → (∀ e ∈ before, e.2.lookup v = none) →
    vids.lookup v = some gid → q = p ∨ (remoteVehicle s p v).filter g.hasVehicle = (some gid).filter g.hasVehicle

/-- The fields of an update as they are unpacked. -/
structure Fields where
  vid : Int
  vflags : Int
  pos : Vec3
  rot : Quat
  vel : Vec3
  rest : List Value

def Fields.values (f : Fields) : List Value :=
  .int f.vid :: .int f.vflags :: f.pos.a0 :: f.pos.a1 :: f.pos.a2 :: f.rot.a0 :: f.rot.a1 :: f.rot.a2 :: f.rot.a3 ::
    f.vel.a0 :: f.vel.a1 :: f.vel.a2 :: f.rest

/-! ## The search -/

variable {g : Game} {s : SyncState} {p v : Int}

theorem findRemote_some_iff {gid : Nat} : findRemote s v = some gid ↔ ∃ before q vids after,
    s.remoteVehicles = before ++ (q, vids) :: after ∧ (∀ e ∈ before, e.2.lookup v = none) ∧ vids.lookup v = some gid := by
  rw [findRemote, List.findSome?_eq_some_iff]
  constructor
  · rintro ⟨before, ⟨q, vids⟩, after, hs, hgid, hno⟩
    exact ⟨before, q, vids, after, hs, hno, hgid⟩
  · rintro ⟨before, q, vids, after, hs, hno, hgid⟩
    exact ⟨before, (q, vids), after, hs, hgid, hno⟩

/-- A player without the vehicle that nobody has. -/
theorem remoteVehicle_of_none (h : findRemote s v = none) : remoteVehicle s p v = none := by
  rw [findRemote, List.findSome?_eq_none_iff] at h
  rw [remoteVehicle, List.findSome?_eq_none_iff]
  intro e he
  split
  · exact h e he
  · rfl

/-- The first player with the vehicle has it. -/
theorem remoteVehicle_of_first {before after : List (Int × Table Int Nat)} {vids : Table Int Nat} {gid : Nat}
    (hs : s.remoteVehicles = before ++ (p, vids) :: after) (hno : ∀ e ∈ before, e.2.lookup v = none)
    (hgid : vids.lookup v = some gid) : remoteVehicle s p v = some gid := by
  rw [remoteVehicle, List.findSome?_eq_some_iff]
  refine ⟨before, (p, vids), after, hs, by simpa using hgid, fun e he => ?_⟩
  split
  · exact hno e he
  · rfl

theorem moves_filter (pos : Vec3) (rot : Quat) (vel : Vec3) (o : Option Nat) :
    moves g pos rot vel (o.filter g.hasVehicle) = moves g pos rot vel o := by
  cases o with
  | none => rfl
  | some gid => cases h : g.hasVehicle gid <;> simp [moves, h, Option.filter_some]

/-- The orders tell the vehicle. -/
theorem moves_eq_iff (pos : Vec3) (rot : Quat) (vel : Vec3) (o o' : Option Nat) :
    moves g pos rot vel o = moves g pos rot vel o' ↔ o.filter g.hasVehicle = o'.filter g.hasVehicle := by
  constructor
  · intro h
    rcases o with _ | gid <;> rcases o' with _ | gid'
    · rfl
    · cases h' : g.hasVehicle gid' <;> simp [moves, h', Option.filter_some] at h ⊢
    · cases h' : g.hasVehicle gid <;> simp [moves, h', Option.filter_some] at h ⊢
    · cases h1 : g.hasVehicle gid <;> cases h2 : g.hasVehicle gid' <;> simp [moves, h1, h2, Option.filter_some] at h ⊢
      exact h
  · intro h
    rw [← moves_filter pos rot vel o, h, moves_filter]

/-- The search finds the vehicle of `p`, as far as the game can tell. -/
theorem found_iff : (findRemote s v).filter g.hasVehicle = (remoteVehicle s p v).filter g.hasVehicle ↔
    FirstIsSender g s p v := by
  constructor
  · intro h before q vids after gid hs hno hgid
    rw [findRemote_some_iff.mpr ⟨before, q, vids, after, hs, hno, hgid⟩] at h
    exact .inr h.symm
  · intro h
    cases hfind : findRemote s v with
    | none => rw [remoteVehicle_of_none hfind]
    | some gid =>
      obtain ⟨before, q, vids, after, hs, hno, hgid⟩ := findRemote_some_iff.mp hfind
      rcases h before q vids after gid hs hno hgid with rfl | hsame
      · rw [remoteVehicle_of_first hs hno hgid]
      · exact hsame.symm

/-! ## One update -/

theorem applyUpdate_player {vflags : Int} (h : vflags.toNat &&& vfIsAi.toNat = 0) (pos : Vec3) (rot : Quat) (vel : Vec3) :
    applyUpdate g s v vflags pos rot vel = (s, moves g pos rot vel (findRemote s v)) := by
  unfold applyUpdate
  rw [if_neg (not_not.mpr h)]
  cases findRemote s v <;> rfl

theorem onRemoteVehicleUpdate_fields {payload : Bytes} {f : Fields} (h : unpack formatOptions payload = .ok f.values) :
    onRemoteVehicleUpdate g s payload = .ok (applyUpdate g s f.vid f.vflags f.pos f.rot f.vel) := by
  have hlong : ¬ payload.length < 66 := by
    intro hlt
    have hshort : payload.length < size formatOptions := by
      rw [formatOptions_size]
      omega
    rw [unpack_short hshort] at h
    cases h
  rw [onRemoteVehicleUpdate, if_neg hlong, h]
  rfl

theorem pollUDP_packet (m : Outgoing) : pollUDP (some m.packet) = .ok (some m.call) := by
  have hlen : ¬ m.packet.length < 10 := by
    rw [m.packet_length]
    omega
  simp only [pollUDP, if_neg hlen, m.unpack_packet, m.byte_packet, bind, Except.bind, pure, Except.pure,
    Int.toNat_natCast, m.sub_packet]
  rfl

theorem onDatagram_update (others : UInt8 → Bytes → SyncState → Except PackError (SyncState × List Order)) {m : Outgoing}
    (ht : m.type = .vehicleUpdate) : onDatagram others g s m.packet = onRemoteVehicleUpdate g s m.payload := by
  rw [onDatagram, pollUDP_packet, Outgoing.call, ht]
  rfl

/-- An update that is no AI's moves the vehicle `remote_vehicles[p][v]` of its sender, if
    there is one, and no other, exactly if the first player with such a vehicle is the
    sender. -/
theorem update_moves_right_iff (others : UInt8 → Bytes → SyncState → Except PackError (SyncState × List Order)) (g : Game)
    (s : SyncState) (m : Outgoing) (f : Fields) (ht : m.type = .vehicleUpdate)
    (hf : unpack formatOptions m.payload = .ok f.values) (hai : f.vflags.toNat &&& vfIsAi.toNat = 0) :
    onDatagram others g s m.packet = .ok (s, moves g f.pos f.rot f.vel (remoteVehicle s m.senderId.toNat f.vid)) ↔
      FirstIsSender g s m.senderId.toNat f.vid := by
  rw [onDatagram_update others ht, onRemoteVehicleUpdate_fields hf, applyUpdate_player hai, ← found_iff,
    ← moves_eq_iff f.pos f.rot f.vel]
  constructor
  · intro h
    exact (Prod.mk.inj (Except.ok.inj h)).2
  · intro h
    rw [h]

/-! ## Two players -/

namespace Meeting

/-- `ann` (1) and `bob` (2) both have a vehicle 0. -/
def table : SyncState where
  remoteVehicles := [(1, (∅ : Table Int Nat).insert 0 10), (2, (∅ : Table Int Nat).insert 0 20)]
  aiVehicles := ∅

def game : Game := ⟨none, fun _ => true⟩

/-- An update of a vehicle 0, all zero. -/
def payload : Bytes := List.replicate 75 0

def update (p : UInt16) : Outgoing := ⟨.vehicleUpdate, p, 1, payload, 0, by simp [payload]⟩

def zero : Value := .single 0

def fields : Fields :=
  ⟨0, 0, ⟨zero, zero, zero⟩, ⟨zero, zero, zero, zero⟩, ⟨zero, zero, zero⟩,
    [zero, zero, zero, zero, zero, zero, .int 0, .int 0, .int 0, zero, .int 0]⟩

set_option maxRecDepth 4000 in
theorem unpack_payload : unpack formatOptions payload = .ok fields.values := by
  decide

def ignore : UInt8 → Bytes → SyncState → Except PackError (SyncState × List Order) := fun _ _ s => .ok (s, [])

end Meeting

theorem update_moves_right_ann :
    onDatagram Meeting.ignore Meeting.game Meeting.table (Meeting.update 1).packet =
        .ok (Meeting.table, moves Meeting.game Meeting.fields.pos Meeting.fields.rot Meeting.fields.vel
          (remoteVehicle Meeting.table 1 0)) ↔
      FirstIsSender Meeting.game Meeting.table 1 0 :=
  update_moves_right_iff Meeting.ignore Meeting.game Meeting.table (Meeting.update 1) Meeting.fields rfl
    Meeting.unpack_payload rfl

theorem other_car_moved : ¬ ∀ (others : UInt8 → Bytes → SyncState → Except PackError (SyncState × List Order)) (g : Game)
    (s : SyncState) (m : Outgoing) (f : Fields), m.type = .vehicleUpdate → unpack formatOptions m.payload = .ok f.values →
      f.vflags.toNat &&& vfIsAi.toNat = 0 →
        onDatagram others g s m.packet =
          .ok (s, moves g f.pos f.rot f.vel (remoteVehicle s m.senderId.toNat f.vid)) := by
  intro hall
  have hf : unpack formatOptions (Meeting.update 2).payload = .ok Meeting.fields.values := Meeting.unpack_payload
  have h := hall Meeting.ignore Meeting.game Meeting.table (Meeting.update 2) Meeting.fields rfl hf rfl
  rw [onDatagram_update _ rfl, onRemoteVehicleUpdate_fields hf, applyUpdate_player rfl] at h
  have hmoves := (Prod.mk.inj (Except.ok.inj h)).2
  have hfound : (findRemote Meeting.table 0).filter Meeting.game.hasVehicle = some 10 := by decide
  have hright : (remoteVehicle Meeting.table 2 0).filter Meeting.game.hasVehicle = some 20 := by decide
  have hsame := (moves_eq_iff _ _ _ _ _).mp hmoves
  cases hfound.symm.trans (hsame.trans hright)

end NovaMP.Client
