/-
  NovaMP.Client.VehicleDeletes — which vehicles a `VEHICLE_DELETE` removes
  (`handleVehicleDelete` in `servers/src/game_server.cpp`, `pollTCP` and `handlePacket` in
  `client/Resources/Client/main.lua`, `onRemoteVehicleDelete` in `vehicle_sync.lua`).

  The server writes the player into the header and the id of the vehicle into the payload.
  `pollTCP` hands over the type and the payload, and `onRemoteVehicleDelete` goes through
  the vehicles of all players and the traffic.

  - `receive_delete`: what the packet of the server does.
  - `deletes_one_iff`: it deletes the vehicle of its player and nothing else exactly if
    that is the only one with the id.
  - `both_cars_deleted`: two players with a vehicle 0, and a delete of the second.
-/

import NovaMP.Client.Extension
import NovaMP.Server.Spec

namespace NovaMP.Client.Extension

open Lib GameServer

/-- `remote_vehicles[p][v]` -/
def vehicle (x : Extension) (p v : Int) : Option Nat := (x.vehiclesOf p).lookup v

/-- Without the vehicle `v` of `p`, and its entry. -/
def deletedOne (x : Extension) (p v : Int) : Extension :=
  { x.remove (x.vehicle p v).toList with
    remoteVehicles := x.remoteVehicles.mapValues fun q vids => if q = p then vids.erase v else vids }

/-- Nothing else that is shown has the id `v`. -/
def OnlyOne (x : Extension) (p v : Int) : Prop :=
  (∀ q vids, q ≠ p → x.remoteVehicles.lookup q = some vids → v ∉ vids) ∧ v ∉ x.aiVehicles

variable {x : Extension} {p v : Int}

/-- The packet of the server, whoever's the vehicle is. -/
theorem receive_delete (decode : Bytes → Option Json) (x : Extension) (spawned : Option Nat) (pid : UInt16) (vid : UInt8) :
    x.receive decode spawned (deletePacket pid vid) = (x.onRemoteVehicleDelete vid.toNat, none) := by
  have hpacket : deletePacket pid vid = Outgoing.packet ⟨.vehicleDelete, pid, 0, [vid], 0, by simp⟩ := rfl
  rw [hpacket, receive_outgoing]
  rfl

theorem mem_vehiclesNumbered {gid : Nat} : gid ∈ x.vehiclesNumbered v ↔
    (∃ q vids, x.remoteVehicles.lookup q = some vids ∧ vids.lookup v = some gid) ∨ x.aiVehicles.lookup v = some gid := by
  rw [vehiclesNumbered, List.mem_append, List.mem_filterMap, Option.mem_toList]
  refine or_congr_left ⟨?_, ?_⟩
  · intro h
    obtain ⟨e, he, hgid⟩ := h
    exact ⟨e.1, e.2, Table.lookup_iff_mem.mpr he, hgid⟩
  · intro h
    obtain ⟨q, vids, hq, hgid⟩ := h
    exact ⟨⟨q, vids⟩, Table.lookup_iff_mem.mp hq, hgid⟩

theorem vehicle_eq_some {gid : Nat} :
    x.vehicle p v = some gid ↔ ∃ vids, x.remoteVehicles.lookup p = some vids ∧ vids.lookup v = some gid := by
  rw [vehicle, vehiclesOf]
  cases x.remoteVehicles.lookup p <;> simp

theorem vehiclesNumbered_only (h : x.OnlyOne p v) (gid : Nat) :
    gid ∈ x.vehiclesNumbered v ↔ gid ∈ (x.vehicle p v).toList := by
  rw [mem_vehiclesNumbered, Option.mem_toList, vehicle_eq_some]
  constructor
  · intro hgid
    rcases hgid with ⟨q, vids, hq, hgid⟩ | hgid
    · by_cases hqp : q = p
      · exact ⟨vids, hqp ▸ hq, hgid⟩
      · exact absurd (Table.mem_of_lookup hgid) (h.1 q vids hqp hq)
    · exact absurd (Table.mem_of_lookup hgid) h.2
  · intro hgid
    obtain ⟨vids, hp, hgid⟩ := hgid
    exact .inl ⟨p, vids, hp, hgid⟩

/-- The entries of the other players stay exactly if none of them has the id. -/
theorem remote_eq_iff : (x.onRemoteVehicleDelete v).remoteVehicles = (x.deletedOne p v).remoteVehicles ↔
    ∀ q vids, q ≠ p → x.remoteVehicles.lookup q = some vids → v ∉ vids := by
  rw [onRemoteVehicleDelete, deletedOne, Table.mapValues_eq_iff]
  constructor
  · intro h q vids hqp hq
    have hsame := h q vids hq
    rw [if_neg hqp] at hsame
    exact Table.erase_eq_self_iff.mp hsame
  · intro h q vids hq
    split
    · rfl
    · rename_i hqp
      exact Table.erase_of_notMem (h q vids hqp hq)

/-- A `VEHICLE_DELETE` of the server for vehicle `vid` of player `pid` deletes that vehicle
    and nothing else exactly if no other vehicle that is shown has this id. -/
theorem deletes_one_iff (decode : Bytes → Option Json) (x : Extension) (spawned : Option Nat) (pid : UInt16) (vid : UInt8) :
    x.receive decode spawned (deletePacket pid vid) = (x.deletedOne pid.toNat vid.toNat, none) ↔
      x.OnlyOne pid.toNat vid.toNat := by
  rw [receive_delete, Prod.mk.injEq, and_iff_left rfl]
  constructor
  · intro h
    refine ⟨remote_eq_iff.mp (congrArg remoteVehicles h), ?_⟩
    have hai : AList.erase (vid.toNat : Int) x.aiVehicles = x.aiVehicles := congrArg aiVehicles h
    exact Table.erase_eq_self_iff.mp hai
  · intro h
    have hremote := remote_eq_iff.mpr h.1
    have hai : AList.erase (vid.toNat : Int) x.aiVehicles = x.aiVehicles := Table.erase_of_notMem h.2
    have hscene : (x.remove (x.vehiclesNumbered vid.toNat)).scene = (x.remove (x.vehicle pid.toNat vid.toNat).toList).scene :=
      List.filter_congr fun gid _ => decide_eq_decide.mpr (not_congr (vehiclesNumbered_only h gid))
    calc x.onRemoteVehicleDelete vid.toNat
        = { x with
            scene := (x.remove (x.vehiclesNumbered vid.toNat)).scene
            remoteVehicles := (x.onRemoteVehicleDelete vid.toNat).remoteVehicles
            aiVehicles := AList.erase (vid.toNat : Int) x.aiVehicles } := rfl
      _ = x.deletedOne pid.toNat vid.toNat := by
          rw [hremote, hai, hscene]
          rfl

/-- Players 1 and 2 have each spawned a vehicle, their number 0. -/
def twoCars : Extension :=
  let login := (init.handle none (.authenticated (some 3))).1
  let one := (login.handle (some 10) (.vehicleSpawn (some 1) (some 0))).1
  (one.handle (some 20) (.vehicleSpawn (some 2) (some 0))).1

/-- Player 2 deletes his, and both are gone. -/
theorem both_cars_deleted : ¬ ∀ (decode : Bytes → Option Json) (x : Extension) (spawned : Option Nat) (pid : UInt16)
    (vid : UInt8), x.receive decode spawned (deletePacket pid vid) = (x.deletedOne pid.toNat vid.toNat, none) := by
  intro hall
  have h := hall (fun _ => none) twoCars none 2 0
  rw [receive_delete] at h
  have hscene := congrArg (fun r => r.1.scene) h
  revert hscene
  decide

end NovaMP.Client.Extension
