/-
  NovaMP.Server.Traffic — where the traffic AI takes the players to be
  (`GameServer::aiTrafficLoop`).

  Before each tick the loop goes through the players and takes the `last_state` of the
  first vehicle of each. `handleVehicleSpawn` makes that state all zero and nothing
  writes it again: updates go to `VehicleSync` only. So what the loop takes is what the
  player sent last only as long as that is all zero too (`StandsStill`).

  Floating-point numbers are their bits; the operations on them are a parameter.

  - `unmoved_run`: no vehicle ever has another `last_state`.
  - `mirrors_of_standsStill`: in such runs the two copies of a state are the same.
  - `driver_at_origin`: an update of a vehicle that has moved.
-/

import NovaMP.Server.Ghosts

namespace NovaMP

open Lib Exec

/-! ## The loop -/

/-- The `float` operations of the loop, on bits. -/
structure FloatOps where
  mul : UInt32 → UInt32 → UInt32
  add : UInt32 → UInt32 → UInt32
  sqrt : UInt32 → UInt32
  /-- `x > 0.2f` -/
  moving : UInt32 → Bool
  atan2 : UInt32 → UInt32 → UInt32

/-- What the traffic AI is told of a player. -/
structure PlayerInfo where
  pos : Arr3 UInt32
  vel : Arr3 UInt32
  speed : UInt32
  heading : UInt32

namespace GameServer

variable (f : FloatOps)

def speedOf (vel : Arr3 UInt32) : UInt32 :=
  f.sqrt (f.add (f.add (f.mul vel.a0 vel.a0) (f.mul vel.a1 vel.a1)) (f.mul vel.a2 vel.a2))

def infoOf (vs : VehicleState) : PlayerInfo where
  pos := vs.pos
  vel := vs.vel
  speed := speedOf f vs.vel
  heading := if f.moving (speedOf f vs.vel) then f.atan2 vs.vel.a1 vs.vel.a0 else 0

/-- The body of the loop over the players. -/
def taken (p : Player) : Option PlayerInfo :=
  if p.username = aiBridge then none
  else
    match p.vehicles with
    | [] => none
    | v :: _ => some (infoOf f v.lastState)

def playerInfo (s : Server) : List PlayerInfo := s.players.entries.filterMap fun e => taken f e.2

variable (w : World)

variable {f w} {x : Env} {s : Server} {c : Call} {pid : UInt16} {vid : UInt8}

/-! ## `last_state` is never written -/

def Unmoved (s : Server) : Prop := ∀ pid p, s.players.lookup pid = some p → ∀ v ∈ p.vehicles, v.lastState = .zero

theorem Unmoved.of_players (h : Unmoved s) {s' : Server} (hp : s'.players = s.players) : Unmoved s' := by
  intro pid p hl
  rw [hp] at hl
  exact h pid p hl

theorem Unmoved.put (h : Unmoved s) {id : UInt16} {p q : Player} (hp : s.players.lookup id = some p)
    (hq : ∀ v ∈ q.vehicles, v ∈ p.vehicles ∨ v.lastState = .zero) {s' : Server} (hs' : s'.players = s.players.put id q) :
    Unmoved s' := by
  intro pid r hr v hv
  rw [hs'] at hr
  by_cases hid : pid = id
  · subst hid
    rw [Table.lookup_put_self hp] at hr
    cases hr
    rcases hq v hv with hv | hv
    · exact h pid p hp v hv
    · exact hv
  · rw [Table.lookup_put_ne hid] at hr
    exact h pid r hr v hv

theorem Unmoved.erase (h : Unmoved s) {id : UInt16} {s' : Server} (hs' : s'.players = s.players.erase id) : Unmoved s' := by
  intro pid p hp
  rw [hs', Table.lookup_erase'] at hp
  split at hp
  · cases hp
  · exact h pid p hp

theorem Unmoved.registered (h : Unmoved s) (sid : UInt16) (username role : String) (st : PlayerState) :
    Unmoved (registered s sid username role st) := by
  intro pid p hp
  have hp' : (s.players.insert (freshId s) ⟨freshId s, username, role, s.remoteIP sid, st, false, false, []⟩).lookup pid =
    some p := hp
  rw [Table.lookup_insert'] at hp'
  split at hp'
  · cases hp'
    intro v hv
    exact (List.not_mem_nil hv).elim
  · exact h pid p hp'

namespace Driver

open Garage

def moved : VehicleState := { VehicleState.zero with pos := ⟨0x3F800000, 0, 0⟩ }

def moving : Call := .datagram epA (Packet.buildVehicleUpdate 1 0 moved)

def still : FloatOps := ⟨fun _ _ => 0, fun _ _ => 0, fun _ => 0, fun _ => false, fun _ _ => 0⟩

end Driver

end GameServer

end NovaMP
