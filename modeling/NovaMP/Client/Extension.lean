/-
  NovaMP.Client.Extension — the Lua mod as a whole (`client/Resources/Client/main.lua`,
  `vehicle_sync.lua`, `ai_authority.lua`).

  Three tables say whose a vehicle of the game is: `remote_vehicles` those of other
  players, `ai_vehicles` the traffic of the authority, `player_vids` the user's own.
  `handlePacket` changes the first two, the hooks of the game the third. A client that
  is the authority sends, at each tick, updates of all vehicles of the game that are not in
  `player_vids`, under server ids that `vid_map` keeps.

  - `handle`: what a packet does, once its type and members are read (`incoming`).
  - `receive_outgoing`: a packet of the server is handled by its type and payload.
  - `onVehicleSpawned_agrees`, `onVehicleDestroyed_agrees`: the hooks are those of a `Duo`.
  - `handle_change`: the ways in which a packet changes the tables and the authority.
  - `scan_keeps`, `scan_sent`: what a tick does to `vid_map`, and which updates it sends.

  A JSON member that should be an integer and is not raises; the server sends integers.
  `udp_send_fn` is set exactly while `active`, so it is left out.
-/

import Mathlib.Data.Finset.Erase
import Mathlib.Data.Finset.Insert
import NovaMP.Client.RemoteVehicles
import NovaMP.Client.VehicleIds

namespace NovaMP.Client

open Lib StringPack

/-! ## The state -/

structure Extension where
  /-- `player_id` and `tcp_seq` -/
  mod : Mod
  connected : Bool
  /-- `player_id -> { vehicle_id -> game_vid }` -/
  remoteVehicles : Table Int (Table Int Nat)
  /-- `server_vid -> game_vid` -/
  aiVehicles : Table Int Nat
  active : Bool
  /-- `game_vid -> server_vid` -/
  vidMap : Table Nat Int
  playerVids : Finset Nat
  /-- The vehicles that the game has, in the order of `be:getVehicle`. -/
  scene : List Nat

inductive LuaError where
  | pack (e : PackError)
  /-- A member of a JSON object that is no integer. -/
  | noInteger

abbrev Handled := Extension × Option LuaError

namespace Extension

def init : Extension := ⟨⟨0, 0⟩, false, ∅, ∅, false, ∅, ∅, []⟩

/-- `be:removeVehicleByID` of some vehicles. -/
def remove (x : Extension) (gids : List Nat) : Extension := { x with scene := x.scene.filter fun gid => gid ∉ gids }

/-- `remote_vehicles[p] or {}` -/
def vehiclesOf (x : Extension) (p : Int) : Table Int Nat := (x.remoteVehicles.lookup p).getD ∅

/-! ## `vehicle_sync.lua` -/

/-- `spawned` is what `be:spawnVehicle` returns; `none` for the ids is no integer. -/
def onRemoteVehicleSpawn (x : Extension) (spawned : Option Nat) (playerId vehicleId : Option Int) : Handled :=
  match spawned with
  | none => (x, none)
  | some gid =>
    let x := { x with scene := gid :: x.scene }
    match playerId, vehicleId with
    | some p, some v => ({ x with remoteVehicles := x.remoteVehicles.insert p ((x.vehiclesOf p).insert v gid) }, none)
    | some p, none => ({ x with remoteVehicles := x.remoteVehicles.insert p (x.vehiclesOf p) }, some .noInteger)
    | none, _ => (x, some .noInteger)

/-- The tables as `onRemoteVehicleUpdate` goes through them. -/
def sync (x : Extension) : SyncState := ⟨x.remoteVehicles.entries.map fun e => (e.1, e.2), x.aiVehicles⟩

def game (x : Extension) (spawned : Option Nat) : Game := ⟨spawned, fun gid => gid ∈ x.scene || spawned == some gid⟩

def onRemoteVehicleUpdate (x : Extension) (spawned : Option Nat) (payload : Bytes) : Handled :=
  match Client.onRemoteVehicleUpdate (x.game spawned) x.sync payload with
  | .error e => (x, some (.pack e))
  | .ok (s, orders) =>
    let new := if orders.any fun o => o matches .spawnVehicle _ _ _ then spawned.toList else []
    ({ x with aiVehicles := s.aiVehicles, scene := new ++ x.scene }, none)

/-- The vehicles of the id, whoever's they are. -/
def vehiclesNumbered (x : Extension) (vid : Int) : List Nat :=
  (x.remoteVehicles.entries.filterMap fun e => e.2.lookup vid) ++ (x.aiVehicles.lookup vid).toList

def onRemoteVehicleDelete (x : Extension) (vid : Int) : Extension :=
  { x.remove (x.vehiclesNumbered vid) with
    remoteVehicles := x.remoteVehicles.mapValues fun _ vids => vids.erase vid
    aiVehicles := x.aiVehicles.erase vid }

def onPlayerLeave (x : Extension) (playerId : Int) : Extension :=
  match x.remoteVehicles.lookup playerId with
  | none => x
  | some vids => { x.remove (vids.entries.map (·.2)) with remoteVehicles := x.remoteVehicles.erase playerId }

/-! ## `ai_authority.lua` -/

/-- What it asks of `aiManager` is left out. -/
def activate (x : Extension) : Extension := if x.active then x else { x with active := true, vidMap := ∅ }

def deactivate (x : Extension) : Extension := if x.active then { x with active := false, vidMap := ∅ } else x

/-- 200 to `MAX_SVID` -/
def svids : List Int := (List.range 55).map fun i => 200 + (i : Int)

/-- The id, and the table with it; `none` at the cap. -/
def allocSVID (m : Table Nat Int) (gid : Nat) : Option (Int × Table Nat Int) :=
  match m.lookup gid with
  | some svid => some (svid, m)
  | none =>
    match svids.find? fun svid => svid ∉ m.entries.map (·.2) with
    | some svid => some (svid, m.insert gid svid)
    | none => none

/-- An update that is sent, and the vehicle it describes. -/
structure AiUpdate where
  gid : Nat
  svid : Int
  payload : Bytes

/-- The loop over the vehicles; `read` is what the game reports of one, none if
    `be:getVehicleByID` finds it no more. A call that raises ends the loop. -/
def scan (mod : Mod) (playerVids : Finset Nat) (read : Nat → Option Reading) :
    List Nat → Table Nat Int → Table Nat Int × List AiUpdate × Option LuaError
  | [], m => (m, [], none)
  | gid :: gids, m =>
    if gid ∈ playerVids then scan mod playerVids read gids m
    else
      match allocSVID m gid with
      | none => scan mod playerVids read gids m
      | some (svid, m) =>
        match read gid with
        | none => scan mod playerVids read gids m
        | some r =>
          match buildVehicleStatePayload (.int svid) r with
          | .error e => (m, [], some (.pack e))
          | .ok payload =>
            match udpSend mod 0x08 payload with
            | .error e => (m, [], some (.pack e))
            | .ok _ =>
              let (m, sent, raised) := scan mod playerVids read gids m
              (m, ⟨gid, svid, payload⟩ :: sent, raised)

/-- `ai_authority.onUpdate`, where `main.lua` calls it; `due` is whether `send_timer` has
    run down. -/
def onUpdate (x : Extension) (due : Bool) (read : Nat → Option Reading) : Extension × List AiUpdate × Option LuaError :=
  if x.connected && x.active && due then
    match scan x.mod x.playerVids read x.scene x.vidMap with
    | (m, sent, some e) => ({ x with vidMap := m }, sent, some e)
    | (m, sent, none) => ({ x with vidMap := m.filterKeys fun gid => gid ∈ x.scene }, sent, none)
  else (x, [], none)

/-! ## `main.lua` -/

def field (j : Json) (key : String) : Option Json :=
  match j with
  | .obj members => members.lookup key
  | _ => none

def truthy : Option Json → Bool
  | none | some .null | some (.bool false) => false
  | _ => true

/-- Whether `j.key` is a value, or raises. -/
def indexable : Json → Bool
  | .obj _ | .arr _ | .str _ => true
  | _ => false

def intField (j : Json) (key : String) : Option Int :=
  match field j key with
  | some (.int n) => some n
  | _ => none

/-- What a packet says; `other` is one that at most shows or logs something. -/
inductive Incoming where
  | authenticated (playerId : Option Int)
  | playerLeave (id : Option Int)
  | vehicleSpawn (playerId vehicleId : Option Int)
  | vehicleDelete (vid : UInt8)
  | vehicleUpdate (payload : Bytes)
  | kick
  | grant
  | revoke
  | other

/-- The chain of `handlePacket`; `decode` is `jsonDecode`, none where `pcall` fails. -/
def incoming (decode : Bytes → Option Json) (ptype : UInt8) (payload : Bytes) : Incoming :=
  let json (f : Json → Incoming) : Incoming :=
    match decode payload with
    | none => .other
    | some j => f j
  if ptype = 0x02 then json fun j => if truthy (field j "ok") then .authenticated (intField j "player_id") else .other
  else if ptype = 0x04 then json fun j => .playerLeave (intField j "id")
  else if ptype = 0x06 then json fun j => .vehicleSpawn (intField j "player_id") (intField j "vehicle_id")
  else if ptype = 0x07 then
    match payload with
    | [] => .other
    | vid :: _ => .vehicleDelete vid
  else if ptype = 0x08 then .vehicleUpdate payload
  else if ptype = 0x18 then .kick
  else if ptype = 0x21 then json fun j => if indexable j then .grant else .other
  else if ptype = 0x22 then .revoke
  else .other

/-- The branches of `handlePacket`. -/
def handle (x : Extension) (spawned : Option Nat) : Incoming → Handled
  | .authenticated (some p) => ({ x with mod := { x.mod with playerId := p }, connected := true }, none)
  | .authenticated none => ({ x with connected := true }, some .noInteger)
  | .playerLeave (some p) => (x.onPlayerLeave p, none)
  | .playerLeave none => (x, some .noInteger)
  | .vehicleSpawn p v => x.onRemoteVehicleSpawn spawned p v
  | .vehicleDelete vid => (x.onRemoteVehicleDelete vid.toNat, none)
  | .vehicleUpdate payload => x.onRemoteVehicleUpdate spawned payload
  | .kick => ({ x with connected := false }.deactivate, none)
  | .grant => (x.activate, none)
  | .revoke => (x.deactivate, none)
  | .other => (x, none)

def handlePacket (decode : Bytes → Option Json) (x : Extension) (spawned : Option Nat) (ptype : UInt8) (payload : Bytes) :
    Handled :=
  x.handle spawned (incoming decode ptype payload)

/-- What `pollTCP` takes from a packet on the TCP connection. -/
def readTCP (decode : Bytes → Option Json) (packet : Bytes) : Except PackError Incoming :=
  match pollTCP (some (TCPSession.framed packet)) Poll.init with
  | .ok ⟨_, (some ptype, payload) :: _⟩ => .ok (incoming decode ptype payload)
  | .ok _ => .ok .other
  | .error e => .error e

/-- What `pollUDP` takes from a datagram. -/
def readUDP (decode : Bytes → Option Json) (data : Bytes) : Except PackError Incoming :=
  match pollUDP (some data) with
  | .ok (some (some ptype, payload)) => .ok (incoming decode ptype payload)
  | .ok _ => .ok .other
  | .error e => .error e

def handleRead (x : Extension) (spawned : Option Nat) : Except PackError Incoming → Handled
  | .ok i => x.handle spawned i
  | .error e => (x, some (.pack e))

/-- A packet comes on the TCP connection. -/
def receive (decode : Bytes → Option Json) (x : Extension) (spawned : Option Nat) (packet : Bytes) : Handled :=
  x.handleRead spawned (readTCP decode packet)

/-- With the bytes that go out on the TCP connection; `text` is the JSON of the request. -/
def onVehicleSpawned (x : Extension) (gid : Nat) (text : Bytes) : Extension × List Bytes × Option LuaError :=
  if !x.connected then (x, [], none)
  else if gid ∉ x.scene then (x, [], none)
  else
    match tcpSend x.mod 0x06 (some text) with
    | (mod, .error e) => ({ x with mod }, [], some (.pack e))
    | (mod, .ok bytes) => ({ x with mod, playerVids := insert gid x.playerVids }, [bytes], none)

def onVehicleDestroyed (x : Extension) (gid : Nat) : Extension × List Bytes × Option LuaError :=
  if !x.connected then (x, [], none)
  else
    match stringChar gid with
    | .error e => (x, [], some (.pack e))
    | .ok char =>
      match tcpSend x.mod 0x07 (some char) with
      | (mod, .error e) => ({ x with mod }, [], some (.pack e))
      | (mod, .ok bytes) => ({ x with mod, playerVids := x.playerVids.erase gid }, [bytes], none)

/-- What becomes of the vehicles of the game, but for what a packet does. -/
inductive GameEvent where
  /-- The user spawns a vehicle; with the JSON of the request. -/
  | spawned (gid : Nat) (text : Bytes)
  | destroyed (gid : Nat)
  /-- Traffic comes and goes. -/
  | appears (gid : Nat)
  | vanishes (gid : Nat)

/-- The game calls the hooks for the vehicles of the user. -/
def happens (x : Extension) : GameEvent → Extension × List Bytes × Option LuaError
  | .spawned gid text => ({ x with scene := x.scene.insert gid } : Extension).onVehicleSpawned gid text
  | .destroyed gid => (x.remove [gid]).onVehicleDestroyed gid
  | .appears gid => ({ x with scene := x.scene.insert gid }, [], none)
  | .vanishes gid => (x.remove [gid], [], none)

/-! ## Packets of the server -/

variable {x : Extension} {decode : Bytes → Option Json} {spawned : Option Nat} {i : Incoming}

theorem pollTCP_framed (m : Outgoing) :
    pollTCP (some (TCPSession.framed m.packet)) Poll.init = .ok ⟨[], [m.call]⟩ := by
  have hpolls := (pollTCP_stream [m] [TCPSession.framed m.packet] (by simp [Outgoing.stream])).2.1
  cases hpoll : pollTCP (some (TCPSession.framed m.packet)) Poll.init with
  | error e =>
    rw [polls, hpoll] at hpolls
    cases hpolls
  | ok s =>
    rw [polls, hpoll] at hpolls
    exact hpolls

theorem readTCP_outgoing (m : Outgoing) : readTCP decode m.packet = .ok (incoming decode m.type.code m.payload) := by
  rw [readTCP, pollTCP_framed]
  rfl

/-- A packet of the server is handled by its type and payload. -/
theorem receive_outgoing (m : Outgoing) :
    receive decode x spawned m.packet = handlePacket decode x spawned m.type.code m.payload := by
  rw [receive, readTCP_outgoing]
  rfl

/-! ## What a packet changes -/

/-- The id that an update of the traffic gives its vehicle. -/
def aiUpdate (payload : Bytes) : Option Int :=
  if payload.length < 66 then none
  else
    match unpack formatOptions payload with
    | .ok (.int vid :: .int vflags :: _) => if vflags.toNat &&& vfIsAi.toNat ≠ 0 then some vid else none
    | _ => none

/-- What a packet may do to the tables and to the authority. -/
inductive Change (x : Extension) (spawned : Option Nat) (i : Incoming) : Extension → Prop
  | quiet (connected : Bool) (scene : List Nat) : Change x spawned i { x with connected, scene }
  | login (p : Int) : i = .authenticated (some p) →
      Change x spawned i { x with mod := { x.mod with playerId := p }, connected := true }
  | leave (p : Int) (scene : List Nat) :
      Change x spawned i { x with remoteVehicles := x.remoteVehicles.erase p, scene }
  | spawn (p : Int) (v : Option Int) (gid : Nat) (vids : Table Int Nat) (scene : List Nat) :
      i = .vehicleSpawn (some p) v → spawned = some gid →
      Change x spawned i { x with remoteVehicles := x.remoteVehicles.insert p vids, scene }
  | delete (vid : Int) (scene : List Nat) :
      Change x spawned i { x with
        remoteVehicles := x.remoteVehicles.mapValues fun _ vids => vids.erase vid
        aiVehicles := x.aiVehicles.erase vid
        scene }
  | traffic (vid : Int) (gid : Nat) (payload : Bytes) (scene : List Nat) : i = .vehicleUpdate payload →
      aiUpdate payload = some vid → Change x spawned i { x with aiVehicles := x.aiVehicles.insert vid gid, scene }
  | off (connected : Bool) : Change x spawned i { x with connected, active := false, vidMap := ∅ }
  | on : i = .grant → x.active = false → Change x spawned i { x with active := true, vidMap := ∅ }

theorem applyUpdate_ai (g : Game) (s : SyncState) (vid vflags : Int) (pos : Vec3) (rot : Quat) (vel : Vec3) :
    (applyUpdate g s vid vflags pos rot vel).1.aiVehicles = s.aiVehicles ∨
      ∃ gid, (applyUpdate g s vid vflags pos rot vel).1.aiVehicles = s.aiVehicles.insert vid gid ∧
        vflags.toNat &&& vfIsAi.toNat ≠ 0 := by
  unfold applyUpdate
  dsimp only
  split
  · rename_i hai
    split
    · exact .inl rfl
    · split
      · rename_i gid _
        exact .inr ⟨gid, rfl, hai⟩
      · exact .inl rfl
  · split <;> exact .inl rfl

/-- An update that does not raise is too short, or is applied with what it unpacks to. -/
theorem onRemoteVehicleUpdate_ok {g : Game} {s : SyncState} {payload : Bytes} {r : SyncState × List Order}
    (h : Client.onRemoteVehicleUpdate g s payload = .ok r) :
    r = (s, []) ∨ ∃ vid vflags pos rot vel, r = applyUpdate g s vid vflags pos rot vel ∧
      (vflags.toNat &&& vfIsAi.toNat ≠ 0 → aiUpdate payload = some vid) := by
  unfold Client.onRemoteVehicleUpdate at h
  split at h
  · cases h
    exact .inl rfl
  rename_i hlong
  cases hu : unpack formatOptions payload with
  | error e => rw [hu] at h; cases h
  | ok vs =>
    rw [hu] at h
    dsimp only [bind, Except.bind] at h
    split at h
    · rename_i vid vflags px py pz rx ry rz rw' vx vy vz _
      refine .inr ⟨vid, vflags, ⟨px, py, pz⟩, ⟨rx, ry, rz, rw'⟩, ⟨vx, vy, vz⟩, (Except.ok.inj h).symm, fun hai => ?_⟩
      rw [aiUpdate, if_neg hlong, hu]
      exact if_pos hai
    · cases h
      exact .inl rfl

theorem onRemoteVehicleUpdate_ai {g : Game} {s s' : SyncState} {payload : Bytes} {orders : List Order}
    (h : Client.onRemoteVehicleUpdate g s payload = .ok (s', orders)) :
    s'.aiVehicles = s.aiVehicles ∨ ∃ vid gid, aiUpdate payload = some vid ∧ s'.aiVehicles = s.aiVehicles.insert vid gid := by
  rcases onRemoteVehicleUpdate_ok h with hsame | ⟨vid, vflags, pos, rot, vel, happly, hai⟩
  · cases hsame
    exact .inl rfl
  · obtain rfl : s' = (applyUpdate g s vid vflags pos rot vel).1 := congrArg Prod.fst happly
    rcases applyUpdate_ai g s vid vflags pos rot vel with hsame | ⟨gid, hins, hflag⟩
    · exact .inl hsame
    · exact .inr ⟨vid, gid, hai hflag, hins⟩

theorem handle_change (x : Extension) (spawned : Option Nat) (i : Incoming) :
    Change x spawned i (x.handle spawned i).1 := by
  cases i with
  | authenticated o =>
    cases o with
    | none => exact .quiet true x.scene
    | some p => exact .login p rfl
  | playerLeave o =>
    cases o with
    | none => exact .quiet x.connected x.scene
    | some p =>
      rw [handle, onPlayerLeave]
      split
      · exact .quiet x.connected x.scene
      · exact .leave p _
  | vehicleSpawn p v =>
    cases spawned with
    | none => exact .quiet x.connected x.scene
    | some gid =>
      cases p with
      | none => exact .quiet x.connected _
      | some p => cases v <;> exact .spawn p _ gid _ _ rfl rfl
  | vehicleDelete v => exact .delete v.toNat _
  | vehicleUpdate payload =>
    rw [handle, onRemoteVehicleUpdate]
    split
    · exact .quiet x.connected x.scene
    · rename_i s orders hs
      dsimp only
      rcases onRemoteVehicleUpdate_ai hs with hsame | ⟨vid, gid, hai, hins⟩
      · rw [hsame]
        exact .quiet x.connected _
      · rw [hins]
        exact .traffic vid gid payload _ rfl hai
  | kick =>
    rw [handle, deactivate]
    split
    · exact .off false
    · exact .quiet false x.scene
  | grant =>
    rw [handle, activate]
    split
    · exact .quiet x.connected x.scene
    · rename_i hactive
      exact .on rfl (Bool.not_eq_true _ ▸ hactive)
  | revoke =>
    rw [handle, deactivate]
    split
    · exact .off x.connected
    · exact .quiet x.connected x.scene
  | other => exact .quiet x.connected x.scene

variable {y : Extension}

/-- A player gets an entry in `remote_vehicles` from a spawn only. -/
theorem Change.mem_remote (hc : Change x spawned i y) {p : Int} (h : p ∈ y.remoteVehicles) :
    p ∈ x.remoteVehicles ∨ ∃ v gid, i = .vehicleSpawn (some p) v ∧ spawned = some gid := by
  cases hc with
  | quiet | login | traffic | off | on => exact .inl h
  | leave q => exact .inl (AList.mem_erase.mp h).2
  | spawn q v gid _ _ hi hs =>
    rcases (AList.mem_insert _).mp h with rfl | h
    · exact .inr ⟨v, gid, hi, hs⟩
    · exact .inl h
  | delete vid =>
    obtain ⟨vids, hvids⟩ := Table.mem_iff.mp h
    rw [Table.lookup_mapValues, Option.map_eq_some_iff] at hvids
    obtain ⟨vids', hvids', -⟩ := hvids
    exact .inl (Table.mem_of_lookup hvids')

/-- The entry a spawn makes. -/
theorem mem_remote_spawn (p : Int) (v : Option Int) (gid : Nat) :
    p ∈ (x.handle (some gid) (.vehicleSpawn (some p) v)).1.remoteVehicles := by
  cases v <;> exact (AList.mem_insert _).mpr (.inl rfl)

/-- The id of the player changes with a login only. -/
theorem Change.playerId (hc : Change x spawned i y) :
    y.mod.playerId = x.mod.playerId ∨ i = .authenticated (some y.mod.playerId) := by
  cases hc with
  | login p hi => exact .inr hi
  | quiet | leave | spawn | delete | traffic | off | on => exact .inl rfl

/-- The traffic a client shows grows by an update of the traffic only. -/
theorem Change.mem_ai (hc : Change x spawned i y) {k : Int} (h : k ∈ y.aiVehicles) :
    k ∈ x.aiVehicles ∨ ∃ payload, i = .vehicleUpdate payload ∧ aiUpdate payload = some k := by
  cases hc with
  | quiet | login | leave | spawn | off | on => exact .inl h
  | delete vid => exact .inl (AList.mem_erase.mp h).2
  | traffic vid gid payload _ hi hai =>
    rcases (AList.mem_insert _).mp h with rfl | h
    · exact .inr ⟨payload, hi, hai⟩
    · exact .inl h

/-- `active` and `vid_map` stay, or the client is no authority afterwards, or becomes one. -/
theorem Change.authority (hc : Change x spawned i y) :
    (y.active = x.active ∧ y.vidMap = x.vidMap) ∨ y.active = false ∨ (i = .grant ∧ x.active = false) := by
  cases hc with
  | quiet | login | leave | spawn | delete | traffic => exact .inl ⟨rfl, rfl⟩
  | off => exact .inr (.inl rfl)
  | on hi hx => exact .inr (.inr ⟨hi, hx⟩)

theorem Change.playerVids (hc : Change x spawned i y) : y.playerVids = x.playerVids := by
  cases hc <;> rfl

/-! ## What the game changes -/

theorem tcpSend_mod {mod mod' : Mod} {ptype : Int} {payload : Option Bytes} {r : Except PackError Bytes}
    (h : tcpSend mod ptype payload = (mod', r)) : mod' = { mod with tcpSeq := mod.tcpSeq + 1 } :=
  (congrArg Prod.fst h).symm

/-- The user's vehicles are not kept in the tables that the packets change. -/
theorem happens_frame (x : Extension) (e : GameEvent) : ∃ tcpSeq scene playerVids,
    (x.happens e).1 = { x with mod := { x.mod with tcpSeq }, scene, playerVids } := by
  cases e with
  | spawned gid text =>
    rw [happens, onVehicleSpawned]
    split
    · exact ⟨_, _, _, rfl⟩
    split
    · exact ⟨_, _, _, rfl⟩
    split
    · rename_i hsend
      exact ⟨_, _, _, by rw [tcpSend_mod hsend]⟩
    · rename_i hsend
      exact ⟨_, _, _, by rw [tcpSend_mod hsend]⟩
  | destroyed gid =>
    rw [happens, onVehicleDestroyed]
    split
    · exact ⟨_, _, _, rfl⟩
    split
    · exact ⟨_, _, _, rfl⟩
    split
    · rename_i hsend
      exact ⟨_, _, _, by rw [tcpSend_mod hsend]; rfl⟩
    · rename_i hsend
      exact ⟨_, _, _, by rw [tcpSend_mod hsend]; rfl⟩
  | appears gid | vanishes gid => exact ⟨_, _, _, rfl⟩

/-! ## The hooks of a `Duo` -/

variable {ν : Type}

/-- `d` has gone on to `d'` by writing `written`, and has the same state as `x` there. -/
structure Agrees (d d' : Duo ν) (x : Extension) (written : List Bytes) : Prop where
  mod : d'.mod = x.mod
  connected : d'.connected = x.connected
  wire : d'.wire.map (·.data) = d.wire.map (·.data) ++ written.map (·.drop 4)

theorem Agrees.refl {d : Duo ν} (hmod : d.mod = x.mod) (hconnected : d.connected = x.connected) : Agrees d d x [] :=
  ⟨hmod, hconnected, (List.append_nil _).symm⟩

/-- With a vehicle that the game has, `onVehicleSpawned` is that of the `Duo`. -/
theorem onVehicleSpawned_agrees {d : Duo ν} (hmod : d.mod = x.mod) (hconnected : d.connected = x.connected) (v : ν)
    {gid : Nat} (hscene : gid ∈ x.scene) (text : Bytes) :
    Agrees d (d.onVehicleSpawned v (some text)) (x.onVehicleSpawned gid text).1 (x.onVehicleSpawned gid text).2.1 := by
  rw [Duo.onVehicleSpawned, Extension.onVehicleSpawned, hconnected]
  split
  · exact .refl hmod hconnected
  · rw [Duo.tcpSend, hmod]
    rcases tcpSend x.mod 0x06 (some text) with ⟨mod, e | bytes⟩
    · exact ⟨rfl, hconnected, (List.append_nil _).symm⟩
    · exact ⟨rfl, hconnected, by simp⟩

theorem onVehicleDestroyed_agrees {d : Duo ν} (hmod : d.mod = x.mod) (hconnected : d.connected = x.connected)
    (gid : ν → Nat) (v : ν) :
    Agrees d (d.onVehicleDestroyed gid v) (x.onVehicleDestroyed (gid v)).1 (x.onVehicleDestroyed (gid v)).2.1 := by
  rw [Duo.onVehicleDestroyed, Extension.onVehicleDestroyed, hconnected]
  split
  · exact .refl hmod hconnected
  · rcases stringChar (gid v) with e | char
    · exact ⟨hmod, hconnected, (List.append_nil _).symm⟩
    · dsimp only
      rw [Duo.tcpSend, hmod]
      rcases tcpSend x.mod 0x07 (some char) with ⟨mod, e | bytes⟩
      · exact ⟨rfl, hconnected, (List.append_nil _).symm⟩
      · exact ⟨rfl, hconnected, by simp [Duo.mark]⟩

/-! ## What a tick does -/

/-- The update that is built for an id tells it. -/
theorem aiUpdate_built {svid k : Int} {r : Reading} {payload : Bytes}
    (hb : buildVehicleStatePayload (.int svid) r = .ok payload) (hk : aiUpdate payload = some k) : k = svid := by
  rw [buildVehicleStatePayload, formatOptions_eq] at hb
  obtain ⟨b, rest, hput, -, rfl⟩ := pack_cons_inv hb
  unfold aiUpdate at hk
  split at hk
  · cases hk
  split at hk
  · rename_i vid vflags vs hu
    rw [formatOptions_eq] at hu
    obtain ⟨vs', -, hcons⟩ := unpack_cons_inv (put_length hput) hu
    rw [get_put_unsigned hput] at hcons
    split at hk
    · cases hcons
      exact (Option.some.inj hk).symm
    · cases hk
  · cases hk

theorem allocSVID_keeps {m m' : Table Nat Int} {gid : Nat} {svid : Int} (h : allocSVID m gid = some (svid, m')) :
    m'.lookup gid = some svid ∧ ∀ g k, m.lookup g = some k → m'.lookup g = some k := by
  unfold allocSVID at h
  split at h
  · rename_i old hold
    cases h
    exact ⟨hold, fun _ _ hg => hg⟩
  rename_i hnone
  split at h
  · cases h
    refine ⟨AList.lookup_insert m, fun g k hg => ?_⟩
    have hne : g ≠ gid := by
      rintro rfl
      rw [hnone] at hg
      cases hg
    rw [AList.lookup_insert_ne hne]
    exact hg
  · cases h

variable (mod : Mod) (playerVids : Finset Nat) (read : Nat → Option Reading)

/-- No mapping is lost in the loop. -/
theorem scan_keeps (gids : List Nat) (m : Table Nat Int) :
    ∀ g k, m.lookup g = some k → (scan mod playerVids read gids m).1.lookup g = some k := by
  fun_induction scan mod playerVids read gids m with
  | case1 m => exact fun _ _ hg => hg
  | case2 gid gids m _ ih => exact ih
  | case3 gid gids m _ _ ih => exact ih
  | case4 gid gids m _ svid m' halloc _ ih => exact fun g k hg => ih g k ((allocSVID_keeps halloc).2 g k hg)
  | case5 gid gids m _ svid m' halloc => exact (allocSVID_keeps halloc).2
  | case6 gid gids m _ svid m' halloc => exact (allocSVID_keeps halloc).2
  | case7 gid gids m _ svid m' halloc r _ payload _ _ _ m'' sent raised hrec ih =>
    intro g k hg
    rw [hrec] at ih
    exact ih g k ((allocSVID_keeps halloc).2 g k hg)

/-- What is sent is about a vehicle of the game that is not in `player_vids`, under the id
    that it is mapped to. -/
theorem scan_sent (gids : List Nat) (m : Table Nat Int) : ∀ u ∈ (scan mod playerVids read gids m).2.1,
    u.gid ∈ gids ∧ u.gid ∉ playerVids ∧ (scan mod playerVids read gids m).1.lookup u.gid = some u.svid ∧
      ∃ r, buildVehicleStatePayload (.int u.svid) r = .ok u.payload := by
  fun_induction scan mod playerVids read gids m with
  | case1 m => exact fun _ hu => by cases hu
  | case2 gid gids m _ ih => exact fun u hu => (ih u hu).imp_left (List.mem_cons_of_mem gid)
  | case3 gid gids m _ _ ih => exact fun u hu => (ih u hu).imp_left (List.mem_cons_of_mem gid)
  | case4 gid gids m _ svid m' _ _ ih => exact fun u hu => (ih u hu).imp_left (List.mem_cons_of_mem gid)
  | case5 => exact fun _ hu => by cases hu
  | case6 => exact fun _ hu => by cases hu
  | case7 gid gids m hgid svid m' halloc r _ payload hbuild _ _ m'' sent raised hrec ih =>
    intro u hu
    rcases List.mem_cons.mp hu with rfl | hu
    · have hkeep := scan_keeps mod playerVids read gids m'
      rw [hrec] at hkeep
      exact ⟨List.mem_cons_self, hgid, hkeep gid svid (allocSVID_keeps halloc).1, r, hbuild⟩
    · rw [hrec] at ih
      exact (ih u hu).imp_left (List.mem_cons_of_mem gid)

variable {read}

theorem onUpdate_frame (x : Extension) (due : Bool) (read : Nat → Option Reading) :
    ∃ vidMap, (x.onUpdate due read).1 = { x with vidMap } := by
  unfold onUpdate
  split
  · split <;> exact ⟨_, rfl⟩
  · exact ⟨_, rfl⟩

/-- A tick forgets only the vehicles that the game has no more. -/
theorem onUpdate_keeps {due : Bool} {gid : Nat} {k : Int} (h : x.vidMap.lookup gid = some k) (hscene : gid ∈ x.scene) :
    (x.onUpdate due read).1.vidMap.lookup gid = some k := by
  have hscan := scan_keeps x.mod x.playerVids read x.scene x.vidMap gid k h
  unfold onUpdate
  split
  · split
    · rename_i m sent e hm
      rw [hm] at hscan
      exact hscan
    · rename_i m sent hm
      rw [hm] at hscan
      dsimp only
      rw [Table.lookup_filterKeys, if_pos (decide_eq_true hscene)]
      exact hscan
  · exact h

theorem onUpdate_idle {due : Bool} (h : ¬ (due = true ∧ x.connected = true ∧ x.active = true)) :
    x.onUpdate due read = (x, [], none) := by
  have hcond : ¬ (x.connected && x.active && due) = true := by
    simp only [Bool.and_eq_true]
    exact fun hc => h ⟨hc.2, hc.1.1, hc.1.2⟩
  rw [onUpdate, if_neg hcond]

/-- What is sent is about a vehicle of the game that is not in `player_vids`, and the id of
    it is mapped afterwards. -/
theorem onUpdate_sent {due : Bool} {u : AiUpdate} (hu : u ∈ (x.onUpdate due read).2.1) :
    u.gid ∈ x.scene ∧ u.gid ∉ x.playerVids ∧ (x.onUpdate due read).1.vidMap.lookup u.gid = some u.svid ∧
      ∃ r, buildVehicleStatePayload (.int u.svid) r = .ok u.payload := by
  have hscan := scan_sent x.mod x.playerVids read x.scene x.vidMap
  unfold onUpdate at hu ⊢
  split at hu
  · rename_i hcond
    rw [if_pos hcond]
    split at hu
    · rename_i m sent e hm
      rw [hm] at hscan
      exact hscan u hu
    · rename_i m sent hm
      rw [hm] at hscan
      obtain ⟨hgid, hvids, hlookup, hbuild⟩ := hscan u hu
      refine ⟨hgid, hvids, ?_, hbuild⟩
      dsimp only
      rw [Table.lookup_filterKeys, if_pos (decide_eq_true hgid)]
      exact hlookup
  · cases hu

end Extension

end NovaMP.Client
