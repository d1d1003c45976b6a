/-
  NovaMP.Client.NetworkClient — the C++ client of the NovaMP protocol after `connect` has
  succeeded (`client/src/network/client.cpp`).

  Two threads: the owner calls `disconnect`, `sendUDP` and `sendVehicleUpdate`, and the
  thread in `m_ioc.run()` goes from one completed operation to the handler of the next
  (`Instr.run`). One TCP read and one UDP receive are outstanding at a time. A receive that
  completes writes `m_udp_recv_buf` and `m_udp_ep` before its handler comes, and
  `m_udp_ep` is also where `sendUDP` sends. Threads take turns in any way
  (`Lib.Scripts`); the environment chooses which operation completes and how, and a read
  or receive that was begun on a closed socket fails.

  `onPacket` serves both transports. What it does is a list of actions: the `try` blocks
  end at the first exception. An exception out of a handler ends the process (`aborted`),
  and so is taken a read past the end of a buffer. The callbacks return and call nothing
  of the client.
-/

import NovaMP.Client.Sending
import NovaMP.Lib.Scripts
import NovaMP.Network.Values

namespace NovaMP.NetworkClient

open Lib

/-! ## `onPacket` -/

/-- The fields that packets change. -/
structure ServerInfo where
  name : String
  map : String
  maxPlayers : Int32
  currentPlayers : Int32
  aiEnabled : Bool
  deriving DecidableEq

/-- An assignment to a field of `m_server_info`. -/
inductive Setting where
  | name (s : String)
  | map (s : String)
  | maxPlayers (n : Int32)
  | currentPlayers (n : Int32)
  | aiEnabled (b : Bool)
  deriving DecidableEq

def ServerInfo.set (i : ServerInfo) : Setting → ServerInfo
  | .name s => { i with name := s }
  | .map s => { i with map := s }
  | .maxPlayers n => { i with maxPlayers := n }
  | .currentPlayers n => { i with currentPlayers := n }
  | .aiEnabled b => { i with aiEnabled := b }

/-- `type` is a byte, as `static_cast` makes a `PacketType` of any. -/
inductive Callback where
  | packet (type : UInt8) (data : Bytes)
  | connect (ok : Bool) (err : String)
  | disconnect (reason : String)
  deriving DecidableEq

/-- Which callbacks are set. -/
structure Callbacks where
  packet : Bool
  connect : Bool
  disconnect : Bool

def Callbacks.has (cb : Callbacks) : Callback → Bool
  | .packet _ _ => cb.packet
  | .connect _ _ => cb.connect
  | .disconnect _ => cb.disconnect

inductive Action where
  | setPlayerId (id : UInt16)
  /-- `m_connected = true` -/
  | connected
  | set (x : Setting)
  | call (c : Callback)
  deriving DecidableEq

/-- `if (cb) cb(…)` -/
def callIf (cb : Callbacks) (c : Callback) : List Action := if cb.has c then [.call c] else []

def udpRecvBufSize : Nat := 65507

/-- What `nlohmann::json` computes, a double as an integer, and what `m_udp_recv_buf`
    holds at first: nothing initialises it. -/
structure Host where
  parse : Bytes → Option Json
  trunc : UInt64 → Int
  memory : Bytes
  size : memory.length = udpRecvBufSize

/-- What comes before the first exception. -/
def untilThrow {α : Type} : List (Except Fault α) → List α
  | .ok a :: rest => a :: untilThrow rest
  | .error _ :: _ => []
  | [] => []

def authResponse (h : Host) (cb : Callbacks) (body : Bytes) : List Action :=
  match h.parse body with
  | none => []
  | some j =>
    match j.valueBool "ok" false with
    | .ok true =>
      match j.valueNumber h.trunc "player_id" 0 with
      | .ok id => [.setPlayerId (.ofInt id), .connected] ++ callIf cb (.connect true "")
      | .error _ => []
    | .ok false =>
      match j.value "error" "Unknown error" with
      | .ok err => callIf cb (.connect false err)
      | .error _ => []
    | .error _ => []

def serverInfo (h : Host) (body : Bytes) : List Action :=
  match h.parse body with
  | none => []
  | some j =>
    (untilThrow
      [(j.value "name" "").map .name,
        (j.value "map" "").map .map,
        (j.valueNumber h.trunc "max_players" 0).map fun n => .maxPlayers (.ofInt n),
        (j.valueNumber h.trunc "current" 0).map fun n => .currentPlayers (.ofInt n),
        (j.valueBool "ai_enabled" false).map .aiEnabled]).map .set

/-- `if (type == t)`, on the text of the packet. -/
def ifType (hdr : PacketHeader) (t : PacketType) (data : Bytes) (serve : Bytes → List Action) : Except Fault (List Action) :=
  if hdr.type = t.code then (readBytes (Packet.payload data) hdr.payloadLen.toNat).map serve else .ok []

/-- `data` are the bytes from the pointer to the end of the buffer it points into. -/
def onPacket (h : Host) (cb : Callbacks) (data : Bytes) (len : Nat) : Except Fault (List Action) := do
  let hdr ← Packet.parseHeader (data.take len)
  let auth ← ifType hdr .authResponse data (authResponse h cb)
  let info ← ifType hdr .serverInfo data (serverInfo h)
  pure (auth ++ info ++ callIf cb (.packet hdr.type (data.take len)))

def buildVehicleUpdate (sid : UInt16) (seq : UInt32) (vs : VehicleState) : Bytes :=
  build PacketType.vehicleUpdate.code sid seq (VehicleState.codec.encode vs) 66 0

/-! ## The threads -/

structure Endpoint where
  address : Bytes
  port : UInt16
  deriving DecidableEq

inductive Thread where
  | owner
  | io
  deriving DecidableEq

inductive Request where
  | disconnect
  | sendUDP (data : Bytes)
  | sendVehicleUpdate (vs : VehicleState)
  deriving DecidableEq

/-- What the outstanding TCP read is for. -/
inductive TCPRead where
  | len
  | payload (size : Nat)
  deriving DecidableEq

inductive Instr where
  /-- In `m_ioc.run()`, between two handlers. -/
  | run
  | packet (data : Bytes) (len : Nat)
  | act (a : Action)
  | tcpReadLen
  | tcpReadPayload (size : Nat)
  | udpRecv
  /-- `m_connected = false` -/
  | disconnected
  | closeTcp
  | closeUdp
  | stop
  /-- `if (m_ioc_thread.joinable()) m_ioc_thread.join();` -/
  | join
  /-- `disconnect` is about to return. -/
  | returned
  | send (data : Bytes)
  | update (vs : VehicleState)
  deriving DecidableEq

/-- What completes, or is run next. -/
inductive Result where
  | go
  | length (len : UInt32)
  | payload (data : Bytes)
  | tcpError (what : String)
  /-- A datagram is received; its handler comes later. -/
  | arrives (source : Endpoint) (data : Bytes)
  | datagram
  | udpError
  deriving DecidableEq

/-- What the history is asked about. -/
inductive Mark where
  | length (len : UInt32)
  | tcpError
  | arrived (source : Endpoint)
  | sent (destination : Endpoint) (data : Bytes)
  /-- `disconnect` has cleared `m_connected`. -/
  | disconnects (k : Thread)
  | joins (k : Thread)
  | returns (k : Thread)
  | called (c : Callback)
  deriving DecidableEq

structure Shared where
  client : NetworkClient
  /-- `m_udp_seq` -/
  udpSeq : UInt32
  connected : Bool
  serverInfo : ServerInfo
  /-- `m_udp_ep` -/
  udpEp : Endpoint
  udpRecvBuf : Bytes
  tcpOpen : Bool
  udpOpen : Bool
  /-- With whether the socket was open. -/
  tcpRead : Option (TCPRead × Bool)
  udpRead : Option Bool
  /-- The size of the datagram whose handler is to come. -/
  received : Option Nat
  /-- `m_ioc` -/
  stopped : Bool
  /-- `m_ioc.run()` has returned. -/
  finished : Bool
  joinable : Bool
  aborted : Bool
  log : List Mark

/-- `connect` has sent the authentication request, read the first length and received the
    first datagram, each as an operation that is outstanding. -/
def Shared.init (h : Host) (server : Endpoint) : Shared where
  client := ⟨0, 1⟩
  udpSeq := 0
  connected := false
  serverInfo := ⟨"", "", 0, 0, false⟩
  udpEp := server
  udpRecvBuf := h.memory
  tcpOpen := true
  udpOpen := true
  tcpRead := some (.len, true)
  udpRead := some true
  received := none
  stopped := false
  finished := false
  joinable := true
  aborted := false
  log := []

def Shared.mark (s : Shared) (m : Mark) : Shared := { s with log := s.log ++ [m] }

/-! ## The steps -/

variable (h : Host) (cb : Callbacks)

/-- `NetworkClient::disconnect` -/
def disconnecting : List Instr := [.disconnected, .closeTcp, .closeUdp, .stop, .join, .returned]

def start (k : Thread) (r : Request) (s : Shared) : Option (List Instr × Shared) :=
  if s.aborted then none
  else
    match k, r with
    | .owner, .disconnect => some (disconnecting, s)
    | .owner, .sendUDP data => some ([.send data], s)
    | .owner, .sendVehicleUpdate vs => some ([.update vs], s)
    | .io, _ => none

/-- Frames are longer than nothing and at most 4 MiB. -/
def lengthOk (len : UInt32) : Bool := len ≠ 0 ∧ len ≤ 4 * 1024 * 1024

/-- An operation completes, or the handler of the received datagram comes. -/
def complete (o : Result) (s : Shared) : Option (List Instr × Shared) :=
  match o with
  | .go => none
  | .length len =>
    if s.tcpRead = some (.len, true) then
      some (if lengthOk len then [.tcpReadPayload len.toNat] else disconnecting,
        { s with tcpRead := none }.mark (.length len))
    else none
  | .payload data =>
    if s.tcpRead = some (.payload data.length, true) then
      some ([.packet data data.length, .tcpReadLen], { s with tcpRead := none })
    else none
  | .tcpError what =>
    if s.tcpRead.isSome then
      let t := { s with tcpRead := none }.mark .tcpError
      some ([], if cb.disconnect then t.mark (.called (.disconnect what)) else t)
    else none
  | .arrives source data =>
    -- What does not fit is lost.
    let stored := data.take udpRecvBufSize
    if s.udpRead = some true then
      some ([], { s with udpEp := source, udpRecvBuf := stored ++ s.udpRecvBuf.drop stored.length, udpRead := none,
                         received := some stored.length }.mark (.arrived source))
    else none
  | .datagram =>
    match s.received with
    | some n =>
      some (if PacketHeader.codec.size ≤ n then [.packet s.udpRecvBuf n, .udpRecv] else [.udpRecv],
        { s with received := none })
    | none => none
  | .udpError => if s.udpRead.isSome then some ([.udpRecv], { s with udpRead := none }) else none

def doAction (a : Action) (s : Shared) : Shared :=
  match a with
  | .setPlayerId id => { s with client := { s.client with playerId := id } }
  | .connected => { s with connected := true }
  | .set x => { s with serverInfo := s.serverInfo.set x }
  | .call c => s.mark (.called c)

def step (k : Thread) (i : Instr) (o : Result) (s : Shared) : Option (List Instr × Shared) :=
  match i with
  | .run =>
    if s.stopped then some ([], { s with finished := true })
    else (complete cb o s).map fun p => (p.1 ++ [.run], p.2)
  | .packet data len =>
    match onPacket h cb data len with
    | .ok as => some (as.map .act, s)
    | .error _ => some ([], { s with aborted := true })
  | .act a => some ([], doAction a s)
  | .tcpReadLen => some ([], { s with tcpRead := some (.len, s.tcpOpen) })
  | .tcpReadPayload size => some ([], { s with tcpRead := some (.payload size, s.tcpOpen) })
  | .udpRecv => some ([], { s with udpRead := some s.udpOpen })
  | .disconnected => some ([], { s with connected := false }.mark (.disconnects k))
  | .closeTcp => some ([], { s with tcpOpen := false })
  | .closeUdp => some ([], { s with udpOpen := false })
  | .stop => some ([], { s with stopped := true })
  | .join =>
    if s.joinable then
      match k with
      -- `join` throws, as the thread would wait for itself.
      | .io => some ([], { s with aborted := true }.mark (.joins .io))
      | .owner => if s.finished then some ([], { s with joinable := false }.mark (.joins .owner)) else none
    else some ([], s)
  | .returned => some ([], s.mark (.returns k))
  | .send data => some ([], if s.udpOpen then s.mark (.sent s.udpEp data) else s)
  | .update vs =>
    some ([.send (buildVehicleUpdate s.client.playerId (s.udpSeq + 1) vs)], { s with udpSeq := s.udpSeq + 1 })

/-- Nothing happens any more once the process has ended. -/
def act (k : Thread) (i : Instr) (o : Result) (s : Shared) : Option (List Instr × Shared) :=
  if s.aborted then none else step h cb k i o s

def rules : Rules Thread Request Instr Result Shared := ⟨start, act h cb⟩

abbrev Threads := Crew Thread Instr Shared

abbrev Event := Crew.Event Thread Request Result

def Threads.init (server : Endpoint) : Threads :=
  ⟨Shared.init h server, fun k => match k with | .io => [.run] | .owner => []⟩

/-- The client after the events; it is connected to `server`. -/
def after (server : Endpoint) (es : List Event) : Threads := Crew.run (rules h cb) (Threads.init h server) es

variable {h cb}

theorem act_eq_some {k : Thread} {i : Instr} {o : Result} {s s' : Shared} {push : List Instr}
    (hr : act h cb k i o s = some (push, s')) : s.aborted = false ∧ step h cb k i o s = some (push, s') := by
  unfold act at hr
  split at hr
  · cases hr
  · rename_i hrunning
    exact ⟨Bool.eq_false_iff.mpr hrunning, hr⟩

/-- Starting changes the script only, and only that of the owner. -/
theorem start_eq_some {k : Thread} {r : Request} {s s' : Shared} {is : List Instr} (hr : start k r s = some (is, s')) :
    s' = s ∧ k = .owner ∧ (is = disconnecting ∨ (∃ data, is = [.send data]) ∨ ∃ vs, is = [.update vs]) := by
  unfold start at hr
  split at hr
  · cases hr
  split at hr <;> cases hr
  · exact ⟨rfl, rfl, .inl rfl⟩
  · exact ⟨rfl, rfl, .inr (.inl ⟨_, rfl⟩)⟩
  · exact ⟨rfl, rfl, .inr (.inr ⟨_, rfl⟩)⟩

namespace Sample

/-- Nothing is JSON. -/
def host : Host := ⟨fun _ => none, fun _ => 0, List.replicate udpRecvBufSize 0, List.length_replicate⟩

def callbacks : Callbacks := ⟨true, true, true⟩

def gameServer : Endpoint := ⟨[10, 0, 0, 1], 30814⟩

end Sample

end NovaMP.NetworkClient
