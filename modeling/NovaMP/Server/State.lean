/-
  NovaMP.Server.State — the server's state and what lies outside it
  (`servers/src/game_server.hpp`, `player.hpp`, `config/config.hpp`, the members of
  `UDPServer` and `TCPServer`).

  Three things are not in the repository or not in this model, and are parameters.
  `World` is fixed for a run: the configuration and `nlohmann::json`'s `parse` and
  `dump`. `Env` may answer differently on each call of the server: what the Lua
  plugins return, and what `AIAuthority` decides and calls back. `AIAuthority` exists
  exactly when `ai_enabled` (`GameServer::GameServer`).

  Text that comes from JSON or the configuration is a `String`, since both check
  UTF-8; text from the network or Lua is bytes. `sent` and `fired` log what the running
  call sends and which plugin events it fires.
-/

import NovaMP.Lib.Exec
import NovaMP.Lib.Table
import NovaMP.Sync.VehicleSync

namespace NovaMP

open Lib

def utf8 (s : String) : Bytes := s.toUTF8.data.toList

/-! ## JSON -/

inductive Json where
  | null
  | bool (b : Bool)
  | int (n : Int)
  /-- A floating-point number, as its 64-bit pattern. -/
  | real (bits : UInt64)
  | str (s : String)
  | arr (xs : List Json)
  | obj (members : List (String × Json))

namespace Json

/-- `j.value(key, default)` for a default of type `const char*`. -/
def value (j : Json) (key dflt : String) : Except Fault String :=
  match j with
  | obj members =>
    match members.lookup key with
    | none => .ok dflt
    | some (str s) => .ok s
    | some _ => .error (.typeError 302)
  | _ => .error (.typeError 306)

/-- A `std::string` put into a JSON value; `dump()` throws on text that is not UTF-8. -/
def ofBytes (b : Bytes) : Except Fault Json :=
  match String.fromUTF8? ⟨b.toArray⟩ with
  | some s => .ok (str s)
  | none => .error (.typeError 316)

end Json

/-! ## The world around the server -/

structure ServerConfig where
  name : String
  description : String
  map : String
  password : String
  maxPlayers : Int
  vehicleLimitPerPlayer : Int
  aiEnabled : Bool
  aiCount : Int
  aiUpdateRateHz : Int
  aiSpeedLimit : UInt64
  aiMode : String
  bridgeToken : String

structure World where
  cfg : ServerConfig
  /-- `none` is a `parse_error`. -/
  parse : Bytes → Option Json
  dump : Json → String

/-- What `AIAuthority` calls back. -/
inductive AuthorityCall where
  | grant (pid : UInt16)
  | revoke (pid : UInt16)
  deriving DecidableEq, Repr

structure Env where
  /-- The handler's result read as a string: empty without a handler, on an error and on
      a result that is no string. -/
  plugin : String → List Bytes → Bytes
  isAuthority : UInt16 → Bool
  onHeadlessConnect : UInt16 → List AuthorityCall
  onClientClaim : UInt16 → Bool × List AuthorityCall
  onAuthorityDisconnect : UInt16 → List AuthorityCall

/-! ## The state -/

inductive PlayerState where
  | connecting | loadingMods | loadingMap | ready | disconnecting
  deriving DecidableEq, Repr

structure PlayerVehicle where
  vehicleId : UInt8
  model : String
  config : String
  lastState : VehicleState
  spawned : Bool
  deriving DecidableEq

structure Player where
  id : UInt16
  username : String
  role : String
  ip : String
  state : PlayerState
  isMuted : Bool
  isBanned : Bool
  vehicles : List PlayerVehicle
  deriving DecidableEq

structure UDPEndpoint where
  ip : String
  port : UInt16
  deriving DecidableEq, Repr

structure UDPServer where
  playerToEp : Table UInt16 UDPEndpoint
  epToPlayer : Table UDPEndpoint UInt16

/-- A session object. It outlives its entry in `m_sessions` while a read is pending. -/
structure TCPSession where
  id : UInt16
  remoteIP : String
  isOpen : Bool
  deriving DecidableEq, Repr

structure TCPServer where
  /-- Session ids to session objects (indices into `objects`). -/
  sessions : Table UInt16 Nat
  nextSessionId : UInt16
  /-- Every session object made, oldest first. -/
  objects : List TCPSession
  /-- An entry of `m_sessions` points to a session with the entry's id. -/
  own : ∀ sid object, sessions.lookup sid = some object → ∃ t, objects[object]? = some t ∧ t.id = sid

namespace TCPServer

def empty : TCPServer := ⟨∅, 1, [], fun sid object h => by simp at h⟩

/-- `m_socket.close()` -/
def closeSocket (tcp : TCPServer) (object : Nat) : TCPServer :=
  { tcp with
    objects := tcp.objects.modify object fun t => { t with isOpen := false }
    own := fun sid i h => by
      obtain ⟨t, ht, hid⟩ := tcp.own sid i h
      by_cases hi : object = i
      · exact ⟨{ t with isOpen := false }, by simp [hi, ht], hid⟩
      · exact ⟨t, by simp [hi, ht], hid⟩ }

/-- `m_sessions.erase(sid)` -/
def eraseSession (tcp : TCPServer) (sid : UInt16) : TCPServer :=
  { tcp with
    sessions := tcp.sessions.erase sid
    own := fun sid' i h => by
      rw [Table.lookup_erase'] at h
      split at h
      · cases h
      · exact tcp.own sid' i h }

/-- A new session object, and its entry in `m_sessions`. -/
def addSession (tcp : TCPServer) (ip : String) : TCPServer where
  sessions := tcp.sessions.insert tcp.nextSessionId tcp.objects.length
  nextSessionId := tcp.nextSessionId + 1
  objects := tcp.objects ++ [⟨tcp.nextSessionId, ip, true⟩]
  own := fun sid i h => by
    rw [Table.lookup_insert'] at h
    split at h
    · rename_i hsid
      cases h
      exact ⟨⟨tcp.nextSessionId, ip, true⟩, by simp, hsid.symm⟩
    · obtain ⟨t, ht, hid⟩ := tcp.own sid i h
      have hi : i < tcp.objects.length := (List.getElem?_eq_some_iff.mp ht).1
      exact ⟨t, by rw [List.getElem?_append_left hi, ht], hid⟩

end TCPServer

inductive Sent where
  /-- A packet given to a session id; `object` is the session it was written to, if any. -/
  | tcp (session : UInt16) (object : Option Nat) (packet : Bytes)
  | udp (dest : UDPEndpoint) (packet : Bytes)
  deriving DecidableEq, Repr

inductive Mutex where
  | players
  | sessions
  | map
  deriving DecidableEq, Repr

/-- A plugin event, with the locks held while its handler runs. -/
structure Fired where
  event : String
  args : List Bytes
  held : List Mutex
  deriving DecidableEq, Repr

structure Server where
  players : Table UInt16 Player
  sessionToPlayer : Table UInt16 UInt16
  nextPlayerId : UInt16
  vsync : VehicleSync
  udp : UDPServer
  tcp : TCPServer
  sent : List Sent
  fired : List Fired

/-- A server that has just started. -/
def Server.init : Server :=
  { players := ∅
    sessionToPlayer := ∅
    nextPlayerId := 1
    vsync := []
    udp := ⟨∅, ∅⟩
    tcp := TCPServer.empty
    sent := []
    fired := [] }

abbrev ServerM (α : Type) := Exec Mutex Fault Server α

end NovaMP
