/-
  NovaMP.Server.Transport — the two transports as the handlers use them
  (`servers/src/network/tcp_server.cpp`, `udp_server.cpp`).

  `TCPSession::close` calls back into `TCPServer::onSessionClose`, and that into
  `GameServer::onDisconnect` (`discCb`), in the same chain of calls. An endpoint's
  address text is what `to_string` gave, so `make_address` reads it back.
-/

import NovaMP.Server.State

namespace NovaMP

open Lib Exec

/-! ## TCP -/

namespace TCPSession

/-- `TCPSession::send` on the session object `object` with id `sid`. -/
def send (sid : UInt16) (object : Nat) (packet : Bytes) : ServerM Unit :=
  update fun s => { s with sent := s.sent ++ [.tcp sid (some object) packet] }

end TCPSession

namespace TCPServer

def send (sid : UInt16) (packet : Bytes) : ServerM Unit :=
  withLock .sessions do
    let s ← state
    match s.tcp.sessions.lookup sid with
    | some object => TCPSession.send sid object packet
    | none => update fun s => { s with sent := s.sent ++ [.tcp sid none packet] }

/-- `sendAll` without an exclusion (every caller leaves it out). -/
def sendAll (packet : Bytes) : ServerM Unit :=
  withLock .sessions do
    let s ← state
    each (fun e => if e.1 ≠ 0xFFFF then TCPSession.send e.1 e.2 packet else pure ()) s.tcp.sessions.entries

def getRemoteIP (sid : UInt16) : ServerM String :=
  withLock .sessions do
    let s ← state
    match s.tcp.sessions.lookup sid with
    | some object =>
      match s.tcp.objects[object]? with
      | some t => pure (if t.isOpen then t.remoteIP else "")
      | none => pure ""
    | none => pure ""

def onSessionClose (discCb : UInt16 → ServerM Unit) (sid : UInt16) : ServerM Unit := do
  withLock .sessions do
    update fun s => { s with tcp := s.tcp.eraseSession sid }
  discCb sid

end TCPServer

/-- `m_close_cb` is `TCPServer::onSessionClose`. -/
def TCPSession.close (discCb : UInt16 → ServerM Unit) (object : Nat) : ServerM Unit := do
  let s ← state
  match s.tcp.objects[object]? with
  | some t => do
    update fun s => { s with tcp := s.tcp.closeSocket object }
    TCPServer.onSessionClose discCb t.id
  | none => pure ()

namespace TCPServer

def disconnect (discCb : UInt16 → ServerM Unit) (sid : UInt16) : ServerM Unit :=
  withLock .sessions do
    let s ← state
    match s.tcp.sessions.lookup sid with
    | some object => TCPSession.close discCb object
    | none => pure ()

/-- The `async_accept` handler for a connection from `ip`. -/
def accept (ip : String) : ServerM Unit :=
  withLock .sessions do
    update fun s => { s with tcp := s.tcp.addSession ip }

end TCPServer

/-! ## UDP -/

namespace UDPServer

def send (dest : UDPEndpoint) (packet : Bytes) : ServerM Unit :=
  update fun s => { s with sent := s.sent ++ [.udp dest packet] }

def sendAll (packet : Bytes) (exclude : UInt16) : ServerM Unit :=
  withLock .map do
    let s ← state
    each (fun e => if e.1 = exclude then pure () else send e.2 packet) s.udp.playerToEp.entries

def unmapPlayer (playerId : UInt16) : ServerM Unit :=
  withLock .map do
    let s ← state
    match s.udp.playerToEp.lookup playerId with
    | some ep => update fun s => { s with udp :=
        { playerToEp := s.udp.playerToEp.erase playerId, epToPlayer := s.udp.epToPlayer.erase ep } }
    | none => pure ()

def playerFromEndpoint (ep : UDPEndpoint) : ServerM UInt16 :=
  withLock .map do
    let s ← state
    pure ((s.udp.epToPlayer.lookup ep).getD 0xFFFF)

end UDPServer

end NovaMP
