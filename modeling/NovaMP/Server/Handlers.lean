/-
  NovaMP.Server.Handlers — `GameServer`'s packet handlers and their helpers
  (`servers/src/game_server.cpp`).

  Each definition is the source function of its name; `handleAuth` is cut into its
  bridge and its player branch. `payload` is the bytes from the payload pointer to the
  end of the received packet, `len` the length the header announces.
-/

import NovaMP.Server.Transport

namespace NovaMP

open Lib Exec

/-- What Lua reads of a string given as `c_str()`, and the server of one Lua returns. -/
def cstr (b : Bytes) : Bytes := b.takeWhile (· ≠ 0)

def idText (pid : UInt16) : Bytes := utf8 (toString pid.toNat)

namespace GameServer

variable (w : World) (x : Env)

/-! ## Plugins and records -/

def fireEvent (event : String) (args : List Bytes) : ServerM Bytes := do
  let held ← heldLocks
  update fun s => { s with fired := s.fired ++ [⟨event, args.map cstr, held⟩] }
  pure (cstr (x.plugin event (args.map cstr)))

/-- Whether the result of a plugin event refuses what it was asked about. -/
def refuses (ret : Bytes) : Bool := !ret.isEmpty && ret != utf8 "nil"

def getPlayer (id : UInt16) : ServerM (Option Player) :=
  withLock .players do
    let s ← state
    pure (s.players.lookup id)

def playerCount : ServerM Nat :=
  withLock .players do
    let s ← state
    pure s.players.keys.length

/-- Writes through a `Player*`. -/
def setPlayer (id : UInt16) (p : Player) : ServerM Unit :=
  update fun s => { s with players := s.players.put id p }

def allocPlayerID : ServerM UInt16 := do
  update fun s => if s.nextPlayerId = 0xFFFF then { s with nextPlayerId := 1 } else s
  let s ← state
  update fun s => { s with nextPlayerId := s.nextPlayerId + 1 }
  pure s.nextPlayerId

/-! ## Broadcasts and messages -/

def jsonBytes (j : Json) : Bytes := utf8 (w.dump j)

def sendChat (playerId : Int) (msg : Bytes) : ServerM Unit :=
  let pkt := Packet.buildStr .chatMessage 0 0 msg
  if playerId < 0 then TCPServer.sendAll pkt
  else withLock .players do
    let s ← state
    match s.sessionToPlayer.keyOf (UInt16.ofInt playerId) with
    | some sid => TCPServer.send sid pkt
    | none => pure ()

def broadcastPlayerJoin (p : Player) : ServerM Unit :=
  TCPServer.sendAll (Packet.buildStr .playerJoin p.id 0 (jsonBytes w (.obj
    [("type", .str "player_join"), ("id", .int p.id.toNat), ("name", .str p.username), ("role", .str p.role)])))

def broadcastPlayerLeave (pid : UInt16) (reason : String) : ServerM Unit :=
  TCPServer.sendAll (Packet.buildStr .playerLeave pid 0 (jsonBytes w (.obj
    [("type", .str "player_leave"), ("id", .int pid.toNat), ("reason", .str reason)])))

def sendServerInfo (sid : UInt16) : ServerM Unit := do
  let current ← playerCount
  TCPServer.send sid (Packet.buildStr .serverInfo 0 0 (jsonBytes w (.obj
    [("name", .str w.cfg.name), ("description", .str w.cfg.description), ("map", .str w.cfg.map),
      ("max_players", .int w.cfg.maxPlayers), ("current", .int current), ("ai_enabled", .bool w.cfg.aiEnabled),
      ("version", .str "1.0.0")])))

/-! ## AI authority -/

def grantAuthority (pid : UInt16) : ServerM Unit :=
  withLock .players do
    let s ← state
    match s.sessionToPlayer.keyOf pid with
    | some sid => TCPServer.send sid (Packet.buildStr .authorityGrant 0 0 (jsonBytes w (.obj
        [("ai_count", .int w.cfg.aiCount), ("speed_limit", .real w.cfg.aiSpeedLimit), ("mode", .str w.cfg.aiMode),
          ("update_hz", .int w.cfg.aiUpdateRateHz)])))
    | none => pure ()

def revokeAuthority (pid : UInt16) : ServerM Unit :=
  withLock .players do
    let s ← state
    match s.sessionToPlayer.keyOf pid with
    | some sid => TCPServer.send sid (Packet.buildStr .authorityRevoke 0 0 (utf8 "\x7b\x7d"))
    | none => pure ()

def authorityCall : AuthorityCall → ServerM Unit
  | .grant pid => grantAuthority w pid
  | .revoke pid => revokeAuthority pid

def handleAuthorityClaim (pid : UInt16) : ServerM Unit :=
  if !w.cfg.aiEnabled then pure ()
  else do
    let (accepted, calls) := x.onClientClaim pid
    each (authorityCall w) calls
    if !accepted then sendChat pid.toNat (utf8 "[Server] AI authority not available right now.")
    else pure ()

/-! ## Disconnects -/

def onDisconnect (sid : UInt16) : ServerM Unit := do
  let pid ← withLock .players do
    let s ← state
    match s.sessionToPlayer.lookup sid with
    | some pid => do
      update fun s => { s with sessionToPlayer := s.sessionToPlayer.erase sid }
      pure pid
    | none => pure 0xFFFF
  if pid = 0xFFFF then pure ()
  else do
    withLock .players do
      let s ← state
      match s.players.lookup pid with
      | some _ => do
        update fun s => { s with vsync := s.vsync.onPlayerDisconnect pid }
        UDPServer.unmapPlayer pid
        update fun s => { s with players := s.players.erase pid }
      | none => pure ()
    broadcastPlayerLeave w pid "disconnected"
    let _ ← fireEvent x "onPlayerDisconnect" [idText pid]
    if w.cfg.aiEnabled then each (authorityCall w) (x.onAuthorityDisconnect pid) else pure ()
    -- The log line counts the players.
    let _ ← playerCount

def disconnect (sid : UInt16) : ServerM Unit := TCPServer.disconnect (onDisconnect w x) sid

def kickPlayer (id : UInt16) (reason : Bytes) : ServerM Unit :=
  let pkt := Packet.buildStr .kick 0 0 (utf8 "Kicked: " ++ reason)
  withLock .players do
    let s ← state
    match s.sessionToPlayer.keyOf id with
    | some sid => do
      TCPServer.send sid pkt
      disconnect w x sid
    | none => pure ()

def banPlayer (id : UInt16) (reason : Bytes) : ServerM Unit := do
  match ← getPlayer id with
  | some p => setPlayer id { p with isBanned := true }
  | none => pure ()
  kickPlayer w x id (utf8 "Banned: " ++ reason)

/-! ## Authentication -/

def aiBridge : String := "##ai_bridge##"

def okFalse (error : Json) : Json := .obj [("ok", .bool false), ("error", error)]

def okTrue (pid : UInt16) : Json :=
  .obj [("ok", .bool true), ("player_id", .int pid.toNat), ("map", .str w.cfg.map)]

def authResponse (j : Json) : Bytes := Packet.buildStr .authResponse 0 0 (jsonBytes w j)

/-- The critical section that registers a player. -/
def register (sid pid : UInt16) (p : Player) : ServerM Unit :=
  withLock .players do
    update fun s => { s with
      sessionToPlayer := s.sessionToPlayer.insert sid pid
      players := s.players.insert pid p }

def authBridge (sid : UInt16) (password : String) : ServerM Unit :=
  if !w.cfg.aiEnabled || password ≠ w.cfg.bridgeToken then do
    TCPServer.send sid (authResponse w (okFalse (.str "Bridge token mismatch")))
    disconnect w x sid
  else do
    let pid ← allocPlayerID
    let ip ← TCPServer.getRemoteIP sid
    register sid pid ⟨pid, aiBridge, "bridge", ip, .ready, false, false, []⟩
    TCPServer.send sid (authResponse w (okTrue w pid))
    each (authorityCall w) (x.onHeadlessConnect pid)

def authPlayer (sid : UInt16) (j : Json) (username : String) : ServerM Unit := do
  let pid ← allocPlayerID
  let role ← ofExcept (j.value "role" "player")
  let ip ← TCPServer.getRemoteIP sid
  register sid pid ⟨pid, username, role, ip, .loadingMods, false, false, []⟩
  let veto ← fireEvent x "onPlayerAuth" [idText pid, utf8 username]
  if refuses veto then do
    withLock .players do
      update fun s => { s with
        players := s.players.erase pid
        sessionToPlayer := s.sessionToPlayer.erase sid }
    let error ← ofExcept (Json.ofBytes veto)
    TCPServer.send sid (authResponse w (okFalse error))
    disconnect w x sid
  else do
    TCPServer.send sid (authResponse w (okTrue w pid))
    sendServerInfo w sid
    -- The log line counts the players.
    let _ ← playerCount

def handleAuth (sid : UInt16) (payload : Bytes) (len : UInt16) : ServerM Unit := do
  let body ← ofExcept (readBytes payload len.toNat)
  match w.parse body with
  | none => TCPServer.send sid (authResponse w (okFalse (.str "Invalid JSON")))
  | some j => do
    let username ← ofExcept (j.value "username" "")
    let password ← ofExcept (j.value "server_password" "")
    if username = aiBridge then authBridge w x sid password
    else if username = "" then TCPServer.send sid (authResponse w (okFalse (.str "Username required")))
    else if w.cfg.password ≠ "" ∧ password ≠ w.cfg.password then do
      TCPServer.send sid (authResponse w (okFalse (.str "Wrong password")))
      disconnect w x sid
    else do
      let count ← playerCount
      if w.cfg.maxPlayers ≤ (count : Int) then do
        TCPServer.send sid (authResponse w (okFalse (.str "Server full")))
        disconnect w x sid
      else authPlayer w x sid j username

/-! ## In-game packets -/

def handleReady (pid : UInt16) : ServerM Unit := do
  match ← getPlayer pid with
  | none => pure ()
  | some p => do
    let p := { p with state := .ready }
    setPlayer pid p
    broadcastPlayerJoin w p
    let _ ← fireEvent x "onPlayerJoin" [idText pid, utf8 p.username]
    sendChat pid.toNat (utf8 ("Welcome to " ++ w.cfg.name ++ "!"))

def handleVehicleSpawn (pid : UInt16) (payload : Bytes) (len : UInt16) : ServerM Unit := do
  let body ← ofExcept (readBytes payload len.toNat)
  match w.parse body with
  | none => pure ()
  | some j => do
    match ← getPlayer pid with
    | none => pure ()
    | some p =>
      if w.cfg.vehicleLimitPerPlayer ≤ (p.vehicles.length : Int) then pure ()
      else do
        let vid := UInt8.ofNat p.vehicles.length
        let model ← ofExcept (j.value "model" "etk800")
        let pv : PlayerVehicle := ⟨vid, model, w.dump j, .zero, true⟩
        setPlayer pid { p with vehicles := p.vehicles ++ [pv] }
        TCPServer.sendAll (Packet.buildStr .vehicleSpawn pid 0 (jsonBytes w (.obj
          [("type", .str "vehicle_spawn"), ("player_id", .int pid.toNat), ("vehicle_id", .int vid.toNat),
            ("model", .str pv.model), ("config", .str pv.config)])))
        let _ ← fireEvent x "onVehicleSpawn" [idText pid, utf8 pv.model]

def handleVehicleDelete (pid : UInt16) (payload : Bytes) (len : UInt16) : ServerM Unit :=
  if len < 1 then pure ()
  else do
    let vid ← ofExcept (readByte payload 0)
    match ← getPlayer pid with
    | none => pure ()
    | some p => do
      update fun s => { s with vsync := s.vsync.onVehicleDelete pid vid }
      setPlayer pid { p with vehicles := p.vehicles.filter fun v => !(v.vehicleId == vid) }
      TCPServer.sendAll (Packet.build .vehicleDelete pid 0 [vid] 1 0)
      let _ ← fireEvent x "onVehicleDelete" [idText pid, utf8 (toString vid.toNat)]

def handleVehicleUpdate (pid : UInt16) (payload : Bytes) (len : UInt16) : ServerM Unit :=
  if len.toNat < VehicleState.codec.size then pure ()
  else do
    let vs ← ofExcept (Packet.parseVehicleState payload len)
    update fun s => { s with vsync := s.vsync.onVehicleUpdate pid vs }

def handleChat (pid : UInt16) (payload : Bytes) (len : UInt16) : ServerM Unit := do
  let msg ← ofExcept (readBytes payload len.toNat)
  match ← getPlayer pid with
  | none => pure ()
  | some p =>
    if p.isMuted then pure ()
    else do
      let msg := msg.take 256
      let blocked ← fireEvent x "onChatMessage" [idText pid, utf8 p.username, msg]
      if refuses blocked then pure ()
      else sendChat (-1) (utf8 p.username ++ utf8 ": " ++ msg)

/-! ## Packets in -/

def onTCPPacket (sid : UInt16) (data : Bytes) : ServerM Unit := do
  let hdr ← ofExcept (Packet.parseHeader data)
  let pl := Packet.payload data
  let pid ← withLock .players do
    let s ← state
    pure ((s.sessionToPlayer.lookup sid).getD 0xFFFF)
  match PacketType.ofCode hdr.type with
  | some .authRequest => handleAuth w x sid pl hdr.payloadLen
  | some .vehicleSpawn => if pid ≠ 0xFFFF then handleVehicleSpawn w x pid pl hdr.payloadLen else pure ()
  | some .vehicleDelete => if pid ≠ 0xFFFF then handleVehicleDelete x pid pl hdr.payloadLen else pure ()
  | some .chatMessage => if pid ≠ 0xFFFF then handleChat x pid pl hdr.payloadLen else pure ()
  | some .ready => if pid ≠ 0xFFFF then handleReady w x pid else pure ()
  | some .authorityClaim => if pid ≠ 0xFFFF then handleAuthorityClaim w x pid else pure ()
  | _ => pure ()

def onUDPPacket (source : UDPEndpoint) (data : Bytes) : ServerM Unit := do
  let hdr ← ofExcept (Packet.parseHeader data)
  let type := PacketType.ofCode hdr.type
  if type = some .ping then UDPServer.send source (Packet.build .pong 0 hdr.sequence [] 0 0)
  else do
    let pid ← UDPServer.playerFromEndpoint source
    if pid = 0xFFFF then pure ()
    else if type = some .vehicleUpdate then
      if w.cfg.aiEnabled ∧ x.isAuthority pid ∧ 2 ≤ hdr.payloadLen then do
        let vflags ← ofExcept (readByte (Packet.payload data) 1)
        if vflags &&& vfIsAi ≠ 0 then do
          let raw ← ofExcept (readBytes data (hdr.payloadLen.toNat + Packet.headerSize))
          UDPServer.sendAll raw pid
        else handleVehicleUpdate pid (Packet.payload data) hdr.payloadLen
      else handleVehicleUpdate pid (Packet.payload data) hdr.payloadLen
    else pure ()

/-- One round of `vehicleSyncLoop`; `m_broadcast` is `UDPServer::sendAll`. -/
def broadcastAll : ServerM Unit := do
  let s ← state
  update fun s => { s with vsync := s.vsync.broadcastAll.2 }
  each (fun b => UDPServer.sendAll b.pkt b.exclude) s.vsync.broadcastAll.1

/-! ## Calls of the server -/

/-- The frame lengths `readLen` lets through. -/
def maxFrame : Nat := 4 * 1024 * 1024

/-- The size of `m_recv_buf`. -/
def maxDatagram : Nat := 65507

/-- What the io threads, the sync thread, the authority thread, the console and the
    plugins call. -/
inductive Call where
  | accept (ip : String)
  /-- A frame `readPayload` hands over on an open session object. -/
  | frame (object : Nat) (data : Bytes)
  /-- A failed read or write on a session object. -/
  | close (object : Nat)
  | datagram (source : UDPEndpoint) (data : Bytes)
  | broadcastAll
  | kickPlayer (id : UInt16) (reason : Bytes)
  | banPlayer (id : UInt16) (reason : Bytes)
  | sendChat (playerId : Int) (msg : Bytes)
  | grantAuthority (pid : UInt16)
  | revokeAuthority (pid : UInt16)
  deriving DecidableEq, Repr

def exec : Call → ServerM Unit
  | .accept ip => TCPServer.accept ip
  | .frame object data => do
    let s ← state
    match s.tcp.objects[object]? with
    | some t =>
      if t.isOpen ∧ 1 ≤ data.length ∧ data.length ≤ maxFrame then onTCPPacket w x t.id data else pure ()
    | none => pure ()
  | .close object => TCPSession.close (onDisconnect w x) object
  | .datagram source data =>
    if Packet.headerSize ≤ data.length ∧ data.length ≤ maxDatagram then onUDPPacket w x source data else pure ()
  | .broadcastAll => broadcastAll
  | .kickPlayer id reason => kickPlayer w x id reason
  | .banPlayer id reason => banPlayer w x id reason
  | .sendChat playerId msg => sendChat playerId msg
  | .grantAuthority pid => grantAuthority w pid
  | .revokeAuthority pid => revokeAuthority pid

end GameServer

end NovaMP
