/-
  NovaMP.Server.Spec — what each function of the server does, in closed form.

  The io threads call in without a lock (`[]`). There every send, message and plugin
  event ends, so a handler is a function of the state: one equation for each function
  says what it adds to the log and where it stops. The later modules use these
  equations and never look into a handler again.

  `disconnect` of a session that `m_sessions` has is the one call that deadlocks
  (`disconnect_eq`): it closes the session while it holds `m_sessions_mutex`, and the
  close callback takes that mutex again.
-/

import NovaMP.Server.Handlers

namespace NovaMP

open Lib Exec

namespace Server

variable (s : Server)

/-! ## What a call adds to the log -/

def log (es : List Sent) : Server := { s with sent := s.sent ++ es }

def note (e : Fired) : Server := { s with fired := s.fired ++ [e] }

@[simp] theorem log_tcp (es : List Sent) : (s.log es).tcp = s.tcp := rfl
@[simp] theorem log_sent (es : List Sent) : (s.log es).sent = s.sent ++ es := rfl
@[simp] theorem log_nil : s.log [] = s := by simp [log]

/-- `TCPServer::send` -/
def toSession (sid : UInt16) (pkt : Bytes) : List Sent := [.tcp sid (s.tcp.sessions.lookup sid) pkt]

/-- `TCPServer::sendAll` -/
def toAll (pkt : Bytes) : List Sent :=
  (s.tcp.sessions.entries.filter fun e => e.1 ≠ 0xFFFF).map fun e => .tcp e.1 (some e.2) pkt

/-- The loop over `m_session_to_player` that sends to the first session of a player. -/
def toPlayer (pid : UInt16) (pkt : Bytes) : List Sent :=
  match s.sessionToPlayer.keyOf pid with
  | some sid => s.toSession sid pkt
  | none => []

/-- `GameServer::sendChat` -/
def chat (playerId : Int) (msg : Bytes) : List Sent :=
  if playerId < 0 then s.toAll (Packet.buildStr .chatMessage 0 0 msg)
  else s.toPlayer (UInt16.ofInt playerId) (Packet.buildStr .chatMessage 0 0 msg)

end Server

/-- A loop whose body only adds to the log. -/
theorem run_each_log {β : Type} {H : List Mutex} {m : β → ServerM Unit} {f : Server → β → List Sent}
    (hf : ∀ s es b, f (s.log es) b = f s b) (hm : ∀ b s, m b H s = (.ok (), s.log (f s b)))
    (bs : List β) (s : Server) : each m bs H s = (.ok (), s.log (bs.flatMap (f s))) := by
  have hfold : ∀ (bs : List β) (s : Server), bs.foldl (fun s b => s.log (f s b)) s = s.log (bs.flatMap (f s)) := by
    intro bs
    induction bs with
    | nil => intro s; simp
    | cons b bs ih =>
      intro s
      have he : f (s.log (f s b)) = f s := funext fun c => hf s _ c
      rw [List.foldl_cons, ih, he, List.flatMap_cons]
      simp [Server.log, List.append_assoc]
  rw [run_each hm, hfold]

/-! ## The transports -/

theorem TCPServer.send_eq {H : List Mutex} (hH : .sessions ∉ H) (sid : UInt16) (pkt : Bytes) (s : Server) :
    TCPServer.send sid pkt H s = (.ok (), s.log (s.toSession sid pkt)) := by
  unfold TCPServer.send
  rw [run_withLock, if_neg hH, run_bind, run_state]
  simp only [Server.toSession]
  cases s.tcp.sessions.lookup sid <;> rfl

theorem flatMap_guard {β : Type} (p : β → Prop) [DecidablePred p] (g : β → Sent) (bs : List β) :
    (bs.flatMap fun b => if p b then [g b] else []) = (bs.filter p).map g := by
  induction bs with
  | nil => rfl
  | cons b bs ih => by_cases h : p b <;> simp [h, ih]

theorem TCPServer.sendAll_eq {H : List Mutex} (hH : .sessions ∉ H) (pkt : Bytes) (s : Server) :
    TCPServer.sendAll pkt H s = (.ok (), s.log (s.toAll pkt)) := by
  unfold TCPServer.sendAll
  rw [run_withLock, if_neg hH, run_bind, run_state]
  show each _ _ _ _ = _
  rw [Server.toAll, ← flatMap_guard]
  refine run_each_log (f := fun _ (e : Sigma fun _ : UInt16 => Nat) => if e.1 ≠ 0xFFFF then [Sent.tcp e.1 (some e.2) pkt] else []) ?_ ?_ _ s
  · intro _ _ _; rfl
  · intro e t
    split
    · rfl
    · rw [run_pure, Server.log_nil]

def Server.remoteIP (s : Server) (sid : UInt16) : String :=
  match s.tcp.sessions.lookup sid with
  | some object =>
    match s.tcp.objects[object]? with
    | some t => if t.isOpen then t.remoteIP else ""
    | none => ""
  | none => ""

theorem TCPServer.getRemoteIP_eq (sid : UInt16) (s : Server) :
    TCPServer.getRemoteIP sid [] s = (.ok (s.remoteIP sid), s) := by
  unfold TCPServer.getRemoteIP Server.remoteIP
  rw [run_withLock, if_neg (List.not_mem_nil), run_bind, run_state]
  cases h : s.tcp.sessions.lookup sid with
  | none => simp [h]
  | some object => cases h' : s.tcp.objects[object]? <;> simp [h, h']

/-- `UDPServer::unmapPlayer` -/
def UDPServer.unmap (udp : UDPServer) (pid : UInt16) : UDPServer :=
  match udp.playerToEp.lookup pid with
  | some ep => ⟨udp.playerToEp.erase pid, udp.epToPlayer.erase ep⟩
  | none => udp

theorem UDPServer.unmapPlayer_eq {H : List Mutex} (hH : .map ∉ H) (pid : UInt16) (s : Server) :
    UDPServer.unmapPlayer pid H s = (.ok (), { s with udp := s.udp.unmap pid }) := by
  unfold UDPServer.unmapPlayer UDPServer.unmap
  rw [run_withLock, if_neg hH, run_bind, run_state]
  cases h : s.udp.playerToEp.lookup pid <;> simp [h]

/-- What `UDPServer::sendAll` sends. -/
def Server.toEndpoints (s : Server) (pkt : Bytes) (exclude : UInt16) : List Sent :=
  (s.udp.playerToEp.entries.filter fun e => e.1 ≠ exclude).map fun e => .udp e.2 pkt

theorem UDPServer.sendAll_eq (pkt : Bytes) (exclude : UInt16) (s : Server) :
    UDPServer.sendAll pkt exclude [] s = (.ok (), s.log (s.toEndpoints pkt exclude)) := by
  unfold UDPServer.sendAll
  rw [run_withLock, if_neg (List.not_mem_nil), run_bind, run_state]
  show each _ _ _ _ = _
  rw [Server.toEndpoints, ← flatMap_guard]
  refine run_each_log (f := fun _ (e : Sigma fun _ : UInt16 => UDPEndpoint) => if e.1 ≠ exclude then [Sent.udp e.2 pkt] else []) ?_ ?_ _ s
  · intro _ _ _; rfl
  · intro e t
    by_cases h : e.1 = exclude
    · rw [if_pos h, if_neg (not_not.mpr h), run_pure, Server.log_nil]
    · rw [if_neg h, if_pos h]; rfl

theorem UDPServer.playerFromEndpoint_eq (ep : UDPEndpoint) (s : Server) :
    UDPServer.playerFromEndpoint ep [] s = (.ok ((s.udp.epToPlayer.lookup ep).getD 0xFFFF), s) := rfl

namespace GameServer

variable (w : World) (x : Env)

/-! ## Helpers of the handlers -/

theorem fireEvent_eq (event : String) (args : List Bytes) (H : List Mutex) (s : Server) :
    fireEvent x event args H s =
      (.ok (cstr (x.plugin event (args.map cstr))), s.note ⟨event, args.map cstr, H⟩) := rfl

theorem getPlayer_eq (id : UInt16) (s : Server) : getPlayer id [] s = (.ok (s.players.lookup id), s) := rfl

theorem playerCount_eq (s : Server) : playerCount [] s = (.ok s.players.keys.length, s) := rfl

theorem setPlayer_eq (id : UInt16) (p : Player) (H : List Mutex) (s : Server) :
    setPlayer id p H s = (.ok (), { s with players := s.players.put id p }) := rfl

/-- The id `allocPlayerID` returns. -/
def freshId (s : Server) : UInt16 := if s.nextPlayerId = 0xFFFF then 1 else s.nextPlayerId

theorem allocPlayerID_eq (H : List Mutex) (s : Server) :
    allocPlayerID H s = (.ok (freshId s), { s with nextPlayerId := freshId s + 1 }) := by
  simp only [allocPlayerID, run_bind, run_update, run_state, run_pure, freshId]
  split <;> rfl

/-- The loop that sends to the first session of a player. -/
theorem run_toPlayer (pid : UInt16) (pkt : Bytes) (s : Server) :
    withLock .players (do
      let s ← state
      match s.sessionToPlayer.keyOf pid with
      | some sid => TCPServer.send sid pkt
      | none => pure ()) [] s = (.ok (), s.log (s.toPlayer pid pkt)) := by
  rw [run_withLock, if_neg (List.not_mem_nil), run_bind, run_state, Server.toPlayer]
  cases hk : s.sessionToPlayer.keyOf pid with
  | none => simp [hk]
  | some sid => simp only [hk]; exact TCPServer.send_eq (by decide) sid pkt s

theorem sendChat_eq (playerId : Int) (msg : Bytes) (s : Server) :
    sendChat playerId msg [] s = (.ok (), s.log (s.chat playerId msg)) := by
  unfold sendChat Server.chat
  by_cases h : playerId < 0
  · rw [if_pos h, if_pos h]
    exact TCPServer.sendAll_eq (List.not_mem_nil) _ s
  · rw [if_neg h, if_neg h]
    exact run_toPlayer _ _ s

def joinPacket (p : Player) : Bytes :=
  Packet.buildStr .playerJoin p.id 0 (jsonBytes w (.obj
    [("type", .str "player_join"), ("id", .int p.id.toNat), ("name", .str p.username), ("role", .str p.role)]))

def leavePacket (pid : UInt16) : Bytes :=
  Packet.buildStr .playerLeave pid 0 (jsonBytes w (.obj
    [("type", .str "player_leave"), ("id", .int pid.toNat), ("reason", .str "disconnected")]))

def infoPacket (current : Nat) : Bytes :=
  Packet.buildStr .serverInfo 0 0 (jsonBytes w (.obj
    [("name", .str w.cfg.name), ("description", .str w.cfg.description), ("map", .str w.cfg.map),
      ("max_players", .int w.cfg.maxPlayers), ("current", .int current), ("ai_enabled", .bool w.cfg.aiEnabled),
      ("version", .str "1.0.0")]))

theorem broadcastPlayerJoin_eq (p : Player) (s : Server) :
    broadcastPlayerJoin w p [] s = (.ok (), s.log (s.toAll (joinPacket w p))) :=
  TCPServer.sendAll_eq (List.not_mem_nil) _ s

theorem broadcastPlayerLeave_eq (pid : UInt16) (s : Server) :
    broadcastPlayerLeave w pid "disconnected" [] s = (.ok (), s.log (s.toAll (leavePacket w pid))) :=
  TCPServer.sendAll_eq (List.not_mem_nil) _ s

theorem sendServerInfo_eq (sid : UInt16) (s : Server) :
    sendServerInfo w sid [] s = (.ok (), s.log (s.toSession sid (infoPacket w s.players.keys.length))) := by
  unfold sendServerInfo
  rw [run_bind, playerCount_eq]
  exact TCPServer.send_eq (List.not_mem_nil) sid _ s

/-- What `grantAuthority` and `revokeAuthority` send. -/
def authoritySent (s : Server) : AuthorityCall → List Sent
  | .grant pid => s.toPlayer pid (Packet.buildStr .authorityGrant 0 0 (jsonBytes w (.obj
      [("ai_count", .int w.cfg.aiCount), ("speed_limit", .real w.cfg.aiSpeedLimit), ("mode", .str w.cfg.aiMode),
        ("update_hz", .int w.cfg.aiUpdateRateHz)])))
  | .revoke pid => s.toPlayer pid (Packet.buildStr .authorityRevoke 0 0 (utf8 "\x7b\x7d"))

theorem authorityCall_eq (c : AuthorityCall) (s : Server) :
    authorityCall w c [] s = (.ok (), s.log (authoritySent w s c)) := by
  cases c with
  | grant pid => exact run_toPlayer pid _ s
  | revoke pid => exact run_toPlayer pid _ s

/-- A list of authority calls, in order. -/
def authority (s : Server) (calls : List AuthorityCall) : Server := s.log (calls.flatMap (authoritySent w s))

theorem each_authorityCall_eq (calls : List AuthorityCall) (s : Server) :
    each (authorityCall w) calls [] s = (.ok (), authority w s calls) :=
  run_each_log (fun _ _ c => by cases c <;> rfl) (authorityCall_eq w) calls s

/-! ## Disconnects -/

/-- What `onDisconnect` does to the maps once `pid` is out of `m_session_to_player`. -/
def removePlayer (s : Server) (pid : UInt16) : Server :=
  if pid ∈ s.players then
    { s with vsync := s.vsync.onPlayerDisconnect pid, udp := s.udp.unmap pid, players := s.players.erase pid }
  else s

/-- What it announces then. -/
def announceLeave (s : Server) (pid : UInt16) : Server :=
  let s := (s.log (s.toAll (leavePacket w pid))).note ⟨"onPlayerDisconnect", [cstr (idText pid)], []⟩
  if w.cfg.aiEnabled then authority w s (x.onAuthorityDisconnect pid) else s

def disconnected (s : Server) (sid : UInt16) : Server :=
  match s.sessionToPlayer.lookup sid with
  | none => s
  | some pid =>
    let s := { s with sessionToPlayer := s.sessionToPlayer.erase sid }
    if pid = 0xFFFF then s else announceLeave w x (removePlayer s pid) pid

theorem onDisconnect_eq (sid : UInt16) (s : Server) :
    onDisconnect w x sid [] s = (.ok (), disconnected w x s sid) := by
  unfold onDisconnect disconnected
  simp only [run_bind, run_withLock, List.not_mem_nil, if_false, run_state]
  cases hl : s.sessionToPlayer.lookup sid with
  | none => rfl
  | some pid =>
    simp only [run_bind, run_update, run_pure]
    by_cases hp : pid = 0xFFFF
    · rw [if_pos hp, if_pos hp, run_pure]
    rw [if_neg hp, if_neg hp]
    simp only [run_bind, run_withLock, List.not_mem_nil, if_false, run_state]
    have hrest : ∀ t : Server, (do
          broadcastPlayerLeave w pid "disconnected"
          let _ ← fireEvent x "onPlayerDisconnect" [idText pid]
          if w.cfg.aiEnabled then each (authorityCall w) (x.onAuthorityDisconnect pid) else pure ()
          let _ ← playerCount) [] t = (.ok (), announceLeave w x t pid) := by
      intro t
      simp only [run_bind, broadcastPlayerLeave_eq, fireEvent_eq, run_ite, each_authorityCall_eq, run_pure]
      by_cases hai : w.cfg.aiEnabled = true <;> simp [hai, announceLeave, playerCount_eq]
    cases hq : s.players.lookup pid with
    | none =>
      have hm : pid ∉ s.players := AList.lookup_eq_none.mp hq
      rw [removePlayer, if_neg hm]
      exact hrest _
    | some p =>
      have hm : pid ∈ s.players := Table.mem_of_lookup hq
      rw [removePlayer, if_pos hm]
      simp only [run_bind, run_update]
      rw [UDPServer.unmapPlayer_eq (by decide)]
      exact hrest _

/-- A session object closes: its socket, its entry in `m_sessions`, its player. -/
def closed (s : Server) (object : Nat) : Server :=
  match s.tcp.objects[object]? with
  | some t => disconnected w x { s with tcp := (s.tcp.closeSocket object).eraseSession t.id } t.id
  | none => s

theorem close_eq (object : Nat) (s : Server) :
    TCPSession.close (onDisconnect w x) object [] s = (.ok (), closed w x s object) := by
  unfold TCPSession.close closed
  rw [run_bind, run_state]
  cases ht : s.tcp.objects[object]? with
  | none => simp [ht]
  | some t =>
    simp only [ht, run_bind, run_update, TCPServer.onSessionClose, run_withLock, List.not_mem_nil, if_false]
    exact onDisconnect_eq w x t.id _

/-- `disconnect` where `m_sessions_mutex` is free: it ends at once when `m_sessions`
    lacks the session, and hangs with the socket closed when it has it. -/
def dropped (s : Server) (sid : UInt16) : Except (Stop Mutex Fault) Unit × Server :=
  match s.tcp.sessions.lookup sid with
  | some object => (.error (.deadlock .sessions), { s with tcp := s.tcp.closeSocket object })
  | none => (.ok (), s)

theorem disconnect_eq {H : List Mutex} (hH : .sessions ∉ H) (sid : UInt16) (s : Server) :
    disconnect w x sid H s = dropped s sid := by
  unfold disconnect TCPServer.disconnect dropped
  rw [run_withLock, if_neg hH, run_bind, run_state]
  cases hl : s.tcp.sessions.lookup sid with
  | none => simp [hl]
  | some object =>
    obtain ⟨t, ht, -⟩ := s.tcp.own sid object hl
    -- `close` runs under `m_sessions_mutex`, which `onSessionClose` takes again.
    simp only [hl, TCPSession.close, run_bind, run_state, ht, run_update, TCPServer.onSessionClose, run_withLock,
      List.mem_cons_self, if_true]

def kickPacket (reason : Bytes) : Bytes := Packet.buildStr .kick 0 0 (utf8 "Kicked: " ++ reason)

def kicked (s : Server) (id : UInt16) (reason : Bytes) : Except (Stop Mutex Fault) Unit × Server :=
  match s.sessionToPlayer.keyOf id with
  | some sid => dropped (s.log (s.toSession sid (kickPacket reason))) sid
  | none => (.ok (), s)

theorem kickPlayer_eq (id : UInt16) (reason : Bytes) (s : Server) :
    kickPlayer w x id reason [] s = kicked s id reason := by
  unfold kickPlayer kicked
  rw [run_withLock, if_neg (List.not_mem_nil), run_bind, run_state]
  cases hk : s.sessionToPlayer.keyOf id with
  | none => simp [hk]
  | some sid =>
    simp only [hk, run_bind]
    rw [TCPServer.send_eq (by decide)]
    exact disconnect_eq w x (by decide) sid _

def markBanned (s : Server) (id : UInt16) : Server :=
  match s.players.lookup id with
  | some p => { s with players := s.players.put id { p with isBanned := true } }
  | none => s

theorem banPlayer_eq (id : UInt16) (reason : Bytes) (s : Server) :
    banPlayer w x id reason [] s = kicked (markBanned s id) id (utf8 "Banned: " ++ reason) := by
  unfold banPlayer markBanned
  rw [run_bind, getPlayer_eq]
  cases hp : s.players.lookup id <;> exact kickPlayer_eq w x id _ _

/-! ## Authentication -/

/-- How `handleAuth` treats a request whose text is `body`. -/
inductive AuthBranch where
  | throws (e : Fault)
  /-- `ok=false`; `drop` is set where the session is disconnected as well. -/
  | refused (error : String) (drop : Bool)
  | bridge
  /-- An id is taken, then reading `role` throws. -/
  | badRole (e : Fault)
  | player (username role : String)
  deriving DecidableEq, Repr

def authBranch (s : Server) (body : Bytes) : AuthBranch :=
  match w.parse body with
  | none => .refused "Invalid JSON" false
  | some j =>
    match j.value "username" "" with
    | .error e => .throws e
    | .ok username =>
      match j.value "server_password" "" with
      | .error e => .throws e
      | .ok password =>
        if username = aiBridge then
          if !w.cfg.aiEnabled || password ≠ w.cfg.bridgeToken then .refused "Bridge token mismatch" true
          else .bridge
        else if username = "" then .refused "Username required" false
        else if w.cfg.password ≠ "" ∧ password ≠ w.cfg.password then .refused "Wrong password" true
        else if w.cfg.maxPlayers ≤ (s.players.keys.length : Int) then .refused "Server full" true
        else
          match j.value "role" "player" with
          | .error e => .badRole e
          | .ok role => .player username role

def refusal (error : String) : Bytes := authResponse w (okFalse (.str error))

/-- The state after the critical section that registers a player. -/
def registered (s : Server) (sid : UInt16) (username role : String) (st : PlayerState) : Server :=
  { s with
    nextPlayerId := freshId s + 1
    sessionToPlayer := s.sessionToPlayer.insert sid (freshId s)
    players := s.players.insert (freshId s)
      ⟨freshId s, username, role, s.remoteIP sid, st, false, false, []⟩ }

/-- The state after the critical section that takes a refused player out again. -/
def unregistered (s : Server) (sid pid : UInt16) : Server :=
  { s with players := s.players.erase pid, sessionToPlayer := s.sessionToPlayer.erase sid }

def authArgs (s : Server) (username : String) : List Bytes := [cstr (idText (freshId s)), cstr (utf8 username)]

/-- What the `onPlayerAuth` handlers say. -/
def vetoOf (s : Server) (username : String) : Bytes := cstr (x.plugin "onPlayerAuth" (authArgs s username))

def authOutcome (s : Server) (sid : UInt16) : AuthBranch → Except (Stop Mutex Fault) Unit × Server
  | .throws e => (.error (.fault e), s)
  | .refused error drop =>
    let t := s.log (s.toSession sid (refusal w error))
    if drop then dropped t sid else (.ok (), t)
  | .bridge =>
    let t := registered s sid aiBridge "bridge" .ready
    (.ok (), authority w (t.log (t.toSession sid (authResponse w (okTrue w (freshId s)))))
      (x.onHeadlessConnect (freshId s)))
  | .badRole e => (.error (.fault e), { s with nextPlayerId := freshId s + 1 })
  | .player username role =>
    let t := (registered s sid username role .loadingMods).note ⟨"onPlayerAuth", authArgs s username, []⟩
    if refuses (vetoOf x s username) then
      let u := unregistered t sid (freshId s)
      match Json.ofBytes (vetoOf x s username) with
      | .error e => (.error (.fault e), u)
      | .ok error => dropped (u.log (u.toSession sid (authResponse w (okFalse error)))) sid
    else
      let u := t.log (t.toSession sid (authResponse w (okTrue w (freshId s))))
      (.ok (), u.log (u.toSession sid (infoPacket w u.players.keys.length)))

theorem register_eq (sid : UInt16) (username role ip : String) (st : PlayerState) (s : Server) :
    register sid (freshId s) ⟨freshId s, username, role, ip, st, false, false, []⟩ []
        { s with nextPlayerId := freshId s + 1 } =
      (.ok (), { s with
        nextPlayerId := freshId s + 1
        sessionToPlayer := s.sessionToPlayer.insert sid (freshId s)
        players := s.players.insert (freshId s) ⟨freshId s, username, role, ip, st, false, false, []⟩ }) := rfl

theorem authBridge_eq (sid : UInt16) (password : String) (s : Server) :
    authBridge w x sid password [] s =
      authOutcome w x s sid (if !w.cfg.aiEnabled || password ≠ w.cfg.bridgeToken then
        .refused "Bridge token mismatch" true else .bridge) := by
  unfold authBridge
  rw [run_ite]
  split
  · simp only [run_bind]
    rw [TCPServer.send_eq (List.not_mem_nil)]
    exact disconnect_eq w x (List.not_mem_nil) sid _
  · simp only [run_bind, allocPlayerID_eq, TCPServer.getRemoteIP_eq, register_eq]
    rw [TCPServer.send_eq (List.not_mem_nil)]
    exact each_authorityCall_eq w _ _

/-- The reply to a vetoed player. -/
theorem run_veto (veto : Bytes) (sid : UInt16) (s : Server) :
    (do
      let error ← ofExcept (Json.ofBytes veto)
      TCPServer.send sid (authResponse w (okFalse error))
      disconnect w x sid) [] s =
      match Json.ofBytes veto with
      | .error e => (.error (.fault e), s)
      | .ok error => dropped (s.log (s.toSession sid (authResponse w (okFalse error)))) sid := by
  rw [run_bind]
  cases Json.ofBytes veto with
  | error e => rfl
  | ok error =>
    simp only [run_ofExcept_ok, run_bind]
    rw [TCPServer.send_eq (List.not_mem_nil)]
    exact disconnect_eq w x (List.not_mem_nil) sid _

theorem authPlayer_eq (sid : UInt16) (j : Json) (username : String) (s : Server) :
    authPlayer w x sid j username [] s =
      authOutcome w x s sid (match j.value "role" "player" with
        | .error e => .badRole e
        | .ok role => .player username role) := by
  unfold authPlayer
  simp only [run_bind, allocPlayerID_eq]
  cases hr : j.value "role" "player" with
  | error e => rfl
  | ok role =>
    simp only [run_ofExcept_ok, run_bind, TCPServer.getRemoteIP_eq, register_eq, fireEvent_eq, run_ite]
    show (if refuses (vetoOf x s username) = true then _ else _) = _
    rw [authOutcome]
    by_cases hv : refuses (vetoOf x s username) = true
    · rw [if_pos hv]
      simp only [hv, if_true, run_withLock, List.not_mem_nil, if_false, run_update]
      exact run_veto w x _ sid _
    · rw [if_neg hv]
      simp only [hv]
      rw [TCPServer.send_eq (List.not_mem_nil)]
      simp only [sendServerInfo_eq, playerCount_eq]
      rfl

theorem handleAuth_eq (sid : UInt16) (pl : Bytes) (len : UInt16) (s : Server) :
    handleAuth w x sid pl len [] s =
      match readBytes pl len.toNat with
      | .error e => (.error (.fault e), s)
      | .ok body => authOutcome w x s sid (authBranch w s body) := by
  unfold handleAuth authBranch
  rw [run_bind]
  cases readBytes pl len.toNat with
  | error e => rfl
  | ok body =>
    simp only [run_ofExcept_ok]
    cases w.parse body with
    | none => exact TCPServer.send_eq (List.not_mem_nil) _ _ _
    | some j =>
      simp only [run_bind]
      cases j.value "username" "" with
      | error e => rfl
      | ok username =>
        simp only [run_ofExcept_ok]
        cases j.value "server_password" "" with
        | error e => rfl
        | ok password =>
          simp only [run_ofExcept_ok, run_ite, run_bind, authBridge_eq, authPlayer_eq, playerCount_eq]
          split
          · rfl
          split
          · exact TCPServer.send_eq (List.not_mem_nil) _ _ _
          split
          · rw [TCPServer.send_eq (List.not_mem_nil)]
            exact disconnect_eq w x (List.not_mem_nil) sid _
          split
          · rw [TCPServer.send_eq (List.not_mem_nil)]
            exact disconnect_eq w x (List.not_mem_nil) sid _
          · rfl

/-! ## In-game packets -/

/-- The player of a session, as `onTCPPacket` finds it. -/
def playerOf (s : Server) (sid : UInt16) : UInt16 := (s.sessionToPlayer.lookup sid).getD 0xFFFF

def welcome : Bytes := utf8 ("Welcome to " ++ w.cfg.name ++ "!")

def readied (s : Server) (pid : UInt16) : Server :=
  match s.players.lookup pid with
  | none => s
  | some p =>
    let p := { p with state := .ready }
    let s := { s with players := s.players.put pid p }
    let s := (s.log (s.toAll (joinPacket w p))).note ⟨"onPlayerJoin", [cstr (idText pid), cstr (utf8 p.username)], []⟩
    s.log (s.chat pid.toNat (welcome w))

theorem handleReady_eq (pid : UInt16) (s : Server) : handleReady w x pid [] s = (.ok (), readied w s pid) := by
  unfold handleReady readied
  rw [run_bind, getPlayer_eq]
  cases s.players.lookup pid with
  | none => rfl
  | some p =>
    simp only [run_bind, setPlayer_eq, broadcastPlayerJoin_eq, fireEvent_eq, sendChat_eq]
    rfl

def spawnPacket (pid : UInt16) (pv : PlayerVehicle) : Bytes :=
  Packet.buildStr .vehicleSpawn pid 0 (jsonBytes w (.obj
    [("type", .str "vehicle_spawn"), ("player_id", .int pid.toNat), ("vehicle_id", .int pv.vehicleId.toNat),
      ("model", .str pv.model), ("config", .str pv.config)]))

/-- The vehicle a spawn request of `p` adds. -/
def newVehicle (p : Player) (j : Json) (model : String) : PlayerVehicle :=
  ⟨UInt8.ofNat p.vehicles.length, model, w.dump j, .zero, true⟩

def spawned (s : Server) (pid : UInt16) (p : Player) (pv : PlayerVehicle) : Server :=
  let s := { s with players := s.players.put pid { p with vehicles := p.vehicles ++ [pv] } }
  (s.log (s.toAll (spawnPacket w pid pv))).note ⟨"onVehicleSpawn", [cstr (idText pid), cstr (utf8 pv.model)], []⟩

def spawnOutcome (s : Server) (pid : UInt16) (body : Bytes) : Except (Stop Mutex Fault) Unit × Server :=
  match w.parse body, s.players.lookup pid with
  | some j, some p =>
    if w.cfg.vehicleLimitPerPlayer ≤ (p.vehicles.length : Int) then (.ok (), s)
    else
      match j.value "model" "etk800" with
      | .error e => (.error (.fault e), s)
      | .ok model => (.ok (), spawned w s pid p (newVehicle w p j model))
  | _, _ => (.ok (), s)

theorem handleVehicleSpawn_eq (pid : UInt16) (pl : Bytes) (len : UInt16) (s : Server) :
    handleVehicleSpawn w x pid pl len [] s =
      match readBytes pl len.toNat with
      | .error e => (.error (.fault e), s)
      | .ok body => spawnOutcome w s pid body := by
  unfold handleVehicleSpawn spawnOutcome
  rw [run_bind]
  cases readBytes pl len.toNat with
  | error e => rfl
  | ok body =>
    simp only [run_ofExcept_ok]
    cases w.parse body with
    | none => rfl
    | some j =>
      simp only [run_bind, getPlayer_eq]
      cases s.players.lookup pid with
      | none => rfl
      | some p =>
        simp only [run_ite, run_pure, run_bind]
        by_cases hl : w.cfg.vehicleLimitPerPlayer ≤ (p.vehicles.length : Int)
        · rw [if_pos hl, if_pos hl]
        rw [if_neg hl, if_neg hl]
        cases j.value "model" "etk800" with
        | error e => rfl
        | ok model =>
          simp only [run_ofExcept_ok, setPlayer_eq]
          rw [TCPServer.sendAll_eq (List.not_mem_nil)]
          rfl

def deletePacket (pid : UInt16) (vid : UInt8) : Bytes := Packet.build .vehicleDelete pid 0 [vid] 1 0

def deleted (s : Server) (pid : UInt16) (vid : UInt8) : Server :=
  match s.players.lookup pid with
  | none => s
  | some p =>
    let s := { s with
      vsync := s.vsync.onVehicleDelete pid vid
      players := s.players.put pid { p with vehicles := p.vehicles.filter fun v => !(v.vehicleId == vid) } }
    (s.log (s.toAll (deletePacket pid vid))).note
      ⟨"onVehicleDelete", [cstr (idText pid), cstr (utf8 (toString vid.toNat))], []⟩

theorem handleVehicleDelete_eq (pid : UInt16) (pl : Bytes) (len : UInt16) (s : Server) :
    handleVehicleDelete x pid pl len [] s =
      if len < 1 then (.ok (), s)
      else match readByte pl 0 with
        | .error e => (.error (.fault e), s)
        | .ok vid => (.ok (), deleted s pid vid) := by
  unfold handleVehicleDelete deleted
  simp only [run_ite, run_pure, run_bind]
  by_cases hl : len < 1
  · rw [if_pos hl, if_pos hl]
  rw [if_neg hl, if_neg hl]
  cases readByte pl 0 with
  | error e => rfl
  | ok vid =>
    simp only [run_ofExcept_ok, getPlayer_eq]
    cases s.players.lookup pid with
    | none => rfl
    | some p =>
      simp only [run_bind, run_update, setPlayer_eq]
      rw [TCPServer.sendAll_eq (List.not_mem_nil)]
      rfl

def updated (s : Server) (pid : UInt16) (vs : VehicleState) : Server :=
  { s with vsync := s.vsync.onVehicleUpdate pid vs }

/-- `handleVehicleUpdate` -/
def updateOutcome (s : Server) (pid : UInt16) (pl : Bytes) (len : UInt16) :
    Except (Stop Mutex Fault) Unit × Server :=
  if len.toNat < 66 then (.ok (), s)
  else match Packet.parseVehicleState pl len with
    | .error e => (.error (.fault e), s)
    | .ok vs => (.ok (), updated s pid vs)

theorem handleVehicleUpdate_eq (pid : UInt16) (pl : Bytes) (len : UInt16) (s : Server) :
    handleVehicleUpdate pid pl len [] s = updateOutcome s pid pl len := by
  unfold handleVehicleUpdate updateOutcome
  rw [run_ite, VehicleState.codec_size]
  split
  · rfl
  · rw [run_bind]
    cases Packet.parseVehicleState pl len <;> rfl

/-- The chat message of `p` that the plugins see, and the text the server then sends. -/
def chatArgs (pid : UInt16) (p : Player) (msg : Bytes) : List Bytes :=
  [cstr (idText pid), cstr (utf8 p.username), cstr (msg.take 256)]

def chatText (p : Player) (msg : Bytes) : Bytes := utf8 p.username ++ utf8 ": " ++ msg.take 256

def chatted (s : Server) (pid : UInt16) (msg : Bytes) : Server :=
  match s.players.lookup pid with
  | none => s
  | some p =>
    if p.isMuted then s
    else
      let s := s.note ⟨"onChatMessage", chatArgs pid p msg, []⟩
      if refuses (cstr (x.plugin "onChatMessage" (chatArgs pid p msg))) then s
      else s.log (s.chat (-1) (chatText p msg))

theorem handleChat_eq (pid : UInt16) (pl : Bytes) (len : UInt16) (s : Server) :
    handleChat x pid pl len [] s =
      match readBytes pl len.toNat with
      | .error e => (.error (.fault e), s)
      | .ok msg => (.ok (), chatted x s pid msg) := by
  unfold handleChat chatted
  rw [run_bind]
  cases readBytes pl len.toNat with
  | error e => rfl
  | ok msg =>
    simp only [run_ofExcept_ok, run_bind, getPlayer_eq]
    cases s.players.lookup pid with
    | none => rfl
    | some p =>
      simp only [run_ite, run_pure, run_bind, fireEvent_eq, sendChat_eq]
      by_cases hm : p.isMuted = true
      · rw [if_pos hm, if_pos hm]
      rw [if_neg hm, if_neg hm]
      show (if refuses (cstr (x.plugin "onChatMessage" (chatArgs pid p msg))) = true then _ else _) = _
      split <;> rfl

def noAuthority : Bytes := utf8 "[Server] AI authority not available right now."

def claimed (s : Server) (pid : UInt16) : Server :=
  if w.cfg.aiEnabled then
    let s := authority w s (x.onClientClaim pid).2
    if (x.onClientClaim pid).1 then s else s.log (s.chat pid.toNat noAuthority)
  else s

theorem handleAuthorityClaim_eq (pid : UInt16) (s : Server) :
    handleAuthorityClaim w x pid [] s = (.ok (), claimed w x s pid) := by
  unfold handleAuthorityClaim claimed
  by_cases hai : w.cfg.aiEnabled = true
  · rw [hai]
    simp only [run_ite, run_bind, each_authorityCall_eq, sendChat_eq, run_pure]
    cases (x.onClientClaim pid).1 <;> rfl
  · simp [hai]

/-! ## Packets in -/

/-- A packet of the player `pid` that is no `AUTH_REQUEST`. -/
def inGame (s : Server) (pid : UInt16) (pl : Bytes) (len : UInt16) :
    Option PacketType → Except (Stop Mutex Fault) Unit × Server
  | some .vehicleSpawn =>
    match readBytes pl len.toNat with
    | .error e => (.error (.fault e), s)
    | .ok body => spawnOutcome w s pid body
  | some .vehicleDelete =>
    if len < 1 then (.ok (), s)
    else match readByte pl 0 with
      | .error e => (.error (.fault e), s)
      | .ok vid => (.ok (), deleted s pid vid)
  | some .chatMessage =>
    match readBytes pl len.toNat with
    | .error e => (.error (.fault e), s)
    | .ok msg => (.ok (), chatted x s pid msg)
  | some .ready => (.ok (), readied w s pid)
  | some .authorityClaim => (.ok (), claimed w x s pid)
  | _ => (.ok (), s)

def dispatch (s : Server) (sid : UInt16) (pl : Bytes) (hdr : PacketHeader) :
    Except (Stop Mutex Fault) Unit × Server :=
  if PacketType.ofCode hdr.type = some .authRequest then
    match readBytes pl hdr.payloadLen.toNat with
    | .error e => (.error (.fault e), s)
    | .ok body => authOutcome w x s sid (authBranch w s body)
  else if playerOf s sid = 0xFFFF then (.ok (), s)
  else inGame w x s (playerOf s sid) pl hdr.payloadLen (PacketType.ofCode hdr.type)

theorem onTCPPacket_eq (sid : UInt16) (data : Bytes) (s : Server) :
    onTCPPacket w x sid data [] s =
      match Packet.parseHeader data with
      | .error e => (.error (.fault e), s)
      | .ok hdr => dispatch w x s sid (Packet.payload data) hdr := by
  unfold onTCPPacket
  rw [run_bind]
  cases Packet.parseHeader data with
  | error e => rfl
  | ok hdr =>
    simp only [run_ofExcept_ok, run_bind, run_withLock, List.not_mem_nil, if_false, run_state, run_pure]
    show (match PacketType.ofCode hdr.type with | _ => _ : ServerM Unit) [] s = _
    unfold dispatch inGame playerOf
    cases PacketType.ofCode hdr.type with
    | none => simp
    | some t =>
      by_cases hpid : (s.sessionToPlayer.lookup sid).getD 0xFFFF = 0xFFFF
      · cases t <;> simp [hpid, handleAuth_eq]
      · cases t <;>
          simp [hpid, handleAuth_eq, handleVehicleSpawn_eq, handleVehicleDelete_eq, handleChat_eq, handleReady_eq,
            handleAuthorityClaim_eq]

/-- The player of an endpoint, as `onUDPPacket` finds it. -/
def playerAt (s : Server) (source : UDPEndpoint) : UInt16 := (s.udp.epToPlayer.lookup source).getD 0xFFFF

def pongPacket (sequence : UInt32) : Bytes := Packet.build .pong 0 sequence [] 0 0

def datagramOutcome (s : Server) (source : UDPEndpoint) (data : Bytes) (hdr : PacketHeader) :
    Except (Stop Mutex Fault) Unit × Server :=
  if PacketType.ofCode hdr.type = some .ping then (.ok (), s.log [.udp source (pongPacket hdr.sequence)])
  else if playerAt s source = 0xFFFF ∨ PacketType.ofCode hdr.type ≠ some .vehicleUpdate then (.ok (), s)
  else if w.cfg.aiEnabled ∧ x.isAuthority (playerAt s source) ∧ 2 ≤ hdr.payloadLen then
    match readByte (Packet.payload data) 1 with
    | .error e => (.error (.fault e), s)
    | .ok vflags =>
      if vflags &&& vfIsAi ≠ 0 then
        match readBytes data (hdr.payloadLen.toNat + 10) with
        | .error e => (.error (.fault e), s)
        | .ok raw => (.ok (), s.log (s.toEndpoints raw (playerAt s source)))
      else updateOutcome s (playerAt s source) (Packet.payload data) hdr.payloadLen
  else updateOutcome s (playerAt s source) (Packet.payload data) hdr.payloadLen

theorem onUDPPacket_eq (source : UDPEndpoint) (data : Bytes) (s : Server) :
    onUDPPacket w x source data [] s =
      match Packet.parseHeader data with
      | .error e => (.error (.fault e), s)
      | .ok hdr => datagramOutcome w x s source data hdr := by
  unfold onUDPPacket datagramOutcome
  rw [run_bind]
  cases Packet.parseHeader data with
  | error e => rfl
  | ok hdr =>
    simp only [run_ofExcept_ok, run_ite, run_bind, UDPServer.playerFromEndpoint_eq, run_pure]
    change (if _ then _ else if playerAt s source = 0xFFFF then _ else _) = _
    by_cases hping : PacketType.ofCode hdr.type = some .ping
    · rw [if_pos hping, if_pos hping]; rfl
    rw [if_neg hping, if_neg hping]
    by_cases hp : playerAt s source = 0xFFFF
    · rw [if_pos hp, if_pos (.inl hp)]
    rw [if_neg hp]
    by_cases ht : PacketType.ofCode hdr.type = some .vehicleUpdate
    · rw [if_pos ht, if_neg (not_or.mpr ⟨hp, not_not.mpr ht⟩)]
      by_cases ha : w.cfg.aiEnabled ∧ x.isAuthority (playerAt s source) ∧ 2 ≤ hdr.payloadLen
      · rw [if_pos ha]
        refine (if_pos ha).trans ?_
        cases readByte (Packet.payload data) 1 with
        | error e => rfl
        | ok vflags =>
          simp only [run_ofExcept_ok, Packet.headerSize_eq]
          split
          · cases readBytes data (hdr.payloadLen.toNat + 10) with
            | error e => rfl
            | ok raw => exact UDPServer.sendAll_eq raw _ s
          · exact handleVehicleUpdate_eq _ _ _ s
      · rw [if_neg ha]
        exact (if_neg ha).trans (handleVehicleUpdate_eq _ _ _ s)
    · rw [if_neg ht, if_pos (.inr ht)]

/-- What one round of `vehicleSyncLoop` sends. -/
def relayed (s : Server) : List Sent := s.vsync.broadcastAll.1.flatMap fun b => s.toEndpoints b.pkt b.exclude

theorem broadcastAll_eq (s : Server) :
    broadcastAll [] s = (.ok (), ({ s with vsync := s.vsync.broadcastAll.2 } : Server).log (relayed s)) := by
  unfold broadcastAll
  simp only [run_bind, run_state, run_update]
  exact run_each_log (f := fun s (b : Broadcast) => s.toEndpoints b.pkt b.exclude) (fun _ _ _ => rfl)
    (fun b t => UDPServer.sendAll_eq b.pkt b.exclude t) _ _

/-! ## Calls of the server -/

/-- Whether `readPayload` can hand `data` over. -/
def isFrame (t : TCPSession) (data : Bytes) : Prop := t.isOpen ∧ 1 ≤ data.length ∧ data.length ≤ maxFrame

instance (t : TCPSession) (data : Bytes) : Decidable (isFrame t data) := by unfold isFrame; infer_instance

def isDatagram (data : Bytes) : Prop := 10 ≤ data.length ∧ data.length ≤ maxDatagram

instance (data : Bytes) : Decidable (isDatagram data) := by unfold isDatagram; infer_instance

/-- What a call does when no lock is held, the call's own function by function. -/
def outcome (s : Server) : Call → Except (Stop Mutex Fault) Unit × Server
  | .accept ip => (.ok (), { s with tcp := s.tcp.addSession ip })
  | .frame object data =>
    match s.tcp.objects[object]? with
    | some t =>
      if isFrame t data then
        match Packet.parseHeader data with
        | .error e => (.error (.fault e), s)
        | .ok hdr => dispatch w x s t.id (Packet.payload data) hdr
      else (.ok (), s)
    | none => (.ok (), s)
  | .close object => (.ok (), closed w x s object)
  | .datagram source data =>
    if isDatagram data then
      match Packet.parseHeader data with
      | .error e => (.error (.fault e), s)
      | .ok hdr => datagramOutcome w x s source data hdr
    else (.ok (), s)
  | .broadcastAll => (.ok (), ({ s with vsync := s.vsync.broadcastAll.2 } : Server).log (relayed s))
  | .kickPlayer id reason => kicked s id reason
  | .banPlayer id reason => kicked (markBanned s id) id (utf8 "Banned: " ++ reason)
  | .sendChat playerId msg => (.ok (), s.log (s.chat playerId msg))
  | .grantAuthority pid => (.ok (), s.log (authoritySent w s (.grant pid)))
  | .revokeAuthority pid => (.ok (), s.log (authoritySent w s (.revoke pid)))

theorem exec_eq (c : Call) (s : Server) : exec w x c [] s = outcome w x s c := by
  cases c with
  | accept ip => rfl
  | frame object data =>
    simp only [exec, outcome, run_bind, run_state]
    cases s.tcp.objects[object]? with
    | none => rfl
    | some t =>
      simp only [run_ite, run_pure, onTCPPacket_eq]
      rfl
  | close object => exact close_eq w x object s
  | datagram source data =>
    simp only [exec, outcome, run_ite, onUDPPacket_eq]
    rfl
  | broadcastAll => exact broadcastAll_eq s
  | kickPlayer id reason => exact kickPlayer_eq w x id reason s
  | banPlayer id reason => exact banPlayer_eq w x id reason s
  | sendChat playerId msg => exact sendChat_eq playerId msg s
  | grantAuthority pid => exact authorityCall_eq w (.grant pid) s
  | revokeAuthority pid => exact authorityCall_eq w (.revoke pid) s

end GameServer

end NovaMP
