/-
  NovaMP.Server.PluginCalls — what plugins call while they handle an event
  (`fireEvent`, `lua_SendChatMessage`, `lua_GetPlayerName`, `lua_GetPlayerCount` and
  `lua_GetPlayers` in `servers/src/lua/lua_engine.cpp`).

  A handler runs inside `fireEvent`, on the server as it is in the middle of the packet
  that the event is about. The server fires its events without a lock, so a handler that
  asks and chats goes through; one that kicks is not told about here. For the server such a
  handler is its result, and what it says comes where the event is.

  - `run_eq`: a script ends, and all it does to the server is what it says.
  - `handleChatWith_fireEvent`, `handleReadyWith_fireEvent`, `onDisconnectWith_fireEvent`: the
    handlers of packets are those with the result alone.
  - `chat_posts`, `ready_posts`, `disconnect_posts`: what is sent to whom, in its order.
-/

import NovaMP.Server.PluginIds
import NovaMP.Server.PluginPlayers

namespace NovaMP

open Lib Exec GameServer

namespace LuaEngine

/-! ## Scripts -/

/-- A handler, by the calls it makes. -/
inductive Script where
  | ret (v : Value)
  | raise
  | sendChatMessage (player_id : Value) (text : Bytes) (next : Script)
  | getPlayerName (player_id : Value) (next : Bytes → Script)
  | getPlayerCount (next : Nat → Script)
  | getPlayers (next : List PlayerEntry → Script)
  /-- A call to the traffic, which is no part of the server. -/
  | ai (call : ApiCall) (next : Script)

/-- Which strings `luaL_checkinteger` takes for integers. -/
abbrev ToInteger := Bytes → Option Int64

variable (tointeger : ToInteger)

/-- None is an error. -/
def checkinteger : Value → Option Int64
  | .nil => none
  | .string s => tointeger s
  | .integer n => some (Int64.ofInt n)

/-- None is an error, which `lua_pcall` catches. -/
def Script.run : Script → ServerM (Option Value)
  | .ret v => pure (some v)
  | .raise => pure none
  | .sendChatMessage player_id text next =>
    match checkinteger tointeger player_id with
    | none => pure none
    | some n => do
      lua_SendChatMessage n text
      next.run
  | .getPlayerName player_id next =>
    match checkinteger tointeger player_id with
    | none => pure none
    | some n => do
      let name ← lua_GetPlayerName n
      (next name).run
  | .getPlayerCount next => do
    let count ← playerCount
    (next count).run
  | .getPlayers next => do
    let s ← state
    (next (lua_GetPlayers s)).run
  | .ai _ next => next.run

/-- `lua_isstring(L, -1) ? lua_tostring(L, -1) : ""` -/
def Value.tostring : Value → Bytes
  | .nil => []
  | .string s => cstr s
  | .integer n => utf8 (toString n)

/-- `LuaEngine::fireEvent`; `plugins` has the script that the handler of an event makes of its
    arguments. -/
def firePlugin (plugins : String → List Value → Script) (event : String) (args : List Bytes) : ServerM Bytes := do
  let held ← heldLocks
  update fun s => { s with fired := s.fired ++ [⟨event, args.map cstr, held⟩] }
  match ← (plugins event (pushed args)).run tointeger with
  | none => pure []
  | some ret => pure ret.tostring

/-! ## What a script does -/

/-- The message of `MP.SendChatMessage`, and whom it is for. -/
def chatPost (n : Int64) (text : Bytes) : Post :=
  ⟨if castInt n < 0 then .all else .player (castId n), .chatMessage (utf8 "[Server] " ++ cstr text)⟩

/-- What it says, and how it ends, on a server that it does not change. -/
def Script.out (s : Server) : Script → List Post × Option Value
  | .ret v => ([], some v)
  | .raise => ([], none)
  | .sendChatMessage player_id text next =>
    match checkinteger tointeger player_id with
    | none => ([], none)
    | some n => (chatPost n text :: (next.out s).1, (next.out s).2)
  | .getPlayerName player_id next =>
    match checkinteger tointeger player_id with
    | none => ([], none)
    | some n => (next ((s.players.lookup (castId n)).elim [] fun p => cstr (utf8 p.username))).out s
  | .getPlayerCount next => (next s.players.keys.length).out s
  | .getPlayers next => (next (lua_GetPlayers s)).out s
  | .ai _ next => next.out s

variable (w : World) {s t : Server}

/-- It reads the records only. -/
theorem out_congr (h : t.players = s.players) (sc : Script) : sc.out tointeger t = sc.out tointeger s := by
  induction sc with
  | ret v => rfl
  | raise => rfl
  | sendChatMessage player_id text next ih => simp only [Script.out, ih]
  | getPlayerName player_id next ih => simp only [Script.out, ih, h]
  | getPlayerCount next ih => simp only [Script.out, ih, h]
  | getPlayers next ih => simp only [Script.out, ih, lua_GetPlayers, h]
  | ai call next ih => exact ih

theorem chat_deliver (s : Server) (n : Int64) (text : Bytes) :
    s.chat (castInt n) (utf8 "[Server] " ++ cstr text) = deliver w s (chatPost n text) := by
  rw [Server.chat, chatPost]
  split <;> rfl

/-- A script ends, and all it does to the server is what it says. -/
theorem run_eq (sc : Script) (s : Server) :
    sc.run tointeger [] s = (.ok (sc.out tointeger s).2, s.log ((sc.out tointeger s).1.flatMap (deliver w s))) := by
  induction sc generalizing s with
  | ret v => exact Prod.ext rfl (Server.log_nil s).symm
  | raise => exact Prod.ext rfl (Server.log_nil s).symm
  | sendChatMessage player_id text next ih =>
    rw [Script.run, Script.out]
    cases checkinteger tointeger player_id with
    | none => exact Prod.ext rfl (Server.log_nil s).symm
    | some n =>
      have hlogged : (s.log (deliver w s (chatPost n text))).players = s.players := rfl
      dsimp only
      rw [run_bind, lua_SendChatMessage_eq, chat_deliver w]
      dsimp only
      rw [ih, out_congr tointeger hlogged, List.flatMap_cons, Server.log, Server.log, Server.log, ← List.append_assoc]
      rfl
  | getPlayerName player_id next ih =>
    rw [Script.run, Script.out]
    cases checkinteger tointeger player_id with
    | none => exact Prod.ext rfl (Server.log_nil s).symm
    | some n =>
      dsimp only
      rw [run_bind, lua_GetPlayerName_eq]
      cases s.players.lookup (castId n) <;> exact ih _ s
  | getPlayerCount next ih =>
    rw [Script.run, Script.out, run_bind, playerCount_eq]
    exact ih _ s
  | getPlayers next ih =>
    rw [Script.run, Script.out, run_bind, run_state]
    exact ih _ s
  | ai call next ih => exact ih s

/-- What the plugins say about an event, and what they answer. -/
def reply (tointeger : ToInteger) (plugins : String → List Value → Script) (s : Server) (event : String)
    (args : List Bytes) : List Post × Bytes :=
  let out := (plugins event (pushed args)).out tointeger s
  (out.1, out.2.elim [] Value.tostring)

variable (plugins : String → List Value → Script)

theorem reply_congr (h : t.players = s.players) :
    reply tointeger plugins t = reply tointeger plugins s := by
  funext event args
  rw [reply, reply, out_congr tointeger h]

/-- For the server an event with all its calls is an answer, and what has been said. -/
theorem firePlugin_posts (event : String) (args : List Bytes) (s : Server) :
    ∃ t, firePlugin tointeger plugins event args [] s = (.ok (reply tointeger plugins s event args).2, t) ∧
      t.players = s.players ∧ Says w s t (reply tointeger plugins s event args).1 := by
  have hnoted : (s.note ⟨event, args.map cstr, []⟩).players = s.players := rfl
  have hheld : (heldLocks : ServerM (List Mutex)) [] s = (.ok [], s) := rfl
  have hrun := run_eq tointeger w (plugins event (pushed args)) (s.note ⟨event, args.map cstr, []⟩)
  rw [out_congr tointeger hnoted, Server.note] at hrun
  refine ⟨(s.note ⟨event, args.map cstr, []⟩).log ((reply tointeger plugins s event args).1.flatMap (deliver w s)), ?_, rfl,
    ⟨rfl, rfl, rfl⟩⟩
  simp only [firePlugin, run_bind, hheld, run_update, hrun]
  rw [reply]
  cases ((plugins event (pushed args)).out tointeger s).2 <;> rfl

/-! ## The handlers of packets -/

/-- `GameServer::handleChat`, whatever the event comes to. -/
def handleChatWith (fire : String → List Bytes → ServerM Bytes) (pid : UInt16) (payload : Bytes) (len : UInt16) :
    ServerM Unit := do
  let msg ← ofExcept (readBytes payload len.toNat)
  match ← getPlayer pid with
  | none => pure ()
  | some p =>
    if p.isMuted then pure ()
    else do
      let msg := msg.take 256
      let blocked ← fire "onChatMessage" [idText pid, utf8 p.username, msg]
      if refuses blocked then pure ()
      else sendChat (-1) (utf8 p.username ++ utf8 ": " ++ msg)

/-- `GameServer::handleReady` -/
def handleReadyWith (w : World) (fire : String → List Bytes → ServerM Bytes) (pid : UInt16) : ServerM Unit := do
  match ← getPlayer pid with
  | none => pure ()
  | some p => do
    let p := { p with state := .ready }
    setPlayer pid p
    broadcastPlayerJoin w p
    let _ ← fire "onPlayerJoin" [idText pid, utf8 p.username]
    sendChat pid.toNat (utf8 ("Welcome to " ++ w.cfg.name ++ "!"))

/-- `GameServer::onDisconnect` -/
def onDisconnectWith (w : World) (x : Env) (fire : String → List Bytes → ServerM Bytes) (sid : UInt16) : ServerM Unit := do
  let pid ← withLock .players do
    let s ← state
    match s.sessionToPlayer.lookup sid with
    | some pid => do
      update fun s => { s with sessionToPlayer := s.sessionToPlayer.erase sid }
      pure pid
    | none => pure 0xFFFF
  if pid = 0xFFFF then pure ()
  else do
    withLock .players do
      let s ← state
      match s.players.lookup pid with
      | some _ => do
        update fun s => { s with vsync := s.vsync.onPlayerDisconnect pid }
        UDPServer.unmapPlayer pid
        update fun s => { s with players := s.players.erase pid }
      | none => pure ()
    broadcastPlayerLeave w pid "disconnected"
    let _ ← fire "onPlayerDisconnect" [idText pid]
    if w.cfg.aiEnabled then each (authorityCall w) (x.onAuthorityDisconnect pid) else pure ()
    let _ ← playerCount

theorem handleChatWith_fireEvent (x : Env) : handleChatWith (GameServer.fireEvent x) = handleChat x := rfl

theorem handleReadyWith_fireEvent (x : Env) : handleReadyWith w (GameServer.fireEvent x) = handleReady w x := rfl

theorem onDisconnectWith_fireEvent (x : Env) : onDisconnectWith w x (GameServer.fireEvent x) = onDisconnect w x := rfl

variable {pid : UInt16} {p : Player}

/-- What the plugins say about the message comes before it. -/
theorem chat_posts (hp : s.players.lookup pid = some p) (hmuted : p.isMuted = false) {payload : Bytes} {len : UInt16}
    (hlen : len.toNat ≤ payload.length) :
    let asked := reply tointeger plugins s "onChatMessage" [idText pid, utf8 p.username, (payload.take len.toNat).take 256]
    ∃ t, handleChatWith (firePlugin tointeger plugins) pid payload len [] s = (.ok (), t) ∧ t.players = s.players ∧
      Says w s t (asked.1 ++ if refuses asked.2 then [] else [⟨.all, .chatMessage (chatText p (payload.take len.toNat))⟩]) := by
  intro asked
  have hnot : ¬ p.isMuted = true := by rw [hmuted]; exact Bool.false_ne_true
  obtain ⟨t, ht, hplayers, hposts⟩ := firePlugin_posts tointeger w plugins "onChatMessage"
    [idText pid, utf8 p.username, (payload.take len.toNat).take 256] s
  simp only [handleChatWith, run_bind, readBytes_of_le hlen, run_ofExcept_ok, getPlayer_eq, hp, run_ite, if_neg hnot, ht]
  by_cases hrefuses : refuses asked.2 = true
  · rw [if_pos hrefuses, if_pos hrefuses, List.append_nil]
    exact ⟨t, rfl, hplayers, hposts⟩
  · rw [if_neg hrefuses, if_neg hrefuses]
    refine ⟨_, sendChat_eq _ _ _, hplayers, hposts.trans ?_⟩
    exact .post ⟨.all, .chatMessage (chatText p (payload.take len.toNat))⟩

/-- At a `READY` it comes after the join, and before the welcome. -/
theorem ready_posts (hp : s.players.lookup pid = some p) :
    let readied : Server := { s with players := s.players.put pid { p with state := .ready } }
    let asked := reply tointeger plugins readied "onPlayerJoin" [idText pid, utf8 p.username]
    ∃ t, handleReadyWith w (firePlugin tointeger plugins) pid [] s = (.ok (), t) ∧ t.players = readied.players ∧
      Says w s t (⟨.all, .playerJoin { p with state := .ready }⟩ :: (asked.1 ++ [⟨.player pid, .chatMessage (welcome w)⟩])) := by
  intro readied asked
  have hjoin : Says w readied (readied.log (readied.toAll (joinPacket w { p with state := .ready })))
    [⟨.all, .playerJoin { p with state := .ready }⟩] := .post ⟨.all, .playerJoin { p with state := .ready }⟩
  obtain ⟨t, ht, hplayers, hposts⟩ := firePlugin_posts tointeger w plugins "onPlayerJoin"
    [idText pid, utf8 p.username] (readied.log (readied.toAll (joinPacket w { p with state := .ready })))
  have hlogged : (readied.log (readied.toAll (joinPacket w { p with state := .ready }))).players = readied.players := rfl
  rw [reply_congr tointeger plugins hlogged] at ht hposts
  have hwelcome : Says w t (t.log (t.chat pid.toNat (welcome w))) [⟨.player pid, .chatMessage (welcome w)⟩] := by
    have hnn : ¬ (pid.toNat : Int) < 0 := by omega
    rw [Server.chat, if_neg hnn, ofInt16_toNat]
    exact .post ⟨.player pid, .chatMessage (welcome w)⟩
  refine ⟨t.log (t.chat pid.toNat (welcome w)), ?_, hplayers,
    Says.of_put pid { p with state := .ready } (hjoin.trans (hposts.trans hwelcome))⟩
  simp only [handleReadyWith, run_bind, getPlayer_eq, hp, setPlayer_eq, broadcastPlayerJoin_eq, sendChat_eq]
  rw [ht]
  rfl

/-- At a disconnect it comes after the leave, when the player is gone. -/
theorem disconnect_posts (x : Env) {sid : UInt16} (hl : s.sessionToPlayer.lookup sid = some pid) (hid : pid ≠ 0xFFFF) :
    let gone := removePlayer { s with sessionToPlayer := s.sessionToPlayer.erase sid } pid
    let asked := reply tointeger plugins gone "onPlayerDisconnect" [idText pid]
    ∃ t, onDisconnectWith w x (firePlugin tointeger plugins) sid [] s = (.ok (), t) ∧ t.players = gone.players ∧
      Says w gone t (⟨.all, .playerLeave pid⟩ :: (asked.1 ++
        if w.cfg.aiEnabled then (x.onAuthorityDisconnect pid).map authorityMessage else [])) := by
  intro gone asked
  have hleave : Says w gone (gone.log (gone.toAll (leavePacket w pid))) [⟨.all, .playerLeave pid⟩] :=
    .post ⟨.all, .playerLeave pid⟩
  obtain ⟨t, ht, hplayers, hposts⟩ := firePlugin_posts tointeger w plugins "onPlayerDisconnect" [idText pid]
    (gone.log (gone.toAll (leavePacket w pid)))
  have hlogged : (gone.log (gone.toAll (leavePacket w pid))).players = gone.players := rfl
  rw [reply_congr tointeger plugins hlogged] at ht hposts
  -- what the traffic has to be told, and the count for the log
  obtain ⟨u, hu, huplayers, huposts⟩ : ∃ u, (do
        if w.cfg.aiEnabled then each (authorityCall w) (x.onAuthorityDisconnect pid) else pure ()
        let _ ← playerCount) [] t = (.ok (), u) ∧ u.players = t.players ∧
      Says w t u (if w.cfg.aiEnabled then (x.onAuthorityDisconnect pid).map authorityMessage else []) := by
    by_cases hai : w.cfg.aiEnabled = true
    · refine ⟨authority w t (x.onAuthorityDisconnect pid), ?_, rfl, ?_⟩
      · simp [hai, each_authorityCall_eq, playerCount_eq]
      · rw [if_pos hai]
        exact authority_posted w _ _
    · refine ⟨t, ?_, rfl, ?_⟩
      · simp [hai, playerCount_eq]
      · rw [if_neg hai]
        exact .refl t
  have hrest : (do
      broadcastPlayerLeave w pid "disconnected"
      let _ ← firePlugin tointeger plugins "onPlayerDisconnect" [idText pid]
      if w.cfg.aiEnabled then each (authorityCall w) (x.onAuthorityDisconnect pid) else pure ()
      let _ ← playerCount) [] gone = (.ok (), u) := by
    rw [run_bind, broadcastPlayerLeave_eq]
    dsimp only
    rw [run_bind, ht]
    exact hu
  refine ⟨u, ?_, huplayers.trans hplayers, hleave.trans (hposts.trans huposts)⟩
  unfold onDisconnectWith
  simp only [run_bind, run_withLock, List.not_mem_nil, if_false, run_state, hl, run_update, run_pure]
  rw [if_neg hid]
  simp only [run_bind, run_withLock, List.not_mem_nil, if_false, run_state]
  cases hq : s.players.lookup pid with
  | none =>
    have hgone : gone = { s with sessionToPlayer := s.sessionToPlayer.erase sid } := if_neg (AList.lookup_eq_none.mp hq)
    rw [hgone] at hrest
    exact hrest
  | some p =>
    simp only [run_bind, run_update]
    rw [UDPServer.unmapPlayer_eq (by decide)]
    have hgone : gone = { s with
        sessionToPlayer := s.sessionToPlayer.erase sid
        vsync := s.vsync.onPlayerDisconnect pid
        udp := s.udp.unmap pid
        players := s.players.erase pid } := if_pos (Table.mem_of_lookup hq)
    rw [hgone] at hrest
    exact hrest

end LuaEngine

end NovaMP
