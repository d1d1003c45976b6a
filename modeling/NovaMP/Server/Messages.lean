/-
  NovaMP.Server.Messages — what the server says over TCP, before it is bytes.

  The log `sent` holds packets as they go out. A `Message` is one of the eleven things
  the server says, with the string it gives to `Packet::buildStr` (`text`), and a `Post`
  is a message and its audience. `posts` lists what a call says, whether or not anyone
  is there to get it.

  - `mem_posts_frame`, `mem_inGamePosts`: which posts a packet makes.
  - `outcome_sent`: what a call adds to the log over TCP is its posts, delivered.
-/

import NovaMP.Server.Runs

namespace NovaMP

open Lib Exec

/-! ## Messages -/

inductive Message where
  | authOk (pid : UInt16)
  | authError (error : String)
  | serverInfo (current : Nat)
  | playerJoin (p : Player)
  | playerLeave (pid : UInt16)
  | vehicleSpawn (pid : UInt16) (pv : PlayerVehicle)
  | vehicleDelete (pid : UInt16) (vid : UInt8)
  | chatMessage (text : Bytes)
  | kick (reason : Bytes)
  | authorityGrant
  | authorityRevoke
  deriving DecidableEq

namespace Message

def type : Message → PacketType
  | authOk _ | authError _ => .authResponse
  | serverInfo _ => .serverInfo
  | playerJoin _ => .playerJoin
  | playerLeave _ => .playerLeave
  | vehicleSpawn _ _ => .vehicleSpawn
  | vehicleDelete _ _ => .vehicleDelete
  | chatMessage _ => .chatMessage
  | kick _ => .kick
  | authorityGrant => .authorityGrant
  | authorityRevoke => .authorityRevoke

/-- The header's `sender_id`. -/
def sender : Message → UInt16
  | playerJoin p => p.id
  | playerLeave pid | vehicleSpawn pid _ | vehicleDelete pid _ => pid
  | _ => 0

variable (w : World)

/-- The JSON object whose `dump()` a message carries. -/
def json : Message → Option Json
  | authOk pid => some (GameServer.okTrue w pid)
  | authError error => some (GameServer.okFalse (.str error))
  | serverInfo current => some (.obj
      [("name", .str w.cfg.name), ("description", .str w.cfg.description), ("map", .str w.cfg.map),
        ("max_players", .int w.cfg.maxPlayers), ("current", .int current), ("ai_enabled", .bool w.cfg.aiEnabled),
        ("version", .str "1.0.0")])
  | playerJoin p => some (.obj
      [("type", .str "player_join"), ("id", .int p.id.toNat), ("name", .str p.username), ("role", .str p.role)])
  | playerLeave pid => some (.obj
      [("type", .str "player_leave"), ("id", .int pid.toNat), ("reason", .str "disconnected")])
  | vehicleSpawn pid pv => some (.obj
      [("type", .str "vehicle_spawn"), ("player_id", .int pid.toNat), ("vehicle_id", .int pv.vehicleId.toNat),
        ("model", .str pv.model), ("config", .str pv.config)])
  | authorityGrant => some (.obj
      [("ai_count", .int w.cfg.aiCount), ("speed_limit", .real w.cfg.aiSpeedLimit), ("mode", .str w.cfg.aiMode),
        ("update_hz", .int w.cfg.aiUpdateRateHz)])
  | _ => none

/-- The text of a message that carries no JSON object of its own. -/
def plain : Message → Bytes
  | vehicleDelete _ vid => [vid]
  | chatMessage text => text
  | kick reason => utf8 "Kicked: " ++ reason
  | authorityRevoke => utf8 "\x7b\x7d"
  | _ => []

/-- The string given to `Packet::buildStr` (the one byte of a `VEHICLE_DELETE` to `build`). -/
def text (m : Message) : Bytes :=
  match m.json w with
  | some j => GameServer.jsonBytes w j
  | none => m.plain

def packet (m : Message) : Bytes := Packet.buildStr m.type m.sender 0 (m.text w)

end Message

inductive Audience where
  | session (sid : UInt16)
  /-- The first session of a player. -/
  | player (pid : UInt16)
  | all
  deriving DecidableEq

structure Post where
  audience : Audience
  message : Message
  deriving DecidableEq

def Sent.isTcp : Sent → Bool
  | .tcp _ _ _ => true
  | .udp _ _ => false

namespace GameServer

variable (w : World) (x : Env) (s : Server)

/-! ## What each call says -/

def authorityMessage : AuthorityCall → Post
  | .grant pid => ⟨.player pid, .authorityGrant⟩
  | .revoke pid => ⟨.player pid, .authorityRevoke⟩

def leavePosts (pid : UInt16) : List Post :=
  ⟨.all, .playerLeave pid⟩ :: if w.cfg.aiEnabled then (x.onAuthorityDisconnect pid).map authorityMessage else []

def closePosts (object : Nat) : List Post :=
  match s.tcp.objects[object]? with
  | some t =>
    match s.sessionToPlayer.lookup t.id with
    | some pid => if pid = 0xFFFF then [] else leavePosts w x pid
    | none => []
  | none => []

def authPosts (sid : UInt16) : AuthBranch → List Post
  | .throws _ => []
  | .refused error _ => [⟨.session sid, .authError error⟩]
  | .bridge => ⟨.session sid, .authOk (freshId s)⟩ :: (x.onHeadlessConnect (freshId s)).map authorityMessage
  | .badRole _ => []
  | .player username role =>
    if refuses (vetoOf x s username) then
      match Json.ofBytes (vetoOf x s username) with
      | .ok (.str error) => [⟨.session sid, .authError error⟩]
      | _ => []
    else [⟨.session sid, .authOk (freshId s)⟩,
      ⟨.session sid, .serverInfo (registered s sid username role .loadingMods).players.keys.length⟩]

def readyPosts (pid : UInt16) : List Post :=
  match s.players.lookup pid with
  | none => []
  | some p => [⟨.all, .playerJoin { p with state := .ready }⟩, ⟨.player pid, .chatMessage (welcome w)⟩]

def spawnPosts (pid : UInt16) (body : Bytes) : List Post :=
  match w.parse body, s.players.lookup pid with
  | some j, some p =>
    if w.cfg.vehicleLimitPerPlayer ≤ (p.vehicles.length : Int) then []
    else
      match j.value "model" "etk800" with
      | .error _ => []
      | .ok model => [⟨.all, .vehicleSpawn pid (newVehicle w p j model)⟩]
  | _, _ => []

def deletePosts (pid : UInt16) (vid : UInt8) : List Post :=
  match s.players.lookup pid with
  | none => []
  | some _ => [⟨.all, .vehicleDelete pid vid⟩]

def chatPosts (pid : UInt16) (msg : Bytes) : List Post :=
  match s.players.lookup pid with
  | none => []
  | some p =>
    if p.isMuted then []
    else if refuses (cstr (x.plugin "onChatMessage" (chatArgs pid p msg))) then []
    else [⟨.all, .chatMessage (chatText p msg)⟩]

def claimPosts (pid : UInt16) : List Post :=
  if w.cfg.aiEnabled then
    (x.onClientClaim pid).2.map authorityMessage ++
      if (x.onClientClaim pid).1 then [] else [⟨.player pid, .chatMessage noAuthority⟩]
  else []

def inGamePosts (pid : UInt16) (pl : Bytes) (len : UInt16) : Option PacketType → List Post
  | some .vehicleSpawn =>
    match readBytes pl len.toNat with
    | .error _ => []
    | .ok body => spawnPosts w s pid body
  | some .vehicleDelete =>
    if len < 1 then []
    else match readByte pl 0 with
      | .error _ => []
      | .ok vid => deletePosts s pid vid
  | some .chatMessage =>
    match readBytes pl len.toNat with
    | .error _ => []
    | .ok msg => chatPosts x s pid msg
  | some .ready => readyPosts w s pid
  | some .authorityClaim => claimPosts w x pid
  | _ => []

def dispatchPosts (sid : UInt16) (pl : Bytes) (hdr : PacketHeader) : List Post :=
  if PacketType.ofCode hdr.type = some .authRequest then
    match readBytes pl hdr.payloadLen.toNat with
    | .error _ => []
    | .ok body => authPosts x s sid (authBranch w s body)
  else if playerOf s sid = 0xFFFF then []
  else inGamePosts w x s (playerOf s sid) pl hdr.payloadLen (PacketType.ofCode hdr.type)

def posts : Call → List Post
  | .frame object data =>
    match s.tcp.objects[object]? with
    | some t =>
      if isFrame t data then
        match Packet.parseHeader data with
        | .error _ => []
        | .ok hdr => dispatchPosts w x s t.id (Packet.payload data) hdr
      else []
    | none => []
  | .close object => closePosts w x s object
  | .kickPlayer id reason => [⟨.player id, .kick reason⟩]
  | .banPlayer id reason => [⟨.player id, .kick (utf8 "Banned: " ++ reason)⟩]
  | .sendChat playerId msg =>
    [⟨if playerId < 0 then .all else .player (UInt16.ofInt playerId), .chatMessage msg⟩]
  | .grantAuthority pid => [authorityMessage (.grant pid)]
  | .revokeAuthority pid => [authorityMessage (.revoke pid)]
  | .accept _ | .datagram _ _ | .broadcastAll => []

theorem posts_auth {object : Nat} {data : Bytes} {sid : UInt16} {body : Bytes}
    (h : authText s object data = some (sid, body)) :
    posts w x s (.frame object data) = authPosts x s sid (authBranch w s body) := by
  unfold authText at h
  split at h
  · rename_i t hdr ht hh
    split at h
    · rename_i hc
      split at h
      · rename_i body' hb
        cases h
        simp only [posts, ht, if_pos hc.1, hh, dispatchPosts, if_pos hc.2, hb]
      · cases h
    · cases h
  · cases h

/-! ## What a packet can make the server say -/

variable {w x s}

theorem mem_readyPosts {pid : UInt16} {post : Post} :
    post ∈ readyPosts w s pid ↔ ∃ p, s.players.lookup pid = some p ∧
      (post = ⟨.all, .playerJoin { p with state := .ready }⟩ ∨ post = ⟨.player pid, .chatMessage (welcome w)⟩) := by
  unfold readyPosts
  cases s.players.lookup pid <;> simp

theorem mem_spawnPosts {pid : UInt16} {body : Bytes} {post : Post} :
    post ∈ spawnPosts w s pid body ↔ ∃ j p model, w.parse body = some j ∧ s.players.lookup pid = some p ∧
      (p.vehicles.length : Int) < w.cfg.vehicleLimitPerPlayer ∧ j.value "model" "etk800" = .ok model ∧
      post = ⟨.all, .vehicleSpawn pid (newVehicle w p j model)⟩ := by
  unfold spawnPosts
  cases w.parse body with
  | none => simp
  | some j =>
    cases s.players.lookup pid with
    | none => simp
    | some p =>
      by_cases hlim : w.cfg.vehicleLimitPerPlayer ≤ (p.vehicles.length : Int)
      · simp [hlim]
      · cases hm : j.value "model" "etk800" <;> simp [hlim, hm, Int.not_le.mp hlim]

theorem mem_deletePosts {pid : UInt16} {vid : UInt8} {post : Post} :
    post ∈ deletePosts s pid vid ↔ (∃ p, s.players.lookup pid = some p) ∧ post = ⟨.all, .vehicleDelete pid vid⟩ := by
  unfold deletePosts
  cases s.players.lookup pid <;> simp

theorem mem_chatPosts {pid : UInt16} {msg : Bytes} {post : Post} :
    post ∈ chatPosts x s pid msg ↔ ∃ p, s.players.lookup pid = some p ∧ p.isMuted = false ∧
      refuses (cstr (x.plugin "onChatMessage" (chatArgs pid p msg))) = false ∧
      post = ⟨.all, .chatMessage (chatText p msg)⟩ := by
  unfold chatPosts
  cases s.players.lookup pid with
  | none => simp
  | some p =>
    by_cases hm : p.isMuted = true
    · simp [hm]
    · by_cases hr : refuses (cstr (x.plugin "onChatMessage" (chatArgs pid p msg))) = true <;> simp [hm, hr]

theorem mem_claimPosts {pid : UInt16} {post : Post} (h : post ∈ claimPosts w x pid) :
    (∃ c, post = authorityMessage c) ∨ post = ⟨.player pid, .chatMessage noAuthority⟩ := by
  unfold claimPosts at h
  split at h
  · rcases List.mem_append.mp h with h | h
    · obtain ⟨c, -, rfl⟩ := List.mem_map.mp h
      exact .inl ⟨c, rfl⟩
    · split at h
      · cases h
      · exact .inr (List.mem_singleton.mp h)
  · cases h

/-- A packet of the player `pid` makes the server say something only by one of the handlers. -/
theorem mem_inGamePosts {pid : UInt16} {pl : Bytes} {len : UInt16} {t : Option PacketType} {post : Post}
    (h : post ∈ inGamePosts w x s pid pl len t) :
    (t = some .vehicleSpawn ∧ ∃ body, readBytes pl len.toNat = .ok body ∧ post ∈ spawnPosts w s pid body) ∨
      (t = some .vehicleDelete ∧ 1 ≤ len ∧ ∃ vid, readByte pl 0 = .ok vid ∧ post ∈ deletePosts s pid vid) ∨
      (t = some .chatMessage ∧ ∃ msg, readBytes pl len.toNat = .ok msg ∧ post ∈ chatPosts x s pid msg) ∨
      (t = some .ready ∧ post ∈ readyPosts w s pid) ∨
      (t = some .authorityClaim ∧ post ∈ claimPosts w x pid) := by
  unfold inGamePosts at h
  split at h
  · split at h
    · cases h
    · exact .inl ⟨rfl, _, ‹_›, h⟩
  · split at h
    · cases h
    · split at h
      · cases h
      · exact .inr (.inl ⟨rfl, UInt16.not_lt.mp ‹_›, _, ‹_›, h⟩)
  · split at h
    · cases h
    · exact .inr (.inr (.inl ⟨rfl, _, ‹_›, h⟩))
  · exact .inr (.inr (.inr (.inl ⟨rfl, h⟩)))
  · exact .inr (.inr (.inr (.inr ⟨rfl, h⟩)))
  · cases h

theorem posts_turn {object : Nat} {data : Bytes} {t : TCPSession} {hdr : PacketHeader}
    (ht : s.tcp.objects[object]? = some t) (hf : isFrame t data) (hh : Packet.parseHeader data = .ok hdr)
    (hauth : PacketType.ofCode hdr.type ≠ some .authRequest) (hp : playerOf s t.id ≠ 0xFFFF) :
    posts w x s (.frame object data) = inGamePosts w x s (playerOf s t.id) (Packet.payload data) hdr.payloadLen
      (PacketType.ofCode hdr.type) := by
  simp only [posts, ht, if_pos hf, hh, dispatchPosts, if_neg hauth, if_neg hp]

/-- A frame makes the server answer a request, or do what a player's packet does. -/
theorem mem_posts_frame {object : Nat} {data : Bytes} {post : Post} :
    post ∈ posts w x s (.frame object data) ↔
      (∃ sid body, authText s object data = some (sid, body) ∧ post ∈ authPosts x s sid (authBranch w s body)) ∨
      ∃ t hdr, s.tcp.objects[object]? = some t ∧ isFrame t data ∧ Packet.parseHeader data = .ok hdr ∧
        playerOf s t.id ≠ 0xFFFF ∧ post ∈ inGamePosts w x s (playerOf s t.id) (Packet.payload data) hdr.payloadLen
          (PacketType.ofCode hdr.type) := by
  constructor
  · intro h
    cases ha : authText s object data with
    | some r =>
      rw [posts_auth w x s ha] at h
      exact .inl ⟨r.1, r.2, rfl, h⟩
    | none =>
      simp only [posts] at h
      split at h
      · rename_i t ht
        split at h
        · rename_i hf
          split at h
          · cases h
          · rename_i hdr hh
            unfold dispatchPosts at h
            split at h
            · rename_i hauth
              split at h
              · cases h
              · rename_i body hb
                simp [authText, ht, hh, hf, hauth, hb] at ha
            · split at h
              · cases h
              · exact .inr ⟨t, hdr, ht, hf, hh, ‹_›, h⟩
        · cases h
      · cases h
  · rintro (⟨sid, body, ha, h⟩ | ⟨t, hdr, ht, hf, hh, hp, h⟩)
    · rwa [posts_auth w x s ha]
    · have hauth : PacketType.ofCode hdr.type ≠ some .authRequest := by
        intro he
        rw [he] at h
        cases h
      rwa [posts_turn ht hf hh hauth hp]

variable (w x s)

/-! ## Delivery -/

/-- The packets a post becomes. -/
def deliver (s : Server) (p : Post) : List Sent :=
  match p.audience with
  | .session sid => s.toSession sid (p.message.packet w)
  | .player pid => s.toPlayer pid (p.message.packet w)
  | .all => s.toAll (p.message.packet w)

/-- What has been sent over TCP. -/
def tcpSent (s : Server) : List Sent := s.sent.filter Sent.isTcp

theorem toSession_isTcp (sid : UInt16) (pkt : Bytes) : ∀ e ∈ s.toSession sid pkt, e.isTcp = true := by
  intro e he
  rw [List.mem_singleton.mp he]
  rfl

theorem toPlayer_isTcp (pid : UInt16) (pkt : Bytes) : ∀ e ∈ s.toPlayer pid pkt, e.isTcp = true := by
  unfold Server.toPlayer
  cases s.sessionToPlayer.keyOf pid with
  | none => intro e he; cases he
  | some sid => exact toSession_isTcp s sid pkt

theorem toAll_isTcp (pkt : Bytes) : ∀ e ∈ s.toAll pkt, e.isTcp = true := by
  intro e he
  obtain ⟨entry, -, rfl⟩ := List.mem_map.mp he
  rfl

theorem deliver_isTcp (p : Post) : ∀ e ∈ deliver w s p, e.isTcp = true := by
  obtain ⟨audience, m⟩ := p
  cases audience with
  | session sid => exact toSession_isTcp s sid _
  | player pid => exact toPlayer_isTcp s pid _
  | all => exact toAll_isTcp s _

/-- Where posts go depends on the connections and on whose they are. -/
theorem deliver_congr {s t : Server} (htcp : t.tcp.sessions = s.tcp.sessions)
    (hmap : t.sessionToPlayer = s.sessionToPlayer) : deliver w t = deliver w s := by
  funext p
  simp only [deliver, Server.toSession, Server.toPlayer, Server.toAll, htcp, hmap]

/-- From `s` to `t` the server has said `ps`, to the connections and players of both. -/
structure Says (s t : Server) (ps : List Post) : Prop where
  sessions : t.tcp.sessions = s.tcp.sessions
  sessionToPlayer : t.sessionToPlayer = s.sessionToPlayer
  sent : t.sent = s.sent ++ ps.flatMap (deliver w s)

namespace Says

variable {w s} {t u : Server} {ps qs : List Post}

theorem quiet (htcp : t.tcp.sessions = s.tcp.sessions) (hmap : t.sessionToPlayer = s.sessionToPlayer)
    (hsent : t.sent = s.sent) : Says w s t [] :=
  ⟨htcp, hmap, by rw [hsent, List.flatMap_nil, List.append_nil]⟩

theorem refl (s : Server) : Says w s s [] := quiet rfl rfl rfl

theorem trans (h : Says w s t ps) (h' : Says w t u qs) : Says w s u (ps ++ qs) := by
  refine ⟨h'.sessions.trans h.sessions, h'.sessionToPlayer.trans h.sessionToPlayer, ?_⟩
  rw [h'.sent, h.sent, deliver_congr w h.sessions h.sessionToPlayer, List.append_assoc, List.flatMap_append]

theorem post (p : Post) : Says w s (s.log (deliver w s p)) [p] := by
  refine ⟨rfl, rfl, ?_⟩
  rw [List.flatMap_singleton]
  rfl

theorem note (h : Says w s t ps) (e : Fired) : Says w s (t.note e) ps := ⟨h.sessions, h.sessionToPlayer, h.sent⟩

theorem of_put (id : UInt16) (p : Player) (h : Says w { s with players := s.players.put id p } t ps) : Says w s t ps :=
  ⟨h.sessions, h.sessionToPlayer, h.sent⟩

end Says

/-! ## What the handlers say -/

theorem authoritySent_deliver (c : AuthorityCall) : authoritySent w s c = deliver w s (authorityMessage c) := by
  cases c <;> rfl

theorem authority_posted (calls : List AuthorityCall) : Says w s (authority w s calls) (calls.map authorityMessage) := by
  have hsent : calls.flatMap (authoritySent w s) = (calls.map authorityMessage).flatMap (deliver w s) := by
    rw [List.flatMap_map]
    exact congrArg (calls.flatMap ·) (funext (authoritySent_deliver w s))
  refine ⟨rfl, rfl, ?_⟩
  rw [authority, hsent]
  rfl

theorem announceLeave_posted (pid : UInt16) : Says w s (announceLeave w x s pid) (leavePosts w x pid) := by
  have hleave := (Says.post (w := w) (s := s) ⟨.all, .playerLeave pid⟩).note
    ⟨"onPlayerDisconnect", [cstr (idText pid)], []⟩
  unfold announceLeave leavePosts
  dsimp only
  by_cases hai : w.cfg.aiEnabled = true
  · rw [if_pos hai, if_pos hai]
    exact hleave.trans (authority_posted w _ _)
  · rw [if_neg hai, if_neg hai]
    exact hleave

theorem readied_posted (pid : UInt16) : Says w s (readied w s pid) (readyPosts w s pid) := by
  unfold readied readyPosts
  cases s.players.lookup pid with
  | none => exact .refl s
  | some p =>
    have hjoin := (Says.post (w := w) (s := { s with players := s.players.put pid { p with state := .ready } })
      ⟨.all, .playerJoin { p with state := .ready }⟩).note ⟨"onPlayerJoin", [cstr (idText pid), cstr (utf8 p.username)], []⟩
    have hchat := hjoin.trans (.post ⟨.player pid, .chatMessage (welcome w)⟩)
    have hnn : ¬ ((pid.toNat : Int) < 0) := by omega
    dsimp only
    simp only [Server.chat, if_neg hnn, ofInt16_toNat]
    exact Says.of_put pid { p with state := .ready } hchat

theorem spawnOutcome_posted (pid : UInt16) (body : Bytes) :
    Says w s (spawnOutcome w s pid body).2 (spawnPosts w s pid body) := by
  unfold spawnOutcome spawnPosts
  cases w.parse body with
  | none => exact .refl s
  | some j =>
    cases s.players.lookup pid with
    | none => exact .refl s
    | some p =>
      dsimp only
      by_cases hlim : w.cfg.vehicleLimitPerPlayer ≤ (p.vehicles.length : Int)
      · rw [if_pos hlim, if_pos hlim]
        exact .refl s
      rw [if_neg hlim, if_neg hlim]
      cases j.value "model" "etk800" with
      | error e => exact .refl s
      | ok model =>
        refine Says.of_put pid { p with vehicles := p.vehicles ++ [newVehicle w p j model] } ?_
        exact (Says.post ⟨.all, .vehicleSpawn pid (newVehicle w p j model)⟩).note _

theorem deleted_posted (pid : UInt16) (vid : UInt8) : Says w s (deleted s pid vid) (deletePosts s pid vid) := by
  unfold deleted deletePosts
  cases s.players.lookup pid with
  | none => exact .refl s
  | some p =>
    have hdel := (Says.post (w := w)
      (s := { s with
        vsync := s.vsync.onVehicleDelete pid vid
        players := s.players.put pid { p with vehicles := p.vehicles.filter fun v => !(v.vehicleId == vid) } })
      ⟨.all, .vehicleDelete pid vid⟩).note ⟨"onVehicleDelete", [cstr (idText pid), cstr (utf8 (toString vid.toNat))], []⟩
    exact ⟨hdel.sessions, hdel.sessionToPlayer, hdel.sent⟩

theorem chatted_posted (pid : UInt16) (msg : Bytes) : Says w s (chatted x s pid msg) (chatPosts x s pid msg) := by
  unfold chatted chatPosts
  cases s.players.lookup pid with
  | none => exact .refl s
  | some p =>
    dsimp only
    split
    · exact .refl s
    split
    · exact (Says.refl s).note _
    · exact ((Says.refl s).note _).trans (.post ⟨.all, .chatMessage (chatText p msg)⟩)

theorem claimed_posted (pid : UInt16) : Says w s (claimed w x s pid) (claimPosts w x pid) := by
  unfold claimed claimPosts
  split
  · dsimp only
    split
    · rw [List.append_nil]
      exact authority_posted w s _
    · have hnn : ¬ ((pid.toNat : Int) < 0) := by omega
      simp only [Server.chat, if_neg hnn, ofInt16_toNat]
      exact (authority_posted w s _).trans (.post ⟨.player pid, .chatMessage noAuthority⟩)
  · exact .refl s

theorem inGame_posted (pid : UInt16) (pl : Bytes) (len : UInt16) (t : Option PacketType) :
    Says w s (inGame w x s pid pl len t).2 (inGamePosts w x s pid pl len t) := by
  cases t with
  | none => exact .refl s
  | some t =>
    cases t with
    | vehicleSpawn =>
      dsimp only [inGame, inGamePosts]
      cases readBytes pl len.toNat with
      | error e => exact .refl s
      | ok body => exact spawnOutcome_posted w s pid body
    | vehicleDelete =>
      dsimp only [inGame, inGamePosts]
      by_cases hlen : len < 1
      · rw [if_pos hlen, if_pos hlen]
        exact .refl s
      rw [if_neg hlen, if_neg hlen]
      cases readByte pl 0 with
      | error e => exact .refl s
      | ok vid => exact deleted_posted w s pid vid
    | chatMessage =>
      dsimp only [inGame, inGamePosts]
      cases readBytes pl len.toNat with
      | error e => exact .refl s
      | ok msg => exact chatted_posted w x s pid msg
    | ready => exact readied_posted w s pid
    | authorityClaim => exact claimed_posted w x s pid
    | _ => exact .refl s

/-! ## What the calls say -/

theorem dropped_posted (sid : UInt16) : Says w s (dropped s sid).2 [] := by
  unfold dropped
  split
  · exact .quiet rfl rfl rfl
  · exact .refl s

theorem kicked_posted (id : UInt16) (reason : Bytes) : Says w s (kicked s id reason).2 [⟨.player id, .kick reason⟩] := by
  unfold kicked
  cases hk : s.sessionToPlayer.keyOf id with
  | none =>
    refine ⟨rfl, rfl, ?_⟩
    simp [deliver, Server.toPlayer, hk]
  | some sid =>
    have hpost : deliver w s ⟨.player id, .kick reason⟩ = s.toSession sid (kickPacket reason) := by
      simp only [deliver, Server.toPlayer, hk]
      rfl
    exact (hpost ▸ Says.post ⟨.player id, .kick reason⟩).trans (dropped_posted w _ sid)

theorem markBanned_posted (id : UInt16) : Says w s (markBanned s id) [] := by
  unfold markBanned
  split
  · exact .quiet rfl rfl rfl
  · exact .refl s

/-- The state a call speaks from: its own changes to the connections and the maps come
    before the first message. -/
def Spoken (t : Server) (ps : List Post) : Prop := ∃ u, tcpSent u = tcpSent s ∧ Says w u t ps

variable {w s}

theorem Says.spoken {t : Server} {ps : List Post} (h : Says w s t ps) : Spoken w s t ps := ⟨s, rfl, h⟩

theorem Spoken.of_eq {t : Server} (h : tcpSent t = tcpSent s) : Spoken w s t [] := ⟨t, h, .refl t⟩

theorem Spoken.sent {t : Server} {ps : List Post} (h : Spoken w s t ps) :
    tcpSent t = tcpSent s ++ ps.flatMap (deliver w t) := by
  obtain ⟨u, hu, hsaid⟩ := h
  have htcp : ∀ e ∈ ps.flatMap (deliver w u), e.isTcp = true := by
    intro e he
    obtain ⟨p, -, hp⟩ := List.mem_flatMap.mp he
    exact deliver_isTcp w u p e hp
  rw [tcpSent, hsaid.sent, List.filter_append, List.filter_eq_self.mpr htcp, ← deliver_congr w hsaid.sessions
    hsaid.sessionToPlayer, ← hu, tcpSent]

variable (w s)

theorem ofBytes_str {b : Bytes} {j : Json} (h : Json.ofBytes b = .ok j) : ∃ text, j = .str text := by
  unfold Json.ofBytes at h
  split at h
  · cases h
    exact ⟨_, rfl⟩
  · cases h

theorem authOutcome_spoken (sid : UInt16) (b : AuthBranch) : Spoken w s (authOutcome w x s sid b).2 (authPosts x s sid b) := by
  cases b with
  | throws e => exact (Says.refl s).spoken
  | refused error drop =>
    have hreply : Says w s (s.log (s.toSession sid (refusal w error))) [⟨.session sid, .authError error⟩] :=
      .post ⟨.session sid, .authError error⟩
    cases drop with
    | false => exact hreply.spoken
    | true => exact (hreply.trans (dropped_posted w _ sid)).spoken
  | bridge =>
    refine ⟨registered s sid aiBridge "bridge" .ready, rfl, ?_⟩
    exact (Says.post ⟨.session sid, .authOk (freshId s)⟩).trans (authority_posted w _ _)
  | badRole e => exact .of_eq rfl
  | player username role =>
    simp only [authOutcome, authPosts]
    by_cases hv : refuses (vetoOf x s username) = true
    · rw [if_pos hv, if_pos hv]
      refine ⟨unregistered ((registered s sid username role .loadingMods).note ⟨"onPlayerAuth", authArgs s username, []⟩)
        sid (freshId s), rfl, ?_⟩
      cases hj : Json.ofBytes (vetoOf x s username) with
      | error e => exact .refl _
      | ok j =>
        obtain ⟨error, rfl⟩ := ofBytes_str hj
        exact (Says.post ⟨.session sid, .authError error⟩).trans (dropped_posted w _ sid)
    · rw [if_neg hv, if_neg hv]
      refine ⟨(registered s sid username role .loadingMods).note ⟨"onPlayerAuth", authArgs s username, []⟩, rfl, ?_⟩
      exact (Says.post ⟨.session sid, .authOk (freshId s)⟩).trans
        (.post ⟨.session sid, .serverInfo (registered s sid username role .loadingMods).players.keys.length⟩)

theorem removePlayer_tcpSent (pid : UInt16) : tcpSent (removePlayer s pid) = tcpSent s := by
  unfold removePlayer
  split <;> rfl

theorem closed_spoken (object : Nat) : Spoken w s (closed w x s object) (closePosts w x s object) := by
  unfold closed closePosts
  cases s.tcp.objects[object]? with
  | none => exact (Says.refl s).spoken
  | some t =>
    dsimp only [disconnected]
    cases s.sessionToPlayer.lookup t.id with
    | none => exact .of_eq rfl
    | some pid =>
      dsimp only
      by_cases hp : pid = 0xFFFF
      · rw [if_pos hp, if_pos hp]
        exact .of_eq rfl
      · rw [if_neg hp, if_neg hp]
        refine ⟨_, ?_, announceLeave_posted w x _ pid⟩
        exact removePlayer_tcpSent _ pid

theorem dispatch_spoken (sid : UInt16) (pl : Bytes) (hdr : PacketHeader) :
    Spoken w s (dispatch w x s sid pl hdr).2 (dispatchPosts w x s sid pl hdr) := by
  unfold dispatch dispatchPosts
  by_cases ha : PacketType.ofCode hdr.type = some .authRequest
  · rw [if_pos ha, if_pos ha]
    cases readBytes pl hdr.payloadLen.toNat with
    | error e => exact (Says.refl s).spoken
    | ok body => exact authOutcome_spoken w x s sid _
  rw [if_neg ha, if_neg ha]
  by_cases hp : playerOf s sid = 0xFFFF
  · rw [if_pos hp, if_pos hp]
    exact (Says.refl s).spoken
  · rw [if_neg hp, if_neg hp]
    exact (inGame_posted w x s _ pl _ _).spoken

/-- A datagram makes the server send datagrams only. -/
theorem datagramOutcome_tcpSent (source : UDPEndpoint) (data : Bytes) (hdr : PacketHeader) :
    tcpSent (datagramOutcome w x s source data hdr).2 = tcpSent s := by
  refine datagramOutcome_keeps (P := fun t => tcpSent t = tcpSent s) w x s rfl (fun es hes => ?_) (fun _ => rfl)
    source data hdr
  have hnil : es.filter Sent.isTcp = [] := by
    refine List.filter_eq_nil_iff.mpr fun e he => ?_
    obtain ⟨dest, pkt, rfl⟩ := hes e he
    exact Bool.false_ne_true
  rw [tcpSent, Server.log_sent, List.filter_append, hnil, List.append_nil]
  rfl

theorem relayed_udp : ∀ e ∈ relayed s, e.isTcp = false := by
  intro e he
  obtain ⟨b, -, hb⟩ := List.mem_flatMap.mp he
  obtain ⟨entry, -, rfl⟩ := List.mem_map.mp hb
  rfl

theorem outcome_spoken (c : Call) : Spoken w s (outcome w x s c).2 (posts w x s c) := by
  cases c with
  | accept ip => exact .of_eq rfl
  | frame object data =>
    simp only [outcome, posts]
    cases s.tcp.objects[object]? with
    | none => exact (Says.refl s).spoken
    | some t =>
      dsimp only
      by_cases hf : isFrame t data
      · rw [if_pos hf, if_pos hf]
        cases Packet.parseHeader data with
        | error e => exact (Says.refl s).spoken
        | ok hdr => exact dispatch_spoken w x s t.id _ hdr
      · rw [if_neg hf, if_neg hf]
        exact (Says.refl s).spoken
  | close object => exact closed_spoken w x s object
  | datagram source data =>
    simp only [outcome, posts]
    split
    · split
      · exact (Says.refl s).spoken
      · exact .of_eq (datagramOutcome_tcpSent w x s source data _)
    · exact (Says.refl s).spoken
  | broadcastAll =>
    refine .of_eq ?_
    have hnil : (relayed s).filter Sent.isTcp = [] :=
      List.filter_eq_nil_iff.mpr fun e he => by simp [relayed_udp s e he]
    show (s.sent ++ relayed s).filter Sent.isTcp = _
    rw [List.filter_append, hnil, List.append_nil]
    rfl
  | kickPlayer id reason => exact (kicked_posted w s id reason).spoken
  | banPlayer id reason => exact ((markBanned_posted w s id).trans (kicked_posted w _ id _)).spoken
  | sendChat playerId msg =>
    by_cases hneg : playerId < 0
    · have hsay : Says w s (s.log (s.chat playerId msg)) [⟨.all, .chatMessage msg⟩] := by
        rw [Server.chat, if_pos hneg]
        exact .post ⟨.all, .chatMessage msg⟩
      simpa only [outcome, posts, if_pos hneg] using hsay.spoken
    · have hsay : Says w s (s.log (s.chat playerId msg)) [⟨.player (UInt16.ofInt playerId), .chatMessage msg⟩] := by
        rw [Server.chat, if_neg hneg]
        exact .post ⟨.player (UInt16.ofInt playerId), .chatMessage msg⟩
      simpa only [outcome, posts, if_neg hneg] using hsay.spoken
  | grantAuthority pid => exact (Says.post (authorityMessage (.grant pid))).spoken
  | revokeAuthority pid => exact (Says.post (authorityMessage (.revoke pid))).spoken

/-- Over TCP a call sends its posts and nothing else, whether it ends, throws or hangs. -/
theorem outcome_sent (c : Call) : tcpSent (outcome w x s c).2 =
    tcpSent s ++ (posts w x s c).flatMap (deliver w (outcome w x s c).2) :=
  (outcome_spoken w x s c).sent

end GameServer

end NovaMP
