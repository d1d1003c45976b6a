/-
  NovaMP.Server.Whole — which packets hold the whole string they were built from.

  `Packet::buildStr` casts the string's length to 16 bits, so a packet carries its
  string exactly when that is at most 65535 bytes long (`whole_iff`). `size` is the
  length of each message in terms of what it is made of, with the text escaped as
  `dump()` escapes it.

  - `never_truncated_iff`: a call truncates nothing exactly when what it puts together is
    short enough (`Fits`), kind by kind.
  - `spawn_truncated`: a vehicle with a long model.
-/

import NovaMP.Server.Messages
import NovaMP.Server.Dump

namespace NovaMP

open Lib Exec

/-! ## Messages -/

/-- `dump()` is nlohmann's; floating-point numbers may be written in any way. -/
def World.Dumps (w : World) (real : UInt64 → String) : Prop := ∀ j, w.dump j = j.render real

namespace Message

variable (w : World)

/-- The packets that are built from a string. -/
def ofString : Message → Bool
  | vehicleDelete _ _ | authorityGrant | authorityRevoke => false
  | _ => true

/-- The packet carries the whole string. -/
def Whole (m : Message) : Prop := Packet.payload (m.packet w) = m.text w

instance (m : Message) : Decidable (m.Whole w) := inferInstanceAs (Decidable (_ = _))

/-- How long the string of a packet is. -/
def size : Message → Nat
  | authOk pid => 33 + Json.decimalSize pid.toNat + Json.escapedSize w.cfg.map
  | authError error => 23 + Json.escapedSize error
  | serverInfo current =>
    95 + Json.escapedSize w.cfg.name + Json.escapedSize w.cfg.description + Json.escapedSize w.cfg.map +
      Json.decimalSize w.cfg.maxPlayers + Json.decimalSize current + (if w.cfg.aiEnabled then 4 else 5)
  | playerJoin p => 48 + Json.decimalSize p.id.toNat + Json.escapedSize p.username + Json.escapedSize p.role
  | playerLeave pid => 53 + Json.decimalSize pid.toNat
  | vehicleSpawn pid pv =>
    74 + Json.decimalSize pid.toNat + Json.decimalSize pv.vehicleId.toNat + Json.escapedSize pv.model +
      Json.escapedSize pv.config
  | vehicleDelete _ _ => 1
  | chatMessage text => text.length
  | kick reason => 8 + reason.length
  | authorityGrant | authorityRevoke => 0

theorem whole_iff (m : Message) : m.Whole w ↔ (m.text w).length ≤ 65535 := by
  rw [Whole, packet, Packet.payload_buildStr]
  constructor
  · intro htake
    have hlen := congrArg List.length htake
    rw [List.length_take] at hlen
    omega
  · intro hle
    exact List.take_of_length_le (by omega)

theorem utf8_length (s : String) : (utf8 s).length = s.utf8ByteSize := rfl

/-- The texts of the server's own messages have nothing to escape. -/
theorem plain_sizes :
    (Json.escapedSize "ok" = 2 ∧ Json.escapedSize "player_id" = 9 ∧ Json.escapedSize "map" = 3 ∧
      Json.escapedSize "error" = 5) ∧
    (Json.escapedSize "name" = 4 ∧ Json.escapedSize "description" = 11 ∧ Json.escapedSize "max_players" = 11 ∧
      Json.escapedSize "current" = 7 ∧ Json.escapedSize "ai_enabled" = 10 ∧ Json.escapedSize "version" = 7 ∧
      Json.escapedSize "1.0.0" = 5) ∧
    (Json.escapedSize "type" = 4 ∧ Json.escapedSize "player_join" = 11 ∧ Json.escapedSize "id" = 2 ∧
      Json.escapedSize "role" = 4 ∧ Json.escapedSize "player_leave" = 12 ∧ Json.escapedSize "reason" = 6 ∧
      Json.escapedSize "disconnected" = 12) ∧
    Json.escapedSize "vehicle_spawn" = 13 ∧ Json.escapedSize "vehicle_id" = 10 ∧ Json.escapedSize "model" = 5 ∧
      Json.escapedSize "config" = 6 := by decide

variable {w}

theorem text_length {real : UInt64 → String} (hd : w.Dumps real) {m : Message} (h : m.ofString = true) :
    (m.text w).length = m.size w := by
  have hobj : ∀ ms : List (String × Json), ms ≠ [] → m.json w = some (.obj ms) →
      (m.text w).length = 1 + (ms.map fun e => Json.escapedSize e.1 + (e.2.render real).utf8ByteSize + 4).sum := by
    intro ms hne hj
    rw [text, hj]
    show (utf8 (w.dump _)).length = _
    rw [hd, utf8_length, Json.render_obj_size real hne]
  have hint : ∀ n, ((Json.int n).render real).utf8ByteSize = Json.decimalSize n := fun n => rfl
  have hstr : ∀ s, ((Json.str s).render real).utf8ByteSize = Json.escapedSize s + 2 := Json.quote_size
  have hbool : ∀ b, ((Json.bool b).render real).utf8ByteSize = if b then 4 else 5 := fun b => by cases b <;> rfl
  obtain ⟨hauth, hinfo, hplayer, hvehicle⟩ := plain_sizes
  cases m with
  | authOk pid =>
    rw [hobj _ (List.cons_ne_nil _ _) rfl]
    simp [hint, hstr, hbool, hauth, size]
    omega
  | authError error =>
    rw [hobj _ (List.cons_ne_nil _ _) rfl]
    simp [hstr, hbool, hauth, size]
    omega
  | serverInfo current =>
    rw [hobj _ (List.cons_ne_nil _ _) rfl]
    simp [hint, hstr, hbool, hauth, hinfo, size]
    omega
  | playerJoin p =>
    rw [hobj _ (List.cons_ne_nil _ _) rfl]
    simp [hint, hstr, hinfo, hplayer, size]
    omega
  | playerLeave pid =>
    rw [hobj _ (List.cons_ne_nil _ _) rfl]
    simp [hint, hstr, hplayer, size]
    omega
  | vehicleSpawn pid pv =>
    rw [hobj _ (List.cons_ne_nil _ _) rfl]
    simp [hint, hstr, hauth, hplayer, hvehicle, size]
    omega
  | chatMessage text => rfl
  | kick reason =>
    show (utf8 "Kicked: " ++ reason).length = 8 + reason.length
    rw [List.length_append]
    rfl
  | vehicleDelete pid vid => cases h
  | authorityGrant => cases h
  | authorityRevoke => cases h

theorem whole_iff_size {real : UInt64 → String} (hd : w.Dumps real) {m : Message} (h : m.ofString = true) :
    m.Whole w ↔ m.size w ≤ 65535 := by
  rw [whole_iff, text_length hd h]

end Message

namespace GameServer

variable (w : World) (x : Env) (s : Server)

/-! ## Calls -/

/-- An accepted request is answered with the map's name and, but for the bridge's, with
    the server's texts; a vetoed one with what the plugin says. -/
def AuthFits (sid : UInt16) : AuthBranch → Prop
  | .bridge => 33 + Json.decimalSize (freshId s).toNat + Json.escapedSize w.cfg.map ≤ 65535
  | .player username role =>
    if refuses (vetoOf x s username) then
      ∀ error, Json.ofBytes (vetoOf x s username) = .ok (.str error) → 23 + Json.escapedSize error ≤ 65535
    else
      33 + Json.decimalSize (freshId s).toNat + Json.escapedSize w.cfg.map ≤ 65535 ∧
        95 + Json.escapedSize w.cfg.name + Json.escapedSize w.cfg.description + Json.escapedSize w.cfg.map +
          Json.decimalSize w.cfg.maxPlayers +
          Json.decimalSize (registered s sid username role .loadingMods).players.keys.length +
          (if w.cfg.aiEnabled then 4 else 5) ≤ 65535
  | _ => True

/-- A player's name and role are announced, the model and the configuration of its
    vehicle, and its name with what it says. -/
def TurnFits (pid : UInt16) (pl : Bytes) (len : UInt16) : Option PacketType → Prop
  | some .ready =>
    ∀ p, s.players.lookup pid = some p →
      48 + Json.decimalSize p.id.toNat + Json.escapedSize p.username + Json.escapedSize p.role ≤ 65535 ∧
        12 + w.cfg.name.utf8ByteSize ≤ 65535
  | some .vehicleSpawn =>
    ∀ body j p model, readBytes pl len.toNat = .ok body → w.parse body = some j → s.players.lookup pid = some p →
      (p.vehicles.length : Int) < w.cfg.vehicleLimitPerPlayer → j.value "model" "etk800" = .ok model →
      74 + Json.decimalSize pid.toNat + Json.decimalSize (UInt8.ofNat p.vehicles.length).toNat + Json.escapedSize model +
        Json.escapedSize (w.dump j) ≤ 65535
  | some .chatMessage =>
    ∀ msg p, readBytes pl len.toNat = .ok msg → s.players.lookup pid = some p → p.isMuted = false →
      refuses (cstr (x.plugin "onChatMessage" (chatArgs pid p msg))) = false →
      p.username.utf8ByteSize + 2 + min 256 msg.length ≤ 65535
  | _ => True

/-- What a call puts together is at most 65535 bytes long. -/
def Fits : Call → Prop
  | .frame object data =>
    (∀ sid body, authText s object data = some (sid, body) → AuthFits w x s sid (authBranch w s body)) ∧
      ∀ t hdr, s.tcp.objects[object]? = some t → isFrame t data → Packet.parseHeader data = .ok hdr →
        playerOf s t.id ≠ 0xFFFF →
        TurnFits w x s (playerOf s t.id) (Packet.payload data) hdr.payloadLen (PacketType.ofCode hdr.type)
  | .kickPlayer _ reason => 8 + reason.length ≤ 65535
  | .banPlayer _ reason => 16 + reason.length ≤ 65535
  | .sendChat _ msg => msg.length ≤ 65535
  | _ => True

/-- Of what is posted, the messages built from a string are short enough. -/
def Short (ps : List Post) : Prop := ∀ p ∈ ps, p.message.ofString = true → p.message.size w ≤ 65535

variable {w}

theorem short_nil : Short w [] := fun p hp => by cases hp

theorem short_cons {p : Post} {ps : List Post} :
    Short w (p :: ps) ↔ (p.message.ofString = true → p.message.size w ≤ 65535) ∧ Short w ps :=
  List.forall_mem_cons

theorem short_authority (calls : List AuthorityCall) : Short w (calls.map authorityMessage) := by
  intro p hp h
  obtain ⟨c, -, rfl⟩ := List.mem_map.mp hp
  cases c <;> cases h

theorem short_leave (pid : UInt16) : Short w (leavePosts w x pid) := by
  have hsize : Json.decimalSize pid.toNat ≤ 20 := Json.decimalSize_le _ pid.toNat_lt
  refine short_cons.mpr ⟨fun _ => ?_, ?_⟩
  · show 53 + _ ≤ 65535
    omega
  · split
    · exact short_authority _
    · exact short_nil

theorem short_close (object : Nat) : Short w (closePosts w x s object) := by
  unfold closePosts
  split
  · split
    · split
      · exact short_nil
      · exact short_leave x _
    · exact short_nil
  · exact short_nil

/-- `handleAuth`'s own refusals are short. -/
theorem refused_short {body : Bytes} {error : String} {drop : Bool} (h : authBranch w s body = .refused error drop) :
    23 + Json.escapedSize error ≤ 65535 := by
  have herror : error ∈ ["Invalid JSON", "Bridge token mismatch", "Username required", "Wrong password", "Server full"] := by
    unfold authBranch at h
    split at h
    · cases h; simp
    split at h
    · cases h
    split at h
    · cases h
    split at h
    · split at h
      · cases h; simp
      · cases h
    split at h
    · cases h; simp
    split at h
    · cases h; simp
    split at h
    · cases h; simp
    split at h <;> cases h
  have hall : ∀ e ∈ ["Invalid JSON", "Bridge token mismatch", "Username required", "Wrong password", "Server full"],
      23 + Json.escapedSize e ≤ 65535 := by decide
  exact hall error herror

theorem short_auth_iff (sid : UInt16) (body : Bytes) :
    Short w (authPosts x s sid (authBranch w s body)) ↔ AuthFits w x s sid (authBranch w s body) := by
  cases hb : authBranch w s body with
  | throws e => exact iff_of_true short_nil trivial
  | refused error drop =>
    refine iff_of_true (short_cons.mpr ⟨fun _ => refused_short s hb, short_nil⟩) trivial
  | bridge =>
    simp only [authPosts, AuthFits, short_cons]
    constructor
    · intro h
      exact h.1 rfl
    · intro h
      exact ⟨fun _ => h, short_authority _⟩
  | badRole e => exact iff_of_true short_nil trivial
  | player username role =>
    simp only [authPosts, AuthFits]
    by_cases hv : refuses (vetoOf x s username) = true
    · rw [if_pos hv, if_pos hv]
      cases hj : Json.ofBytes (vetoOf x s username) with
      | error e => exact iff_of_true short_nil fun error h => by cases h
      | ok j =>
        obtain ⟨error, rfl⟩ := ofBytes_str hj
        constructor
        · intro h error' he
          cases he
          exact (short_cons.mp h).1 rfl
        · intro h
          exact short_cons.mpr ⟨fun _ => h error rfl, short_nil⟩
    · rw [if_neg hv, if_neg hv]
      constructor
      · intro h
        obtain ⟨hack, hrest⟩ := short_cons.mp h
        exact ⟨hack rfl, (short_cons.mp hrest).1 rfl⟩
      · intro h
        exact short_cons.mpr ⟨fun _ => h.1, short_cons.mpr ⟨fun _ => h.2, short_nil⟩⟩

theorem welcome_length : (welcome w).length = 12 + w.cfg.name.utf8ByteSize := by
  show ("Welcome to " ++ w.cfg.name ++ "!").utf8ByteSize = _
  rw [String.utf8ByteSize_append, String.utf8ByteSize_append]
  show 11 + _ + 1 = _
  omega

theorem chatText_length (p : Player) (msg : Bytes) :
    (chatText p msg).length = p.username.utf8ByteSize + 2 + min 256 msg.length := by
  rw [chatText, List.length_append, List.length_append, List.length_take]
  rfl

theorem short_ready_iff (pid : UInt16) (pl : Bytes) (len : UInt16) :
    Short w (readyPosts w s pid) ↔ TurnFits w x s pid pl len (some .ready) := by
  constructor
  · intro h p hp
    have hjoin := h _ (mem_readyPosts.mpr ⟨p, hp, .inl rfl⟩) rfl
    have hwelcome := h _ (mem_readyPosts.mpr ⟨p, hp, .inr rfl⟩) rfl
    exact ⟨hjoin, welcome_length (w := w) ▸ hwelcome⟩
  · intro h post hpost _
    obtain ⟨p, hp, rfl | rfl⟩ := mem_readyPosts.mp hpost
    · exact (h p hp).1
    · show (welcome w).length ≤ 65535
      rw [welcome_length]
      exact (h p hp).2

theorem short_spawn_iff (pid : UInt16) (pl : Bytes) (len : UInt16) :
    Short w (inGamePosts w x s pid pl len (some .vehicleSpawn)) ↔ TurnFits w x s pid pl len (some .vehicleSpawn) := by
  simp only [inGamePosts, TurnFits]
  cases readBytes pl len.toNat with
  | error e => exact iff_of_true short_nil fun body j p model h => by cases h
  | ok body =>
    constructor
    · intro h body' j p model hb hj hp hlt hm
      cases hb
      exact h _ (mem_spawnPosts.mpr ⟨j, p, model, hj, hp, hlt, hm, rfl⟩) rfl
    · intro h post hpost _
      obtain ⟨j, p, model, hj, hp, hlt, hm, rfl⟩ := mem_spawnPosts.mp hpost
      exact h body j p model rfl hj hp hlt hm

theorem short_chat_iff (pid : UInt16) (pl : Bytes) (len : UInt16) :
    Short w (inGamePosts w x s pid pl len (some .chatMessage)) ↔ TurnFits w x s pid pl len (some .chatMessage) := by
  simp only [inGamePosts, TurnFits]
  cases readBytes pl len.toNat with
  | error e => exact iff_of_true short_nil fun msg p h => by cases h
  | ok msg =>
    constructor
    · intro h msg' p hb hp hm hr
      cases hb
      exact chatText_length p msg ▸ h _ (mem_chatPosts.mpr ⟨p, hp, hm, hr, rfl⟩) rfl
    · intro h post hpost _
      obtain ⟨p, hp, hm, hr, rfl⟩ := mem_chatPosts.mp hpost
      show (chatText p msg).length ≤ 65535
      rw [chatText_length]
      exact h msg p rfl hp hm hr

theorem short_claim (pid : UInt16) : Short w (claimPosts w x pid) := by
  intro post hpost hstr
  rcases mem_claimPosts hpost with ⟨c, rfl⟩ | rfl
  · cases c <;> cases hstr
  · show noAuthority.length ≤ 65535
    decide

theorem short_turn_iff (pid : UInt16) (pl : Bytes) (len : UInt16) (t : Option PacketType) :
    Short w (inGamePosts w x s pid pl len t) ↔ TurnFits w x s pid pl len t := by
  cases t with
  | none => exact iff_of_true short_nil trivial
  | some t =>
    cases t with
    | vehicleSpawn => exact short_spawn_iff x s pid pl len
    | chatMessage => exact short_chat_iff x s pid pl len
    | ready => exact short_ready_iff x s pid pl len
    | vehicleDelete =>
      refine iff_of_true ?_ trivial
      simp only [inGamePosts, deletePosts]
      split
      · exact short_nil
      · split
        · exact short_nil
        · split
          · exact short_nil
          · exact short_cons.mpr ⟨(fun h => by cases h), short_nil⟩
    | authorityClaim => exact iff_of_true (short_claim x pid) trivial
    | _ => exact iff_of_true short_nil trivial

theorem short_frame_iff (object : Nat) (data : Bytes) :
    Short w (posts w x s (.frame object data)) ↔ Fits w x s (.frame object data) := by
  constructor
  · intro h
    refine ⟨fun sid body ha => ?_, fun t hdr ht hf hh hp => ?_⟩
    · exact (short_auth_iff x s sid body).mp fun post hpost => h post (mem_posts_frame.mpr (.inl ⟨sid, body, ha, hpost⟩))
    · exact (short_turn_iff x s _ _ _ _).mp fun post hpost =>
        h post (mem_posts_frame.mpr (.inr ⟨t, hdr, ht, hf, hh, hp, hpost⟩))
  · rintro ⟨hauth, hturn⟩ post hpost
    rcases mem_posts_frame.mp hpost with ⟨sid, body, ha, hpost⟩ | ⟨t, hdr, ht, hf, hh, hp, hpost⟩
    · exact (short_auth_iff x s sid body).mpr (hauth sid body ha) post hpost
    · exact (short_turn_iff x s _ _ _ _).mpr (hturn t hdr ht hf hh hp) post hpost

theorem short_kick_iff (id : UInt16) (reason : Bytes) :
    Short w [⟨.player id, .kick reason⟩] ↔ 8 + reason.length ≤ 65535 := by
  rw [short_cons]
  constructor
  · intro h
    exact h.1 rfl
  · intro h
    exact ⟨fun _ => h, short_nil⟩

/-- A call truncates none of its packets exactly when what it puts together is at most
    65535 bytes long. -/
theorem never_truncated_iff (w : World) {real : UInt64 → String} (hd : w.Dumps real) (x : Env) (s : Server) (c : Call) :
    (∀ p ∈ posts w x s c, p.message.ofString = true → p.message.Whole w) ↔ Fits w x s c := by
  have hshort : (∀ p ∈ posts w x s c, p.message.ofString = true → p.message.Whole w) ↔ Short w (posts w x s c) := by
    constructor
    · intro h p hp hs
      exact (Message.whole_iff_size hd hs).mp (h p hp hs)
    · intro h p hp hs
      exact (Message.whole_iff_size hd hs).mpr (h p hp hs)
  rw [hshort]
  cases c with
  | frame object data => exact short_frame_iff x s object data
  | close object => exact iff_of_true (short_close x s object) trivial
  | kickPlayer id reason => exact short_kick_iff id reason
  | banPlayer id reason =>
    have hlen : (utf8 "Banned: " ++ reason).length = 8 + reason.length := by
      rw [List.length_append]
      rfl
    show Short w [⟨.player id, .kick (utf8 "Banned: " ++ reason)⟩] ↔ 16 + reason.length ≤ 65535
    rw [short_kick_iff, hlen]
    omega
  | sendChat playerId msg =>
    constructor
    · intro h
      exact (short_cons.mp h).1 rfl
    · intro h
      exact short_cons.mpr ⟨fun _ => h, short_nil⟩
  | grantAuthority pid => exact iff_of_true (short_authority [.grant pid]) trivial
  | revokeAuthority pid => exact iff_of_true (short_authority [.revoke pid]) trivial
  | accept ip => exact iff_of_true short_nil trivial
  | datagram source data => exact iff_of_true short_nil trivial
  | broadcastAll => exact iff_of_true short_nil trivial

/-! ## A vehicle that does not fit -/

namespace Stretched

/-- How this server's `dump()` writes a floating-point number. -/
def real (_ : UInt64) : String := "0.0"

/-- A model of 40000 letters. -/
@[irreducible] def model : String := String.ofList (List.replicate 40000 'a')

/-- The request of a vehicle of that model. -/
def car : Json := .obj [("model", .str model)]

def world : World :=
  { World.sample [] with
    parse := fun b => [userJson "ann", car].find? fun j => utf8 (j.render real) == b
    dump := Json.render real }

def connected : Server := after world Server.init Env.quiet (.accept "10.0.0.1")

def joined : Server := after world connected Env.quiet (.frame 0 (authFrame (userJson "ann")))

def spawnFrame : Bytes := Packet.buildStr .vehicleSpawn 0 0 (utf8 (car.render real))

theorem dumps : world.Dumps real := fun _ => rfl

theorem reach_joined : Reach world anyStep joined :=
  .step (.step .init trivial (step_ends world _ _ rfl)) trivial (step_after world _ _ (by decide))

theorem escapedSize_letters (n : Nat) : Json.escapedSize (String.ofList (List.replicate n 'a')) = n := by
  rw [Json.escapedSize, Json.escape, String.toList_ofList]
  induction n with
  | zero => rfl
  | succ n ih =>
    rw [List.replicate_succ, Json.escapeAll, String.utf8ByteSize_append, ih]
    show 1 + n = n + 1
    omega

theorem escapedSize_model : Json.escapedSize model = 40000 := by
  unfold model
  exact escapedSize_letters 40000

theorem car_length : (utf8 (car.render real)).length = 40012 := by
  rw [Message.utf8_length, car, Json.render_obj_size real (List.cons_ne_nil _ _)]
  have hkey : Json.escapedSize "model" = 5 := by decide
  have hval : ((Json.str model).render real).utf8ByteSize = Json.escapedSize model + 2 := Json.quote_size model
  rw [escapedSize_model] at hval
  simp [hkey, hval]

theorem parse_car : world.parse (utf8 (car.render real)) = some car := by
  have hne : utf8 ((userJson "ann").render real) ≠ utf8 (car.render real) := by
    intro h
    have hlen := congrArg List.length h
    rw [car_length] at hlen
    exact absurd hlen (by decide)
  show [userJson "ann", car].find? (fun j => utf8 (j.render real) == utf8 (car.render real)) = some car
  rw [List.find?_cons_of_neg (by simpa using hne), List.find?_cons_of_pos (by simp)]

/-- The request is 40012 bytes long, its announcement more than twice that. -/
theorem not_fits : ¬ Fits world Env.quiet joined (.frame 0 spawnFrame) := by
  intro h
  have hbuild : spawnFrame = Packet.build .vehicleSpawn 0 0 (utf8 (car.render real)) 40012 0 := by
    unfold spawnFrame Packet.buildStr
    rw [car_length]
    rfl
  have hh := Packet.parseHeader_build .vehicleSpawn 0 0 (utf8 (car.render real)) 40012 0 []
  have hpl := Packet.payload_build .vehicleSpawn 0 0 (utf8 (car.render real)) 40012 0 []
  rw [List.append_nil, ← hbuild] at hh
  rw [List.append_nil, List.append_nil, ← hbuild, List.take_of_length_le (by rw [car_length]; decide)] at hpl
  have ht : joined.tcp.objects[0]? = some ⟨1, "10.0.0.1", true⟩ := by decide
  have hf : isFrame ⟨1, "10.0.0.1", true⟩ spawnFrame := by
    rw [hbuild]
    simp [isFrame, Packet.build, car_length, maxFrame]
  have hp : playerOf joined 1 = 1 := by decide
  have hl : joined.players.lookup 1 = some ⟨1, "ann", "player", "10.0.0.1", .loadingMods, false, false, []⟩ := by
    decide
  have hturn := h.2 _ _ ht hf hh (by rw [hp]; decide)
  rw [hp, hpl, PacketType.ofCode_code] at hturn
  have hbody : readBytes (utf8 (car.render real)) (40012 : UInt16).toNat = .ok (utf8 (car.render real)) := by
    rw [readBytes_of_le (by rw [car_length]; decide), List.take_of_length_le (by rw [car_length]; decide)]
  have hsize := hturn _ car _ model hbody parse_car hl (by decide) rfl
  have hdump := Json.size_le_escapedSize (world.dump car)
  have hlen : (world.dump car).utf8ByteSize = 40012 := car_length
  rw [escapedSize_model] at hsize
  omega

end Stretched

theorem never_truncated_iff_spawn :
    (∀ p ∈ posts Stretched.world Env.quiet Stretched.joined (.frame 0 Stretched.spawnFrame),
      p.message.ofString = true → p.message.Whole Stretched.world) ↔
    Fits Stretched.world Env.quiet Stretched.joined (.frame 0 Stretched.spawnFrame) :=
  never_truncated_iff Stretched.world Stretched.dumps Env.quiet Stretched.joined _

/-- The announcement of a vehicle with a long model is cut. -/
theorem spawn_truncated : ¬ ∀ (w : World) (real : UInt64 → String) (x : Env) (s : Server) (c : Call),
    w.Dumps real → Reach w anyStep s → ∀ p ∈ posts w x s c, p.message.ofString = true → p.message.Whole w := by
  intro hall
  have hwhole := hall Stretched.world Stretched.real Env.quiet Stretched.joined (.frame 0 Stretched.spawnFrame)
    Stretched.dumps Stretched.reach_joined
  refine Stretched.not_fits ((short_frame_iff _ _ _ _).mp fun p hp hs => ?_)
  exact (Message.whole_iff_size Stretched.dumps hs).mp (hwhole p hp hs)

end GameServer

end NovaMP
