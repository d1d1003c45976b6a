/-
  NovaMP.Server.OwnPlayer — packets act for their own session's player.

  `onTCPPacket` takes the player from the session, never from the header, and hands the
  handlers nothing of the header but its type and length. So what a packet can touch is
  `Confined` to that player: its record, its vehicles, and messages that name it.

  - `inGame_confined`: each handler.
  - `acts_for_own_player`: every packet but an `AUTH_REQUEST`, in every reachable state.
-/

import NovaMP.Server.Changes

namespace NovaMP.GameServer

open Lib Exec

variable (w : World) (x : Env) (s : Server)

/-! ## What a packet may touch -/

/-- A member of the JSON object a message carries. -/
def member (m : Message) (key : String) : Option Json :=
  match m.json w with
  | some (.obj members) => members.lookup key
  | _ => none

/-- A message that names no player but `pid`, in its header or its JSON. -/
structure About (pid : UInt16) (m : Message) : Prop where
  sender : m.sender = pid ∨ m.sender = 0
  members : ∀ key n, key = "id" ∨ key = "player_id" → member w m key = some (.int n) → n = pid.toNat

/-- A packet of such a message, and what its header says. -/
def PacketAbout (pid : UInt16) (pkt : Bytes) : Prop :=
  ∃ m hdr, pkt = m.packet w ∧ About w pid m ∧ Packet.parseHeader pkt = .ok hdr ∧ (hdr.senderId = pid ∨ hdr.senderId = 0)

/-- From `s` to `s'` nothing has changed but the record and the vehicles of `pid`, and
    the new messages are about `pid`. -/
structure Confined (pid : UInt16) (s s' : Server) : Prop where
  registry : s'.players.keys = s.players.keys
  sessionToPlayer : s'.sessionToPlayer = s.sessionToPlayer
  records : ∀ id, id ≠ pid → s'.players.lookup id = s.players.lookup id
  vehicles : (s'.vsync.filter fun e => e.ownerId ≠ pid) = s.vsync.filter fun e => e.ownerId ≠ pid
  nextPlayerId : s'.nextPlayerId = s.nextPlayerId
  tcp : s'.tcp = s.tcp
  udp : s'.udp = s.udp
  sent : ∃ es, s'.sent = s.sent ++ es ∧ ∀ e ∈ es, ∃ sid object pkt, e = .tcp sid object pkt ∧ PacketAbout w pid pkt

variable {w s}

theorem Confined.refl (pid : UInt16) (s : Server) : Confined w pid s s :=
  ⟨rfl, rfl, fun _ _ => rfl, rfl, rfl, rfl, rfl, [], (List.append_nil _).symm, fun e he => by cases he⟩

/-! ## Messages about one player -/

theorem About.packet {pid : UInt16} {m : Message} (h : About w pid m) : PacketAbout w pid (m.packet w) := by
  have hp := Packet.parseHeader_build m.type m.sender 0 (m.text w) (UInt16.ofNat (m.text w).length) 0 []
  rw [List.append_nil] at hp
  exact ⟨m, _, rfl, h, hp, h.sender⟩

/-- A message without JSON, from the server. -/
theorem about_plain (pid : UInt16) {m : Message} (hs : m.sender = 0) (hj : m.json w = none) : About w pid m := by
  refine ⟨.inr hs, fun key n _ hm => ?_⟩
  simp only [member, hj] at hm
  cases hm

/-- A message whose JSON names nobody but `pid`. -/
theorem about_members {pid : UInt16} {m : Message} (hs : m.sender = pid ∨ m.sender = 0)
    (hid : member w m "id" = none ∨ member w m "id" = some (.int pid.toNat))
    (hplayer : member w m "player_id" = none ∨ member w m "player_id" = some (.int pid.toNat)) : About w pid m := by
  refine ⟨hs, fun key n hkey hm => ?_⟩
  have hmember : member w m key = none ∨ member w m key = some (.int pid.toNat) := by
    rcases hkey with rfl | rfl
    · exact hid
    · exact hplayer
  rcases hmember with hnone | hsome
  · rw [hnone] at hm
    cases hm
  · rw [hsome] at hm
    cases hm
    rfl

theorem about_authority (pid : UInt16) (c : AuthorityCall) : About w pid (authorityMessage c).message := by
  cases c with
  | grant id => exact about_members (.inr rfl) (.inl rfl) (.inl rfl)
  | revoke id => exact about_plain pid rfl rfl

theorem about_join (p : Player) : About w p.id (.playerJoin p) := about_members (.inl rfl) (.inr rfl) (.inl rfl)

theorem about_spawn (pid : UInt16) (pv : PlayerVehicle) : About w pid (.vehicleSpawn pid pv) :=
  about_members (.inl rfl) (.inl rfl) (.inr rfl)

/-- What a player's packet makes the server say is about that player. -/
theorem inGamePosts_about {pid : UInt16} (hid : ∀ p, s.players.lookup pid = some p → p.id = pid) (pl : Bytes) (len : UInt16)
    (t : Option PacketType) : ∀ post ∈ inGamePosts w x s pid pl len t, About w pid post.message := by
  intro post hpost
  rcases mem_inGamePosts hpost with ⟨-, body, -, h⟩ | ⟨-, -, vid, -, h⟩ | ⟨-, msg, -, h⟩ | ⟨-, h⟩ | ⟨-, h⟩
  · obtain ⟨j, p, model, -, -, -, -, rfl⟩ := mem_spawnPosts.mp h
    exact about_spawn pid _
  · obtain ⟨-, rfl⟩ := mem_deletePosts.mp h
    exact ⟨.inl rfl, fun key n _ hm => by cases hm⟩
  · obtain ⟨p, -, -, -, rfl⟩ := mem_chatPosts.mp h
    exact about_plain pid rfl rfl
  · obtain ⟨p, hp, rfl | rfl⟩ := mem_readyPosts.mp h
    · obtain rfl := hid p hp
      exact about_join { p with state := .ready }
    · exact about_plain pid rfl rfl
  · rcases mem_claimPosts h with ⟨c, rfl⟩ | rfl
    · exact about_authority pid c
    · exact about_plain pid rfl rfl

/-! ## The handlers -/

theorem deliver_about {pid : UInt16} {p : Post} (h : About w pid p.message) (s : Server) :
    ∀ e ∈ deliver w s p, ∃ sid object pkt, e = .tcp sid object pkt ∧ PacketAbout w pid pkt := by
  intro e he
  unfold deliver Server.toPlayer at he
  split at he
  · obtain rfl := List.mem_singleton.mp he
    exact ⟨_, _, _, rfl, h.packet⟩
  · split at he
    · obtain rfl := List.mem_singleton.mp he
      exact ⟨_, _, _, rfl, h.packet⟩
    · cases he
  · obtain ⟨entry, -, rfl⟩ := List.mem_map.mp he
    exact ⟨_, _, _, rfl, h.packet⟩

/-- The tables beside the record and the vehicles of `pid`. -/
structure Beside (pid : UInt16) (s s' : Server) : Prop where
  records : ∀ id, id ≠ pid → s'.players.lookup id = s.players.lookup id
  vehicles : (s'.vsync.filter fun e => e.ownerId ≠ pid) = s.vsync.filter fun e => e.ownerId ≠ pid

theorem Beside.refl (pid : UInt16) (s : Server) : Beside pid s s := ⟨fun _ _ => rfl, rfl⟩

theorem put_beside (s : Server) (pid : UInt16) (p : Player) : Beside pid s { s with players := s.players.put pid p } :=
  ⟨fun _ hne => Table.lookup_put_ne hne p, rfl⟩

/-- The vehicles a delete removes are the player's. -/
theorem onVehicleDelete_others (entries : VehicleSync) (pid : UInt16) (vid : UInt8) :
    ((entries.onVehicleDelete pid vid).filter fun e => e.ownerId ≠ pid) = entries.filter fun e => e.ownerId ≠ pid := by
  show (entries.filter _).filter _ = _
  rw [List.filter_filter]
  refine List.filter_congr fun e _ => ?_
  by_cases he : e.ownerId = pid <;> simp [he]

theorem readied_beside (pid : UInt16) : Beside pid s (readied w s pid) := by
  unfold readied
  split
  · exact .refl pid s
  · rename_i p _
    have hput := put_beside s pid { p with state := .ready }
    exact ⟨hput.records, hput.vehicles⟩

theorem spawnOutcome_beside (pid : UInt16) (body : Bytes) : Beside pid s (spawnOutcome w s pid body).2 := by
  unfold spawnOutcome
  split
  · rename_i j p _ _
    split
    · exact .refl pid s
    · split
      · exact .refl pid s
      · rename_i model _
        have hput := put_beside s pid { p with vehicles := p.vehicles ++ [newVehicle w p j model] }
        exact ⟨hput.records, hput.vehicles⟩
  · exact .refl pid s

theorem deleted_beside (pid : UInt16) (vid : UInt8) : Beside pid s (deleted s pid vid) := by
  unfold deleted
  split
  · exact .refl pid s
  · rename_i p _
    have hput := put_beside s pid { p with vehicles := p.vehicles.filter fun v => !(v.vehicleId == vid) }
    exact ⟨hput.records, onVehicleDelete_others s.vsync pid vid⟩

theorem chatted_beside (pid : UInt16) (msg : Bytes) : Beside pid s (chatted x s pid msg) := by
  unfold chatted
  split
  · exact .refl pid s
  · split
    · exact .refl pid s
    · dsimp only
      split <;> exact ⟨fun _ _ => rfl, rfl⟩

theorem claimed_beside (pid : UInt16) : Beside pid s (claimed w x s pid) := by
  unfold claimed
  split
  · dsimp only
    split <;> exact ⟨fun _ _ => rfl, rfl⟩
  · exact .refl pid s

theorem inGame_beside (pid : UInt16) (pl : Bytes) (len : UInt16) (t : Option PacketType) :
    Beside pid s (inGame w x s pid pl len t).2 := by
  unfold inGame
  split
  · split
    · exact .refl pid s
    · exact spawnOutcome_beside pid _
  · split
    · exact .refl pid s
    · split
      · exact .refl pid s
      · exact deleted_beside pid _
  · split
    · exact .refl pid s
    · exact chatted_beside x pid _
  · exact readied_beside pid
  · exact claimed_beside x pid
  · exact .refl pid s

theorem inGame_confined {pid : UInt16} (hid : ∀ p, s.players.lookup pid = some p → p.id = pid) (pl : Bytes) (len : UInt16)
    (t : Option PacketType) : Confined w pid s (inGame w x s pid pl len t).2 := by
  have hsame := inGame_same w x s pid pl len t
  have hbeside := inGame_beside (w := w) (s := s) x pid pl len t
  refine ⟨hsame.keys, hsame.sessionToPlayer, hbeside.records, hbeside.vehicles, hsame.nextPlayerId, hsame.tcp, hsame.udp,
    _, (inGame_posted w x s pid pl len t).sent, fun e he => ?_⟩
  obtain ⟨p, hp, hep⟩ := List.mem_flatMap.mp he
  exact deliver_about (inGamePosts_about x hid pl len t p hp) s e hep

/-! ## Packets -/

/-- Of a packet's header, type and length are all that is read. -/
theorem onTCPPacket_header (sid : UInt16) {data data' : Bytes} {hdr hdr' : PacketHeader}
    (h : Packet.parseHeader data = .ok hdr) (h' : Packet.parseHeader data' = .ok hdr') (htype : hdr'.type = hdr.type)
    (hlen : hdr'.payloadLen = hdr.payloadLen) (hpl : Packet.payload data' = Packet.payload data) :
    onTCPPacket w x sid data' [] s = onTCPPacket w x sid data [] s := by
  rw [onTCPPacket_eq, onTCPPacket_eq, h, h', hpl]
  simp only [dispatch, htype, hlen]

/-- In every reachable state, a packet other than an `AUTH_REQUEST` acts for its session's
    player only, does nothing on a session without one, and does the same whatever its
    header's sender, sequence and flags. -/
theorem acts_for_own_player (w : World) {s : Server} (hr : Reach w anyStep s) (x : Env) (sid : UInt16) {data : Bytes}
    {hdr : PacketHeader} (h : Packet.parseHeader data = .ok hdr) (hauth : PacketType.ofCode hdr.type ≠ some .authRequest) :
    (∀ pid, s.sessionToPlayer.lookup sid = some pid → Confined w pid s (onTCPPacket w x sid data [] s).2) ∧
    (sid ∉ s.sessionToPlayer → onTCPPacket w x sid data [] s = (.ok (), s)) ∧
    ∀ data' hdr', Packet.parseHeader data' = .ok hdr' → hdr'.type = hdr.type → hdr'.payloadLen = hdr.payloadLen →
      Packet.payload data' = Packet.payload data → onTCPPacket w x sid data' [] s = onTCPPacket w x sid data [] s := by
  have hdispatch : onTCPPacket w x sid data [] s =
      if playerOf s sid = 0xFFFF then (.ok (), s)
      else inGame w x s (playerOf s sid) (Packet.payload data) hdr.payloadLen (PacketType.ofCode hdr.type) := by
    rw [onTCPPacket_eq, h]
    simp only [dispatch, if_neg hauth]
  refine ⟨fun pid hpid => ?_, fun hsid => ?_, fun data' hdr' h' htype hlen hpl => ?_⟩
  · rw [hdispatch, playerOf_some hpid]
    split
    · exact .refl pid s
    · exact inGame_confined x (fun p hp => (records_reach hr pid p hp).id) _ _ _
  · rw [hdispatch, playerOf_none (AList.lookup_eq_none.mpr hsid), if_pos rfl]
  · exact onTCPPacket_header x sid h h' htype hlen hpl

/-- `ann`'s `READY`, with another player's id in the header. -/
def spoofedReady : Bytes := Packet.buildStr .ready 9 0 []

theorem spoofedReady_acts_for_ann : Sample.joined.sessionToPlayer.lookup 1 = some 1 ∧
    Confined Sample.world 1 Sample.joined (onTCPPacket Sample.world Env.quiet 1 spoofedReady [] Sample.joined).2 := by
  have hl : Sample.joined.sessionToPlayer.lookup 1 = some 1 := by decide
  have hreach : Reach Sample.world anyStep Sample.joined :=
    .step (.step .init trivial Sample.step_connected) trivial Sample.step_joined
  have hh : Packet.parseHeader spoofedReady = .ok ⟨PacketType.ready.code, 9, 0, 0, 0⟩ := rfl
  exact ⟨hl, (acts_for_own_player Sample.world hreach Env.quiet 1 hh (by decide)).1 1 hl⟩

end NovaMP.GameServer
