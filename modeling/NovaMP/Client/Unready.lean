/-
  NovaMP.Client.Unready — clients that run the Lua mod never get into the game
  (`tcpSend` and its callers in `client/Resources/Client/main.lua`, `handleReady` and
  `handleAuthorityClaim` in `servers/src/game_server.cpp`).

  The mod writes packets of four types. The call that would send `READY` is a comment, and
  `PKT_AUTHORITY_CLAIM` is not used, so what the server does for these two types is never
  done for a player of the mod.

  - `act_outbox`: each packet a client writes has one of the four types.
  - `outcome_fired`: a frame that is no `READY` does not fire `onPlayerJoin`.
  - `never_ready`: in every run of the server with such clients the records stay at
    `LOADING_MODS`, no `PLAYER_JOIN` is on its way to anyone, and no plugin hears of a
    player who has joined.
-/

import NovaMP.Client.Echo
import NovaMP.Network.Members

namespace NovaMP

open Lib Lib.StringPack GameServer

/-! ## What the server does for other types -/

namespace GameServer

variable (w : World) (x : Env) (s : Server)

/-- No player has joined, as far as plugins have been told since `s`. -/
def Unjoined (s s' : Server) : Prop := ∀ e ∈ s'.fired, e ∈ s.fired ∨ e.event ≠ "onPlayerJoin"

namespace Unjoined

variable {s}

theorem of_fired {s' : Server} (h : s'.fired = s.fired) : Unjoined s s' := fun _ he => .inl (h ▸ he)

theorem trans {t u : Server} (h : Unjoined s t) (h' : Unjoined t u) : Unjoined s u := by
  intro e he
  rcases h' e he with he | hne
  · exact h e he
  · exact .inr hne

theorem note (s : Server) {event : String} (args : List Bytes) (h : event ≠ "onPlayerJoin") :
    Unjoined s (s.note ⟨event, args, []⟩) := by
  intro e he
  rcases List.mem_append.mp he with he | he
  · exact .inl he
  · rw [List.mem_singleton.mp he]
    exact .inr h

end Unjoined

theorem announceLeave_unjoined (pid : UInt16) : Unjoined s (announceLeave w x s pid) := by
  have hleft : Unjoined s ((s.log (s.toAll (leavePacket w pid))).note ⟨"onPlayerDisconnect", [cstr (idText pid)], []⟩) :=
    (Unjoined.of_fired rfl).trans (.note _ _ (by decide))
  unfold announceLeave
  dsimp only
  split
  · exact hleft
  · exact hleft

theorem dropped_unjoined (sid : UInt16) : Unjoined s (dropped s sid).2 := by
  unfold dropped
  split <;> exact .of_fired rfl

theorem kicked_unjoined (id : UInt16) (reason : Bytes) : Unjoined s (kicked s id reason).2 := by
  unfold kicked
  split
  · exact (Unjoined.of_fired rfl).trans (dropped_unjoined _ _)
  · exact .of_fired rfl

theorem closed_unjoined (object : Nat) : Unjoined s (closed w x s object) := by
  unfold closed
  split
  · unfold disconnected
    dsimp only
    split
    · exact .of_fired rfl
    · split
      · exact .of_fired rfl
      · refine Unjoined.trans ?_ (announceLeave_unjoined w x _ _)
        unfold removePlayer
        split <;> exact .of_fired rfl
  · exact .of_fired rfl

theorem authOutcome_unjoined (sid : UInt16) (b : AuthBranch) : Unjoined s (authOutcome w x s sid b).2 := by
  cases b with
  | throws e => exact .of_fired rfl
  | refused error drop =>
    cases drop with
    | false => exact .of_fired rfl
    | true => exact (Unjoined.of_fired rfl).trans (dropped_unjoined _ _)
  | bridge => exact .of_fired rfl
  | badRole e => exact .of_fired rfl
  | player username role =>
    have hasked : Unjoined s ((registered s sid username role .loadingMods).note
        ⟨"onPlayerAuth", authArgs s username, []⟩) := (Unjoined.of_fired rfl).trans (.note _ _ (by decide))
    simp only [authOutcome]
    split
    · split
      · exact hasked
      · exact hasked.trans ((Unjoined.of_fired rfl).trans (dropped_unjoined _ _))
    · exact hasked

theorem inGame_unjoined (pid : UInt16) (pl : Bytes) (len : UInt16) {t : Option PacketType} (ht : t ≠ some .ready) :
    Unjoined s (inGame w x s pid pl len t).2 := by
  unfold inGame
  split
  · split
    · exact .of_fired rfl
    · unfold spawnOutcome
      split
      · split
        · exact .of_fired rfl
        · split
          · exact .of_fired rfl
          · exact (Unjoined.of_fired rfl).trans (.note _ _ (by decide))
      · exact .of_fired rfl
  · split
    · exact .of_fired rfl
    · split
      · exact .of_fired rfl
      · unfold deleted
        split
        · exact .of_fired rfl
        · exact (Unjoined.of_fired rfl).trans (.note _ _ (by decide))
  · split
    · exact .of_fired rfl
    · unfold chatted
      split
      · exact .of_fired rfl
      · split
        · exact .of_fired rfl
        · dsimp only
          split
          · exact .note _ _ (by decide)
          · exact (Unjoined.note s _ (by decide)).trans (.of_fired rfl)
  · exact absurd rfl ht
  · unfold claimed
    split
    · dsimp only
      split <;> exact .of_fired rfl
    · exact .of_fired rfl
  · exact .of_fired rfl

variable {w x s}

/-- A call other than a `READY` tells no plugin that a player has joined. -/
theorem outcome_unjoined {c : Call}
    (hc : ∀ object data hdr, c = .frame object data → Packet.parseHeader data = .ok hdr →
      PacketType.ofCode hdr.type ≠ some .ready) : Unjoined s (outcome w x s c).2 := by
  cases c with
  | frame object data =>
    simp only [outcome]
    split
    · split
      · split
        · exact .of_fired rfl
        · rename_i hdr hh
          unfold dispatch
          split
          · split
            · exact .of_fired rfl
            · exact authOutcome_unjoined w x s _ _
          · split
            · exact .of_fired rfl
            · exact inGame_unjoined w x s _ _ _ (hc object data hdr rfl hh)
      · exact .of_fired rfl
    · exact .of_fired rfl
  | close object => exact closed_unjoined w x s object
  | datagram source data =>
    simp only [outcome]
    split
    · split
      · exact .of_fired rfl
      · exact datagramOutcome_keeps w x s (P := fun t => Unjoined s t) (.of_fired rfl) (fun _ _ => .of_fired rfl)
          (fun _ => .of_fired rfl) source data _
    · exact .of_fired rfl
  | kickPlayer id reason => exact kicked_unjoined s id reason
  | banPlayer id reason =>
    refine Unjoined.trans ?_ (kicked_unjoined _ id _)
    unfold markBanned
    split <;> exact .of_fired rfl
  | accept _ | broadcastAll | sendChat _ _ | grantAuthority _ | revokeAuthority _ => exact .of_fired rfl

end GameServer

/-! ## What the mod writes -/

namespace Client

open Extension

/-- `AUTH_REQUEST`, `VEHICLE_SPAWN`, `VEHICLE_DELETE` and `CHAT_MESSAGE` -/
def spoken : List UInt8 := [0x01, 0x06, 0x07, 0x0B]

/-- The packet has a type that the mod writes. -/
def Spoken (data : Bytes) : Prop := ∃ t ∈ spoken, data.head? = some t

theorem tcpSend_ok {m m' : Mod} {ptype : Int} {payload : Option Bytes} {bytes : Bytes}
    (h : tcpSend m ptype payload = (m', .ok bytes)) : ∃ header frame,
      pack headerFormat [.int ptype, .int m.playerId, .int (m.tcpSeq + 1), .int (payload.getD []).length, .int 0] =
        .ok header ∧
      pack lengthFormat [.int (header.length + (payload.getD []).length)] = .ok frame ∧
      bytes = frame ++ header ++ payload.getD [] := by
  obtain ⟨header, hheader, hrest⟩ := bind_eq_ok.mp (congrArg Prod.snd h)
  obtain ⟨frame, hframe, hbytes⟩ := bind_eq_ok.mp hrest
  exact ⟨header, frame, hheader, hframe, (Except.ok.inj hbytes).symm⟩

/-- The first byte of the packet is its type. -/
theorem tcpSend_type {m m' : Mod} {t : UInt8} {payload : Option Bytes} {bytes : Bytes}
    (h : tcpSend m t.toNat payload = (m', .ok bytes)) : (bytes.drop 4).head? = some t := by
  obtain ⟨header, frame, hheader, hframe, rfl⟩ := tcpSend_ok h
  have hlen : frame.length = 4 := by
    rw [pack_length hframe, lengthFormat_eq]
    rfl
  rw [headerFormat_eq] at hheader
  obtain ⟨b, rest, hb, -, rfl⟩ := pack_cons_inv hheader
  have htype : b = leBytes 1 t.toNat := Except.ok.inj (hb.symm.trans (put_unsigned t.toNat_lt))
  rw [List.append_assoc, List.drop_left' hlen, htype, leBytes_one, UInt8.ofNat_toNat]
  rfl

theorem tcpSend_spoken {m m' : Mod} {t : UInt8} {payload : Option Bytes} {bytes : Bytes} (ht : t ∈ spoken)
    (h : tcpSend m t.toNat payload = (m', .ok bytes)) : Spoken (bytes.drop 4) := ⟨t, ht, tcpSend_type h⟩

theorem happens_spoken (x : Extension) (e : GameEvent) : ∀ bytes ∈ (x.happens e).2.1, Spoken (bytes.drop 4) := by
  intro bytes hbytes
  cases e with
  | spawned gid text =>
    rw [happens, onVehicleSpawned] at hbytes
    split at hbytes
    · cases hbytes
    split at hbytes
    · cases hbytes
    split at hbytes
    · cases hbytes
    · rename_i hsend
      rw [List.mem_singleton.mp hbytes]
      exact tcpSend_spoken (t := 0x06) (by decide) hsend
  | destroyed gid =>
    rw [happens, onVehicleDestroyed] at hbytes
    split at hbytes
    · cases hbytes
    split at hbytes
    · cases hbytes
    split at hbytes
    · cases hbytes
    · rename_i hsend
      rw [List.mem_singleton.mp hbytes]
      exact tcpSend_spoken (t := 0x07) (by decide) hsend
  | appears gid => cases hbytes
  | vanishes gid => cases hbytes

namespace Peer

theorem send_outbox {p : Peer} {t : UInt8} {payload data : Bytes} (ht : t ∈ spoken)
    (h : data ∈ (p.send t.toNat payload).outbox) : data ∈ p.outbox ∨ Spoken data := by
  unfold Peer.send at h
  split at h
  · rename_i hsend
    rcases List.mem_append.mp h with h | h
    · exact .inl h
    · rw [List.mem_singleton.mp h]
      exact .inr (tcpSend_spoken ht hsend)
  · exact .inl h

/-- What a client writes has one of the four types. -/
theorem act_outbox {p : Peer} {a : Act} {data : Bytes} (h : data ∈ (p.act a).outbox) : data ∈ p.outbox ∨ Spoken data := by
  cases a with
  | connect auth => exact send_outbox (t := 0x01) (by decide) h
  | chat msg =>
    rw [Peer.act] at h
    split at h
    · exact send_outbox (t := 0x0B) (by decide) h
    · exact .inl h
  | game e =>
    rcases List.mem_append.mp h with h | h
    · exact .inl h
    · obtain ⟨bytes, hbytes, rfl⟩ := List.mem_map.mp h
      exact .inr (happens_spoken p.client e bytes hbytes)
  | tick due read => exact .inl h

theorem act_inbox (p : Peer) (a : Act) : (p.act a).inbox = p.inbox := by
  have hsend : ∀ ptype payload, (p.send ptype payload).inbox = p.inbox := by
    intro ptype payload
    unfold Peer.send
    split <;> rfl
  cases a with
  | connect auth => exact hsend _ _
  | chat msg =>
    rw [Peer.act]
    split
    · exact hsend _ _
    · rfl
  | game e => rfl
  | tick due read => rfl

end Peer

/-! ## What the server makes of it -/

theorem head?_of_parseHeader {data : Bytes} {hdr : PacketHeader} (h : Packet.parseHeader data = .ok hdr) :
    data.head? = some hdr.type := by
  have hlen : 10 ≤ data.length := by
    by_contra hlt
    rw [Packet.parseHeader_of_lt (by omega)] at h
    cases h
  rw [Packet.parseHeader_of_le hlen] at h
  have hhdr := Except.ok.inj h
  have htake : PacketHeader.codec.encode hdr = data.take 10 := by
    rw [← hhdr]
    exact Codec.encode_decode _ _ (by simp; omega)
  have hhead : (data.take 10).head? = data.head? := by rw [List.head?_take, if_neg (by decide)]
  rw [← hhead, ← htake, PacketHeader.encode_eq]
  rfl

/-- A frame of the mod is no `READY` and no `AUTHORITY_CLAIM`. -/
theorem Spoken.type_ne {data : Bytes} {hdr : PacketHeader} (hs : Spoken data) (hh : Packet.parseHeader data = .ok hdr) :
    PacketType.ofCode hdr.type ≠ some .ready ∧ PacketType.ofCode hdr.type ≠ some .authorityClaim := by
  obtain ⟨t, ht, hhead⟩ := hs
  rw [head?_of_parseHeader hh] at hhead
  rw [Option.some.inj hhead]
  clear hhead
  simp only [spoken, List.mem_cons, List.not_mem_nil, or_false] at ht
  rcases ht with rfl | rfl | rfl | rfl <;> decide

/-- The call is no frame, or one that the mod may have written. -/
def FromMod (call : Call) : Prop := ∀ k data, call = .frame k data → Spoken data

/-- Everybody is still at `LOADING_MODS` but the bridge, which is ready from the start. -/
def OnlyBridgeReady (s : Server) : Prop :=
  ∀ pid p, s.players.lookup pid = some p → p.state = .loadingMods ∨ p.username = aiBridge

theorem OnlyBridgeReady.of_players {s t : Server} (h : OnlyBridgeReady s) (ht : t.players = s.players) : OnlyBridgeReady t := by
  intro pid p hp
  rw [ht] at hp
  exact h pid p hp

theorem OnlyBridgeReady.put {s t : Server} (h : OnlyBridgeReady s) {id : UInt16} {p q : Player}
    (hp : s.players.lookup id = some p) (ht : t.players = s.players.put id q) (hname : q.username = p.username)
    (hstate : q.state = p.state) : OnlyBridgeReady t := by
  intro pid r hr
  rw [ht] at hr
  by_cases hid : pid = id
  · subst hid
    rw [Table.lookup_put_self hp] at hr
    cases hr
    rw [hname, hstate]
    exact h pid p hp
  · rw [Table.lookup_put_ne hid] at hr
    exact h pid r hr

theorem OnlyBridgeReady.erase {s : Server} (h : OnlyBridgeReady s) (id : UInt16) :
    OnlyBridgeReady { s with players := s.players.erase id } := by
  intro pid p hp
  have hp' : (s.players.erase id).lookup pid = some p := hp
  rw [Table.lookup_erase'] at hp'
  split at hp'
  · cases hp'
  · exact h pid p hp'

theorem OnlyBridgeReady.registered {w : World} {s : Server} (h : OnlyBridgeReady s) {sid : UInt16} {body : Bytes}
    {username role : String} {st : PlayerState} (hb : (authBranch w s body).admits = some (username, role, st)) :
    OnlyBridgeReady (registered s sid username role st) := by
  intro pid p hp
  have hp' : (s.players.insert (freshId s) ⟨freshId s, username, role, s.remoteIP sid, st, false, false, []⟩).lookup pid =
    some p := hp
  rw [Table.lookup_insert'] at hp'
  split at hp'
  · cases hp'
    obtain ⟨j, password, ha⟩ := admits_admission hb
    rcases ha.checks with ⟨hname, -⟩ | ⟨-, -, -, -, -, hst⟩
    · exact .inr hname
    · exact .inl hst
  · exact h pid p hp'

variable {w : World} {s s' : Server} {c : Call} {as : List Announcement}

theorem change_unready (h : OnlyBridgeReady s) (hm : FromMod c) (hc : Change w s c as s') : OnlyBridgeReady s' := by
  cases hc with
  | quiet ha => exact h.of_players ha.players
  | accept ha => exact h.of_players ha.players
  | turn _ _ hh _ ht =>
    have hready := ((hm _ _ rfl).type_ne hh).1
    generalize PacketType.ofCode _ = t at ht hready
    cases ht with
    | quiet ha => exact h.of_players ha.players
    | ready _ _ => exact absurd rfl hready
    | spawn hp _ ha => exact h.put hp ha.players rfl rfl
    | delete hp ha => exact h.put hp ha.players rfl rfl
  | banned hp ha => exact h.put hp ha.players rfl rfl
  | closed _ _ ha => exact h.of_players ha.players
  | left _ _ _ ha => exact (h.erase _).of_players ha.players
  | registered _ hb ha => exact (h.registered hb).of_players ha.players
  | vetoed _ hb ha => exact ((h.registered hb).erase _).of_players ha.players

/-- Nobody is announced as a new player. -/
theorem change_no_join (hm : FromMod c) (hc : Change w s c as s') (pid : UInt16) : Announcement.join pid ∉ as := by
  cases hc with
  | turn _ _ hh _ ht =>
    have hready := ((hm _ _ rfl).type_ne hh).1
    generalize PacketType.ofCode _ = t at ht hready
    cases ht with
    | ready _ _ => exact absurd rfl hready
    | quiet _ => exact List.not_mem_nil
    | spawn _ _ _ => simp
    | delete _ _ => simp
  | left _ _ _ _ => simp
  | quiet _ | accept _ | banned _ _ | closed _ _ _ | registered _ _ _ | vetoed _ _ _ => exact List.not_mem_nil

theorem head?_packet (w : World) (m : Message) : (m.packet w).head? = some m.type.code := rfl

/-- A post goes out as its packet. -/
theorem mem_deliver {p : Post} {e : NovaMP.Sent} (h : e ∈ deliver w s p) :
    ∃ sid object, e = .tcp sid object (p.message.packet w) := by
  obtain ⟨audience, m⟩ := p
  cases audience with
  | session sid => exact ⟨sid, _, List.mem_singleton.mp h⟩
  | player pid =>
    have hplayer : e ∈ s.toPlayer pid (m.packet w) := h
    unfold Server.toPlayer at hplayer
    split at hplayer
    · exact ⟨_, _, List.mem_singleton.mp hplayer⟩
    · cases hplayer
  | all =>
    obtain ⟨entry, -, rfl⟩ := List.mem_map.mp h
    exact ⟨_, _, rfl⟩

/-- What a session object is sent by a call is one of its posts. -/
theorem inbox_post {x : Env} {k : Nat} {packet : Bytes} (hs : Step w s x c s') (h : packet ∈ inboxOf k s'.sent) :
    ∃ post ∈ posts w x s.clear c, packet = post.message.packet w := by
  have hsent := outcome_sent w x s.clear c
  rw [step_outcome hs] at hsent
  obtain ⟨e, he, hpacket⟩ := List.mem_filterMap.mp h
  cases e with
  | udp _ _ => cases hpacket
  | tcp sid object pkt =>
    have hmem : NovaMP.Sent.tcp sid object pkt ∈ tcpSent s' := List.mem_filter.mpr ⟨he, rfl⟩
    rw [hsent] at hmem
    obtain ⟨post, hpost, hdeliver⟩ := List.mem_flatMap.mp ((List.mem_append.mp hmem).resolve_left List.not_mem_nil)
    obtain ⟨_, _, hpkt⟩ := mem_deliver hdeliver
    cases hpkt
    cases object with
    | none => cases hpacket
    | some j =>
      simp only [Option.ite_none_right_eq_some, Option.some.injEq] at hpacket
      exact ⟨post, hpost, hpacket.2.symm⟩

/-- A call whose announcements name no new player writes no `PLAYER_JOIN`. -/
theorem inbox_no_join {x : Env} {k : Nat} {packet : Bytes} (hs : Step w s x c s')
    (hjoin : ∀ pid, Announcement.join pid ∉ announced w x s.clear c) (h : packet ∈ inboxOf k s'.sent) :
    packet.head? ≠ some PacketType.playerJoin.code := by
  obtain ⟨⟨audience, m⟩, hpost, rfl⟩ := inbox_post hs h
  intro htype
  cases m with
  | playerJoin p => exact hjoin p.id (List.mem_filterMap.mpr ⟨_, hpost, rfl⟩)
  | _ => simp [head?_packet, Message.type, PacketType.code] at htype

/-! ## Runs -/

namespace Lobby

/-- What never changes while all clients run the mod. -/
structure Unready (c : Lobby) : Prop where
  outbox : ∀ k, ∀ data ∈ (c.peers k).outbox, Spoken data
  records : OnlyBridgeReady c.server
  inbox : ∀ k, ∀ packet ∈ (c.peers k).inbox, packet.head? ≠ some PacketType.playerJoin.code
  fired : ∀ e ∈ c.server.fired, e.event ≠ "onPlayerJoin"

variable {l : Lobby}

theorem Unready.setPeer (h : l.Unready) {k : Nat} {p : Peer} (hout : ∀ data ∈ p.outbox, Spoken data)
    (hin : ∀ packet ∈ p.inbox, packet.head? ≠ some PacketType.playerJoin.code) : (l.setPeer k p).Unready where
  outbox j := by
    by_cases hj : j = k
    · subst hj
      show ∀ data ∈ (Function.update l.peers j p j).outbox, Spoken data
      rwa [Function.update_self]
    · show ∀ data ∈ (Function.update l.peers k p j).outbox, Spoken data
      rw [Function.update_of_ne hj]
      exact h.outbox j
  records := h.records
  inbox j := by
    by_cases hj : j = k
    · subst hj
      show ∀ packet ∈ (Function.update l.peers j p j).inbox, packet.head? ≠ some PacketType.playerJoin.code
      rwa [Function.update_self]
    · show ∀ packet ∈ (Function.update l.peers k p j).inbox, packet.head? ≠ some PacketType.playerJoin.code
      rw [Function.update_of_ne hj]
      exact h.inbox j
  fired := h.fired

/-- The server handles a call that the mod may have caused. -/
theorem Unready.hears (h : l.Unready) {x : Env} (hm : FromMod c) (hs : Step w l.server x c s') : (l.hears s').Unready where
  outbox := h.outbox
  records := change_unready h.records hm (step_change w x l.server hs)
  inbox k packet hpacket := by
    rcases List.mem_append.mp hpacket with hpacket | hpacket
    · exact h.inbox k packet hpacket
    · exact inbox_no_join hs (change_no_join hm (step_change w x l.server hs)) hpacket
  fired e he := by
    have hout : Unjoined l.server.clear (outcome w x l.server.clear c).2 :=
      outcome_unjoined fun k data hdr hc hh => ((hm k data hc).type_ne hh).1
    rw [step_outcome hs] at hout
    exact (hout e he).resolve_left List.not_mem_nil

/-- However the clients that run the mod and the rest of the server's callers take turns:
    what the server has not read yet is of the mod's four types, every player but the bridge
    is at `LOADING_MODS`, no `PLAYER_JOIN` is on its way, and no plugin has been told of one. -/
theorem never_ready (w : World) (decode : Bytes → Option Json)
    (ok : Extension → Option Nat → Except PackError Incoming → Prop) (l : Lobby)
    (hr : Run (fun _ => True) w decode ok l) : l.Unready := by
  induction hr with
  | init => exact ⟨fun _ _ h => absurd h List.not_mem_nil, fun pid p h => by simp [init, Server.init] at h,
      fun _ _ h => absurd h List.not_mem_nil, fun _ h => absurd h List.not_mem_nil⟩
  | @act l k a _ _ ih =>
    refine ih.setPeer (fun data hdata => ?_) ?_
    · exact (Peer.act_outbox hdata).elim (ih.outbox k data) id
    · rw [Peer.act_inbox]
      exact ih.inbox k
  | @serve l k data rest x s _ _ hout hs ih =>
    have hdata : Spoken data := ih.outbox k data (hout ▸ List.mem_cons_self)
    have hpeer : (l.setPeer k { l.peers k with outbox := rest }).Unready :=
      ih.setPeer (fun d hd => ih.outbox k d (hout ▸ List.mem_cons_of_mem _ hd)) (ih.inbox k)
    refine hpeer.hears (w := w) (x := x) (c := .frame k data) (fun j d hc => ?_) hs
    cases hc
    exact hdata
  | @elsewhere l x call s _ hcall hs ih => exact ih.hears (fun j d hc => absurd hc (hcall j d trivial)) hs
  | @tcp l k packet rest _ _ _ hin _ ih =>
    exact ih.setPeer (ih.outbox k) fun p hp => ih.inbox k p (hin ▸ List.mem_cons_of_mem _ hp)
  | @udp l k _ _ _ _ _ _ ih => exact ih.setPeer (ih.outbox k) (ih.inbox k)

end Lobby

/-! ## One client -/

namespace Solo

/-- The run of `Solo.joined`, where every session object is a client of the mod. -/
abbrev ModRuns : Lobby → Prop := Lobby.Run (fun _ => True) world decode fun _ _ _ => True

theorem modRun_served {c : Lobby} (hr : ModRuns c) (hout : (c.peers 0).outbox.length = 1)
    (hs : (exec world Env.quiet (.frame 0 ((c.peers 0).outbox.head?.getD [])) [] c.server.clear).1 = .ok ()) :
    ModRuns (served c) := by
  refine .serve (k := 0) hr trivial ?_ (step_after world _ _ hs)
  obtain ⟨data, hdata⟩ := List.length_eq_one_iff.mp hout
  rw [hdata]
  rfl

theorem modRun_asking : ModRuns asking :=
  .act (.connect (text (userJson "ann"))) (.elsewhere .init (fun _ _ _ h => by cases h) (step_ends world _ _ rfl)) trivial

end Solo

/-- The client has logged in. -/
theorem never_ready_login : (Solo.served Solo.asking).Unready ∧ 1 ∈ (Solo.served Solo.asking).server.players :=
  ⟨Lobby.never_ready Solo.world Solo.decode (fun _ _ _ => True) _
    (Solo.modRun_served Solo.modRun_asking (by decide +kernel) (by decide +kernel)), by decide +kernel⟩

end Client

end NovaMP
