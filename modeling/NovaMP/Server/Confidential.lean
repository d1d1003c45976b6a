/-
  NovaMP.Server.Confidential — what a connection learns that has not authenticated.

  `m_session_to_player` says which sessions are players'; messages to one player are
  addressed through it. `TCPServer::sendAll` goes through `m_sessions` instead, where a
  connection is from the moment it is accepted. So announcements reach everyone who
  connects, and the server keeps them among the players only while nobody else is
  connected (`Covered`): whenever a call broadcasts, each session of `m_sessions` is a
  key of `m_session_to_player`.

  - `sent_to_players`: then all announcements of a call go to players' sessions.
  - `twin_received`: then a connection that never authenticates receives the same bytes
    in two runs that differ in what the players send (`Twin`).
  - `outsiders_learn_nothing`: both, over runs.
  - `outsider_reads_chat`: a second connection, which sends nothing, reads the chat.
-/

import NovaMP.Server.Runs

namespace NovaMP

open Lib Exec

/-- The type byte of a packet. -/
def Packet.typeOf (pkt : Bytes) : Option PacketType := pkt.head?.bind PacketType.ofCode

theorem Packet.typeOf_buildStr (type : PacketType) (senderId : UInt16) (sequence : UInt32) (payload : Bytes) :
    Packet.typeOf (Packet.buildStr type senderId sequence payload) = some type := by
  have hhead : (Packet.buildStr type senderId sequence payload).head? = some type.code := rfl
  rw [Packet.typeOf, hhead, Option.bind_some, PacketType.ofCode_code]

namespace GameServer

variable (w : World) (x : Env) (s : Server)

/-! ## Announcements -/

def announcements : List PacketType := [.chatMessage, .playerJoin, .playerLeave, .vehicleSpawn, .vehicleDelete]

/-- Every announcement of the last call went to a player's session. -/
def ToPlayersOnly (s : Server) : Prop :=
  ∀ sid object pkt type, .tcp sid object pkt ∈ s.sent → Packet.typeOf pkt = some type → type ∈ announcements →
    sid ∈ s.sessionToPlayer

/-! ## When a call broadcasts -/

/-- A packet of the player `pid` is announced to all. -/
def Announced (pid : UInt16) (pl : Bytes) (len : UInt16) : Option PacketType → Prop
  | some .vehicleSpawn =>
    ∃ body j p model, readBytes pl len.toNat = .ok body ∧ w.parse body = some j ∧ s.players.lookup pid = some p ∧
      (p.vehicles.length : Int) < w.cfg.vehicleLimitPerPlayer ∧ j.value "model" "etk800" = .ok model
  | some .vehicleDelete => 1 ≤ len ∧ pl ≠ [] ∧ pid ∈ s.players
  | some .chatMessage =>
    ∃ msg p, readBytes pl len.toNat = .ok msg ∧ s.players.lookup pid = some p ∧ p.isMuted = false ∧
      refuses (cstr (x.plugin "onChatMessage" (chatArgs pid p msg))) = false
  | some .ready => pid ∈ s.players
  | _ => False

/-- A call makes the server broadcast over TCP. -/
def Broadcasts : Call → Prop
  | .frame object data =>
    ∃ t hdr, s.tcp.objects[object]? = some t ∧ isFrame t data ∧ Packet.parseHeader data = .ok hdr ∧
      playerOf s t.id ≠ 0xFFFF ∧
      Announced w x s (playerOf s t.id) (Packet.payload data) hdr.payloadLen (PacketType.ofCode hdr.type)
  | .close object => ∃ t, s.tcp.objects[object]? = some t ∧ playerOf s t.id ≠ 0xFFFF
  | .sendChat playerId _ => playerId < 0
  | _ => False

/-- The session a call takes out of `m_sessions`. -/
def leaving : Call → Option UInt16
  | .close object => s.tcp.objects[object]?.map (·.id)
  | _ => none

/-- When the call broadcasts, everyone `sendAll` reaches is a player. -/
def Covered (s : Server) (x : Env) (c : Call) : Prop :=
  Broadcasts w x s c →
    ∀ sid ∈ s.tcp.sessions, sid ≠ 0xFFFF → leaving s c ≠ some sid → sid ∈ s.sessionToPlayer

/-! ## Whom the messages go to -/

/-- What is sent to a session goes to a player's, and to its connection. -/
def ToMapped (s : Server) : Sent → Prop
  | .tcp sid object _ => object = s.tcp.sessions.lookup sid ∧ sid ∈ s.sessionToPlayer
  | .udp _ _ => True

def AllMapped (s : Server) : Prop := ∀ sid ∈ s.tcp.sessions, sid ≠ 0xFFFF → sid ∈ s.sessionToPlayer

theorem ToMapped.of_same {s s' : Server} (h : Same s s') {e : Sent} (he : ToMapped s e) : ToMapped s' e := by
  cases e with
  | udp dest pkt => trivial
  | tcp sid object pkt =>
    show object = s'.tcp.sessions.lookup sid ∧ sid ∈ s'.sessionToPlayer
    rw [h.tcp, h.sessionToPlayer]
    exact he

variable {s}

theorem toSession_mapped {sid : UInt16} (h : sid ∈ s.sessionToPlayer) (pkt : Bytes) :
    ∀ e ∈ s.toSession sid pkt, ToMapped s e := by
  intro e he
  rw [List.mem_singleton.mp he]
  exact ⟨rfl, h⟩

theorem toPlayer_mapped (pid : UInt16) (pkt : Bytes) : ∀ e ∈ s.toPlayer pid pkt, ToMapped s e := by
  intro e he
  unfold Server.toPlayer at he
  cases hk : s.sessionToPlayer.keyOf pid with
  | none => rw [hk] at he; cases he
  | some sid =>
    rw [hk] at he
    exact toSession_mapped (Table.mem_of_lookup (Table.lookup_keyOf hk)) pkt e he

theorem toAll_mapped (h : AllMapped s) (pkt : Bytes) : ∀ e ∈ s.toAll pkt, ToMapped s e := by
  intro e he
  obtain ⟨entry, hentry, rfl⟩ := List.mem_map.mp he
  obtain ⟨hmem, hne⟩ := List.mem_filter.mp hentry
  have hl : s.tcp.sessions.lookup entry.1 = some entry.2 := Table.lookup_iff_mem.mpr hmem
  exact ⟨hl.symm, h _ (Table.mem_of_lookup hl) (by simpa using hne)⟩

theorem chat_mapped {playerId : Int} (h : playerId < 0 → AllMapped s) (msg : Bytes) :
    ∀ e ∈ s.chat playerId msg, ToMapped s e := by
  unfold Server.chat
  split
  · rename_i hneg
    exact toAll_mapped (h hneg) _
  · exact toPlayer_mapped _ _

theorem authoritySent_mapped (calls : List AuthorityCall) :
    ∀ e ∈ calls.flatMap (authoritySent w s), ToMapped s e := by
  intro e he
  obtain ⟨c, -, hc⟩ := List.mem_flatMap.mp he
  cases c with
  | grant pid => exact toPlayer_mapped pid _ e hc
  | revoke pid => exact toPlayer_mapped pid _ e hc

/-! ## What a call adds to the log -/

/-- Each message `s'` has sent and `s` has not satisfies `P`. -/
def Sends (P : Sent → Prop) (s s' : Server) : Prop := ∀ e ∈ s'.sent, e ∈ s.sent ∨ P e

namespace Sends

variable {P : Sent → Prop} {t u : Server}

theorem of_sent (h : t.sent = s.sent) : Sends P s t := by
  intro e he
  rw [h] at he
  exact .inl he

theorem log {es : List Sent} (h : ∀ e ∈ es, P e) : Sends P s (s.log es) := by
  intro e he
  rcases List.mem_append.mp he with he | he
  · exact .inl he
  · exact .inr (h e he)

theorem trans (h : Sends P s t) (h' : Sends P t u) : Sends P s u := by
  intro e he
  rcases h' e he with he | he
  · exact h e he
  · exact .inr he

theorem mono {Q : Sent → Prop} (h : Sends P s t) (hPQ : ∀ e, P e → Q e) : Sends Q s t := by
  intro e he
  rcases h e he with he | he
  · exact .inl he
  · exact .inr (hPQ e he)

end Sends

theorem authority_sends (calls : List AuthorityCall) : Sends (ToMapped s) s (authority w s calls) :=
  .log (authoritySent_mapped w calls)

theorem announceLeave_sends (h : AllMapped s) (pid : UInt16) : Sends (ToMapped s) s (announceLeave w x s pid) := by
  have hleave : Sends (ToMapped s) s (s.log (s.toAll (leavePacket w pid))) := .log (toAll_mapped h _)
  unfold announceLeave
  dsimp only
  split
  · exact hleave.trans (authority_sends w _)
  · exact hleave

theorem readied_sends {pid : UInt16} (h : pid ∈ s.players → AllMapped s) : Sends (ToMapped s) s (readied w s pid) := by
  unfold readied
  cases hp : s.players.lookup pid with
  | none => exact .of_sent rfl
  | some p =>
    have hall := h (Table.mem_of_lookup hp)
    have hjoin : Sends (ToMapped s) s (s.log (s.toAll (joinPacket w { p with state := .ready }))) :=
      .log (toAll_mapped hall _)
    exact hjoin.trans (.log (chat_mapped (fun _ => hall) _))

theorem spawnOutcome_sends {pid : UInt16} {body : Bytes}
    (h : ∀ j p model, w.parse body = some j → s.players.lookup pid = some p →
      (p.vehicles.length : Int) < w.cfg.vehicleLimitPerPlayer → j.value "model" "etk800" = .ok model → AllMapped s) :
    Sends (ToMapped s) s (spawnOutcome w s pid body).2 := by
  unfold spawnOutcome
  split
  · rename_i j p hj hp
    split
    · exact .of_sent rfl
    · rename_i hlim
      split
      · exact .of_sent rfl
      · rename_i model hm
        have hall := h j p model hj hp (by omega) hm
        exact Sends.log (toAll_mapped hall (spawnPacket w pid (newVehicle w p j model)))
  · exact .of_sent rfl

theorem deleted_sends {pid : UInt16} (h : pid ∈ s.players → AllMapped s) (vid : UInt8) :
    Sends (ToMapped s) s (deleted s pid vid) := by
  unfold deleted
  cases hp : s.players.lookup pid with
  | none => exact .of_sent rfl
  | some p => exact Sends.log (toAll_mapped (h (Table.mem_of_lookup hp)) (deletePacket pid vid))

theorem chatted_sends {pid : UInt16} {msg : Bytes}
    (h : ∀ p, s.players.lookup pid = some p → p.isMuted = false →
      refuses (cstr (x.plugin "onChatMessage" (chatArgs pid p msg))) = false → AllMapped s) :
    Sends (ToMapped s) s (chatted x s pid msg) := by
  unfold chatted
  cases hp : s.players.lookup pid with
  | none => exact .of_sent rfl
  | some p =>
    dsimp only
    split
    · exact .of_sent rfl
    · rename_i hm
      split
      · exact .of_sent rfl
      · rename_i hr
        have hall := h p hp (by simpa using hm) (by simpa using hr)
        exact Sends.log (chat_mapped (fun _ => hall) (chatText p msg))

theorem claimed_sends (pid : UInt16) : Sends (ToMapped s) s (claimed w x s pid) := by
  unfold claimed
  split
  · dsimp only
    split
    · exact authority_sends w _
    · have hchat : ∀ e ∈ s.chat pid.toNat noAuthority, ToMapped s e :=
        chat_mapped (fun h => absurd h (by omega)) _
      exact (authority_sends w _).trans (.log hchat)
  · exact .of_sent rfl

theorem inGame_sends {pid : UInt16} {pl : Bytes} {len : UInt16} {type : Option PacketType}
    (h : Announced w x s pid pl len type → AllMapped s) : Sends (ToMapped s) s (inGame w x s pid pl len type).2 := by
  unfold inGame
  split
  · split
    · exact .of_sent rfl
    · rename_i body hb
      exact spawnOutcome_sends w fun j p model hj hp hlim hm => h ⟨body, j, p, model, hb, hj, hp, hlim, hm⟩
  · split
    · exact .of_sent rfl
    · rename_i hlen
      cases pl with
      | nil => exact .of_sent rfl
      | cons vid rest =>
        have hlen : 1 ≤ len := UInt16.not_lt.mp hlen
        exact deleted_sends (fun hp => h ⟨hlen, List.cons_ne_nil _ _, hp⟩) vid
  · split
    · exact .of_sent rfl
    · rename_i msg hb
      exact chatted_sends x fun p hp hm hr => h ⟨msg, p, hb, hp, hm, hr⟩
  · exact readied_sends w h
  · exact claimed_sends w x pid
  · exact .of_sent rfl

theorem toEndpoints_mapped (pkt : Bytes) (exclude : UInt16) : ∀ e ∈ s.toEndpoints pkt exclude, ToMapped s e := by
  intro e he
  obtain ⟨entry, -, rfl⟩ := List.mem_map.mp he
  trivial

theorem datagramOutcome_sends (source : UDPEndpoint) (data : Bytes) (hdr : PacketHeader) :
    Sends (ToMapped s) s (datagramOutcome w x s source data hdr).2 := by
  refine datagramOutcome_keeps w x s (.of_sent rfl) (fun es hes => .log fun e he => ?_) (fun _ => .of_sent rfl)
    source data hdr
  obtain ⟨dest, pkt, rfl⟩ := hes e he
  trivial

theorem relayed_mapped : ∀ e ∈ relayed s, ToMapped s e := by
  intro e he
  obtain ⟨b, -, hb⟩ := List.mem_flatMap.mp he
  exact toEndpoints_mapped _ _ e hb

theorem markBanned_sent (id : UInt16) : (markBanned s id).sent = s.sent := by
  unfold markBanned
  split <;> rfl

theorem kicked_sends {s' : Server} {id : UInt16} {reason : Bytes} (h : kicked s id reason = (.ok (), s')) :
    Sends (ToMapped s) s s' := by
  unfold kicked at h
  cases hk : s.sessionToPlayer.keyOf id with
  | none =>
    rw [hk] at h
    cases h
    exact .of_sent rfl
  | some sid =>
    rw [hk] at h
    rw [(dropped_ok h).1]
    exact .log (toSession_mapped (Table.mem_of_lookup (Table.lookup_keyOf hk)) _)

theorem removePlayer_sent (pid : UInt16) : (removePlayer s pid).sent = s.sent := by
  unfold removePlayer
  split <;> rfl

/-- The announcement goes out when the session has left both tables. -/
theorem left_sends {u : Server} (hsent : u.sent = s.sent) (h : AllMapped u) (pid : UInt16) :
    Sends (ToMapped (announceLeave w x u pid)) s (announceLeave w x u pid) := by
  have hleave := announceLeave_sends w x h pid
  exact (Sends.of_sent hsent).trans (hleave.mono fun e he => he.of_same (announceLeave_same w x u pid))

theorem closed_sends {object : Nat} (h : Covered w s x (.close object)) :
    Sends (ToMapped (closed w x s object)) s (closed w x s object) := by
  cases ht : s.tcp.objects[object]? with
  | none =>
    rw [closed, ht]
    exact .of_sent rfl
  | some t =>
    rw [closed_some w x s ht]
    cases hl : s.sessionToPlayer.lookup t.id with
    | none =>
      rw [disconnected_none (by exact hl)]
      exact .of_sent rfl
    | some pid =>
      by_cases hp : pid = 0xFFFF
      · subst hp
        rw [disconnected_sentinel (by exact hl)]
        exact .of_sent rfl
      · rw [disconnected_some (by exact hl) hp]
        have hpid : playerOf s t.id ≠ 0xFFFF := by
          rw [playerOf, hl]
          exact hp
        refine left_sends w x (removePlayer_sent pid) ?_ pid
        intro sid hsid hne
        rw [removePlayer_tcp] at hsid
        rw [removePlayer_sessionToPlayer]
        obtain ⟨hother, hsid⟩ := AList.mem_erase.mp hsid
        have hleft : leaving s (.close object) ≠ some sid := by
          intro he
          rw [leaving, ht] at he
          exact hother (Option.some.inj he).symm
        exact AList.mem_erase.mpr ⟨hother, h ⟨t, ht, hpid⟩ sid hsid hne hleft⟩

/-! ## Authentication requests -/

/-- The session and the reason of a refused request after which the session stays. -/
def rejected (s : Server) : Call → Option (UInt16 × String)
  | .frame object data =>
    match authText s object data with
    | some (sid, body) =>
      match authBranch w s body with
      | .refused error false => some (sid, error)
      | _ => none
    | none => none
  | _ => none

/-- A reply to a session that has no connection any more. -/
def Unheard (e : Sent) : Prop := ∃ sid pkt, e = .tcp sid none pkt ∧ Packet.typeOf pkt = some .authResponse

theorem toSession_unheard {sid : UInt16} (h : s.tcp.sessions.lookup sid = none) (reply : Json) :
    ∀ e ∈ s.toSession sid (authResponse w reply), Unheard e := by
  intro e he
  rw [List.mem_singleton.mp he, h]
  exact ⟨sid, _, rfl, Packet.typeOf_buildStr _ _ _ _⟩

theorem authOutcome_sends {sid : UInt16} {body : Bytes} {s' : Server}
    (h : authOutcome w x s sid (authBranch w s body) = (.ok (), s'))
    (hr : ∀ error, authBranch w s body ≠ .refused error false) :
    Sends (fun e => ToMapped s' e ∨ Unheard e) s s' := by
  cases hb : authBranch w s body with
  | throws e => rw [hb] at h; cases h
  | refused error drop =>
    cases drop with
    | false => exact absurd hb (hr error)
    | true =>
      rw [hb] at h
      obtain ⟨rfl, hnone⟩ := dropped_ok h
      exact (Sends.log (toSession_unheard w hnone (okFalse (.str error)))).mono fun e he => .inr he
  | bridge =>
    rw [hb] at h
    cases h
    have hsid : sid ∈ (registered s sid aiBridge "bridge" .ready).sessionToPlayer :=
      (AList.mem_insert _).mpr (.inl rfl)
    exact (Sends.trans (.log (toSession_mapped hsid _)) (authority_sends w _)).mono fun e he => .inl he
  | badRole e => rw [hb] at h; cases h
  | player username role =>
    rw [hb] at h
    simp only [authOutcome] at h
    split at h
    · split at h
      · cases h
      · rename_i error _
        obtain ⟨rfl, hnone⟩ := dropped_ok h
        exact Sends.mono (.log (toSession_unheard w hnone (okFalse error))) fun e he => .inr he
    · cases h
      have hsid : sid ∈ (registered s sid username role .loadingMods).sessionToPlayer :=
        (AList.mem_insert _).mpr (.inl rfl)
      exact (Sends.trans (.log (toSession_mapped hsid _)) (.log (toSession_mapped hsid _))).mono fun e he => .inl he

/-- A request is rejected for its text alone. -/
theorem authBranch_rejected {body : Bytes} {error : String} (h : authBranch w s body = .refused error false)
    (t : Server) : authBranch w t body = .refused error false := by
  unfold authBranch at h ⊢
  cases hp : w.parse body with
  | none =>
    simp only [hp] at h ⊢
    exact h
  | some j =>
    simp only [hp] at h ⊢
    cases hu : j.value "username" "" with
    | error e => simp only [hu] at h; cases h
    | ok username =>
      simp only [hu] at h ⊢
      cases hs : j.value "server_password" "" with
      | error e => simp only [hs] at h; cases h
      | ok password =>
        simp only [hs] at h ⊢
        by_cases h1 : username = aiBridge
        · rw [if_pos h1] at h ⊢
          exact h
        rw [if_neg h1] at h ⊢
        by_cases h2 : username = ""
        · rw [if_pos h2] at h ⊢
          exact h
        rw [if_neg h2] at h
        split at h
        · cases h
        split at h
        · cases h
        split at h <;> cases h

theorem authText_congr {s t : Server} (h : s.tcp = t.tcp) (object : Nat) (data : Bytes) :
    authText s object data = authText t object data := by
  simp only [authText, h]

theorem rejected_of_tcp {s t : Server} (h : s.tcp = t.tcp) {c : Call} {r : UInt16 × String}
    (hr : rejected w s c = some r) : rejected w t c = some r := by
  cases c with
  | frame object data =>
    simp only [rejected] at hr ⊢
    rw [← authText_congr h]
    split at hr
    · split at hr
      · rename_i hb
        rw [authBranch_rejected w hb t]
        exact hr
      · cases hr
    · cases hr
  | _ => cases hr

theorem rejected_congr {s t : Server} (h : s.tcp = t.tcp) (c : Call) : rejected w s c = rejected w t c := by
  cases hs : rejected w s c with
  | some r => exact (rejected_of_tcp w h hs).symm
  | none =>
    cases ht : rejected w t c with
    | none => rfl
    | some r =>
      rw [rejected_of_tcp w h.symm ht] at hs
      cases hs

/-! ## Completed calls -/

theorem outcome_rejected {c : Call} {sid : UInt16} {error : String} (h : rejected w s c = some (sid, error)) :
    outcome w x s c = (.ok (), s.log (s.toSession sid (refusal w error))) := by
  cases c with
  | frame object data =>
    simp only [rejected] at h
    split at h
    · rename_i ha
      split at h
      · rename_i hb
        cases h
        rw [outcome_auth w x s ha, hb]
        rfl
      · cases h
    · cases h
  | _ => cases h

theorem outcome_sends {c : Call} {s' : Server} (hc : Covered w s x c) (h : outcome w x s c = (.ok (), s'))
    (hr : rejected w s c = none) : Sends (fun e => ToMapped s' e ∨ Unheard e) s s' := by
  -- Most calls leave both tables alone, so what was a player's session still is.
  have hkeep : Same s s' → Sends (ToMapped s) s s' → Sends (fun e => ToMapped s' e ∨ Unheard e) s s' :=
    fun hsame hsends => hsends.mono fun e he => .inl (he.of_same hsame)
  cases c with
  | accept ip => cases h; exact .of_sent rfl
  | frame object data =>
    rcases frame_cases w x s object data with ⟨-, r, hf⟩ | ⟨sid, body, ha⟩ | ⟨-, t, hdr, ht, hframe, hh, hp, hg⟩
    · rw [hf] at h
      obtain rfl : s = s' := congrArg Prod.snd h
      exact .of_sent rfl
    · rw [outcome_auth w x s ha] at h
      refine authOutcome_sends w x h fun error hb => ?_
      simp only [rejected, ha, hb] at hr
      cases hr
    · have hsame := inGame_same w x s (playerOf s t.id) (Packet.payload data) hdr.payloadLen (PacketType.ofCode hdr.type)
      have hsends : Sends (ToMapped s) s (inGame w x s (playerOf s t.id) (Packet.payload data) hdr.payloadLen
          (PacketType.ofCode hdr.type)).2 := by
        refine inGame_sends w x fun hann sid hsid hne => ?_
        refine hc ⟨t, hdr, ht, hframe, hh, hp, hann⟩ sid hsid hne (fun e => ?_)
        cases e
      rw [← hg, h] at hsame hsends
      exact hkeep hsame hsends
  | close object =>
    cases h
    exact (closed_sends w x hc).mono fun e he => .inl he
  | datagram source data =>
    simp only [outcome] at h
    split at h
    · split at h
      · cases h
      · rename_i hdr _
        have hsame := datagramOutcome_same w x s source data hdr
        have hsends := datagramOutcome_sends w x (s := s) source data hdr
        rw [h] at hsame hsends
        exact hkeep hsame hsends
    · cases h
      exact .of_sent rfl
  | broadcastAll =>
    cases h
    exact hkeep ((Same.vsync s _).trans (.log _ _)) (Sends.log relayed_mapped)
  | kickPlayer id reason => exact hkeep (kicked_same h) (kicked_sends h)
  | banPlayer id reason =>
    refine (Sends.of_sent (markBanned_sent id)).trans ?_
    exact (kicked_sends h).mono fun e he => .inl (he.of_same (kicked_same h))
  | sendChat playerId msg =>
    cases h
    refine hkeep (.log s _) (.log (chat_mapped (fun hneg sid hsid hne => ?_) msg))
    refine hc hneg sid hsid hne (fun e => ?_)
    cases e
  | grantAuthority pid => cases h; exact hkeep (.log s _) (.log (toPlayer_mapped pid _))
  | revokeAuthority pid => cases h; exact hkeep (.log s _) (.log (toPlayer_mapped pid _))

theorem clear_sent {s' : Server} {P : Sent → Prop} (h : Sends P s.clear s') : ∀ e ∈ s'.sent, P e := by
  intro e he
  rcases h e he with he | he
  · cases he
  · exact he

/-- All announcements of a call that is covered go to players' sessions. -/
theorem sent_to_players {c : Call} {s' : Server} (hc : Covered w s x c) (hs : Step w s x c s') :
    ToPlayersOnly s' := by
  have ho := step_outcome hs
  intro sid object pkt type he htype hann
  -- The replies to authentication requests are no announcements.
  have hreply (h : Packet.typeOf pkt = some .authResponse) : sid ∈ s'.sessionToPlayer := by
    rw [h] at htype
    cases htype
    exact absurd hann (by decide)
  cases hr : rejected w s.clear c with
  | some r =>
    obtain ⟨sid', error⟩ := r
    rw [outcome_rejected w x hr] at ho
    cases ho
    have he : Sent.tcp sid object pkt = .tcp sid' (s.clear.tcp.sessions.lookup sid') (refusal w error) :=
      List.mem_singleton.mp he
    cases he
    exact hreply (Packet.typeOf_buildStr _ _ _ _)
  | none =>
    rcases clear_sent (outcome_sends w x hc ho hr) _ he with ⟨-, hsid⟩ | ⟨_, _, hu, hu'⟩
    · exact hsid
    · cases hu
      exact hreply hu'

/-- The connections after a call. -/
def nextTcp (tcp : TCPServer) : Call → TCPServer
  | .accept ip => tcp.addSession ip
  | .close object =>
    match tcp.objects[object]? with
    | some t => (tcp.closeSocket object).eraseSession t.id
    | none => tcp
  | _ => tcp

theorem step_tcp {c : Call} {s' : Server} (hs : Step w s x c s') : s'.tcp = nextTcp s.tcp c := by
  have ho := step_outcome hs
  cases c with
  | accept ip => cases ho; rfl
  | close object =>
    cases ho
    cases ht : s.tcp.objects[object]? with
    | none =>
      have hclear : s.clear.tcp.objects[object]? = none := ht
      rw [closed, hclear, nextTcp, ht]
      rfl
    | some t =>
      have hclear : s.clear.tcp.objects[object]? = some t := ht
      rw [closed_some w x _ hclear, disconnected_tcp, nextTcp, ht]
      rfl
  | _ =>
    rcases step_cases w x s hs with hsame | _ | _ | ⟨-, hsame⟩ | ⟨-, hsame⟩ <;> exact hsame.tcp

/-! ## What one connection receives -/

/-- The packets of the last call that were written to the connection `o`. -/
def received (o : Nat) (s : Server) : List Bytes :=
  s.sent.filterMap fun e =>
    match e with
    | .tcp _ (some object) pkt => if object = o then some pkt else none
    | _ => none

/-- The id of the connection `o` is not a key of `m_session_to_player`. -/
def Outsider (o : Nat) (s : Server) : Prop := ∀ t, s.tcp.objects[o]? = some t → t.id ∉ s.sessionToPlayer

/-- What a call makes the server reply to an outsider. -/
def replyTo (o : Nat) (s : Server) (c : Call) : List Bytes :=
  match rejected w s c with
  | some (sid, error) => if s.tcp.sessions.lookup sid = some o then [refusal w error] else []
  | none => []

theorem not_outsider {o : Nat} (ho : Outsider o s) {sid : UInt16} (h : s.tcp.sessions.lookup sid = some o) :
    sid ∉ s.sessionToPlayer := by
  obtain ⟨t, ht, rfl⟩ := s.tcp.own sid o h
  exact ho t ht

theorem received_nil {o : Nat} (ho : Outsider o s) (h : ∀ e ∈ s.sent, ToMapped s e ∨ Unheard e) : received o s = [] := by
  apply List.filterMap_eq_nil_iff.mpr
  intro e he
  rcases h e he with hm | ⟨_, _, rfl, -⟩
  · cases e with
    | udp dest pkt => rfl
    | tcp sid object pkt =>
      cases object with
      | none => rfl
      | some object =>
        have hne : object ≠ o := by
          intro heq
          subst heq
          exact not_outsider ho hm.1.symm hm.2
        exact if_neg hne
  · rfl

theorem step_received {o : Nat} {c : Call} {s' : Server} (hc : Covered w s x c) (hs : Step w s x c s')
    (ho : Outsider o s') : received o s' = replyTo w o s c := by
  have hout := step_outcome hs
  have hclear : rejected w s c = rejected w s.clear c := rejected_congr w rfl c
  rw [replyTo, hclear]
  cases hr : rejected w s.clear c with
  | some r =>
    obtain ⟨sid, error⟩ := r
    rw [outcome_rejected w x hr] at hout
    cases hout
    show [Sent.tcp sid (s.tcp.sessions.lookup sid) (refusal w error)].filterMap _ = _
    cases hl : s.tcp.sessions.lookup sid with
    | none => simp [hl]
    | some object =>
      by_cases h : object = o
      · simp [hl, h]
      · simp [hl, h]
  | none => exact received_nil ho (clear_sent (outcome_sends w x hc hout hr))

/-! ## Two runs -/

/-- What the players send: the frames of their sessions, and the datagrams. -/
def FromPlayer (s : Server) : Call → Prop
  | .frame object _ => ∃ t, s.tcp.objects[object]? = some t ∧ t.id ∈ s.sessionToPlayer
  | .datagram _ _ => True
  | _ => False

/-- A call that leaves the connection `o` an outsider. -/
structure Moves (ok : Server → Env → Call → Prop) (o : Nat) (s : Server) (x : Env) (c : Call) (s' : Server) : Prop where
  allowed : ok s x c
  step : Step w s x c s'
  outsider : Outsider o s'

/-- Two runs in which the connection `o` never authenticates, with the packets it has
    received in each. They differ only in what the players send, and in what the plugins
    and `AIAuthority` answer. -/
inductive Twin (ok : Server → Env → Call → Prop) (o : Nat) : Server → List Bytes → Server → List Bytes → Prop
  | init : Twin ok o Server.init [] Server.init []
  | both {s t s' t' : Server} {as bs : List Bytes} {x y : Env} {c : Call} : Twin ok o s as t bs →
      Moves w ok o s x c s' → Moves w ok o t y c t' → Twin ok o s' (as ++ received o s') t' (bs ++ received o t')
  | left {s t s' : Server} {as bs : List Bytes} {x : Env} {c : Call} : Twin ok o s as t bs →
      FromPlayer s c → Moves w ok o s x c s' → Twin ok o s' (as ++ received o s') t bs
  | right {s t t' : Server} {as bs : List Bytes} {y : Env} {c : Call} : Twin ok o s as t bs →
      FromPlayer t c → Moves w ok o t y c t' → Twin ok o s as t' (bs ++ received o t')

/-- A player's packet opens and closes no connection, and an outsider hears nothing of it. -/
theorem fromPlayer_unseen {o : Nat} {c : Call} {s' : Server} (hf : FromPlayer s c) (ho : Outsider o s)
    (hm : Moves w (Covered w) o s x c s') : s'.tcp = s.tcp ∧ received o s' = [] := by
  rw [step_tcp w x hm.step, step_received w x hm.allowed hm.step hm.outsider, replyTo]
  cases c with
  | frame object data =>
    refine ⟨rfl, ?_⟩
    simp only [rejected]
    split
    · rename_i sid error hr
      split at hr
      · rename_i sid' body ha
        have hsid : sid' = sid := by
          split at hr
          · cases hr; rfl
          · cases hr
        subst hsid
        obtain ⟨t, ht, hplayer⟩ := hf
        obtain ⟨t', ht', hid, -⟩ := authText_object s ha
        rw [ht] at ht'
        cases ht'
        refine if_neg fun hl => ?_
        exact not_outsider ho hl (hid ▸ hplayer)
      · cases hr
    · rfl
  | datagram source data => exact ⟨rfl, rfl⟩
  | _ => exact hf.elim

theorem twin_received {o : Nat} {s t : Server} {as bs : List Bytes} (h : Twin w (Covered w) o s as t bs) :
    s.tcp = t.tcp ∧ Outsider o s ∧ Outsider o t ∧ as = bs := by
  induction h with
  | init =>
    have hnobody : Outsider o Server.init := fun t ht => by simp [Server.init, TCPServer.empty] at ht
    exact ⟨rfl, hnobody, hnobody, rfl⟩
  | @both s t s' t' as bs x y c _ hs ht ih =>
    obtain ⟨htcp, -, -, heq⟩ := ih
    have hreply : replyTo w o s c = replyTo w o t c := by
      rw [replyTo, replyTo, rejected_congr w htcp, htcp]
    refine ⟨?_, hs.outsider, ht.outsider, ?_⟩
    · rw [step_tcp w x hs.step, step_tcp w y ht.step, htcp]
    · rw [heq, step_received w x hs.allowed hs.step hs.outsider, step_received w y ht.allowed ht.step ht.outsider,
        hreply]
  | @left s t s' as bs x c _ hf hs ih =>
    obtain ⟨htcp, hos, hot, heq⟩ := ih
    obtain ⟨htcp', hnil⟩ := fromPlayer_unseen w x hf hos hs
    refine ⟨htcp'.trans htcp, hs.outsider, hot, ?_⟩
    rw [hnil, List.append_nil, heq]
  | @right s t t' as bs y c _ hf ht ih =>
    obtain ⟨htcp, hos, hot, heq⟩ := ih
    obtain ⟨htcp', hnil⟩ := fromPlayer_unseen w y hf hot ht
    refine ⟨htcp.trans htcp'.symm, hos, ht.outsider, ?_⟩
    rw [hnil, List.append_nil, heq]

/-- In every run in which the server broadcasts only while all connections are players',
    announcements go to players only; and what the players send makes no difference to a
    connection that never authenticates. -/
theorem outsiders_learn_nothing (w : World) :
    (∀ s, Reach w (Covered w) s → ToPlayersOnly s) ∧
      ∀ o s t as bs, Twin w (Covered w) o s as t bs → as = bs := by
  constructor
  · intro s h
    cases h with
    | init => exact fun sid object pkt type he => nomatch he
    | step _ hok hs => exact sent_to_players w _ hok hs
  · intro o s t as bs h
    exact (twin_received w h).2.2.2

def chatFrame : Bytes := Packet.buildStr .chatMessage 1 0 (utf8 "hi")

/-- `ann`, alone on the server, chats. -/
def alone : Server := after Sample.world Sample.joined Env.quiet (.frame 0 chatFrame)

theorem reach_joined : Reach Sample.world (Covered Sample.world) Sample.joined := by
  have h1 : Reach Sample.world (Covered Sample.world) Sample.connected := by
    refine .step .init (fun h => ?_) Sample.step_connected
    exact h.elim
  refine .step h1 (fun h => ?_) Sample.step_joined
  obtain ⟨t, hdr, -, -, -, hplayer, -⟩ := h
  exact absurd rfl hplayer

theorem covered_chat : Covered Sample.world Sample.joined Env.quiet (.frame 0 chatFrame) := by
  intro _ sid hsid _ _
  have hkeys : Sample.joined.tcp.sessions.keys = [1] := by decide
  rw [AList.mem_keys, hkeys, List.mem_singleton] at hsid
  subst hsid
  decide

/-- A second connection comes, and asks for what no request says. -/
def greeted (s : Server) : Server := after Sample.world s Env.quiet (.accept "10.0.0.2")

def answered (s : Server) : Server := after Sample.world (greeted s) Env.quiet (.frame 1 (authFrame (userJson "")))

theorem outsider_of {o : Nat} {s : Server} (h : s.tcp.objects[o]?.all (fun t => decide (t.id ∉ s.sessionToPlayer)) = true) :
    Outsider o s := by
  intro t ht
  rw [ht] at h
  exact of_decide_eq_true h

/-- The call of the second connection broadcasts nothing. -/
theorem covered_request {s : Server} (hid : s.tcp.objects[1]?.all (fun t => decide (playerOf s t.id = 0xFFFF)) = true)
    (data : Bytes) : Covered Sample.world s Env.quiet (.frame 1 data) := by
  intro h
  obtain ⟨t, hdr, ht, -, -, hplayer, -⟩ := h
  rw [ht] at hid
  exact absurd (of_decide_eq_true hid) hplayer

/-- In one run `ann` chats, in the other she does not; then a second connection comes. -/
theorem twin_answered : Twin Sample.world (Covered Sample.world) 1
    (answered alone) ([] ++ received 1 Sample.connected ++ received 1 Sample.joined ++ received 1 alone ++
      received 1 (greeted alone) ++ received 1 (answered alone))
    (answered Sample.joined) ([] ++ received 1 Sample.connected ++ received 1 Sample.joined ++
      received 1 (greeted Sample.joined) ++ received 1 (answered Sample.joined)) := by
  have haccept : ∀ ip s, Covered Sample.world s Env.quiet (.accept ip) := fun _ _ h => h.elim
  have h1 : Twin Sample.world (Covered Sample.world) 1 Server.init [] Server.init [] := .init
  have hconnected : Moves Sample.world (Covered Sample.world) 1 Server.init Env.quiet (.accept "10.0.0.1") Sample.connected :=
    ⟨haccept _ _, Sample.step_connected, outsider_of (by decide)⟩
  have h2 := h1.both hconnected hconnected
  have hjoined : Moves Sample.world (Covered Sample.world) 1 Sample.connected Env.quiet (.frame 0 (authFrame (userJson "ann")))
      Sample.joined := by
    refine ⟨fun h => ?_, Sample.step_joined, outsider_of (by decide)⟩
    obtain ⟨t, hdr, -, -, -, hplayer, -⟩ := h
    exact absurd rfl hplayer
  have h3 := h2.both hjoined hjoined
  have hfrom : FromPlayer Sample.joined (.frame 0 chatFrame) := ⟨_, rfl, by decide⟩
  have h4 := h3.left hfrom ⟨covered_chat, step_after _ _ _ (by decide), outsider_of (by decide)⟩
  have hgreeted (s : Server) (ho : Outsider 1 (greeted s)) :
      Moves Sample.world (Covered Sample.world) 1 s Env.quiet (.accept "10.0.0.2") (greeted s) :=
    ⟨haccept _ _, step_ends _ _ _ rfl, ho⟩
  have h5 := h4.both (hgreeted alone (outsider_of (by decide))) (hgreeted Sample.joined (outsider_of (by decide)))
  exact h5.both ⟨covered_request (by decide) _, step_after _ _ _ (by decide), outsider_of (by decide)⟩
    ⟨covered_request (by decide) _, step_after _ _ _ (by decide), outsider_of (by decide)⟩

theorem alone_learns_nothing : (Reach Sample.world (Covered Sample.world) alone ∧ alone.sent ≠ [] ∧ ToPlayersOnly alone) ∧
    ∃ as bs, Twin Sample.world (Covered Sample.world) 1 (answered alone) as (answered Sample.joined) bs ∧ as ≠ [] ∧ as = bs := by
  have halone : Reach Sample.world (Covered Sample.world) alone := .step reach_joined covered_chat (step_after _ _ _ (by decide))
  exact ⟨⟨halone, by decide, (outsiders_learn_nothing Sample.world).1 alone halone⟩,
    _, _, twin_answered, by decide, (outsiders_learn_nothing Sample.world).2 _ _ _ _ _ twin_answered⟩

/-- A second connection, which sends nothing. -/
def visited : Server := after Sample.world Sample.joined Env.quiet (.accept "10.0.0.2")

def overheard : Server := after Sample.world visited Env.quiet (.frame 0 chatFrame)

/-- It reads what `ann` writes. -/
theorem outsider_reads_chat : ¬ ∀ w : World, (∀ s, Reach w anyStep s → ToPlayersOnly s) ∧
    ∀ o s t as bs, Twin w anyStep o s as t bs → as = bs := by
  intro h
  have h1 : Step Sample.world Sample.joined Env.quiet (.accept "10.0.0.2") visited :=
    step_ends _ _ _ rfl
  have h2 : Step Sample.world visited Env.quiet (.frame 0 chatFrame) overheard :=
    step_after _ _ _ (by decide)
  have hjoined : Reach Sample.world anyStep Sample.joined :=
    .step (.step .init trivial Sample.step_connected) trivial Sample.step_joined
  have hreach : Reach Sample.world anyStep overheard := .step (.step hjoined trivial h1) trivial h2
  have hsent : .tcp 2 (some 1) (Packet.buildStr .chatMessage 0 0 (utf8 "ann: hi")) ∈ overheard.sent := by decide
  have hkey := (h Sample.world).1 overheard hreach 2 (some 1) _ .chatMessage hsent
    (Packet.typeOf_buildStr _ _ _ _) (by decide)
  exact absurd hkey (by decide)

end GameServer

end NovaMP
