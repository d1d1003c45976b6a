/-
  NovaMP.Client.Agreement — a client and the server agree on who the client is
  (`handlePacket` in `client/Resources/Client/main.lua`, `handleAuth`, `onDisconnect` and
  `onTCPPacket` in `servers/src/game_server.cpp`).

  The server takes a packet for one of the player that `m_session_to_player` has for its
  session; a client takes itself for the `player_id` of the last login answer. An answer is
  on its way for a while. `foretold` is who the client will be when it has read all that
  was written to it.

  A session id has 16 bits and is given again after 65536 connections, so all this is
  about clients whose session id no other connection has been given.

  - `learns_message`: only a login answer changes whom a client takes itself for.
  - `step_foretold`: a call that maps a session tells its client so, and no other does.
  - `Lobby.Inv`, `run_inv`: what holds of the sessions and of what is on its way.
  - `login_agreement`: in every run, `foretold` is what the server has.
-/

import NovaMP.Client.Unready
import NovaMP.Network.Decimal
import NovaMP.Server.Endpoints

namespace NovaMP.Client

open Lib StringPack Extension GameServer

/-! ## Whom a client takes itself for -/

def Extension.identity (x : Extension) : Option Int := if x.connected then some x.mod.playerId else none

/-- What a packet makes of that. -/
def learns (b : Option Int) : Except PackError Incoming → Option Int
  | .ok (.authenticated (some p)) => some p
  | .ok .kick => none
  | _ => b

/-- Whom it takes itself for once it has read its inbox. -/
def Peer.foretold (decode : Bytes → Option Json) (p : Peer) : Option Int :=
  p.inbox.foldl (fun b packet => learns b (readTCP decode packet)) p.client.identity

/-- The mod reads the answers to a login as the server means them; what is left of an
    error that is too long for its packet is no consent either. -/
structure Understood (w : World) (decode : Bytes → Option Json) : Prop where
  short : ∀ pid, ((Message.authOk pid).text w).length ≤ 65535
  ok : ∀ pid, ∃ j, decode ((Message.authOk pid).text w) = some j ∧ truthy (field j "ok") = true ∧
    intField j "player_id" = some (pid.toNat : Int)
  error : ∀ error n j, decode (((Message.authError error).text w).take n) = some j → truthy (field j "ok") = false

section

variable {x y : Extension} {spawned : Option Nat} {i : Incoming}

/-- Login and kick apart, a packet leaves it. -/
theorem handle_identity (hlogin : i ≠ .authenticated none) : (x.handle spawned i).1.identity = learns x.identity (.ok i) := by
  cases i with
  | authenticated o =>
    cases o with
    | none => exact absurd rfl hlogin
    | some p => rfl
  | kick =>
    rw [handle, deactivate]
    split <;> rfl
  | playerLeave o =>
    cases o with
    | none => rfl
    | some p =>
      rw [handle, onPlayerLeave]
      split <;> rfl
  | vehicleSpawn p v =>
    cases spawned with
    | none => rfl
    | some gid => cases p <;> cases v <;> rfl
  | vehicleDelete v => rfl
  | vehicleUpdate payload =>
    rw [handle, Extension.onRemoteVehicleUpdate]
    split <;> rfl
  | grant =>
    rw [handle, activate]
    split <;> rfl
  | revoke =>
    rw [handle, deactivate]
    split <;> rfl
  | other => rfl

theorem handleRead_identity {r : Except PackError Incoming} (hlogin : r ≠ .ok (.authenticated none)) :
    (x.handleRead spawned r).1.identity = learns x.identity r := by
  cases r with
  | error e => rfl
  | ok i => exact handle_identity fun hi => hlogin (congrArg Except.ok hi)

end

/-- The user, the game and the clock do not change it. -/
theorem Peer.act_identity (p : Peer) (a : Act) : (p.act a).client.identity = p.client.identity := by
  have hsend : ∀ ptype payload, (p.send ptype payload).client.identity = p.client.identity := by
    intro ptype payload
    unfold Peer.send
    split
    · rename_i hm
      rw [Extension.identity, Extension.identity, tcpSend_mod hm]
    · rename_i hm
      rw [Extension.identity, Extension.identity, tcpSend_mod hm]
  cases a with
  | connect auth => exact hsend _ _
  | chat msg =>
    rw [Peer.act]
    split
    · exact hsend _ _
    · rfl
  | game e =>
    obtain ⟨tcpSeq, scene, playerVids, hframe⟩ := happens_frame p.client e
    have hclient : (p.act (.game e)).client = (p.client.happens e).1 := rfl
    rw [hclient, hframe]
    rfl
  | tick due read =>
    obtain ⟨vidMap, hframe⟩ := onUpdate_frame p.client due read
    have hclient : (p.act (.tick due read)).client = (p.client.onUpdate due read).1 := rfl
    rw [hclient, hframe]
    rfl

theorem Peer.act_foretold (decode : Bytes → Option Json) (p : Peer) (a : Act) :
    (p.act a).foretold decode = p.foretold decode := by
  rw [Peer.foretold, Peer.foretold, act_inbox, act_identity]

/-! ## What the server's packets say of it -/

section

variable {w : World} {decode : Bytes → Option Json}

/-- A message with as much of its text as its packet holds. -/
def cut (w : World) (m : Message) : Outgoing where
  type := m.type
  senderId := m.sender
  sequence := 0
  payload := (m.text w).take ((m.text w).length % 65536)
  flags := 0
  fits := by
    rw [List.length_take]
    omega

theorem cut_packet (m : Message) : (cut w m).packet = m.packet w := by
  have hlen : ((m.text w).take ((m.text w).length % 65536)).length = (m.text w).length % 65536 := by
    rw [List.length_take]
    have hle := Nat.mod_le (m.text w).length 65536
    omega
  have hcast : UInt16.ofNat ((m.text w).length % 65536) = UInt16.ofNat (m.text w).length := by
    apply UInt16.toNat_inj.mp
    simp
  rw [Outgoing.packet, Message.packet, Packet.buildStr]
  show Packet.build m.type m.sender 0 ((m.text w).take _) (UInt16.ofNat ((m.text w).take _).length) 0 = _
  rw [hlen, hcast, Packet.build, Packet.build, UInt16.toNat_ofNat', List.take_take, Nat.min_self]

theorem cut_payload {m : Message} (h : (m.text w).length ≤ 65535) : (cut w m).payload = m.text w := by
  show (m.text w).take _ = _
  rw [Nat.mod_eq_of_lt (by omega), List.take_length]

theorem readTCP_message (m : Message) : readTCP decode (m.packet w) = .ok (incoming decode m.type.code (cut w m).payload) := by
  rw [← cut_packet, readTCP_outgoing]
  rfl

theorem incoming_answer (payload : Bytes) : incoming decode 0x02 payload =
    match decode payload with
    | none => .other
    | some j => if truthy (field j "ok") then .authenticated (intField j "player_id") else .other := rfl

theorem readTCP_ok (hu : Understood w decode) (pid : UInt16) :
    readTCP decode ((Message.authOk pid).packet w) = .ok (.authenticated (some (pid.toNat : Int))) := by
  obtain ⟨j, hj, hok, hid⟩ := hu.ok pid
  have hread : incoming decode 0x02 ((Message.authOk pid).text w) = .authenticated (some (pid.toNat : Int)) := by
    rw [incoming_answer, hj]
    dsimp only
    rw [if_pos hok, hid]
  rw [readTCP_message, cut_payload (hu.short pid)]
  exact congrArg Except.ok hread

theorem readTCP_error (hu : Understood w decode) (error : String) :
    readTCP decode ((Message.authError error).packet w) = .ok .other := by
  have hread : ∀ n, incoming decode 0x02 (((Message.authError error).text w).take n) = .other := by
    intro n
    rw [incoming_answer]
    cases hj : decode (((Message.authError error).text w).take n) with
    | none => rfl
    | some j =>
      dsimp only
      rw [hu.error error n j hj, if_neg (by decide)]
  rw [readTCP_message]
  exact congrArg Except.ok (hread _)

/-- A packet of another type logs nobody in, and kicks nobody. -/
theorem incoming_aside (decode : Bytes → Option Json) {ptype : UInt8} (hanswer : ptype ≠ 0x02) (hkick : ptype ≠ 0x18)
    (payload : Bytes) :
    (∀ p, incoming decode ptype payload ≠ .authenticated p) ∧ incoming decode ptype payload ≠ .kick := by
  unfold incoming
  rw [if_neg hanswer]
  cases decode payload <;> dsimp only <;> repeat' split
  all_goals exact ⟨nofun, nofun⟩

theorem learns_aside {b : Option Int} {i : Incoming} (hlogin : ∀ p, i ≠ .authenticated p) (hkick : i ≠ .kick) :
    learns b (.ok i) = b := by
  cases i with
  | authenticated p => exact absurd rfl (hlogin p)
  | kick => exact absurd rfl hkick
  | _ => rfl

/-- A message that neither logs the client in nor kicks it. -/
def Aside (m : Message) : Prop := (∀ pid, m ≠ .authOk pid) ∧ ∀ reason, m ≠ .kick reason

theorem aside_type {m : Message} (hm : Aside m) (herror : ∀ error, m ≠ .authError error) :
    m.type.code ≠ 0x02 ∧ m.type.code ≠ 0x18 := by
  cases m with
  | authOk pid => exact absurd rfl (hm.1 pid)
  | authError error => exact absurd rfl (herror error)
  | kick reason => exact absurd rfl (hm.2 reason)
  | _ => exact ⟨nofun, nofun⟩

theorem learns_message (hu : Understood w decode) {m : Message} (hm : Aside m) (b : Option Int) :
    learns b (readTCP decode (m.packet w)) = b := by
  by_cases herror : ∃ error, m = .authError error
  · obtain ⟨error, rfl⟩ := herror
    rw [readTCP_error hu]
    rfl
  · obtain ⟨hanswer, hkick⟩ := aside_type hm fun error he => herror ⟨error, he⟩
    rw [readTCP_message]
    exact learns_aside (incoming_aside decode hanswer hkick _).1 (incoming_aside decode hanswer hkick _).2

theorem readTCP_login (hu : Understood w decode) (m : Message) :
    readTCP decode (m.packet w) ≠ .ok (.authenticated none) := by
  intro h
  cases m with
  | authOk pid =>
    rw [readTCP_ok hu] at h
    cases h
  | authError error =>
    rw [readTCP_error hu] at h
    cases h
  | kick reason =>
    rw [readTCP_message] at h
    cases h
  | _ =>
    rw [readTCP_message] at h
    exact (incoming_aside decode (by exact nofun) (by exact nofun) _).1 _ (Except.ok.inj h)

end

/-! ## What a call writes to a client -/

section

variable {w : World} {decode : Bytes → Option Json} {x : Env} {s s' : Server} {call : GameServer.Call} {sid : UInt16} {k : Nat}

theorem inboxOf_append (k : Nat) (es es' : List NovaMP.Sent) : inboxOf k (es ++ es') = inboxOf k es ++ inboxOf k es' :=
  List.filterMap_append

theorem inboxOf_tcp (k : Nat) (es : List NovaMP.Sent) : inboxOf k (es.filter NovaMP.Sent.isTcp) = inboxOf k es := by
  induction es with
  | nil => rfl
  | cons e es ih =>
    cases e with
    | udp dest packet => exact ih
    | tcp sid' object packet =>
      have hcons (l : List NovaMP.Sent) : inboxOf k (.tcp sid' object packet :: l) =
          inboxOf k [.tcp sid' object packet] ++ inboxOf k l := inboxOf_append k [_] l
      rw [List.filter_cons_of_pos rfl, hcons, ih, ← hcons]

/-- What a call writes to a session object is what is delivered to it of the posts. -/
theorem inboxOf_posts (hs : Step w s x call s') :
    inboxOf k s'.sent = (posts w x s.clear call).flatMap fun p => inboxOf k (deliver w s' p) := by
  have hsent := outcome_sent w x s.clear call
  rw [step_outcome hs] at hsent
  have hnil : tcpSent s.clear = [] := rfl
  rw [hnil, List.nil_append] at hsent
  rw [← inboxOf_tcp, ← tcpSent, hsent]
  induction posts w x s.clear call with
  | nil => rfl
  | cons p ps ih => rw [List.flatMap_cons, inboxOf_append, ih, List.flatMap_cons]

/-- A message to a session is written to its object. -/
theorem inboxOf_session (hk : s'.tcp.sessions.lookup sid = some k) (m : Message) :
    inboxOf k (deliver w s' ⟨.session sid, m⟩) = [m.packet w] := by
  show inboxOf k [.tcp sid (s'.tcp.sessions.lookup sid) (m.packet w)] = _
  rw [hk]
  simp [inboxOf]

/-- An object is that of one session. -/
theorem inboxOf_other {sid' : UInt16} (hk : s'.tcp.sessions.lookup sid = some k) (hne : sid' ≠ sid) (m : Message) :
    inboxOf k (deliver w s' ⟨.session sid', m⟩) = [] := by
  show inboxOf k [.tcp sid' (s'.tcp.sessions.lookup sid') (m.packet w)] = _
  cases hk' : s'.tcp.sessions.lookup sid' with
  | none => rfl
  | some j =>
    have hj : j ≠ k := by
      rintro rfl
      obtain ⟨t, ht, hid⟩ := s'.tcp.own sid j hk
      obtain ⟨t', ht', hid'⟩ := s'.tcp.own sid' j hk'
      cases ht.symm.trans ht'
      exact hne (hid'.symm.trans hid)
    simp [inboxOf, hj]

/-- `foretold` after some packets more. -/
def learnsAll (decode : Bytes → Option Json) (b : Option Int) (packets : List Bytes) : Option Int :=
  packets.foldl (fun b packet => learns b (readTCP decode packet)) b

theorem learnsAll_append (b : Option Int) (ps qs : List Bytes) :
    learnsAll decode b (ps ++ qs) = learnsAll decode (learnsAll decode b ps) qs := List.foldl_append

theorem learnsAll_aside (hu : Understood w decode) {packets : List Bytes}
    (h : ∀ packet ∈ packets, ∃ m, Aside m ∧ packet = m.packet w) (b : Option Int) : learnsAll decode b packets = b := by
  induction packets generalizing b with
  | nil => rfl
  | cons packet packets ih =>
    obtain ⟨m, hm, rfl⟩ := h packet List.mem_cons_self
    show learnsAll decode (learns b _) packets = b
    rw [learns_message hu hm]
    exact ih (fun packet' hp => h packet' (List.mem_cons_of_mem _ hp)) b

theorem deliver_aside {p : Post} (hm : Aside p.message) :
    ∀ packet ∈ inboxOf k (deliver w s' p), ∃ m, Aside m ∧ packet = m.packet w := by
  intro packet hp
  obtain ⟨e, he, hpacket⟩ := List.mem_filterMap.mp hp
  obtain ⟨sid', object, rfl⟩ := mem_deliver he
  cases object with
  | none => cases hpacket
  | some j =>
    simp only [Option.ite_none_right_eq_some, Option.some.injEq] at hpacket
    exact ⟨p.message, hm, hpacket.2.symm⟩

/-- Posts that are all aside change nothing. -/
theorem learnsAll_posts (hu : Understood w decode) {ps : List Post} (h : ∀ p ∈ ps, Aside p.message) (b : Option Int) :
    learnsAll decode b (ps.flatMap fun p => inboxOf k (deliver w s' p)) = b := by
  refine learnsAll_aside hu (fun packet hp => ?_) b
  obtain ⟨p, hmem, hdeliver⟩ := List.mem_flatMap.mp hp
  exact deliver_aside (h p hmem) packet hdeliver

/-! ## Which calls say who somebody is -/

theorem authority_aside (c : AuthorityCall) : Aside (authorityMessage c).message := by
  cases c <;> exact ⟨nofun, nofun⟩

theorem authorities_aside (calls : List AuthorityCall) : ∀ p ∈ calls.map authorityMessage, Aside p.message := by
  intro p hp
  obtain ⟨c, -, rfl⟩ := List.mem_map.mp hp
  exact authority_aside c

theorem inGame_aside {pid : UInt16} {pl : Bytes} {len : UInt16} {t : Option PacketType} :
    ∀ p ∈ inGamePosts w x s pid pl len t, Aside p.message := by
  intro p hp
  rcases mem_inGamePosts hp with ⟨-, body, -, h⟩ | ⟨-, -, vid, -, h⟩ | ⟨-, msg, -, h⟩ | ⟨-, h⟩ | ⟨-, h⟩
  · obtain ⟨_, _, _, -, -, -, -, rfl⟩ := mem_spawnPosts.mp h
    exact ⟨nofun, nofun⟩
  · obtain ⟨-, rfl⟩ := mem_deletePosts.mp h
    exact ⟨nofun, nofun⟩
  · obtain ⟨_, -, -, -, rfl⟩ := mem_chatPosts.mp h
    exact ⟨nofun, nofun⟩
  · obtain ⟨_, -, rfl | rfl⟩ := mem_readyPosts.mp h <;> exact ⟨nofun, nofun⟩
  · rcases mem_claimPosts h with ⟨c, rfl⟩ | rfl
    · exact authority_aside c
    · exact ⟨nofun, nofun⟩

theorem leave_aside (pid : UInt16) : ∀ p ∈ leavePosts w x pid, Aside p.message := by
  intro p hp
  rcases List.mem_cons.mp hp with rfl | hp
  · exact ⟨nofun, nofun⟩
  · split at hp
    · exact authorities_aside _ p hp
    · cases hp

/-- The calls that answer no login and kick nobody. -/
def Answers (s : Server) : GameServer.Call → Prop
  | .frame object data => authText s object data ≠ none
  | .kickPlayer _ _ | .banPlayer _ _ => True
  | _ => False

theorem posts_aside (h : ¬ Answers s call) : ∀ p ∈ posts w x s call, Aside p.message := by
  intro p hp
  cases call with
  | frame object data =>
    have hnone : authText s object data = none := not_not.mp h
    rcases mem_posts_frame.mp hp with ⟨sid', body, ha, -⟩ | ⟨_, _, -, -, -, -, hgame⟩
    · rw [hnone] at ha
      cases ha
    · exact inGame_aside p hgame
  | close object =>
    have hclose : p ∈ closePosts w x s object := hp
    unfold closePosts at hclose
    split at hclose
    · split at hclose
      · split at hclose
        · cases hclose
        · exact leave_aside _ p hclose
      · cases hclose
    · cases hclose
  | kickPlayer _ _ | banPlayer _ _ => exact absurd trivial h
  | sendChat _ _ =>
    rw [List.mem_singleton.mp hp]
    exact ⟨nofun, nofun⟩
  | grantAuthority pid =>
    rw [List.mem_singleton.mp hp]
    exact authority_aside _
  | revokeAuthority pid =>
    rw [List.mem_singleton.mp hp]
    exact authority_aside _
  | accept _ | datagram _ _ | broadcastAll => cases hp

/-- A kick that ends has had no connection to write to. -/
theorem kicked_silent {id : UInt16} {reason : Bytes} (h : kicked s id reason = (.ok (), s')) (hsent : s.sent = []) :
    inboxOf k s'.sent = [] := by
  unfold kicked at h
  split at h
  · rename_i sid' _
    obtain ⟨hs', hnone⟩ := dropped_ok h
    rw [hs', Server.log_sent, hsent, List.nil_append]
    show inboxOf k [.tcp sid' (s.tcp.sessions.lookup sid') _] = []
    have hnone' : s.tcp.sessions.lookup sid' = none := hnone
    rw [hnone']
    rfl
  · cases h
    rw [hsent]
    rfl

/-! ## What a call makes of a session -/

/-- The player that the server takes the packets of a session for. -/
def held (s : Server) (sid : UInt16) : Option Int := (s.sessionToPlayer.lookup sid).map fun pid => (pid.toNat : Int)

theorem held_alike {t : Server} (h : t.sessionToPlayer = s.sessionToPlayer) : held t sid = held s sid := by
  rw [held, held, h]

/-- A session that is left in `m_sessions` is not the one that has closed. -/
theorem held_unlinked {object : Nat} {sid' : UInt16} (htcp : s'.tcp = (s.tcp.closeSocket object).eraseSession sid')
    (hmap : s'.sessionToPlayer = s.sessionToPlayer.erase sid') (hk : s'.tcp.sessions.lookup sid = some k) :
    held s' sid = held s sid := by
  have hne : sid ≠ sid' := by
    rintro rfl
    rw [htcp] at hk
    have hgone : ((s.tcp.closeSocket object).eraseSession sid).sessions.lookup sid = none := AList.lookup_erase sid _
    exact absurd (hgone.symm.trans hk) (by simp)
  rw [held, held, hmap, Table.lookup_erase', if_neg hne]

theorem held_registered (sid sid' : UInt16) (username role : String) (st : PlayerState) :
    held (registered s sid' username role st) sid = if sid = sid' then some ((freshId s).toNat : Int) else held s sid := by
  show ((s.sessionToPlayer.insert sid' (freshId s)).lookup sid).map _ = _
  rw [Table.lookup_insert']
  split <;> rfl

/-- An answer to a login, and what else is said then. -/
theorem learnsAll_answer (hu : Understood w decode) (hk : s'.tcp.sessions.lookup sid = some k) {sid' : UInt16}
    {pid : UInt16} {rest : List Post} (hrest : ∀ p ∈ rest, Aside p.message) (b : Option Int) :
    learnsAll decode b ((⟨.session sid', .authOk pid⟩ :: rest).flatMap fun p => inboxOf k (deliver w s' p)) =
      if sid = sid' then some (pid.toNat : Int) else b := by
  rw [List.flatMap_cons, learnsAll_append, learnsAll_posts hu hrest]
  split
  · rename_i hsid
    subst hsid
    rw [inboxOf_session hk]
    show learns b (readTCP decode _) = _
    rw [readTCP_ok hu]
    rfl
  · rename_i hsid
    rw [inboxOf_other hk (Ne.symm hsid)]
    rfl

/-- A session that is mapped learns so, and only then. -/
theorem auth_foretold (hu : Understood w decode) {sid' : UInt16} {branch : AuthBranch}
    (h : authOutcome w x s sid' branch = (.ok (), s')) (hk : s'.tcp.sessions.lookup sid = some k) :
    learnsAll decode (held s sid) ((authPosts x s sid' branch).flatMap fun p => inboxOf k (deliver w s' p)) = held s' sid := by
  cases branch with
  | throws e => cases h
  | badRole e => cases h
  | refused error drop =>
    have haside : ∀ p ∈ authPosts x s sid' (.refused error drop), Aside p.message := by
      intro p hp
      rw [List.mem_singleton.mp hp]
      exact ⟨nofun, nofun⟩
    rw [learnsAll_posts hu haside]
    cases drop with
    | false =>
      cases h
      rfl
    | true =>
      rw [(dropped_ok h).1]
      rfl
  | bridge =>
    cases h
    rw [authPosts, learnsAll_answer hu hk (authorities_aside _)]
    exact (held_registered sid sid' aiBridge "bridge" .ready).symm
  | player username role =>
    simp only [authOutcome, authPosts] at h ⊢
    by_cases hv : refuses (vetoOf x s username) = true
    · rw [if_pos hv] at h ⊢
      cases hj : Json.ofBytes (vetoOf x s username) with
      | error e =>
        rw [hj] at h
        cases h
      | ok j =>
        rw [hj] at h
        obtain ⟨error, rfl⟩ := ofBytes_str hj
        dsimp only
        rw [learnsAll_posts hu (by simp [Aside])]
        obtain ⟨rfl, hnone⟩ := dropped_ok h
        have hne : sid ≠ sid' := by
          rintro rfl
          exact absurd (hnone.symm.trans hk) (by simp)
        show _ = (((s.sessionToPlayer.insert sid' (freshId s)).erase sid').lookup sid).map _
        rw [Table.lookup_erase', if_neg hne, Table.lookup_insert', if_neg hne]
        rfl
    · rw [if_neg hv] at h ⊢
      cases h
      rw [learnsAll_answer hu hk (by simp [Aside])]
      exact (held_registered sid sid' username role .loadingMods).symm

/-- A call that maps a session tells its client so, and no other call says who somebody is. -/
theorem step_foretold (hu : Understood w decode) (hs : Step w s x call s') (hk : s'.tcp.sessions.lookup sid = some k) :
    learnsAll decode (held s sid) (inboxOf k s'.sent) = held s' sid := by
  rw [inboxOf_posts hs]
  by_cases hcall : Answers s call
  · have hout := step_outcome hs
    cases call with
    | frame object data =>
      obtain ⟨⟨sid', body⟩, ha⟩ := Option.ne_none_iff_exists'.mp hcall
      have ha' : authText s.clear object data = some (sid', body) := ha
      rw [posts_auth w x s.clear ha']
      rw [outcome_auth w x s.clear ha'] at hout
      exact auth_foretold (s := s.clear) hu hout hk
    | kickPlayer id reason =>
      rw [← inboxOf_posts hs, kicked_silent hout rfl]
      exact (held_alike (kicked_alike _ hout).sessionToPlayer).symm
    | banPlayer id reason =>
      have hmarked : (markBanned s.clear id).sent = [] ∧ (markBanned s.clear id).sessionToPlayer = s.sessionToPlayer := by
        unfold markBanned
        split <;> exact ⟨rfl, rfl⟩
      rw [← inboxOf_posts hs, kicked_silent hout hmarked.1]
      exact (held_alike ((kicked_alike _ hout).sessionToPlayer.trans hmarked.2)).symm
    | _ => cases hcall
  · rw [learnsAll_posts hu (posts_aside (s := s.clear) hcall)]
    have hchange := step_change w x s hs
    generalize announced w x s.clear call = as at hchange
    cases hchange with
    | quiet ha => exact (held_alike ha.sessionToPlayer).symm
    | accept ha => exact (held_alike ha.sessionToPlayer).symm
    | turn _ _ _ _ ht => exact (held_alike (turn_alike ht).sessionToPlayer).symm
    | banned _ ha => exact (held_alike ha.sessionToPlayer).symm
    | closed _ _ ha => exact (held_unlinked ha.tcp ha.sessionToPlayer hk).symm
    | left _ _ _ ha => exact (held_unlinked ha.tcp ha.sessionToPlayer hk).symm
    | registered ha _ _ => exact absurd (fun hnone => nomatch ha.symm.trans hnone) hcall
    | vetoed ha _ _ => exact absurd (fun hnone => nomatch ha.symm.trans hnone) hcall

/-! ## Datagrams -/

/-- The datagrams among what was sent are answers to a `PING`. -/
def OnlyPongs (es : List NovaMP.Sent) : Prop := ∀ e ∈ es, e.isTcp = true ∨ ∃ dest seq, e = .udp dest (pongPacket seq)

theorem OnlyPongs.append {es es' : List NovaMP.Sent} (h : OnlyPongs es) (h' : OnlyPongs es') : OnlyPongs (es ++ es') :=
  fun e he => (List.mem_append.mp he).elim (h e) (h' e)

theorem OnlyPongs.posted {t : Server} {ps : List Post} (h : OnlyPongs s.sent) (hposts : Says w s t ps) : OnlyPongs t.sent := by
  rw [hposts.sent]
  refine h.append fun e he => .inl ?_
  obtain ⟨p, -, hp⟩ := List.mem_flatMap.mp he
  exact deliver_isTcp w s p e hp

theorem authOutcome_pongs (h : OnlyPongs s.sent) (sid : UInt16) (b : AuthBranch) :
    OnlyPongs (authOutcome w x s sid b).2.sent := by
  cases b with
  | throws e => exact h
  | badRole e => exact h
  | refused error drop =>
    have hreply : OnlyPongs (s.log (s.toSession sid (refusal w error))).sent :=
      h.posted (.post ⟨.session sid, .authError error⟩)
    cases drop with
    | false => exact hreply
    | true => exact hreply.posted (dropped_posted w _ sid)
  | bridge =>
    have hreg : OnlyPongs (registered s sid aiBridge "bridge" .ready).sent := h
    exact (hreg.posted (.post ⟨.session sid, .authOk (freshId s)⟩)).posted (authority_posted w _ _)
  | player username role =>
    simp only [authOutcome]
    split
    · split
      · exact h
      · rename_i error hj
        obtain ⟨text, rfl⟩ := ofBytes_str hj
        have hout : OnlyPongs (unregistered ((registered s sid username role .loadingMods).note
            ⟨"onPlayerAuth", authArgs s username, []⟩) sid (freshId s)).sent := h
        exact (hout.posted (.post ⟨.session sid, .authError text⟩)).posted (dropped_posted w _ sid)
    · have hreg : OnlyPongs ((registered s sid username role .loadingMods).note
          ⟨"onPlayerAuth", authArgs s username, []⟩).sent := h
      exact (hreg.posted (.post ⟨.session sid, .authOk (freshId s)⟩)).posted
        (.post ⟨.session sid, .serverInfo (registered s sid username role .loadingMods).players.keys.length⟩)

theorem closed_pongs (h : OnlyPongs s.sent) (object : Nat) : OnlyPongs (closed w x s object).sent := by
  unfold closed
  split
  · unfold disconnected
    dsimp only
    split
    · exact h
    · split
      · exact h
      · refine OnlyPongs.posted (s := removePlayer _ _) ?_ (announceLeave_posted w x _ _)
        unfold removePlayer
        split <;> exact h
  · exact h

/-- The server knows no endpoint, so it sends nothing else by UDP. -/
theorem outcome_pongs (hsilent : Silent s) (h : OnlyPongs s.sent) (call : GameServer.Call) :
    OnlyPongs (outcome w x s call).2.sent := by
  cases call with
  | accept ip => exact h
  | frame object data =>
    rcases frame_cases w x s object data with ⟨-, r, hr⟩ | ⟨sid, body, ha⟩ | ⟨-, t, hdr, -, -, -, -, hg⟩
    · rw [hr]
      exact h
    · rw [outcome_auth w x s ha]
      exact authOutcome_pongs h sid _
    · rw [hg]
      exact h.posted (inGame_posted w x s _ _ _ _)
  | close object => exact closed_pongs h object
  | datagram source data =>
    have hunknown : playerAt s source = 0xFFFF := by rw [playerAt, hsilent.udp]; rfl
    simp only [outcome]
    split
    · split
      · exact h
      · unfold datagramOutcome
        split
        · exact h.append fun e he => .inr ⟨source, _, List.mem_singleton.mp he⟩
        · rw [if_pos (.inl hunknown)]
          exact h
    · exact h
  | broadcastAll =>
    have hnone : relayed s = [] := by rw [relayed, hsilent.vsync]; rfl
    refine h.append ?_
    rw [hnone]
    exact fun e he => absurd he List.not_mem_nil
  | kickPlayer id reason => exact h.posted (kicked_posted w s id reason)
  | banPlayer id reason => exact (h.posted (markBanned_posted w s id)).posted (kicked_posted w _ id _)
  | sendChat playerId msg =>
    by_cases hneg : playerId < 0
    · have hsay : Says w s (s.log (s.chat playerId msg)) [⟨.all, .chatMessage msg⟩] := by
        rw [Server.chat, if_pos hneg]
        exact .post ⟨.all, .chatMessage msg⟩
      exact h.posted hsay
    · have hsay : Says w s (s.log (s.chat playerId msg)) [⟨.player (UInt16.ofInt playerId), .chatMessage msg⟩] := by
        rw [Server.chat, if_neg hneg]
        exact .post ⟨.player (UInt16.ofInt playerId), .chatMessage msg⟩
      exact h.posted hsay
  | grantAuthority pid => exact h.posted (.post (w := w) (authorityMessage (.grant pid)))
  | revokeAuthority pid => exact h.posted (.post (w := w) (authorityMessage (.revoke pid)))

/-! ## Sessions -/

/-- No two connections have been given the session id. -/
def Sole (s : Server) (sid : UInt16) : Prop :=
  ∀ (k k' : Nat) (t t' : TCPSession), s.tcp.objects[k]? = some t → s.tcp.objects[k']? = some t' → t.id = sid →
    t'.id = sid → k = k'

/-- A session that is mapped has had a connection. -/
def Known (s : Server) : Prop :=
  ∀ sid, sid ∈ s.sessionToPlayer → ∃ (k : Nat) (t : TCPSession), s.tcp.objects[k]? = some t ∧ t.id = sid

/-- The connections are the same, or one more, or one has closed. -/
theorem change_tcp {as : List Announcement} (hc : GameServer.Change w s call as s') : s'.tcp = s.tcp ∨
    (∃ ip, s'.tcp = s.tcp.addSession ip) ∨ ∃ object sid, s'.tcp = (s.tcp.closeSocket object).eraseSession sid := by
  cases hc with
  | quiet ha => exact .inl ha.tcp
  | accept ha => exact .inr (.inl ⟨_, ha.tcp⟩)
  | turn _ _ _ _ ht => exact .inl (turn_alike ht).tcp
  | banned _ ha => exact .inl ha.tcp
  | closed _ _ ha => exact .inr (.inr ⟨_, _, ha.tcp⟩)
  | left _ _ _ ha => exact .inr (.inr ⟨_, _, ha.tcp⟩)
  | registered _ _ ha => exact .inl ha.tcp
  | vetoed _ _ ha => exact .inl ha.tcp

/-- Session objects stay, with their ids. -/
theorem object_kept (hs : Step w s x call s') {t : TCPSession} (ht : s.tcp.objects[k]? = some t) :
    ∃ t', s'.tcp.objects[k]? = some t' ∧ t'.id = t.id := by
  have hlt : k < s.tcp.objects.length := (List.getElem?_eq_some_iff.mp ht).1
  rcases change_tcp (step_change w x s hs) with h | ⟨ip, h⟩ | ⟨object, sid', h⟩
  · exact ⟨t, by rw [h]; exact ht, rfl⟩
  · exact ⟨t, by rw [h]; exact (List.getElem?_append_left hlt).trans ht, rfl⟩
  · have hobjects : s'.tcp.objects = s.tcp.objects.modify object fun t => { t with isOpen := false } := by rw [h]; rfl
    by_cases hobject : object = k
    · exact ⟨{ t with isOpen := false }, by simp [hobjects, hobject, ht], rfl⟩
    · exact ⟨t, by simp [hobjects, hobject, ht], rfl⟩

theorem Sole.before (hs : Step w s x call s') (h : Sole s' sid) : Sole s sid := by
  intro k k' t t' ht ht' hid hid'
  obtain ⟨u, hu, huid⟩ := object_kept hs ht
  obtain ⟨u', hu', huid'⟩ := object_kept hs ht'
  exact h k k' u u' hu hu' (huid.trans hid) (huid'.trans hid')

/-- A session in `m_sessions` was there, or is that of a new connection. -/
theorem session_kept (hs : Step w s x call s') (hk : s'.tcp.sessions.lookup sid = some k) :
    s.tcp.sessions.lookup sid = some k ∨ k = s.tcp.objects.length := by
  rcases change_tcp (step_change w x s hs) with h | ⟨ip, h⟩ | ⟨object, sid', h⟩
  · exact .inl (by rwa [h] at hk)
  · rw [h] at hk
    have hk' : (s.tcp.sessions.insert s.tcp.nextSessionId s.tcp.objects.length).lookup sid = some k := hk
    rw [Table.lookup_insert'] at hk'
    split at hk'
    · exact .inr (Option.some.inj hk').symm
    · exact .inl hk'
  · rw [h] at hk
    have hk' : (s.tcp.sessions.erase sid').lookup sid = some k := hk
    rw [Table.lookup_erase'] at hk'
    split at hk'
    · cases hk'
    · exact .inl hk'

/-- A session gets a player by a frame of its own. -/
theorem change_known {as : List Announcement} (h : Known s) (hc : GameServer.Change w s call as s')
    (hmem : sid ∈ s'.sessionToPlayer) : ∃ (k : Nat) (t : TCPSession), s.tcp.objects[k]? = some t ∧ t.id = sid := by
  cases hc with
  | quiet ha => exact h sid (ha.sessionToPlayer ▸ hmem)
  | accept ha => exact h sid (ha.sessionToPlayer ▸ hmem)
  | turn _ _ _ _ ht => exact h sid ((turn_alike ht).sessionToPlayer ▸ hmem)
  | banned _ ha => exact h sid (ha.sessionToPlayer ▸ hmem)
  | closed _ _ ha => exact h sid (AList.mem_erase.mp (ha.sessionToPlayer ▸ hmem)).2
  | left _ _ _ ha => exact h sid (AList.mem_erase.mp (ha.sessionToPlayer ▸ hmem)).2
  | registered hauth _ ha =>
    rcases (AList.mem_insert _).mp (ha.sessionToPlayer ▸ hmem) with rfl | hold
    · obtain ⟨t, ht, hid, -⟩ := authText_object _ hauth
      exact ⟨_, t, ht, hid⟩
    · exact h sid hold
  | vetoed hauth _ ha =>
    rcases (AList.mem_insert _).mp (AList.mem_erase.mp (ha.sessionToPlayer ▸ hmem)).2 with rfl | hold
    · obtain ⟨t, ht, hid, -⟩ := authText_object _ hauth
      exact ⟨_, t, ht, hid⟩
    · exact h sid hold

theorem known_step (hs : Step w s x call s') (h : Known s) : Known s' := by
  intro sid hmem
  obtain ⟨k, t, ht, hid⟩ := change_known h (step_change w x s hs) hmem
  obtain ⟨t', ht', hid'⟩ := object_kept hs ht
  exact ⟨k, t', ht', hid'.trans hid⟩

/-- Only a connection that there is gets something written. -/
theorem inboxOf_unborn (hs : Step w s x call s') (hk : s'.tcp.objects.length ≤ k) : inboxOf k s'.sent = [] := by
  have hnone : ∀ sid, s'.tcp.sessions.lookup sid ≠ some k := by
    intro sid hsid
    obtain ⟨t, ht, -⟩ := s'.tcp.own sid k hsid
    exact absurd (List.getElem?_eq_some_iff.mp ht).1 (Nat.not_lt.mpr hk)
  have hsession : ∀ sid m, inboxOf k (deliver w s' ⟨.session sid, m⟩) = [] := by
    intro sid m
    show inboxOf k [.tcp sid (s'.tcp.sessions.lookup sid) (m.packet w)] = _
    cases hj : s'.tcp.sessions.lookup sid with
    | none => rfl
    | some j =>
      have hne : j ≠ k := fun hjk => hnone sid (hjk ▸ hj)
      simp [inboxOf, hne]
  rw [inboxOf_posts hs, List.flatMap_eq_nil_iff]
  rintro ⟨audience, m⟩ -
  cases audience with
  | session sid => exact hsession sid m
  | player pid =>
    show inboxOf k (s'.toPlayer pid (m.packet w)) = []
    unfold Server.toPlayer
    split
    · exact hsession _ m
    · rfl
  | all =>
    refine List.filterMap_eq_nil_iff.mpr fun e he => ?_
    obtain ⟨entry, hentry, rfl⟩ := List.mem_map.mp he
    have hlookup : s'.tcp.sessions.lookup entry.1 = some entry.2 := Table.lookup_iff_mem.mpr (List.mem_filter.mp hentry).1
    have hne : entry.2 ≠ k := fun hjk => hnone entry.1 (hjk ▸ hlookup)
    simp [hne]

end

/-! ## Runs -/

namespace Lobby

structure Inv (w : World) (decode : Bytes → Option Json) (c : Lobby) : Prop where
  reach : Reach w anyStep c.server
  known : Known c.server
  inbox : ∀ k, ∀ packet ∈ (c.peers k).inbox, ∃ m : Message, packet = m.packet w
  datagrams : ∀ data ∈ c.datagrams, ∃ seq, data = pongPacket seq
  unborn : ∀ k, c.server.tcp.objects.length ≤ k → (c.peers k).foretold decode = none
  agrees : ∀ k sid, c.server.tcp.sessions.lookup sid = some k → Sole c.server sid →
    (c.peers k).foretold decode = held c.server sid

variable {w : World} {decode : Bytes → Option Json} {c : Lobby}

theorem inv_init : Inv w decode init where
  reach := .init
  known sid h := absurd h (AList.notMem_empty sid)
  inbox _ _ h := absurd h List.not_mem_nil
  datagrams _ h := absurd h List.not_mem_nil
  unborn _ _ := rfl
  agrees _ _ h _ := nomatch h

/-- A client that reads or writes without learning who it is. -/
theorem Inv.setPeer (h : Inv w decode c) {k : Nat} {p : Peer} (hin : ∀ packet ∈ p.inbox, packet ∈ (c.peers k).inbox)
    (hp : p.foretold decode = (c.peers k).foretold decode) : Inv w decode (c.setPeer k p) := by
  have hself : (c.setPeer k p).peers k = p := Function.update_self ..
  have hother : ∀ j, j ≠ k → (c.setPeer k p).peers j = c.peers j := fun j hj => Function.update_of_ne hj ..
  have hall : ∀ j, ((c.setPeer k p).peers j).foretold decode = (c.peers j).foretold decode := by
    intro j
    by_cases hj : j = k
    · rw [hj, hself, hp]
    · rw [hother j hj]
  refine ⟨h.reach, h.known, fun j packet hpacket => ?_, h.datagrams, fun j hj => (hall j).trans (h.unborn j hj),
    fun j sid hj hsole => (hall j).trans (h.agrees j sid hj hsole)⟩
  by_cases hj : j = k
  · rw [hj, hself] at hpacket
    exact h.inbox k packet (hin packet hpacket)
  · rw [hother j hj] at hpacket
    exact h.inbox j packet hpacket

/-- The server goes on. -/
theorem Inv.hears (hu : Understood w decode) (h : Inv w decode c) {x : Env} {call : GameServer.Call} {s : Server}
    (hs : Step w c.server x call s) : Inv w decode (c.hears s) := by
  have hlength : c.server.tcp.objects.length ≤ s.tcp.objects.length := by
    by_contra hlt
    have hget : c.server.tcp.objects[s.tcp.objects.length]? = some _ := List.getElem?_eq_getElem (not_le.mp hlt)
    obtain ⟨t', ht', -⟩ := object_kept hs hget
    exact absurd (List.getElem?_eq_some_iff.mp ht').1 (Nat.lt_irrefl _)
  refine ⟨.step h.reach trivial hs, known_step hs h.known, fun k packet hpacket => ?_, fun data hdata => ?_,
    fun k hk => ?_, fun k sid hk hsole => ?_⟩
  · rcases List.mem_append.mp hpacket with hold | hnew
    · exact h.inbox k packet hold
    · obtain ⟨post, -, hpost⟩ := inbox_post hs hnew
      exact ⟨post.message, hpost⟩
  · rcases List.mem_append.mp hdata with hold | hnew
    · exact h.datagrams data hold
    · have hsilent := silent_of_reach h.reach
      have hpongs := outcome_pongs (w := w) (x := x) (s := c.server.clear) ⟨hsilent.udp, hsilent.vsync⟩
        (fun e he => absurd he List.not_mem_nil) call
      rw [step_outcome hs] at hpongs
      obtain ⟨e, he, hpacket⟩ := List.mem_filterMap.mp hnew
      rcases hpongs e he with htcp | ⟨dest, seq, rfl⟩
      · cases e with
        | tcp _ _ _ => cases hpacket
        | udp _ _ => cases htcp
      · exact ⟨seq, (Option.some.inj hpacket).symm⟩
  · have hnew : ((c.hears s).peers k).foretold decode =
        learnsAll decode ((c.peers k).foretold decode) (inboxOf k s.sent) := learnsAll_append _ _ _
    rw [hnew, inboxOf_unborn hs hk]
    exact h.unborn k (hlength.trans hk)
  · have hnew : ((c.hears s).peers k).foretold decode =
        learnsAll decode ((c.peers k).foretold decode) (inboxOf k s.sent) := learnsAll_append _ _ _
    have hbefore : (c.peers k).foretold decode = held c.server sid := by
      rcases session_kept hs hk with hold | hk'
      · exact h.agrees k sid hold (hsole.before hs)
      · -- a new connection: nobody had the session id before
        rw [h.unborn k hk'.ge, held]
        cases hl : c.server.sessionToPlayer.lookup sid with
        | none => rfl
        | some pid =>
          obtain ⟨j, t, ht, hid⟩ := h.known sid (Table.mem_of_lookup hl)
          obtain ⟨t', ht', hid'⟩ := object_kept hs ht
          obtain ⟨u, hu', huid⟩ := s.tcp.own sid k hk
          have hjk : j = k := hsole j k t' u ht' hu' (hid'.trans hid) huid
          exact absurd (List.getElem?_eq_some_iff.mp ht).1 (Nat.not_lt.mpr (hk'.symm.le.trans hjk.ge))
    rw [hnew, hbefore]
    exact step_foretold hu hs hk

/-- The answer to a `PING`, as `sendUDP` writes it. -/
def pong (seq : UInt32) : Outgoing := ⟨.pong, 0, seq, [], 0, Nat.zero_le _⟩

theorem learns_pong (decode : Bytes → Option Json) (b : Option Int) (seq : UInt32) :
    readUDP decode (pongPacket seq) ≠ .ok (.authenticated none) ∧ learns b (readUDP decode (pongPacket seq)) = b := by
  have hpoll : pollUDP (some (pongPacket seq)) = .ok (some (some 0x11, [])) := pollUDP_packet (pong seq)
  have hread : readUDP decode (pongPacket seq) = .ok (incoming decode 0x11 []) := by rw [readUDP, hpoll]
  obtain ⟨hlogin, hkick⟩ := incoming_aside decode (by decide : (0x11 : UInt8) ≠ 0x02) (by decide) []
  rw [hread]
  exact ⟨fun h => hlogin _ (Except.ok.inj h), learns_aside hlogin hkick⟩

variable {lua : Nat → Prop} {ok : Extension → Option Nat → Except PackError Incoming → Prop}

theorem run_inv (hu : Understood w decode) (hr : Run lua w decode ok c) : Inv w decode c := by
  induction hr with
  | init => exact inv_init
  | act a _ _ ih => exact ih.setPeer (fun packet hp => Peer.act_inbox _ a ▸ hp) (Peer.act_foretold decode _ a)
  | @serve c k data rest x s _ _ _ hs ih =>
    have hwritten : Inv w decode (c.setPeer k { c.peers k with outbox := rest }) := ih.setPeer (fun packet hp => hp) rfl
    exact hwritten.hears hu hs
  | elsewhere _ _ hs ih => exact ih.hears hu hs
  | @tcp c k packet rest spawned _ _ hin _ ih =>
    refine ih.setPeer (fun packet' hp => hin ▸ List.mem_cons_of_mem _ hp) ?_
    obtain ⟨m, rfl⟩ := ih.inbox k packet (hin ▸ List.mem_cons_self)
    rw [Peer.foretold, Peer.foretold, hin, List.foldl_cons]
    exact congrArg (fun b => List.foldl _ b rest) (handleRead_identity (readTCP_login hu m))
  | @udp c k data spawned _ _ hdata _ ih =>
    refine ih.setPeer (fun packet hp => hp) ?_
    obtain ⟨seq, rfl⟩ := ih.datagrams data hdata
    obtain ⟨hlogin, hlearns⟩ := learns_pong decode (c.peers k).client.identity seq
    rw [Peer.foretold, Peer.foretold]
    have hkept : ((c.peers k).client.handleRead spawned (readUDP decode (pongPacket seq))).1.identity =
        (c.peers k).client.identity := (handleRead_identity hlogin).trans hlearns
    exact congrArg (fun b => List.foldl _ b _) hkept

end Lobby

/-! ## The agreement -/

/-- In every run, a client that has the session in `m_sessions` will take itself, once it has
    read what is on its way, for the player that the server takes its packets for, and for
    nobody as long as the server has none; a client that has read everything does so now. No
    two such clients take themselves for one player. -/
theorem Lobby.login_agreement (lua : Nat → Prop) (w : World) (decode : Bytes → Option Json)
    (ok : Extension → Option Nat → Except PackError Incoming → Prop) (hu : Understood w decode) (c : Lobby)
    (hr : Lobby.Run lua w decode ok c) (k : Nat) (sid : UInt16) (hk : c.server.tcp.sessions.lookup sid = some k)
    (hsole : Sole c.server sid) :
    (c.peers k).foretold decode = held c.server sid ∧
    ((c.peers k).inbox = [] → (c.peers k).client.identity = held c.server sid) ∧
    (c.server.sessionToPlayer.Inj → ∀ k' sid', c.server.tcp.sessions.lookup sid' = some k' → Sole c.server sid' →
      (c.peers k).foretold decode ≠ none → (c.peers k').foretold decode = (c.peers k).foretold decode → k' = k) := by
  have hinv := Lobby.run_inv hu hr
  have hagree := hinv.agrees k sid hk hsole
  refine ⟨hagree, fun hempty => ?_, fun hinj k' sid' hk' hsole' hsome hsame => ?_⟩
  · rw [← hagree, Peer.foretold, hempty]
    rfl
  · have hagree' := hinv.agrees k' sid' hk' hsole'
    rw [hagree', hagree] at hsame
    rw [hagree] at hsome
    obtain ⟨pid, hpid⟩ : ∃ pid, c.server.sessionToPlayer.lookup sid = some pid := by
      rw [← Option.ne_none_iff_exists']
      intro hnone
      exact hsome (by rw [held, hnone]; rfl)
    have hpid' : c.server.sessionToPlayer.lookup sid' = some pid := by
      rw [held, held, hpid, Option.map_some] at hsame
      obtain ⟨pid', hl, hnat⟩ := Option.map_eq_some_iff.mp hsame
      rw [hl, UInt16.toNat_inj.mp (Int.ofNat_inj.mp hnat)]
    have hsid := hinj sid' sid pid hpid' hpid
    exact Option.some.inj (hk'.symm.trans (hsid ▸ hk))

namespace Solo

theorem utf8_append (s t : String) : utf8 (s ++ t) = utf8 s ++ utf8 t := by simp [utf8]

/-- What stands before the number in the answer to a login. -/
def granted : Bytes := utf8 "\x7b\"map\":\"gridmap_v2\",\"ok\":true,\"player_id\":"

theorem text_ok (pid : UInt16) : (Message.authOk pid).text world = granted ++ natText pid.toNat ++ [125] := by
  have hquote : Json.quote world.cfg.map = "\"gridmap_v2\"" ∧ Json.quote "map" = "\"map\"" ∧ Json.quote "ok" = "\"ok\"" ∧
      Json.quote "player_id" = "\"player_id\"" := by decide
  obtain ⟨hmap, hkeyMap, hkeyOk, hkeyId⟩ := hquote
  have hrender : (okTrue world pid).render (fun _ => "0.0") =
      "\x7b\"map\":\"gridmap_v2\",\"ok\":true,\"player_id\":" ++ toString pid.toNat ++ "\x7d" := by
    simp only [okTrue, Json.render, Json.renderMembers, Json.insertMember, Json.commas, String.reduceLT, if_true, if_false,
      List.map, hmap, hkeyMap, hkeyOk, hkeyId]
    simp only [← String.append_assoc]
    rfl
  show utf8 ((okTrue world pid).render fun _ => "0.0") = _
  rw [hrender, utf8_append, utf8_append]
  rfl

theorem text_error (error : String) : ∃ rest, (Message.authError error).text world = 123 :: 34 :: 101 :: rest := by
  have hkey : Json.quote "error" = "\"error\"" := by decide
  have hrender : (okFalse (.str error)).render (fun _ => "0.0") =
      "\x7b\"error\":" ++ (Json.quote error ++ "," ++ (Json.quote "ok" ++ ":" ++ "false") ++ "\x7d") := by
    simp only [okFalse, Json.render, Json.renderMembers, Json.insertMember, Json.commas, String.reduceLT, if_false, List.map,
      hkey, Bool.false_eq_true, String.append_assoc]
    simp only [← String.append_assoc]
    rfl
  show ∃ rest, utf8 ((okFalse (.str error)).render fun _ => "0.0") = _
  rw [hrender, utf8_append]
  exact ⟨_, rfl⟩

/-- An answer to a login is read by its number. -/
def decodeGranted (b : Bytes) : Option Json :=
  let pid := UInt16.ofNat (decimal (b.drop granted.length).dropLast)
  if b = (Message.authOk pid).text world then some (okTrue world pid) else none

theorem understood : Understood world decodeGranted where
  short pid := by
    have hdigits : (natText pid.toNat).length ≤ 5 := (natText_length_le_iff (by omega)).mpr (by have := pid.toNat_lt; omega)
    have hgranted : granted.length = 42 := by decide
    rw [text_ok, List.length_append, List.length_append, hgranted, List.length_singleton]
    omega
  ok pid := by
    have hpid : UInt16.ofNat (decimal (((Message.authOk pid).text world).drop granted.length).dropLast) = pid := by
      rw [text_ok, List.append_assoc, List.drop_left, List.dropLast_concat, decimal_natText, UInt16.ofNat_toNat]
    refine ⟨okTrue world pid, ?_, rfl, rfl⟩
    rw [decodeGranted, hpid, if_pos rfl]
  error error n j hj := by
    obtain ⟨rest, hrest⟩ := text_error error
    rw [decodeGranted] at hj
    split at hj
    · rename_i heq
      -- the third byte is that of `map` or of `error`
      have hthird := congrArg (·[2]?) heq
      rw [hrest, text_ok] at hthird
      have hgranted : granted = 123 :: 34 :: 109 :: granted.drop 3 := by decide
      rw [hgranted] at hthird
      rcases n with _ | _ | _ | n <;> simp at hthird
    · cases hj

end Solo

/-- The server has answered a login, and the client has not read it yet. -/
theorem Lobby.login_agreement_served : (Solo.served Solo.asking).server.tcp.sessions.lookup 1 = some 0 ∧
    held (Solo.served Solo.asking).server 1 = some 1 ∧
    ((Solo.served Solo.asking).peers 0).foretold Solo.decodeGranted = held (Solo.served Solo.asking).server 1 := by
  have hasking : Lobby.Run Solo.lua Solo.world Solo.decodeGranted (fun _ _ _ => True) Solo.asking :=
    .act (.connect (Solo.text (userJson "ann")))
      (.elsewhere .init (fun _ _ _ h => by cases h) (step_ends Solo.world _ _ rfl)) rfl
  obtain ⟨data, hdata⟩ := List.length_eq_one_iff.mp (by decide +kernel : (Solo.asking.peers 0).outbox.length = 1)
  have hserved : Lobby.Run Solo.lua Solo.world Solo.decodeGranted (fun _ _ _ => True) (Solo.served Solo.asking) := by
    refine .serve (k := 0) hasking rfl ?_ (step_after Solo.world _ _ (by decide +kernel))
    rw [hdata]
    rfl
  have hk : (Solo.served Solo.asking).server.tcp.sessions.lookup 1 = some 0 := by decide +kernel
  have hobjects : (Solo.served Solo.asking).server.tcp.objects.length = 1 := by decide +kernel
  have hsole : Sole (Solo.served Solo.asking).server 1 := by
    intro k k' t t' ht ht' _ _
    have hlt := (List.getElem?_eq_some_iff.mp ht).1
    have hlt' := (List.getElem?_eq_some_iff.mp ht').1
    omega
  exact ⟨hk, by decide +kernel, (Lobby.login_agreement _ _ _ _ Solo.understood _ hserved 0 1 hk hsole).1⟩

end NovaMP.Client
