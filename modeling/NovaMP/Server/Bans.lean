/-
  NovaMP.Server.Bans — what a ban leaves behind.

  `banPlayer` sets `is_banned` in the player's record and kicks the player. Nothing reads
  the flag, nothing keeps the address. A kick of somebody who is connected never returns
  (`BanHangs`); where it returns, whoever is at the address comes back like anybody else. So a
  ban lasts only on a server that takes in nobody any more, banned or not.

  Room for a player is made by those who leave. The records that no session has (`Ghost`)
  stay, unless a bridge gets their ids: its logins are not counted, and the counter comes
  round to every id.

  - `emptied`: from any state all sessions close, and the ghosts stay.
  - `cleared`: where a bridge can log in, its logins take every record away.
  - `full_stays`: without a bridge, as many ghosts as `max_players` never become fewer.
  - `bans_last_iff`: which bans last.
  - `banned_address_returns`: `ann` is banned, and then `bob` logs in from her address.
-/

import NovaMP.Server.PlayerIds

namespace NovaMP.GameServer

open Lib Exec

/-- A request from the address `ip` is accepted as an ordinary player: its session has
    the player of a new id, which is not the bridge. -/
def Accepts (ip : String) (m : Moment) : Prop :=
  ∃ object data sid body t p, m.call = .frame object data ∧ authText m.before object data = some (sid, body) ∧
    m.before.tcp.objects[object]? = some t ∧ t.remoteIP = ip ∧ m.after.nextPlayerId = freshId m.before + 1 ∧
    m.after.sessionToPlayer.lookup sid = some (freshId m.before) ∧
    m.after.players.lookup (freshId m.before) = some p ∧ p.username ≠ aiBridge

variable (w : World)

/-- The player `id` is banned in the state `s`, after the history `h`; and whatever is called
    then, no request from the player's address is accepted. -/
def BanLasts (h : List Moment) (s : Server) (id : UInt16) : Prop :=
  ∀ p x reason s' later t, s.players.lookup id = some p →
    Run w anyStep (later ++ ⟨s, x, .banPlayer id reason, s'⟩ :: h) t → ∀ m ∈ later, ¬ Accepts p.ip m

/-- `banPlayer` does not return: `kickPlayer` finds a connection to close, and closes it with
    both mutexes held. -/
def BanHangs (s : Server) (id : UInt16) : Prop := ∃ sid, s.sessionToPlayer.keyOf id = some sid ∧ sid ∈ s.tcp.sessions

/-- The text of an ordinary player's request that only a full server or a plugin refuses. -/
structure Ordinary (body : Bytes) : Prop where
  fits : body.length ≤ 65535
  reads : ∃ j username password role, w.parse body = some j ∧ j.value "username" "" = .ok username ∧
    j.value "server_password" "" = .ok password ∧ username ≠ aiBridge ∧ username ≠ "" ∧
    (w.cfg.password ≠ "" → password = w.cfg.password) ∧ j.value "role" "player" = .ok role

/-- The text of a bridge's request that is accepted. -/
structure Bridging (body : Bytes) : Prop where
  fits : body.length ≤ 65535
  reads : ∃ j, w.parse body = some j ∧ j.value "username" "" = .ok aiBridge ∧
    j.value "server_password" "" = .ok w.cfg.bridgeToken ∧ w.cfg.aiEnabled = true

/-- The server can take in an ordinary player, now or after others have left. -/
def Admits (s : Server) : Prop :=
  (∃ body, Ordinary w body) ∧
    ((ghosts s : Int) < w.cfg.maxPlayers ∨ 0 < w.cfg.maxPlayers ∧ ∃ body, Bridging w body)

variable {w} {x : Env} {s t : Server} {h : List Moment}

/-! ## Requests -/

/-- The text of a request fits into its packet. -/
theorem authText_fits {object : Nat} {data : Bytes} {sid : UInt16} {body : Bytes}
    (ha : authText s object data = some (sid, body)) : body.length ≤ 65535 := by
  unfold authText at ha
  split at ha
  · rename_i hdr _ _
    split at ha
    · split at ha
      · rename_i hread
        cases ha
        unfold readBytes at hread
        split at hread
        · cases hread
          exact (List.length_take_le _ _).trans (Nat.le_of_lt_succ hdr.payloadLen.toNat_lt)
        · cases hread
      · cases ha
    · cases ha
  · cases ha

/-- The packet that a client makes of a text. -/
theorem authText_buildStr {object : Nat} {c : TCPSession} (hc : s.tcp.objects[object]? = some c) (hopen : c.isOpen = true)
    {body : Bytes} (hfits : body.length ≤ 65535) :
    authText s object (Packet.buildStr .authRequest 0 0 body) = some (c.id, body) := by
  have hlen : (UInt16.ofNat body.length).toNat = body.length := by
    rw [UInt16.toNat_ofNat']
    omega
  have hhdr : Packet.parseHeader (Packet.buildStr .authRequest 0 0 body) =
      .ok ⟨PacketType.authRequest.code, 0, 0, UInt16.ofNat body.length, 0⟩ := by
    have hb := Packet.parseHeader_build .authRequest 0 0 body (UInt16.ofNat body.length) 0 []
    rwa [List.append_nil] at hb
  have hpl : Packet.payload (Packet.buildStr .authRequest 0 0 body) = body := by
    rw [Packet.payload_buildStr, List.take_of_length_le (by omega)]
  have hframe : isFrame c (Packet.buildStr .authRequest 0 0 body) := by
    have hdata := congrArg List.length hpl
    rw [Packet.payload_length] at hdata
    have hle := Packet.build_length_le .authRequest 0 0 body (UInt16.ofNat body.length) 0
    have hge : 10 ≤ (Packet.buildStr .authRequest 0 0 body).length := by
      show 10 ≤ (Packet.build .authRequest 0 0 body (UInt16.ofNat body.length) 0).length
      omega
    refine ⟨hopen, by omega, ?_⟩
    rw [maxFrame]
    omega
  unfold authText
  rw [hc, hhdr]
  dsimp only
  rw [if_pos ⟨hframe, rfl⟩, hpl, hlen, readBytes_of_le (le_refl _), List.take_length]

/-- Accepted are the admitted texts of ordinary players, where there is room. -/
theorem accepts_ordinary {m : Moment} {ip : String} (hs : Step w m.before m.env m.call m.after) (ha : Accepts ip m) :
    (∃ body, Ordinary w body) ∧ (m.before.players.keys.length : Int) < w.cfg.maxPlayers := by
  obtain ⟨object, data, sid, body, c, p, hcall, htext, -, -, hnext, -, hp, hname⟩ := ha
  have hsame (hn : m.after.nextPlayerId = m.before.nextPlayerId) : False :=
    freshId_advances m.before (hn.symm.trans hnext)
  have hchange := step_change w m.env m.before hs
  rw [hcall] at hchange
  generalize announced w m.env m.before.clear (.frame object data) = as at hchange
  cases hchange with
  | quiet hq => exact (hsame hq.nextPlayerId).elim
  | turn _ _ _ _ ht => exact (hsame (turn_alike ht).nextPlayerId).elim
  | @vetoed _ _ _ _ _ _ _ _ _ _ hr =>
    have hgone : m.after.players.lookup (freshId m.before) = none := by
      rw [hr.players]
      exact AList.lookup_erase _ _
    rw [hgone] at hp
    cases hp
  | @registered _ _ _ body' username role st _ htext' hb hr =>
    obtain ⟨j, password, hadm⟩ := admits_admission hb
    rw [hr.players] at hp
    change (m.before.players.insert (freshId m.before) _).lookup (freshId m.before) = some p at hp
    rw [AList.lookup_insert] at hp
    obtain rfl := Option.some.inj hp
    rcases hadm.checks with ⟨hbridge, -⟩ | ⟨hbridge, hempty, hpass, hroom, hrole, -⟩
    · exact absurd hbridge hname
    · exact ⟨⟨body', authText_fits htext', j, username, password, role, hadm.json, hadm.user, hadm.pass, hbridge, hempty,
        hpass, hrole⟩, hroom⟩

/-! ## Records without a session -/

/-- The player has a record, and no session has the player. -/
def Ghost (s : Server) (pid : UInt16) : Prop := pid ∈ s.players ∧ ∀ sid, s.sessionToPlayer.lookup sid ≠ some pid

theorem ghosts_eq (s : Server) :
    ghosts s = (s.players.keys.filter fun pid => (s.sessionToPlayer.keyOf pid).isNone).length :=
  List.countP_eq_length_filter

theorem keyOf_isNone_iff {pid : UInt16} : (s.sessionToPlayer.keyOf pid).isNone = true ↔
    ∀ sid, s.sessionToPlayer.lookup sid ≠ some pid := by
  constructor
  · intro hnone sid hsid
    obtain ⟨k, hk⟩ := Table.keyOf_of_lookup hsid
    rw [hk] at hnone
    cases hnone
  · intro hno
    cases hk : s.sessionToPlayer.keyOf pid with
    | none => rfl
    | some sid => exact absurd (Table.lookup_keyOf hk) (hno sid)

theorem ghosts_le (hall : ∀ pid, Ghost s pid → Ghost t pid) : ghosts s ≤ ghosts t := by
  rw [ghosts_eq, ghosts_eq]
  refine (List.subperm_of_subset (s.players.nodupKeys.filter _) fun pid hpid => ?_).length_le
  obtain ⟨hmem, hno⟩ := List.mem_filter.mp hpid
  obtain ⟨hmem', hno'⟩ := hall pid ⟨AList.mem_keys.mpr hmem, keyOf_isNone_iff.mp hno⟩
  exact List.mem_filter.mpr ⟨AList.mem_keys.mp hmem', keyOf_isNone_iff.mpr hno'⟩

theorem ghosts_le_players (s : Server) : ghosts s ≤ s.players.keys.length := List.countP_le_length

/-- Without sessions all records are ghosts. -/
theorem ghosts_of_empty (hnone : s.sessionToPlayer = ∅) : ghosts s = s.players.keys.length := by
  refine List.countP_eq_length.mpr fun pid _ => keyOf_isNone_iff.mpr fun sid hsid => ?_
  rw [hnone, AList.lookup_empty] at hsid
  cases hsid

/-! ## Sessions close -/

/-- What the close of a session leaves. -/
theorem closed_tables {object : Nat} {c : TCPSession} (hc : s.tcp.objects[object]? = some c) {pid : UInt16}
    (hl : s.sessionToPlayer.lookup c.id = some pid) (hpid : pid ≠ 0xFFFF) :
    (closed w x s object).sessionToPlayer = s.sessionToPlayer.erase c.id ∧
      (closed w x s object).players = s.players.erase pid ∧ (closed w x s object).nextPlayerId = s.nextPlayerId := by
  rw [closed_some w x s hc, disconnected_some (by exact hl) hpid]
  have halike := announceLeave_alike w x (removePlayer
    { s with
      tcp := (s.tcp.closeSocket object).eraseSession c.id
      sessionToPlayer := s.sessionToPlayer.erase c.id } pid) pid
  have hremoved := removePlayer_alike
    { s with
      tcp := (s.tcp.closeSocket object).eraseSession c.id
      sessionToPlayer := s.sessionToPlayer.erase c.id } pid
  exact ⟨halike.sessionToPlayer.trans hremoved.sessionToPlayer, halike.players.trans hremoved.players,
    halike.nextPlayerId.trans hremoved.nextPlayerId⟩

/-- A session that closes takes its player's record along, and leaves no other. -/
theorem ghost_of_closed {object : Nat} {c : TCPSession} (hc : s.tcp.objects[object]? = some c) {pid : UInt16}
    (hl : s.sessionToPlayer.lookup c.id = some pid) (hpid : pid ≠ 0xFFFF) {pid' : UInt16}
    (hg : Ghost (closed w x s object) pid') : Ghost s pid' := by
  obtain ⟨hmap, hplayers, -⟩ := closed_tables (w := w) (x := x) hc hl hpid
  obtain ⟨hmem, hno⟩ := hg
  rw [hplayers] at hmem
  obtain ⟨hne, hmem⟩ := AList.mem_erase.mp hmem
  refine ⟨hmem, fun sid hsid => hno sid ?_⟩
  rw [hmap, Table.lookup_erase', if_neg]
  · exact hsid
  · rintro rfl
    rw [hl] at hsid
    exact hne (Option.some.inj hsid).symm

/-- From every state all sessions close, and no ghost is added. -/
theorem emptied (hr : Run w anyStep h s) :
    ∃ later t, Run w anyStep (later ++ h) t ∧ t.players.keys.length ≤ ghosts s := by
  generalize hn : s.sessionToPlayer.keys.length = n
  induction n generalizing h s with
  | zero =>
    have hnone : s.sessionToPlayer = ∅ := by
      refine AList.ext ?_
      exact List.map_eq_nil_iff.mp (List.eq_nil_of_length_eq_zero hn)
    exact ⟨[], s, hr, (ghosts_of_empty hnone).ge⟩
  | succ n ih =>
    obtain ⟨sid, hsid⟩ : ∃ sid, sid ∈ s.sessionToPlayer := by
      obtain ⟨sid, hsid⟩ := List.exists_mem_of_length_pos (l := s.sessionToPlayer.keys) (by omega)
      exact ⟨sid, AList.mem_keys.mpr hsid⟩
    obtain ⟨pid, hl⟩ := Table.mem_iff.mp hsid
    obtain ⟨object, c, hc, rfl, -⟩ := mappedOpen_reach hr.reach sid hsid
    have hpid : pid ≠ 0xFFFF := by
      rintro rfl
      exact absurd (present_bounds hr.reach (.inr ⟨_, hl⟩)).2 (by decide)
    have hstep : Step w s Env.quiet (.close object) (after w s Env.quiet (.close object)) := step_ends w _ _ rfl
    have hafter : after w s Env.quiet (.close object) = closed w Env.quiet s.clear object := by
      rw [after, exec_eq]
      rfl
    rw [hafter] at hstep
    have hmap : (closed w Env.quiet s.clear object).sessionToPlayer = s.sessionToPlayer.erase c.id :=
      (closed_tables (s := s.clear) hc hl hpid).1
    obtain ⟨later, t, hrun, hle⟩ := ih (.step hr trivial hstep) (by
      rw [hmap, AList.keys_erase, List.length_erase_of_mem (AList.mem_keys.mp hsid)]
      omega)
    refine ⟨later ++ [_], t, by rw [List.append_assoc]; exact hrun, hle.trans ?_⟩
    exact ghosts_le (t := s.clear) fun pid' hg => ghost_of_closed (s := s.clear) hc hl hpid hg

/-! ## A bridge comes and goes -/

/-- A new connection, and a request on it. -/
theorem connected_request (hr : Run w anyStep h s) (ip : String) {body : Bytes} (hfits : body.length ≤ 65535) :
    ∃ m, Run w anyStep (m :: h) m.after ∧ m.after.players = s.players ∧ m.after.nextPlayerId = s.nextPlayerId ∧
      m.after.tcp.objects[s.tcp.objects.length]? = some ⟨s.tcp.nextSessionId, ip, true⟩ ∧
      authText m.after s.tcp.objects.length (Packet.buildStr .authRequest 0 0 body) =
        some (s.tcp.nextSessionId, body) := by
  have hstep : Step w s Env.quiet (.accept ip) { s.clear with tcp := s.tcp.addSession ip } := by
    rw [Step, exec_eq]
    rfl
  have hnew : (s.tcp.addSession ip).objects[s.tcp.objects.length]? = some ⟨s.tcp.nextSessionId, ip, true⟩ := by
    rw [TCPServer.addSession, List.getElem?_concat_length]
  exact ⟨⟨s, Env.quiet, .accept ip, _⟩, .step hr trivial hstep, rfl, rfl, hnew,
    authText_buildStr (s := { s.clear with tcp := s.tcp.addSession ip }) hnew rfl hfits⟩

theorem authBranch_bridge {body : Bytes} (hb : Bridging w body) : authBranch w s body = .bridge := by
  obtain ⟨j, hj, huser, hpass, hai⟩ := hb.reads
  simp [authBranch, hj, huser, hpass, hai]

/-- A bridge logs in and leaves: nobody has the next id any more. -/
theorem bridge_round (hr : Run w anyStep h s) {body : Bytes} (hb : Bridging w body) :
    ∃ later t, Run w anyStep (later ++ h) t ∧ t.nextPlayerId = freshId s + 1 ∧
      ∀ id ∈ t.players, id ∈ s.players ∧ id ≠ freshId s := by
  obtain ⟨m, hrm, hplayers, hnext, hobject, htext⟩ := connected_request hr "127.0.0.1" hb.fits
  let u := (authOutcome w Env.quiet m.after.clear s.tcp.nextSessionId .bridge).2
  have hfresh : freshId m.after = freshId s := by rw [freshId, freshId, hnext]
  have hlogin : Step w m.after Env.quiet (.frame s.tcp.objects.length (Packet.buildStr .authRequest 0 0 body)) u := by
    have htext : authText m.after.clear s.tcp.objects.length (Packet.buildStr .authRequest 0 0 body) =
        some (s.tcp.nextSessionId, body) := htext
    rw [Step, exec_eq, outcome_auth _ _ _ htext, authBranch_bridge hb]
    rfl
  have hru : Run w anyStep (⟨m.after, Env.quiet, _, u⟩ :: m :: h) u := .step hrm trivial hlogin
  have hclose : Step w u Env.quiet (.close s.tcp.objects.length) (closed w Env.quiet u.clear s.tcp.objects.length) := by
    rw [Step, exec_eq]
    rfl
  have hmapped : u.sessionToPlayer.lookup s.tcp.nextSessionId = some (freshId m.after) :=
    AList.lookup_insert m.after.sessionToPlayer
  obtain ⟨-, hleft, hcounter⟩ :=
    closed_tables (w := w) (x := Env.quiet) (s := u.clear) hobject hmapped (freshId_ne m.after)
  refine ⟨[_, _, m], _, .step hru trivial hclose, ?_, fun id hid => ?_⟩
  · rw [hcounter, ← hfresh]
    rfl
  · rw [hleft] at hid
    obtain ⟨hne, hid⟩ := AList.mem_erase.mp hid
    rw [hfresh] at hne
    rcases (AList.mem_insert _).mp hid with he | hid
    · exact absurd (he.trans hfresh) hne
    · exact ⟨hplayers ▸ hid, hne⟩

/-- After some rounds nobody has any of as many ids. -/
theorem bridge_rounds (hr : Run w anyStep h s) {body : Bytes} (hb : Bridging w body) {k : Nat} (hk : freshId s = nthId k)
    (n : Nat) : ∃ later t, Run w anyStep (later ++ h) t ∧ freshId t = nthId (k + n) ∧
      ∀ id ∈ t.players, id ∈ s.players ∧ id ∉ (List.range n).map fun i => nthId (k + i) := by
  induction n with
  | zero => exact ⟨[], s, hr, hk, fun id hid => ⟨hid, List.not_mem_nil⟩⟩
  | succ n ih =>
    obtain ⟨later, t, hrt, hfresh, hids⟩ := ih
    obtain ⟨later', u, hru, hnext, hids'⟩ := bridge_round hrt hb
    refine ⟨later' ++ later, u, by rw [List.append_assoc]; exact hru, freshId_next hfresh hnext, fun id hid => ?_⟩
    obtain ⟨hmem, hne⟩ := hids' id hid
    obtain ⟨hs, hno⟩ := hids id hmem
    refine ⟨hs, ?_⟩
    rw [List.range_succ, List.map_append, List.mem_append, not_or, List.map_singleton, List.mem_singleton, ← hfresh]
    exact ⟨hno, hne⟩

/-- Where a bridge can log in, its logins take every record away. -/
theorem cleared (hr : Run w anyStep h s) {body : Bytes} (hb : Bridging w body) :
    ∃ later t, Run w anyStep (later ++ h) t ∧ t.players.keys = [] := by
  obtain ⟨later, t, hrt, -, hids⟩ := bridge_rounds hr hb (counter_run hr.mapped) cycle
  refine ⟨later, t, hrt, List.eq_nil_iff_forall_not_mem.mpr fun id hid => ?_⟩
  obtain ⟨hmem, hno⟩ := hids id (AList.mem_keys.mpr hid)
  obtain ⟨hlow, hhigh⟩ := present_bounds hr.reach (.inl hmem)
  have hcount := (window_ids (allocations h)).2 id hlow hhigh
  rw [List.count_eq_zero_of_not_mem hno] at hcount
  cases hcount

/-! ## Somebody is let in -/

/-- A server that can take in somebody does so. -/
theorem room (hr : Run w anyStep h s) (ha : Admits w s) :
    ∃ later t, Run w anyStep (later ++ h) t ∧ (t.players.keys.length : Int) < w.cfg.maxPlayers := by
  rcases ha.2 with hghosts | ⟨hpos, body, hb⟩
  · obtain ⟨later, t, hrt, hle⟩ := emptied hr
    exact ⟨later, t, hrt, by omega⟩
  · obtain ⟨later, t, hrt, hnone⟩ := cleared hr hb
    refine ⟨later, t, hrt, ?_⟩
    rw [hnone]
    exact hpos

theorem authBranch_ordinary {body : Bytes} (hb : Ordinary w body)
    (hroom : (s.players.keys.length : Int) < w.cfg.maxPlayers) :
    ∃ username role, authBranch w s body = .player username role ∧ username ≠ aiBridge := by
  obtain ⟨j, username, password, role, hj, huser, hpass, hbridge, hempty, hsecret, hrole⟩ := hb.reads
  have hright : ¬ (w.cfg.password ≠ "" ∧ password ≠ w.cfg.password) := fun hp => hp.2 (hsecret hp.1)
  refine ⟨username, role, ?_, hbridge⟩
  unfold authBranch
  simp only [hj, huser, hpass, hrole, if_neg hbridge, if_neg hempty, if_neg hright, if_neg (not_le.mpr hroom)]

/-- Where there is room, a connection from any address gets in. -/
theorem let_in (hr : Run w anyStep h s) {body : Bytes} (hb : Ordinary w body)
    (hroom : (s.players.keys.length : Int) < w.cfg.maxPlayers) (ip : String) :
    ∃ later t, Run w anyStep (later ++ h) t ∧ ∃ m ∈ later, Accepts ip m := by
  obtain ⟨m, hrm, hplayers, -, hobject, htext⟩ := connected_request hr ip hb.fits
  obtain ⟨username, role, hbranch, hname⟩ := authBranch_ordinary (s := m.after.clear) hb
    (by rw [show m.after.clear.players = s.players from hplayers]; exact hroom)
  let u := (authOutcome w Env.quiet m.after.clear s.tcp.nextSessionId (.player username role)).2
  have hlogin : Step w m.after Env.quiet (.frame s.tcp.objects.length (Packet.buildStr .authRequest 0 0 body)) u := by
    have htext : authText m.after.clear s.tcp.objects.length (Packet.buildStr .authRequest 0 0 body) =
        some (s.tcp.nextSessionId, body) := htext
    rw [Step, exec_eq, outcome_auth _ _ _ htext, hbranch]
    rfl
  refine ⟨[⟨m.after, Env.quiet, _, u⟩, m], u, .step hrm trivial hlogin, _, List.mem_cons_self, ?_⟩
  exact ⟨s.tcp.objects.length, _, _, _, _, _, rfl, htext, hobject, rfl, rfl, AList.lookup_insert m.after.sessionToPlayer,
    AList.lookup_insert m.after.players, hname⟩

/-! ## Nobody is let in -/

theorem turn_keys {pid : UInt16} {type : Option PacketType} {as : List Announcement} (ht : Turn s pid type as t) :
    t.players.keys = s.players.keys := by
  cases ht with
  | quiet ha => rw [ha.players]
  | ready _ ha | spawn _ _ ha | delete _ ha =>
    rw [ha.players]
    exact Table.keys_put _ _ _

/-- Without a bridge, a server full of ghosts lets nobody in. -/
theorem full_admits_none {object : Nat} {data : Bytes} {sid : UInt16} {body : Bytes}
    (htext : authText s object data = some (sid, body)) (hbridge : ∀ body, ¬ Bridging w body)
    (hfull : w.cfg.maxPlayers ≤ (ghosts s : Int)) (user : String × String × PlayerState) :
    (authBranch w s body).admits ≠ some user := by
  intro hb
  obtain ⟨username, role, st⟩ := user
  obtain ⟨j, password, hadm⟩ := admits_admission hb
  rcases hadm.checks with ⟨rfl, hai, rfl, -, -⟩ | ⟨-, -, -, hroom, -⟩
  · exact hbridge body ⟨authText_fits htext, j, hadm.json, hadm.user, hadm.pass, hai⟩
  · have hle := ghosts_le_players s
    omega

/-- Without a bridge the ghosts of a full server stay. -/
theorem full_stays {c : Call} (hs : Step w s x c t) (hbridge : ∀ body, ¬ Bridging w body)
    (hfull : w.cfg.maxPlayers ≤ (ghosts s : Int)) : w.cfg.maxPlayers ≤ (ghosts t : Int) := by
  have hkept (hall : ∀ pid, Ghost s pid → Ghost t pid) : w.cfg.maxPlayers ≤ (ghosts t : Int) := by
    have hle := ghosts_le hall
    omega
  have hchange := step_change w x s hs
  generalize announced w x s.clear c = as at hchange
  cases hchange with
  | quiet ha | accept ha =>
    refine hkept fun pid hg => ?_
    unfold Ghost
    rw [ha.players, ha.sessionToPlayer]
    exact hg
  | banned hp ha =>
    refine hkept fun pid hg => ⟨?_, ?_⟩
    · rw [ha.players, AList.mem_keys]
      exact (Table.keys_put s.players _ _).symm ▸ AList.mem_keys.mp hg.1
    · rw [ha.sessionToPlayer]
      exact hg.2
  | turn _ _ _ _ ht =>
    refine hkept fun pid hg => ⟨?_, ?_⟩
    · rw [AList.mem_keys, turn_keys ht]
      exact AList.mem_keys.mp hg.1
    · rw [(turn_alike ht).sessionToPlayer]
      exact hg.2
  | closed hc hp ha =>
    refine hkept fun pid hg => ⟨ha.players ▸ hg.1, fun sid hsid => hg.2 sid ?_⟩
    rw [ha.sessionToPlayer] at hsid
    exact Table.lookup_of_erase hsid
  | left hc hl hp ha =>
    refine hkept fun pid hg => ⟨?_, fun sid hsid => hg.2 sid ?_⟩
    · rw [ha.players]
      exact AList.mem_erase.mpr ⟨fun he => hg.2 _ (he ▸ hl), hg.1⟩
    · rw [ha.sessionToPlayer] at hsid
      exact Table.lookup_of_erase hsid
  | registered htext hb _ | vetoed htext hb _ => exact absurd hb (full_admits_none htext hbridge hfull _)

/-- Where nobody can be let in, nobody is. -/
theorem none_accepted (hr : Run w anyStep h s) (hno : ¬ Admits w s) {later : List Moment}
    (hlater : Run w anyStep (later ++ h) t) {m : Moment} (hm : m ∈ later) (ip : String) : ¬ Accepts ip m := by
  intro ha
  obtain ⟨newer, older, rfl⟩ := List.append_of_mem hm
  rw [List.append_assoc, List.cons_append] at hlater
  obtain ⟨hbefore, hstep⟩ := hlater.split
  obtain ⟨hordinary, hroom⟩ := accepts_ordinary hstep ha
  rw [Admits, not_and, not_or, not_and_or, not_exists] at hno
  obtain ⟨hghosts, hpos | hbridge⟩ := hno hordinary
  · omega
  · have hfull : w.cfg.maxPlayers ≤ (ghosts m.before : Int) :=
      hr.since (I := fun u => w.cfg.maxPlayers ≤ (ghosts u : Int)) (fun _ _ _ _ hi hs => full_stays hs hbridge hi)
        (by omega) hbefore
    have hle := ghosts_le_players m.before
    omega

/-! ## The ban -/

/-- A ban returns unless it hangs, and leaves the sessions and the ids of the players. -/
theorem ban_returns {id : UInt16} (hno : ¬ BanHangs s id) (x : Env) (reason : Bytes) :
    ∃ s', Step w s x (.banPlayer id reason) s' := by
  refine ⟨(outcome w x s.clear (.banPlayer id reason)).2, ?_⟩
  rw [Step, exec_eq]
  refine Prod.ext ?_ rfl
  have hmap : (markBanned s.clear id).sessionToPlayer = s.sessionToPlayer := (markBanned_same s.clear id).sessionToPlayer
  have htcp : (markBanned s.clear id).tcp = s.tcp := (markBanned_same s.clear id).tcp
  show (kicked (markBanned s.clear id) id _).1 = .ok ()
  unfold kicked
  rw [hmap]
  cases hk : s.sessionToPlayer.keyOf id with
  | none => rfl
  | some sid =>
    have hgone : s.tcp.sessions.lookup sid = none := AList.lookup_eq_none.mpr fun hmem => hno ⟨sid, hk, hmem⟩
    dsimp only
    unfold dropped
    rw [Server.log_tcp, htcp, hgone]

theorem not_banHangs {id : UInt16} {reason : Bytes} (hs : Step w s x (.banPlayer id reason) t) : ¬ BanHangs s id := by
  rintro ⟨sid, hk, hmem⟩
  obtain ⟨object, hl⟩ := Table.mem_iff.mp hmem
  have hmap : (markBanned s.clear id).sessionToPlayer = s.sessionToPlayer := (markBanned_same s.clear id).sessionToPlayer
  have htcp : (markBanned s.clear id).tcp = s.tcp := (markBanned_same s.clear id).tcp
  have hout : kicked (markBanned s.clear id) id (utf8 "Banned: " ++ reason) = (.ok (), t) := step_outcome hs
  unfold kicked at hout
  rw [hmap, hk] at hout
  dsimp only at hout
  have hdropped := (dropped_ok hout).2
  rw [Server.log_tcp, htcp, hl] at hdropped
  cases hdropped

theorem admits_after_ban {id : UInt16} {reason : Bytes} (hs : Step w s x (.banPlayer id reason) t) :
    Admits w t ↔ Admits w s := by
  have hsame : Same s.clear t := by
    cases step_cases w x s hs with
    | same hsame => exact hsame
  have hghosts : ghosts t = ghosts s := by
    rw [ghosts, ghosts, hsame.keys, hsame.sessionToPlayer]
    rfl
  rw [Admits, Admits, hghosts]

/-- The ban of a player lasts exactly if it never returns, or if the server can take in nobody
    any more, banned or not. -/
theorem bans_last_iff (w : World) {h : List Moment} {s : Server} (hr : Run w anyStep h s) {id : UInt16}
    (hid : id ∈ s.players) : BanLasts w h s id ↔ BanHangs s id ∨ ¬ Admits w s := by
  constructor
  · intro hlasts
    by_contra hno
    rw [not_or, not_not] at hno
    obtain ⟨hreturns, hadmits⟩ := hno
    obtain ⟨p, hp⟩ := Table.mem_iff.mp hid
    obtain ⟨s', hban⟩ := ban_returns (w := w) hreturns Env.quiet []
    have hrun : Run w anyStep (⟨s, Env.quiet, .banPlayer id [], s'⟩ :: h) s' := .step hr trivial hban
    have hadmits' := (admits_after_ban hban).mpr hadmits
    obtain ⟨body, hbody⟩ := hadmits'.1
    obtain ⟨later, u, hroom, hfree⟩ := room hrun hadmits'
    obtain ⟨later', v, hlogin, m, hm, hin⟩ := let_in hroom hbody hfree p.ip
    rw [← List.append_assoc] at hlogin
    exact hlasts p _ _ _ _ _ hp hlogin m (List.mem_append_left _ hm) hin
  · intro hor p x reason s' later t _ hrun m hm
    obtain ⟨hbefore, hban⟩ := hrun.split
    have hadmits := hor.resolve_left (not_banHangs hban)
    exact none_accepted (.step hbefore trivial hban) ((admits_after_ban hban).not.mpr hadmits) hrun hm p.ip

/-! ## Back from the same address -/

namespace Returning

/-- `ann` has authenticated twice on her session: nobody has player 1 any more. -/
def doubled : Server := after Sample.world Sample.joined Env.quiet (.frame 0 (authFrame (userJson "ann")))

def banned : Server := after Sample.world doubled Env.quiet (.banPlayer 1 [])

def back : Server := after Sample.world banned Env.quiet (.accept "10.0.0.1")

def accepted : Server := after Sample.world back Env.quiet (.frame 1 (authFrame (userJson "bob")))

def joining : List Moment :=
  [⟨Sample.connected, Env.quiet, .frame 0 (authFrame (userJson "ann")), Sample.joined⟩,
    ⟨Server.init, Env.quiet, .accept "10.0.0.1", Sample.connected⟩]

def doubling : List Moment := ⟨Sample.joined, Env.quiet, .frame 0 (authFrame (userJson "ann")), doubled⟩ :: joining

def returning : List Moment :=
  [⟨back, Env.quiet, .frame 1 (authFrame (userJson "bob")), accepted⟩,
    ⟨banned, Env.quiet, .accept "10.0.0.1", back⟩]

theorem run_joined : Run Sample.world anyStep joining Sample.joined :=
  .step (.step .init trivial Sample.step_connected) trivial Sample.step_joined

theorem run_doubled : Run Sample.world anyStep doubling doubled :=
  .step run_joined trivial (step_after Sample.world _ _ (by decide))

theorem run_accepted :
    Run Sample.world anyStep (returning ++ ⟨doubled, Env.quiet, .banPlayer 1 [], banned⟩ :: doubling) accepted := by
  have hbanned : Step Sample.world doubled Env.quiet (.banPlayer 1 []) banned := step_after Sample.world _ _ (by decide)
  have hback : Step Sample.world banned Env.quiet (.accept "10.0.0.1") back := step_ends Sample.world _ _ rfl
  have haccepted : Step Sample.world back Env.quiet (.frame 1 (authFrame (userJson "bob"))) accepted :=
    step_after Sample.world _ _ (by decide)
  exact .step (.step (.step run_doubled trivial hbanned) trivial hback) trivial haccepted

theorem accepts_bob :
    Accepts "10.0.0.1" ⟨back, Env.quiet, .frame 1 (authFrame (userJson "bob")), accepted⟩ :=
  ⟨1, _, 2, utf8 (userJson "bob").text, ⟨2, "10.0.0.1", true⟩,
    ⟨3, "bob", "player", "10.0.0.1", .loadingMods, false, false, []⟩, rfl, by decide, by decide, rfl,
    by decide, by decide, by decide, by decide⟩

theorem admits_doubled : Admits Sample.world doubled := by
  refine ⟨⟨utf8 (userJson "bob").text, by decide, userJson "bob", "bob", "", "player", rfl, by decide, by decide, by decide,
    by decide, fun h => absurd rfl h, by decide⟩, .inl (by decide)⟩

end Returning

/-- While `ann` is connected her ban hangs. The record that her second login leaves can be banned, to no effect. -/
theorem bans_last_ann : BanLasts Sample.world Returning.joining Sample.joined 1 ∧
    ¬ BanLasts Sample.world Returning.doubling Returning.doubled 1 := by
  constructor
  · exact (bans_last_iff Sample.world Returning.run_joined (by decide)).mpr (.inl ⟨1, by decide, by decide⟩)
  · rw [bans_last_iff Sample.world Returning.run_doubled (by decide), not_or, not_not]
    refine ⟨?_, Returning.admits_doubled⟩
    rintro ⟨sid, hk, -⟩
    have hnone : Returning.doubled.sessionToPlayer.keyOf 1 = none := by decide
    rw [hnone] at hk
    cases hk

theorem banned_address_returns : ¬ ∀ (w : World) (h : List Moment) (s : Server) (id : UInt16), Run w anyStep h s →
    id ∈ s.players → BanLasts w h s id := by
  intro hall
  have hann : Returning.doubled.players.lookup 1 =
      some ⟨1, "ann", "player", "10.0.0.1", .loadingMods, false, false, []⟩ := by decide
  exact hall _ _ _ 1 Returning.run_doubled (Table.mem_of_lookup hann) _ _ _ _ _ _ hann Returning.run_accepted _
    List.mem_cons_self Returning.accepts_bob

end NovaMP.GameServer
