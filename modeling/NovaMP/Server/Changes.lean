/-
  NovaMP.Server.Changes — all that a completed call can do to the tables, and what it
  announces about players.

  `Effect` (`Runs`) tells what becomes of the connections and of the maps' keys; a
  `Change` tells the tables themselves: which record is written and how, who is
  registered and with what request, who leaves. It also carries the announcements, the
  messages to all about one player: that it joined or left, that it has a vehicle or has
  lost it.

  - `outcome_change`, `step_change`: every completed call is one of these changes.
  - `Run`: a run with its history, each call with the states around it.
  - `Record`, `records_reach`: what holds of every record in every reachable state.
-/

import NovaMP.Server.Messages

namespace NovaMP

open Lib Exec

/-! ## Announcements -/

inductive Announcement where
  | join (pid : UInt16)
  | spawn (pid : UInt16) (vid : UInt8)
  | delete (pid : UInt16) (vid : UInt8)
  | leave (pid : UInt16)
  deriving DecidableEq, Repr

namespace Announcement

/-- The player an announcement is about. -/
def pid : Announcement → UInt16
  | join pid | spawn pid _ | delete pid _ | leave pid => pid

end Announcement

def Message.announcement : Message → Option Announcement
  | playerJoin p => some (.join p.id)
  | vehicleSpawn pid pv => some (.spawn pid pv.vehicleId)
  | vehicleDelete pid vid => some (.delete pid vid)
  | playerLeave pid => some (.leave pid)
  | _ => none

def aboutPlayers (ps : List Post) : List Announcement := ps.filterMap fun p => p.message.announcement

theorem aboutPlayers_append (ps qs : List Post) : aboutPlayers (ps ++ qs) = aboutPlayers ps ++ aboutPlayers qs :=
  List.filterMap_append

namespace GameServer

variable (w : World) (x : Env) (s : Server)

/-- What a call announces. -/
def announced (c : Call) : List Announcement := aboutPlayers (posts w x s c)

@[simp] theorem aboutPlayers_authority (calls : List AuthorityCall) : aboutPlayers (calls.map authorityMessage) = [] := by
  apply List.filterMap_eq_nil_iff.mpr
  intro p hp
  obtain ⟨c, -, rfl⟩ := List.mem_map.mp hp
  cases c <;> rfl

/-- An id that is taken makes the counter move. -/
theorem freshId_advances (s : Server) : s.nextPlayerId ≠ freshId s + 1 := by
  unfold freshId
  split
  · rename_i h
    rw [h]
    decide
  · intro h
    have hone : s.nextPlayerId + 0 = s.nextPlayerId + 1 := by rw [UInt16.add_zero]; exact h
    exact absurd (UInt16.add_right_inj _ |>.mp hone) (by decide)

/-! ## Changes -/

/-- The tables are the same; the logs and the vehicle states may differ. -/
structure Alike (s s' : Server) : Prop where
  players : s'.players = s.players
  sessionToPlayer : s'.sessionToPlayer = s.sessionToPlayer
  nextPlayerId : s'.nextPlayerId = s.nextPlayerId
  tcp : s'.tcp = s.tcp
  udp : s'.udp = s.udp

namespace Alike

variable {s}

theorem refl (s : Server) : Alike s s := ⟨rfl, rfl, rfl, rfl, rfl⟩

theorem trans {t u : Server} (h : Alike s t) (h' : Alike t u) : Alike s u :=
  ⟨h'.players.trans h.players, h'.sessionToPlayer.trans h.sessionToPlayer, h'.nextPlayerId.trans h.nextPlayerId,
    h'.tcp.trans h.tcp, h'.udp.trans h.udp⟩

theorem log (s : Server) (es : List Sent) : Alike s (s.log es) := ⟨rfl, rfl, rfl, rfl, rfl⟩

theorem note (s : Server) (e : Fired) : Alike s (s.note e) := ⟨rfl, rfl, rfl, rfl, rfl⟩

end Alike

/-- A write through the `Player*` of `id`. -/
def withRecord (s : Server) (id : UInt16) (p : Player) : Server := { s with players := s.players.put id p }

/-- What a packet of the player `pid` does, by its type. -/
inductive Turn (s : Server) (pid : UInt16) : Option PacketType → List Announcement → Server → Prop
  | quiet {t : Option PacketType} {s' : Server} : Alike s s' → Turn s pid t [] s'
  | ready {p : Player} {s' : Server} : s.players.lookup pid = some p →
      Alike (withRecord s pid { p with state := .ready }) s' → Turn s pid (some .ready) [.join p.id] s'
  | spawn {p : Player} {v : PlayerVehicle} {s' : Server} : s.players.lookup pid = some p →
      v.vehicleId = UInt8.ofNat p.vehicles.length →
      Alike (withRecord s pid { p with vehicles := p.vehicles ++ [v] }) s' →
      Turn s pid (some .vehicleSpawn) [.spawn pid v.vehicleId] s'
  | delete {p : Player} {vid : UInt8} {s' : Server} : s.players.lookup pid = some p →
      Alike (withRecord s pid { p with vehicles := p.vehicles.filter fun v => !(v.vehicleId == vid) }) s' →
      Turn s pid (some .vehicleDelete) [.delete pid vid] s'

/-- A packet writes nothing but records. -/
theorem turn_alike {s : Server} {pid : UInt16} {t : Option PacketType} {as : List Announcement} {s' : Server}
    (h : Turn s pid t as s') : Alike { s with players := s'.players } s' := by
  cases h with
  | quiet ha => exact ⟨rfl, ha.sessionToPlayer, ha.nextPlayerId, ha.tcp, ha.udp⟩
  | ready _ ha => exact ⟨rfl, ha.sessionToPlayer, ha.nextPlayerId, ha.tcp, ha.udp⟩
  | spawn _ _ ha => exact ⟨rfl, ha.sessionToPlayer, ha.nextPlayerId, ha.tcp, ha.udp⟩
  | delete _ ha => exact ⟨rfl, ha.sessionToPlayer, ha.nextPlayerId, ha.tcp, ha.udp⟩

/-- The record an admitted request is registered with: its name, role and state. -/
def AuthBranch.admits : AuthBranch → Option (String × String × PlayerState)
  | bridge => some (aiBridge, "bridge", .ready)
  | player username role => some (username, role, .loadingMods)
  | _ => none

/-- The connection of a session object that has closed is gone. -/
def unlinked (s : Server) (object : Nat) (sid : UInt16) : Server :=
  { s with
    tcp := (s.tcp.closeSocket object).eraseSession sid
    sessionToPlayer := s.sessionToPlayer.erase sid }

/-- The player `pid` is gone. -/
def departed (s : Server) (pid : UInt16) : Server :=
  { s with
    players := s.players.erase pid
    udp := if pid ∈ s.players then s.udp.unmap pid else s.udp }

/-- What a completed call does to the tables, and what it announces. -/
inductive Change (w : World) (s : Server) : Call → List Announcement → Server → Prop
  | quiet {c : Call} {s' : Server} : Alike s s' → Change w s c [] s'
  | accept {ip : String} {s' : Server} : Alike { s with tcp := s.tcp.addSession ip } s' → Change w s (.accept ip) [] s'
  | turn {object : Nat} {data : Bytes} {t : TCPSession} {hdr : PacketHeader} {as : List Announcement} {s' : Server} :
      s.tcp.objects[object]? = some t → isFrame t data → Packet.parseHeader data = .ok hdr →
      playerOf s t.id ≠ 0xFFFF → Turn s (playerOf s t.id) (PacketType.ofCode hdr.type) as s' →
      Change w s (.frame object data) as s'
  | banned {id : UInt16} {reason : Bytes} {p : Player} {s' : Server} : s.players.lookup id = some p →
      Alike (withRecord s id { p with isBanned := true }) s' → Change w s (.banPlayer id reason) [] s'
  /-- A session without a player closes. -/
  | closed {object : Nat} {t : TCPSession} {s' : Server} : s.tcp.objects[object]? = some t →
      playerOf s t.id = 0xFFFF → Alike (unlinked s object t.id) s' → Change w s (.close object) [] s'
  | left {object : Nat} {t : TCPSession} {pid : UInt16} {s' : Server} : s.tcp.objects[object]? = some t →
      s.sessionToPlayer.lookup t.id = some pid → pid ≠ 0xFFFF →
      Alike (departed (unlinked s object t.id) pid) s' → Change w s (.close object) [.leave pid] s'
  | registered {object : Nat} {data : Bytes} {sid : UInt16} {body : Bytes} {username role : String} {st : PlayerState}
      {s' : Server} : authText s object data = some (sid, body) →
      (authBranch w s body).admits = some (username, role, st) →
      Alike (registered s sid username role st) s' → Change w s (.frame object data) [] s'
  | vetoed {object : Nat} {data : Bytes} {sid : UInt16} {body : Bytes} {username role : String} {st : PlayerState}
      {s' : Server} : authText s object data = some (sid, body) →
      (authBranch w s body).admits = some (username, role, st) →
      Alike (unregistered (registered s sid username role st) sid (freshId s)) s' → Change w s (.frame object data) [] s'

theorem registering_of_admits {w : World} {s : Server} {object : Nat} {data : Bytes} {sid : UInt16} {body : Bytes}
    {r : String × String × PlayerState} (ha : authText s object data = some (sid, body))
    (hb : (authBranch w s body).admits = some r) : registering w s (.frame object data) = some sid := by
  simp only [registering, ha]
  cases hbr : authBranch w s body with
  | bridge => rfl
  | player username role => rfl
  | throws e => rw [hbr] at hb; cases hb
  | refused error drop => rw [hbr] at hb; cases hb
  | badRole e => rw [hbr] at hb; cases hb

/-! ## Every completed call is a change -/

theorem removePlayer_alike (pid : UInt16) : Alike (departed s pid) (removePlayer s pid) := by
  unfold departed removePlayer
  by_cases hm : pid ∈ s.players
  · rw [if_pos hm, if_pos hm]
    exact ⟨rfl, rfl, rfl, rfl, rfl⟩
  · rw [if_neg hm, if_neg hm]
    exact ⟨(Table.erase_of_notMem hm).symm, rfl, rfl, rfl, rfl⟩

theorem announceLeave_alike (pid : UInt16) : Alike s (announceLeave w x s pid) := by
  unfold announceLeave
  dsimp only
  split <;> exact ⟨rfl, rfl, rfl, rfl, rfl⟩

theorem aboutPlayers_leave (pid : UInt16) : aboutPlayers (leavePosts w x pid) = [.leave pid] := by
  unfold leavePosts
  split
  · show .leave pid :: aboutPlayers ((x.onAuthorityDisconnect pid).map authorityMessage) = _
    rw [aboutPlayers_authority]
  · rfl

theorem spawn_turn {pid : UInt16} {body : Bytes} {s' : Server} (h : spawnOutcome w s pid body = (.ok (), s')) :
    Turn s pid (some .vehicleSpawn) (aboutPlayers (spawnPosts w s pid body)) s' := by
  unfold spawnOutcome at h
  unfold spawnPosts
  cases hj : w.parse body with
  | none => rw [hj] at h; cases h; exact .quiet (.refl s)
  | some j =>
    cases hp : s.players.lookup pid with
    | none => rw [hj, hp] at h; cases h; exact .quiet (.refl s)
    | some p =>
      rw [hj, hp] at h
      dsimp only at h ⊢
      by_cases hlim : w.cfg.vehicleLimitPerPlayer ≤ (p.vehicles.length : Int)
      · rw [if_pos hlim] at h ⊢
        cases h
        exact .quiet (.refl s)
      rw [if_neg hlim] at h ⊢
      cases hm : j.value "model" "etk800" with
      | error e => rw [hm] at h; cases h
      | ok model =>
        rw [hm] at h
        cases h
        exact .spawn (v := newVehicle w p j model) hp rfl ⟨rfl, rfl, rfl, rfl, rfl⟩

theorem delete_turn (pid : UInt16) (vid : UInt8) :
    Turn s pid (some .vehicleDelete) (aboutPlayers (deletePosts s pid vid)) (deleted s pid vid) := by
  unfold deleted deletePosts
  cases hp : s.players.lookup pid with
  | none => exact .quiet (.refl s)
  | some p => exact .delete hp ⟨rfl, rfl, rfl, rfl, rfl⟩

theorem chat_turn (pid : UInt16) (msg : Bytes) :
    Turn s pid (some .chatMessage) (aboutPlayers (chatPosts x s pid msg)) (chatted x s pid msg) := by
  unfold chatted chatPosts
  cases s.players.lookup pid with
  | none => exact .quiet (.refl s)
  | some p =>
    dsimp only
    by_cases hm : p.isMuted = true
    · rw [if_pos hm, if_pos hm]
      exact .quiet (.refl s)
    rw [if_neg hm, if_neg hm]
    by_cases hr : refuses (cstr (x.plugin "onChatMessage" (chatArgs pid p msg))) = true
    · rw [if_pos hr, if_pos hr]
      exact .quiet (.note s _)
    · rw [if_neg hr, if_neg hr]
      exact .quiet ((Alike.note s _).trans (.log _ _))

theorem ready_turn (pid : UInt16) : Turn s pid (some .ready) (aboutPlayers (readyPosts w s pid)) (readied w s pid) := by
  unfold readied readyPosts
  cases hp : s.players.lookup pid with
  | none => exact .quiet (.refl s)
  | some p => exact .ready (p := p) hp ⟨rfl, rfl, rfl, rfl, rfl⟩

theorem claim_turn (pid : UInt16) :
    Turn s pid (some .authorityClaim) (aboutPlayers (claimPosts w x pid)) (claimed w x s pid) := by
  unfold claimed claimPosts
  by_cases hai : w.cfg.aiEnabled = true
  · rw [if_pos hai, if_pos hai, aboutPlayers_append, aboutPlayers_authority]
    by_cases ha : (x.onClientClaim pid).1 = true
    · rw [if_pos ha, if_pos ha]
      exact .quiet (.log s _)
    · rw [if_neg ha, if_neg ha]
      exact .quiet ((Alike.log s _).trans (.log _ _))
  · rw [if_neg hai, if_neg hai]
    exact .quiet (.refl s)

/-- The handler of a packet takes one turn of its player. -/
theorem inGame_turn {pid : UInt16} {pl : Bytes} {len : UInt16} {t : Option PacketType} {s' : Server}
    (h : inGame w x s pid pl len t = (.ok (), s')) :
    Turn s pid t (aboutPlayers (inGamePosts w x s pid pl len t)) s' := by
  cases t with
  | none => cases h; exact .quiet (.refl s)
  | some t =>
    cases t with
    | vehicleSpawn =>
      dsimp only [inGame, inGamePosts] at h ⊢
      cases hb : readBytes pl len.toNat with
      | error e => rw [hb] at h; cases h
      | ok body =>
        rw [hb] at h
        exact spawn_turn w s h
    | vehicleDelete =>
      dsimp only [inGame, inGamePosts] at h ⊢
      by_cases hlen : len < 1
      · rw [if_pos hlen] at h ⊢
        cases h
        exact .quiet (.refl s)
      rw [if_neg hlen] at h ⊢
      cases hv : readByte pl 0 with
      | error e => rw [hv] at h; cases h
      | ok vid =>
        rw [hv] at h
        cases h
        exact delete_turn s pid vid
    | chatMessage =>
      dsimp only [inGame, inGamePosts] at h ⊢
      cases hb : readBytes pl len.toNat with
      | error e => rw [hb] at h; cases h
      | ok msg =>
        rw [hb] at h
        cases h
        exact chat_turn x s pid msg
    | ready =>
      cases h
      exact ready_turn w s pid
    | authorityClaim =>
      cases h
      exact claim_turn w x s pid
    | _ => cases h; exact .quiet (.refl s)

theorem auth_change {object : Nat} {data : Bytes} {sid : UInt16} {body : Bytes} {s' : Server}
    (ha : authText s object data = some (sid, body)) (h : authOutcome w x s sid (authBranch w s body) = (.ok (), s')) :
    Change w s (.frame object data) (aboutPlayers (authPosts x s sid (authBranch w s body))) s' := by
  cases hb : authBranch w s body with
  | throws e => rw [hb] at h; cases h
  | refused error drop =>
    rw [hb] at h
    cases drop with
    | false => cases h; exact .quiet (.log s _)
    | true =>
      rw [(dropped_ok h).1]
      exact .quiet (.log s _)
  | bridge =>
    rw [hb] at h
    cases h
    have hnone : aboutPlayers (authPosts x s sid .bridge) = [] := aboutPlayers_authority (x.onHeadlessConnect (freshId s))
    rw [hnone]
    exact .registered ha (by rw [hb]; rfl) ((Alike.log _ _).trans (.log _ _))
  | badRole e => rw [hb] at h; cases h
  | player username role =>
    rw [hb] at h
    simp only [authOutcome, authPosts] at h ⊢
    by_cases hv : refuses (vetoOf x s username) = true
    · rw [if_pos hv] at h ⊢
      cases hj : Json.ofBytes (vetoOf x s username) with
      | error e => rw [hj] at h; cases h
      | ok j =>
        rw [hj] at h
        obtain ⟨error, rfl⟩ := ofBytes_str hj
        rw [(dropped_ok h).1]
        exact .vetoed ha (by rw [hb]; rfl) ⟨rfl, rfl, rfl, rfl, rfl⟩
    · rw [if_neg hv] at h ⊢
      cases h
      exact .registered ha (by rw [hb]; rfl) ⟨rfl, rfl, rfl, rfl, rfl⟩

theorem kicked_alike {id : UInt16} {reason : Bytes} {s' : Server} (h : kicked s id reason = (.ok (), s')) :
    Alike s s' :=
  kicked_keeps (P := Alike s) (.refl s) (fun _ => .log s _) h

theorem datagramOutcome_alike (source : UDPEndpoint) (data : Bytes) (hdr : PacketHeader) :
    Alike s (datagramOutcome w x s source data hdr).2 :=
  datagramOutcome_keeps w x s (.refl s) (fun _ _ => .log s _) (fun _ => ⟨rfl, rfl, rfl, rfl, rfl⟩) source data hdr

theorem frame_change {object : Nat} {data : Bytes} {s' : Server}
    (h : outcome w x s (.frame object data) = (.ok (), s')) :
    Change w s (.frame object data) (announced w x s (.frame object data)) s' := by
  cases ha : authText s object data with
  | some r =>
    obtain ⟨sid, body⟩ := r
    rw [announced, posts_auth w x s ha]
    rw [outcome_auth w x s ha] at h
    exact auth_change w x s ha h
  | none =>
    cases ht : s.tcp.objects[object]? with
    | none =>
      simp only [outcome, ht] at h
      simp only [announced, posts, ht]
      cases h
      exact .quiet (.refl s)
    | some t =>
      rw [outcome_frame w x s ht] at h
      simp only [announced, posts, ht]
      by_cases hf : isFrame t data
      · rw [if_pos hf] at h ⊢
        cases hh : Packet.parseHeader data with
        | error e => rw [hh] at h; cases h
        | ok hdr =>
          rw [hh] at h
          dsimp only [dispatch, dispatchPosts] at h ⊢
          by_cases hauth : PacketType.ofCode hdr.type = some .authRequest
          · -- A request whose text the frame lacks throws.
            rw [if_pos hauth] at h
            cases hb : readBytes (Packet.payload data) hdr.payloadLen.toNat with
            | error e => rw [hb] at h; cases h
            | ok body => simp [authText, ht, hh, hf, hauth, hb] at ha
          rw [if_neg hauth] at h ⊢
          by_cases hp : playerOf s t.id = 0xFFFF
          · rw [if_pos hp] at h ⊢
            cases h
            exact .quiet (.refl s)
          · rw [if_neg hp] at h ⊢
            exact .turn ht hf hh hp (inGame_turn w x s h)
      · rw [if_neg hf] at h ⊢
        cases h
        exact .quiet (.refl s)

theorem playerOf_none {s : Server} {sid : UInt16} (h : s.sessionToPlayer.lookup sid = none) : playerOf s sid = 0xFFFF := by
  rw [playerOf, h]
  rfl

theorem playerOf_some {s : Server} {sid pid : UInt16} (h : s.sessionToPlayer.lookup sid = some pid) :
    playerOf s sid = pid := by
  rw [playerOf, h]
  rfl

theorem close_change (object : Nat) :
    Change w s (.close object) (announced w x s (.close object)) (closed w x s object) := by
  simp only [announced, posts, closePosts]
  cases ht : s.tcp.objects[object]? with
  | none =>
    rw [closed, ht]
    exact .quiet (.refl s)
  | some t =>
    rw [closed_some w x s ht]
    dsimp only
    cases hl : s.sessionToPlayer.lookup t.id with
    | none =>
      rw [disconnected_none (by exact hl)]
      refine .closed ht (playerOf_none hl) ⟨rfl, ?_, rfl, rfl, rfl⟩
      exact (Table.erase_of_notMem (AList.lookup_eq_none.mp hl)).symm
    | some pid =>
      dsimp only
      by_cases hp : pid = 0xFFFF
      · subst hp
        rw [if_pos rfl, disconnected_sentinel (by exact hl)]
        exact .closed ht (playerOf_some hl) ⟨rfl, rfl, rfl, rfl, rfl⟩
      · rw [if_neg hp, disconnected_some (by exact hl) hp, aboutPlayers_leave]
        exact .left ht hl hp ((removePlayer_alike _ pid).trans (announceLeave_alike w x _ pid))

theorem outcome_change {c : Call} {s' : Server} (h : outcome w x s c = (.ok (), s')) :
    Change w s c (announced w x s c) s' := by
  cases c with
  | accept ip => cases h; exact .accept (.refl _)
  | frame object data => exact frame_change w x s h
  | close object => cases h; exact close_change w x s object
  | datagram source data =>
    simp only [outcome] at h
    split at h
    · split at h
      · cases h
      · rename_i hdr _
        have halike := datagramOutcome_alike w x s source data hdr
        rw [h] at halike
        exact .quiet halike
    · cases h
      exact .quiet (.refl s)
  | broadcastAll => cases h; exact .quiet ⟨rfl, rfl, rfl, rfl, rfl⟩
  | kickPlayer id reason => exact .quiet (kicked_alike s h)
  | banPlayer id reason =>
    have hkick : Alike (markBanned s id) s' := kicked_alike _ h
    unfold markBanned at hkick
    cases hp : s.players.lookup id with
    | none => rw [hp] at hkick; exact .quiet hkick
    | some p => rw [hp] at hkick; exact .banned hp hkick
  | sendChat playerId msg => cases h; exact .quiet (.log s _)
  | grantAuthority pid => cases h; exact .quiet (.log s _)
  | revokeAuthority pid => cases h; exact .quiet (.log s _)

/-! ## Runs with their history -/

theorem Alike.of_base {s t u : Server} (h : Alike t u) (hbase : Alike s t) : Alike s u := hbase.trans h

theorem Turn.of_clear {s : Server} {pid : UInt16} {t : Option PacketType} {as : List Announcement} {s' : Server}
    (h : Turn s.clear pid t as s') : Turn s pid t as s' := by
  cases h with
  | quiet h => exact .quiet (h.of_base ⟨rfl, rfl, rfl, rfl, rfl⟩)
  | ready hp h => exact .ready hp (h.of_base ⟨rfl, rfl, rfl, rfl, rfl⟩)
  | spawn hp hv h => exact .spawn hp hv (h.of_base ⟨rfl, rfl, rfl, rfl, rfl⟩)
  | delete hp h => exact .delete hp (h.of_base ⟨rfl, rfl, rfl, rfl, rfl⟩)

/-- The logs of earlier calls make no difference. -/
theorem Change.of_clear {s : Server} {c : Call} {as : List Announcement} {s' : Server}
    (h : Change w s.clear c as s') : Change w s c as s' := by
  cases h with
  | quiet h => exact .quiet (h.of_base ⟨rfl, rfl, rfl, rfl, rfl⟩)
  | accept h => exact .accept (h.of_base ⟨rfl, rfl, rfl, rfl, rfl⟩)
  | turn ht hf hh hp h => exact .turn ht hf hh hp h.of_clear
  | banned hp h => exact .banned hp (h.of_base ⟨rfl, rfl, rfl, rfl, rfl⟩)
  | closed ht hp h => exact .closed ht hp (h.of_base ⟨rfl, rfl, rfl, rfl, rfl⟩)
  | left ht hl hp h => exact .left ht hl hp (h.of_base ⟨rfl, rfl, rfl, rfl, rfl⟩)
  | registered ha hb h => exact .registered ha hb (h.of_base ⟨rfl, rfl, rfl, rfl, rfl⟩)
  | vetoed ha hb h => exact .vetoed ha hb (h.of_base ⟨rfl, rfl, rfl, rfl, rfl⟩)

theorem step_change {c : Call} {s' : Server} (h : Step w s x c s') : Change w s c (announced w x s.clear c) s' :=
  (outcome_change w x s.clear (step_outcome h)).of_clear

/-- A completed call of a run, with the states around it. -/
structure Moment where
  before : Server
  env : Env
  call : Call
  after : Server

/-- A run to the state `s`, with its history; the latest call comes first. -/
inductive Run (ok : Server → Env → Call → Prop) : List Moment → Server → Prop
  | init : Run ok [] Server.init
  | step {h : List Moment} {s s' : Server} {x : Env} {c : Call} : Run ok h s → ok s x c → Step w s x c s' →
      Run ok (⟨s, x, c, s'⟩ :: h) s'

variable {w}

theorem Run.reach {ok : Server → Env → Call → Prop} {h : List Moment} {s : Server} (hr : Run w ok h s) :
    Reach w ok s := by
  induction hr with
  | init => exact .init
  | step _ hok hs ih => exact .step ih hok hs

theorem Reach.run {ok : Server → Env → Call → Prop} {s : Server} (hr : Reach w ok s) : ∃ h, Run w ok h s := by
  induction hr with
  | init => exact ⟨[], .init⟩
  | step _ hok hs ih =>
    obtain ⟨h, hrun⟩ := ih
    exact ⟨_, .step hrun hok hs⟩

/-- The run up to a call of its history. -/
theorem Run.split {ok : Server → Env → Call → Prop} {later earlier : List Moment} {m : Moment} {s : Server}
    (hr : Run w ok (later ++ m :: earlier) s) : Run w ok earlier m.before ∧ Step w m.before m.env m.call m.after := by
  generalize hl : later ++ m :: earlier = h at hr
  induction hr generalizing later with
  | init => exact absurd hl (by simp)
  | step hr _ hstep ih =>
    cases later with
    | nil =>
      cases hl
      exact ⟨hr, hstep⟩
    | cons m' later => exact ih (List.cons.inj hl).2

/-- One history leads to one state. -/
theorem Run.state_eq {ok : Server → Env → Call → Prop} {h : List Moment} {s t : Server} (hr : Run w ok h s)
    (hr' : Run w ok h t) : s = t := by
  cases hr with
  | init => cases hr'; rfl
  | step _ _ _ => cases hr'; rfl

/-- What the calls after a state keep. -/
theorem Run.since {ok : Server → Env → Call → Prop} {I : Server → Prop}
    (hstep : ∀ s x c s', I s → Step w s x c s' → I s') {h later : List Moment} {s t : Server} (hr : Run w ok h s) (h0 : I s)
    (hlater : Run w ok (later ++ h) t) : I t := by
  induction later generalizing t with
  | nil => exact hr.state_eq hlater ▸ h0
  | cons m later ih =>
    cases hlater with
    | step hbefore _ hs => exact hstep _ _ _ _ (ih hbefore) hs

/-- What holds at first, and after a call exactly if the call meets a condition, holds all
    along a run exactly if every call of it does. -/
theorem Run.forall_iff {ok : Server → Env → Call → Prop} {I : Server → Prop} {C : Moment → Prop} (h0 : I Server.init)
    (hstep : ∀ m, Step w m.before m.env m.call m.after → I m.before → (I m.after ↔ C m)) {h : List Moment}
    {s : Server} (hr : Run w ok h s) : (∀ m ∈ h, I m.after) ↔ ∀ m ∈ h, C m := by
  -- the induction needs besides that the last state has `I`
  suffices hboth : ((∀ m ∈ h, I m.after) ↔ ∀ m ∈ h, C m) ∧ ((∀ m ∈ h, I m.after) → I s) from hboth.1
  induction hr with
  | init => exact ⟨by simp, fun _ => h0⟩
  | @step h s s' x c _ _ hs ih =>
    obtain ⟨hiff, hlast⟩ := ih
    refine ⟨?_, fun hall => hall _ List.mem_cons_self⟩
    rw [List.forall_mem_cons, List.forall_mem_cons]
    constructor
    · rintro ⟨hafter, hall⟩
      exact ⟨(hstep ⟨s, x, c, s'⟩ hs (hlast hall)).mp hafter, hiff.mp hall⟩
    · rintro ⟨hmeets, hall⟩
      exact ⟨(hstep ⟨s, x, c, s'⟩ hs (hlast (hiff.mpr hall))).mpr hmeets, hiff.mpr hall⟩

/-! ## The records -/

/-- What holds of every record. -/
structure Record (pid : UInt16) (p : Player) : Prop where
  id : p.id = pid
  named : p.username ≠ ""
  state : p.state = .loadingMods ∨ p.state = .ready
  /-- The bridge loads nothing. -/
  bridge : p.username = aiBridge → p.state = .ready

def Records (s : Server) : Prop := ∀ pid p, s.players.lookup pid = some p → Record pid p

theorem Records.put {s t : Server} (h : Records s) {id : UInt16} {p q : Player} (hp : s.players.lookup id = some p)
    (ht : t.players = s.players.put id q) (hq : Record id q) : Records t := by
  intro pid r hr
  rw [ht] at hr
  by_cases hid : pid = id
  · subst hid
    rw [Table.lookup_put_self hp] at hr
    cases hr
    exact hq
  · rw [Table.lookup_put_ne hid] at hr
    exact h pid r hr

theorem Records.erase {s : Server} (h : Records s) (id : UInt16) : Records { s with players := s.players.erase id } := by
  intro pid p hp
  have hp' : (s.players.erase id).lookup pid = some p := hp
  rw [Table.lookup_erase'] at hp'
  split at hp'
  · cases hp'
  · exact h pid p hp'

theorem Records.of_players {s t : Server} (h : Records s) (hp : t.players = s.players) : Records t := by
  intro pid p hl
  rw [hp] at hl
  exact h pid p hl

/-! ## Admitted requests -/

/-- A request passes the checks: what it says, and what its record is made of. -/
structure Admission (w : World) (s : Server) (body : Bytes) (username role : String) (st : PlayerState)
    (j : Json) (password : String) : Prop where
  json : w.parse body = some j
  user : j.value "username" "" = .ok username
  pass : j.value "server_password" "" = .ok password
  checks : (username = aiBridge ∧ w.cfg.aiEnabled = true ∧ password = w.cfg.bridgeToken ∧ role = "bridge" ∧ st = .ready) ∨
    (username ≠ aiBridge ∧ username ≠ "" ∧ (w.cfg.password ≠ "" → password = w.cfg.password) ∧
      (s.players.keys.length : Int) < w.cfg.maxPlayers ∧ j.value "role" "player" = .ok role ∧ st = .loadingMods)

theorem admits_admission {w : World} {s : Server} {body : Bytes} {username role : String} {st : PlayerState}
    (h : (authBranch w s body).admits = some (username, role, st)) :
    ∃ j password, Admission w s body username role st j password := by
  unfold authBranch at h
  cases hj : w.parse body with
  | none => rw [hj] at h; cases h
  | some j =>
    rw [hj] at h
    dsimp only at h
    cases hu : j.value "username" "" with
    | error e => rw [hu] at h; cases h
    | ok name =>
      rw [hu] at h
      dsimp only at h
      cases hpw : j.value "server_password" "" with
      | error e => rw [hpw] at h; cases h
      | ok password =>
        rw [hpw] at h
        dsimp only at h
        by_cases h1 : name = aiBridge
        · rw [if_pos h1] at h
          by_cases htok : (!w.cfg.aiEnabled || password ≠ w.cfg.bridgeToken) = true
          · rw [if_pos htok] at h
            cases h
          · rw [if_neg htok] at h
            cases h
            simp only [Bool.or_eq_true, not_or, Bool.not_eq_true', decide_eq_true_eq, not_not,
              Bool.not_eq_false] at htok
            exact ⟨j, password, hj, h1 ▸ hu, hpw, .inl ⟨rfl, htok.1, htok.2, rfl, rfl⟩⟩
        rw [if_neg h1] at h
        by_cases h2 : name = ""
        · rw [if_pos h2] at h
          cases h
        rw [if_neg h2] at h
        by_cases h3 : w.cfg.password ≠ "" ∧ password ≠ w.cfg.password
        · rw [if_pos h3] at h
          cases h
        rw [if_neg h3] at h
        by_cases h4 : w.cfg.maxPlayers ≤ (s.players.keys.length : Int)
        · rw [if_pos h4] at h
          cases h
        rw [if_neg h4] at h
        cases hr : j.value "role" "player" with
        | error e => rw [hr] at h; cases h
        | ok r =>
          rw [hr] at h
          cases h
          have hpass : w.cfg.password ≠ "" → password = w.cfg.password := fun hne => by
            by_contra hw
            exact h3 ⟨hne, hw⟩
          exact ⟨j, password, hj, hu, hpw, .inr ⟨h1, h2, hpass, by omega, hr, rfl⟩⟩

/-- An admitted request makes a proper record. -/
theorem admits_record {w : World} {s : Server} {body : Bytes} {username role : String} {st : PlayerState}
    (h : (authBranch w s body).admits = some (username, role, st)) (ip : String) :
    Record (freshId s) ⟨freshId s, username, role, ip, st, false, false, []⟩ := by
  obtain ⟨j, password, ha⟩ := admits_admission h
  rcases ha.checks with ⟨hu, -, -, -, hst⟩ | ⟨hbridge, hempty, -, -, -, hst⟩
  · have hne : aiBridge ≠ "" := by decide
    exact ⟨rfl, hu ▸ hne, .inr hst, fun _ => hst⟩
  · exact ⟨rfl, hempty, .inl hst, fun heq => absurd heq hbridge⟩

/-! ## The records stay proper -/

theorem Records.registered {s : Server} (h : Records s) {sid : UInt16} {body : Bytes} {username role : String}
    {st : PlayerState} (hb : (authBranch w s body).admits = some (username, role, st)) :
    Records (registered s sid username role st) := by
  intro pid p hp
  have hp' : (s.players.insert (freshId s) ⟨freshId s, username, role, s.remoteIP sid, st, false, false, []⟩).lookup pid =
    some p := hp
  rw [Table.lookup_insert'] at hp'
  split at hp'
  · rename_i hid
    cases hp'
    subst hid
    exact admits_record hb _
  · exact h pid p hp'

theorem turn_records {s : Server} (h : Records s) {pid : UInt16} {t : Option PacketType} {as : List Announcement}
    {s' : Server} (ht : Turn s pid t as s') : Records s' := by
  cases ht with
  | quiet ha => exact h.of_players ha.players
  | ready hp ha =>
    obtain ⟨hid, hname, -, -⟩ := h _ _ hp
    exact h.put hp ha.players ⟨hid, hname, .inr rfl, fun _ => rfl⟩
  | spawn hp _ ha =>
    obtain ⟨hid, hname, hst, hb⟩ := h _ _ hp
    exact h.put hp ha.players ⟨hid, hname, hst, hb⟩
  | delete hp ha =>
    obtain ⟨hid, hname, hst, hb⟩ := h _ _ hp
    exact h.put hp ha.players ⟨hid, hname, hst, hb⟩

theorem change_records {s : Server} {c : Call} {as : List Announcement} {s' : Server} (h : Records s)
    (hc : Change w s c as s') : Records s' := by
  cases hc with
  | quiet ha => exact h.of_players ha.players
  | accept ha => exact h.of_players ha.players
  | turn _ _ _ _ ht => exact turn_records h ht
  | banned hp ha =>
    obtain ⟨hid, hname, hst, hb⟩ := h _ _ hp
    exact h.put hp ha.players ⟨hid, hname, hst, hb⟩
  | closed _ _ ha => exact h.of_players ha.players
  | left _ _ _ ha => exact (h.erase _).of_players ha.players
  | registered _ hb ha => exact (h.registered hb).of_players ha.players
  | vetoed _ hb ha => exact ((h.registered hb).erase _).of_players ha.players

theorem records_reach {ok : Server → Env → Call → Prop} {s : Server} (h : Reach w ok s) : Records s := by
  refine h.invariant ?_ fun s x c s' hi _ hs => change_records hi (step_change w x s hs)
  intro pid p hp
  simp [Server.init] at hp

end GameServer

end NovaMP
