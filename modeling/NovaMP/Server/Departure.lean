/-
  NovaMP.Server.Departure — what `onDisconnect` takes away, and what it leaves
  (`onDisconnect` in `servers/src/game_server.cpp`).

  It takes the session out of `m_session_to_player` in one critical section and the
  player out of `m_players`, the vehicle store and the endpoint maps in another. Several
  reads and writes can fail on one socket, and each failure comes here.

  - `disconnected_departed`: one disconnect takes out everything of the player and nothing else
    (`Departed`).
  - `away_unmapped`: the session stays out of the map until it logs in again.
  - `disconnect_cleans_up`: so until then a further disconnect of it does nothing.
  - `sentinel_stays`: a player 65535 would stay, for that id stands for no player.
-/

import NovaMP.Server.Confidential
import NovaMP.Server.Endpoints
import NovaMP.Server.Gate
import NovaMP.Server.Registry

namespace NovaMP

open Lib Exec

/-- A `PLAYER_LEAVE` in the log. -/
def Sent.isLeave : Sent → Bool
  | .tcp _ _ pkt => Packet.typeOf pkt = some .playerLeave
  | .udp _ _ => false

namespace GameServer

/-- The session belongs to a registered player, under an id that `allocPlayerID` gives. -/
structure Seated (s : Server) (sid pid : UInt16) : Prop where
  mapped : s.sessionToPlayer.lookup sid = some pid
  registered : pid ∈ s.players
  allocated : ∃ before : Server, pid = freshId before

/-- `t` is `s` without the player `pid` of the session `sid`. -/
structure Departed (w : World) (s t : Server) (sid pid : UInt16) : Prop where
  session : t.sessionToPlayer.lookup sid = none
  sessions : ∀ sid', sid' ≠ sid → t.sessionToPlayer.lookup sid' = s.sessionToPlayer.lookup sid'
  player : t.players.lookup pid = none
  players : ∀ q, q ≠ pid → t.players.lookup q = s.players.lookup q
  /-- The store's entries of other players, in their order. -/
  vehicles : t.vsync = s.vsync.filter fun e => e.ownerId ≠ pid
  endpoint : t.udp.playerToEp.lookup pid = none
  unlisted : ∀ ep, t.udp.epToPlayer.lookup ep ≠ some pid
  endpoints : ∀ q, q ≠ pid → t.udp.playerToEp.lookup q = s.udp.playerToEp.lookup q
  listed : ∀ ep q, q ≠ pid → (t.udp.epToPlayer.lookup ep = some q ↔ s.udp.epToPlayer.lookup ep = some q)
  counters : t.nextPlayerId = s.nextPlayerId
  connections : t.tcp = s.tcp
  /-- One `PLAYER_LEAVE` to every session. -/
  announced : ∃ new, t.sent = s.sent ++ new ∧ new.filter Sent.isLeave = s.toAll (leavePacket w pid)
  fired : t.fired = s.fired ++ [⟨"onPlayerDisconnect", [cstr (idText pid)], []⟩]

/-- From `s` to `t` by completed calls none of which is a login of the session `sid`. -/
inductive Away (w : World) (sid : UInt16) (s : Server) : Server → Prop
  | refl : Away w sid s s
  | step {t u : Server} {x : Env} {c : Call} : Away w sid s t → Step w t x c u →
      (∀ pid, ¬ Login w sid pid ⟨t, x, c, u⟩) → Away w sid s u

variable {w : World} {x : Env} {s : Server} {sid pid : UInt16}

/-- No player has the id that stands for none. -/
theorem Seated.ne_sentinel (h : Seated s sid pid) : pid ≠ 0xFFFF := by
  obtain ⟨before, rfl⟩ := h.allocated
  exact freshId_ne before

/-! ## Endpoints -/

namespace UDPServer

variable {udp : UDPServer}

theorem unmap_endpoint (udp : UDPServer) (pid : UInt16) : (udp.unmap pid).playerToEp.lookup pid = none := by
  unfold UDPServer.unmap
  cases hl : udp.playerToEp.lookup pid with
  | none => exact hl
  | some ep => exact AList.lookup_erase pid _

theorem unmap_endpoints {q : UInt16} (hq : q ≠ pid) :
    (udp.unmap pid).playerToEp.lookup q = udp.playerToEp.lookup q := by
  unfold UDPServer.unmap
  split
  · exact AList.lookup_erase_ne hq
  · rfl

/-- The endpoint that goes is the player's own, so the others stay listed. -/
theorem unmap_listed (h : Table.Inverse udp.playerToEp udp.epToPlayer) {ep : UDPEndpoint} {q : UInt16} (hq : q ≠ pid) :
    (udp.unmap pid).epToPlayer.lookup ep = some q ↔ udp.epToPlayer.lookup ep = some q := by
  unfold UDPServer.unmap
  cases hl : udp.playerToEp.lookup pid with
  | none => exact Iff.rfl
  | some own =>
    show (udp.epToPlayer.erase own).lookup ep = some q ↔ _
    rw [Table.lookup_erase']
    split
    · rename_i hep
      rw [hep, (h pid own).mp hl]
      exact iff_of_false nofun fun he => hq (Option.some.inj he).symm
    · exact Iff.rfl

theorem unmap_unlisted (h : Table.Inverse udp.playerToEp udp.epToPlayer) (ep : UDPEndpoint) :
    (udp.unmap pid).epToPlayer.lookup ep ≠ some pid := by
  intro hep
  unfold UDPServer.unmap at hep
  cases hl : udp.playerToEp.lookup pid with
  | none =>
    rw [hl] at hep
    rw [(h pid ep).mpr hep] at hl
    cases hl
  | some own =>
    rw [hl] at hep
    change (udp.epToPlayer.erase own).lookup ep = some pid at hep
    rw [Table.lookup_erase'] at hep
    split at hep
    · cases hep
    · rename_i hne
      rw [(h pid ep).mpr hep] at hl
      exact hne (Option.some.inj hl)

end UDPServer

/-! ## One disconnect -/

/-- What the authority is told is not that somebody left. -/
theorem authority_not_leave (s : Server) (calls : List AuthorityCall) :
    (calls.flatMap (authoritySent w s)).filter Sent.isLeave = [] := by
  rw [List.filter_eq_nil_iff]
  intro e he
  obtain ⟨c, -, he⟩ := List.mem_flatMap.mp he
  have hplayer : ∀ {pid : UInt16} {type : PacketType} {payload : Bytes}, type ≠ .playerLeave →
      e ∈ s.toPlayer pid (Packet.buildStr type 0 0 payload) → ¬ e.isLeave = true := by
    intro pid type payload htype he
    unfold Server.toPlayer at he
    split at he
    · obtain rfl := List.mem_singleton.mp he
      simpa [Sent.isLeave, Packet.typeOf_buildStr] using htype
    · cases he
  cases c with
  | grant pid => exact hplayer (by decide) he
  | revoke pid => exact hplayer (by decide) he

theorem toAll_leave (s : Server) (pid : UInt16) :
    (s.toAll (leavePacket w pid)).filter Sent.isLeave = s.toAll (leavePacket w pid) := by
  rw [List.filter_eq_self]
  intro e he
  obtain ⟨entry, -, rfl⟩ := List.mem_map.mp he
  simp [Sent.isLeave, leavePacket, Packet.typeOf_buildStr]

/-- What `onDisconnect` announces, in a state in which the player is gone. -/
theorem announceLeave_sent (s : Server) (pid : UInt16) :
    ∃ new, (announceLeave w x s pid).sent = s.sent ++ new ∧ new.filter Sent.isLeave = s.toAll (leavePacket w pid) := by
  unfold announceLeave
  dsimp only
  split
  · let t := (s.log (s.toAll (leavePacket w pid))).note ⟨"onPlayerDisconnect", [cstr (idText pid)], []⟩
    refine ⟨s.toAll (leavePacket w pid) ++ (x.onAuthorityDisconnect pid).flatMap (authoritySent w t), ?_, ?_⟩
    · exact List.append_assoc _ _ _
    · rw [List.filter_append, toAll_leave, authority_not_leave, List.append_nil]
  · exact ⟨_, rfl, toAll_leave s pid⟩

theorem announceLeave_fired (s : Server) (pid : UInt16) :
    (announceLeave w x s pid).fired = s.fired ++ [⟨"onPlayerDisconnect", [cstr (idText pid)], []⟩] := by
  unfold announceLeave
  dsimp only
  split <;> rfl

theorem announceLeave_vehicles (s : Server) (pid : UInt16) : (announceLeave w x s pid).vsync = s.vsync := by
  unfold announceLeave
  dsimp only
  split <;> rfl

/-- A disconnect takes out the session's player, and nothing else. -/
theorem disconnected_departed (h : Seated s sid pid) (hep : Table.Inverse s.udp.playerToEp s.udp.epToPlayer) :
    Departed w s (disconnected w x s sid) sid pid := by
  rw [disconnected_some h.mapped h.ne_sentinel, removePlayer, if_pos h.registered]
  have halike := announceLeave_alike w x
    { s with
      sessionToPlayer := s.sessionToPlayer.erase sid
      vsync := s.vsync.onPlayerDisconnect pid
      udp := s.udp.unmap pid
      players := s.players.erase pid } pid
  constructor
  · rw [halike.sessionToPlayer]
    exact AList.lookup_erase sid _
  · intro sid' hne
    rw [halike.sessionToPlayer]
    exact AList.lookup_erase_ne hne
  · rw [halike.players]
    exact AList.lookup_erase pid _
  · intro q hne
    rw [halike.players]
    exact AList.lookup_erase_ne hne
  · rw [announceLeave_vehicles]
    exact List.filter_congr fun e _ => by by_cases he : e.ownerId = pid <;> simp [he]
  · rw [halike.udp]
    exact UDPServer.unmap_endpoint _ pid
  · rw [halike.udp]
    exact UDPServer.unmap_unlisted hep
  · intro q hne
    rw [halike.udp]
    exact UDPServer.unmap_endpoints hne
  · intro ep q hne
    rw [halike.udp]
    exact UDPServer.unmap_listed hep hne
  · exact halike.nextPlayerId
  · exact halike.tcp
  · exact announceLeave_sent _ pid
  · exact announceLeave_fired _ pid

/-! ## Until the next login -/

/-- The session stays out of the map. -/
theorem away_unmapped {t : Server} (h : Away w sid s t) (hs : s.sessionToPlayer.lookup sid = none) :
    t.sessionToPlayer.lookup sid = none := by
  induction h with
  | refl => exact hs
  | @step t u x c _ hstep hlogin ih =>
    cases hl : u.sessionToPlayer.lookup sid with
    | none => rfl
    | some pid =>
      rcases change_login x (step_change w x t hstep) hl with hbefore | hnow
      · rw [ih] at hbefore
        cases hbefore
      · exact absurd hnow (hlogin pid)

/-- A disconnect of a session with a registered player takes out everything of that player
    and nothing else, and further disconnects of the session do nothing until it logs in
    again. -/
theorem disconnect_cleans_up (w : World) (x : Env) {s : Server} {sid pid : UInt16} (h : Seated s sid pid)
    (hep : Table.Inverse s.udp.playerToEp s.udp.epToPlayer) :
    ∃ t, onDisconnect w x sid [] s = (.ok (), t) ∧ Departed w s t sid pid ∧
      ∀ u, Away w sid t u → ∀ x', onDisconnect w x' sid [] u = (.ok (), u) := by
  have hgone := disconnected_departed (w := w) (x := x) h hep
  refine ⟨_, onDisconnect_eq w x sid s, hgone, fun u hu x' => ?_⟩
  rw [onDisconnect_eq, disconnected_none (away_unmapped hu hgone.session)]

/-- In a reachable state every session of a registered player is of this kind. -/
theorem seated_of_reach {ok : Server → Env → Call → Prop} (hr : Reach w ok s) (hm : s.sessionToPlayer.lookup sid = some pid)
    (hp : pid ∈ s.players) : Seated s sid pid := by
  obtain ⟨h, hrun⟩ := hr.run
  obtain ⟨later, m, earlier, -, hlogin, -⟩ := login_of_mapped hrun hm
  exact ⟨hm, hp, m.before, hlogin.fresh⟩

/-- `ann` and `bob` are connected and have endpoints, and `ann` leaves. -/
theorem disconnect_cleans_up_ann :
    ∃ t, onDisconnect Sample.world Env.quiet 1 [] { both with udp := (GameServer.mapped 1).udp } = (.ok (), t) ∧
      t.players.keys = [2] ∧ Departed Sample.world { both with udp := (GameServer.mapped 1).udp } t 1 1 := by
  have hseated : Seated both 1 1 := seated_of_reach reach_both (by decide) (by decide)
  obtain ⟨t, ht, hgone, -⟩ := disconnect_cleans_up Sample.world Env.quiet
    (s := { both with udp := (GameServer.mapped 1).udp }) ⟨hseated.mapped, hseated.registered, hseated.allocated⟩
    (mapped_inverse (by decide))
  refine ⟨t, ht, ?_, hgone⟩
  obtain rfl := congrArg Prod.snd ht
  decide

/-- A player under the id that `allocPlayerID` leaves out. -/
def seatedLast : Server :=
  { Server.init with
    players := (∅ : Table UInt16 Player).insert 0xFFFF ⟨0xFFFF, "ann", "player", "10.0.0.1", .ready, false, false, []⟩
    sessionToPlayer := (∅ : Table UInt16 UInt16).insert 1 0xFFFF }

/-- `onDisconnect` takes the session of player 65535 for one without a player. -/
theorem sentinel_stays : ¬ ∀ (w : World) (x : Env) (s : Server) (sid pid : UInt16), s.sessionToPlayer.lookup sid = some pid →
    pid ∈ s.players → Table.Inverse s.udp.playerToEp s.udp.epToPlayer →
    ∃ t, onDisconnect w x sid [] s = (.ok (), t) ∧ Departed w s t sid pid ∧
      ∀ u, Away w sid t u → ∀ x', onDisconnect w x' sid [] u = (.ok (), u) := by
  intro hall
  have hmapped : seatedLast.sessionToPlayer.lookup 1 = some 0xFFFF := AList.lookup_insert _
  have hrecord : seatedLast.players.lookup 0xFFFF = some _ := AList.lookup_insert _
  obtain ⟨t, ht, hgone, -⟩ :=
    hall Sample.world Env.quiet seatedLast 1 0xFFFF hmapped (Table.mem_of_lookup hrecord) Table.inverse_empty
  rw [onDisconnect_eq, disconnected_sentinel hmapped] at ht
  obtain rfl := congrArg Prod.snd ht
  have hnone : seatedLast.players.lookup 0xFFFF = none := hgone.player
  rw [hrecord] at hnone
  cases hnone

end GameServer

end NovaMP
