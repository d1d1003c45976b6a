/-
  NovaMP.Server.Endpoints — no player ever gets a UDP endpoint.

  `UDPServer::mapPlayer` is the only function that adds to the two endpoint maps, and
  nothing calls it: `handleAuth` and `handleReady` know only the TCP session, and
  `onUDPPacket` drops what comes from an endpoint it does not know. So both maps and
  the vehicle map stay as they were at the start (`Silent`), in every reachable state.

  - `no_update_delivered`: a vehicle update of a player in the game reaches nobody.
  - `update_is_lost`: two players connected, authenticated and ready.
-/

import NovaMP.Server.Relay

namespace NovaMP.GameServer

open Lib Exec

/-! ## The maps stay empty -/

structure Silent (s : Server) : Prop where
  udp : s.udp = ⟨∅, ∅⟩
  vsync : s.vsync = []

namespace Silent

variable {w : World} {x : Env} {s : Server}

theorem stable : Stable Silent where
  log _ h := ⟨h.udp, h.vsync⟩
  note _ _ h := ⟨h.udp, h.vsync⟩
  put _ _ h := ⟨h.udp, h.vsync⟩
  delete pid vid h := ⟨h.udp, by rw [h.vsync]; rfl⟩

theorem dropped (h : Silent s) (sid : UInt16) : Silent (dropped s sid).2 := by
  unfold GameServer.dropped
  split
  · exact ⟨h.udp, h.vsync⟩
  · exact h

theorem authOutcome (h : Silent s) (sid : UInt16) (b : AuthBranch) : Silent (authOutcome w x s sid b).2 := by
  cases b with
  | throws e => exact h
  | refused error drop =>
    cases drop with
    | false => exact ⟨h.udp, h.vsync⟩
    | true =>
      show Silent (GameServer.dropped _ sid).2
      refine dropped ?_ sid
      exact ⟨h.udp, h.vsync⟩
  | bridge => exact ⟨h.udp, h.vsync⟩
  | badRole e => exact ⟨h.udp, h.vsync⟩
  | player username role =>
    simp only [GameServer.authOutcome]
    split
    · split
      · exact ⟨h.udp, h.vsync⟩
      · refine dropped ?_ sid
        exact ⟨h.udp, h.vsync⟩
    · exact ⟨h.udp, h.vsync⟩

theorem removePlayer (h : Silent s) (pid : UInt16) : Silent (removePlayer s pid) := by
  have hgone : VehicleSync.onPlayerDisconnect s.vsync pid = [] := by rw [h.vsync]; rfl
  have hunmap : s.udp.unmap pid = ⟨∅, ∅⟩ := by rw [h.udp]; rfl
  unfold GameServer.removePlayer
  split
  · exact ⟨hunmap, hgone⟩
  · exact h

theorem closed (h : Silent s) (object : Nat) : Silent (closed w x s object) := by
  unfold GameServer.closed disconnected
  split
  · dsimp only
    split
    · exact ⟨h.udp, h.vsync⟩
    · split
      · exact ⟨h.udp, h.vsync⟩
      · refine stable.announceLeave _ _ (removePlayer ?_ _) _
        exact ⟨h.udp, h.vsync⟩
  · exact h

/-- An endpoint is never known, so a datagram is answered or ignored. -/
theorem datagramOutcome (h : Silent s) (source : UDPEndpoint) (data : Bytes) (hdr : PacketHeader) :
    Silent (datagramOutcome w x s source data hdr).2 := by
  have hp : playerAt s source = 0xFFFF := by rw [playerAt, h.udp]; rfl
  unfold GameServer.datagramOutcome
  split
  · exact ⟨h.udp, h.vsync⟩
  · rw [if_pos (.inl hp)]
    exact h

theorem kicked (h : Silent s) (id : UInt16) (reason : Bytes) : Silent (kicked s id reason).2 := by
  unfold GameServer.kicked
  split
  · refine dropped ?_ _
    exact ⟨h.udp, h.vsync⟩
  · exact h

theorem outcome (h : Silent s) (c : Call) : Silent (outcome w x s c).2 := by
  cases c with
  | accept ip => exact ⟨h.udp, h.vsync⟩
  | frame object data =>
    rcases frame_cases w x s object data with ⟨-, r, hr⟩ | ⟨sid, body, ha⟩ | ⟨-, t, hdr, -, -, -, -, hg⟩
    · rw [hr]
      exact h
    · rw [outcome_auth w x s ha]
      exact h.authOutcome sid _
    · rw [hg]
      exact stable.inGame w x h _ _ _ _
  | close object => exact h.closed object
  | datagram source data =>
    simp only [GameServer.outcome]
    split
    · split
      · exact h
      · exact h.datagramOutcome source data _
    · exact h
  | broadcastAll => exact ⟨h.udp, by show s.vsync.broadcastAll.2 = []; rw [h.vsync]; rfl⟩
  | kickPlayer id reason => exact h.kicked id reason
  | banPlayer id reason =>
    have hban : Silent (markBanned s id) := stable.markBanned h id
    exact hban.kicked id _
  | sendChat playerId msg => exact ⟨h.udp, h.vsync⟩
  | grantAuthority pid => exact ⟨h.udp, h.vsync⟩
  | revokeAuthority pid => exact ⟨h.udp, h.vsync⟩

end Silent

theorem silent_of_reach {w : World} {s : Server} (h : Reach w anyStep s) : Silent s := by
  refine h.invariant ⟨rfl, rfl⟩ fun s x c s' hs _ hstep => ?_
  have hclear : Silent s.clear := ⟨hs.udp, hs.vsync⟩
  have hout : Silent (outcome w x s.clear c).2 := hclear.outcome c
  rw [← exec_eq, hstep] at hout
  exact hout

/-! ## A vehicle update of a player in the game -/

/-- Two players are in the game, and the client of `p` sends the state `vs` from `source`. -/
structure Driving (w : World) (s : Server) (p q : UInt16) (source : UDPEndpoint) (vs : VehicleState)
    (data : Bytes) : Prop where
  reach : Reach w anyStep s
  distinct : p ≠ q
  sender : ∃ pl, s.players.lookup p = some pl ∧ pl.state = .ready ∧ pl.ip = source.ip
  receiver : ∃ pl, s.players.lookup q = some pl ∧ pl.state = .ready
  packet : ∃ seq, data = Packet.buildVehicleUpdate p seq vs
  notAi : vs.vflags &&& vfIsAi = 0

/-- The vehicle updates sent to an endpoint. -/
def updatesTo (ep : UDPEndpoint) (sent : List Sent) : List Sent :=
  sent.filter fun e => (updateKey e).map (·.1) = some ep

/-- The packet carries the state. -/
def Carries (pkt : Bytes) (vs : VehicleState) : Prop :=
  ∃ hdr, Packet.parseHeader pkt = .ok hdr ∧ Packet.parseVehicleState (Packet.payload pkt) hdr.payloadLen = .ok vs

/-- The datagram, then one round, send the state to one endpoint of `q`'s client, once,
    and no update back to the sender. -/
def Delivered (w : World) (x : Env) (s : Server) (q : UInt16) (source : UDPEndpoint) (vs : VehicleState)
    (data : Bytes) : Prop :=
  ∃ t u, onUDPPacket w x source data [] s.clear = (.ok (), t) ∧ broadcastAll [] t = (.ok (), u) ∧
    (∃ dest pl pkt, s.players.lookup q = some pl ∧ dest.ip = pl.ip ∧ updatesTo dest u.sent = [.udp dest pkt] ∧
      Carries pkt vs) ∧
    updatesTo source u.sent = []

/-- Whatever the datagram is, the round sends no update after it. -/
theorem round_sends_nothing {w : World} {x : Env} {s t u : Server} (hs : Silent s) {source : UDPEndpoint} {data : Bytes}
    (ht : onUDPPacket w x source data [] s.clear = (.ok (), t)) (hu : broadcastAll [] t = (.ok (), u)) (ep : UDPEndpoint) :
    updatesTo ep u.sent = [] := by
  have hclear : Silent s.clear := ⟨hs.udp, hs.vsync⟩
  rw [onUDPPacket_eq] at ht
  split at ht
  · cases ht
  rename_i hdr _
  have hst := hclear.datagramOutcome (w := w) (x := x) source data hdr
  rw [ht] at hst
  have hrel : relayed t = [] := by
    rw [relayed_eq, hst.vsync]
    rfl
  rw [broadcastAll_eq] at hu
  cases hu
  have hsent : t.sent = [] ∨ ∃ seq, t.sent = [.udp source (pongPacket seq)] := by
    have hp : playerAt s.clear source = 0xFFFF := by rw [playerAt, hclear.udp]; rfl
    unfold datagramOutcome at ht
    split at ht
    · cases ht
      exact .inr ⟨_, rfl⟩
    · rw [if_pos (.inl hp)] at ht
      cases ht
      exact .inl rfl
  have hpong (seq : UInt32) : updateKey (.udp source (pongPacket seq)) = none := by
    have hempty : (Packet.payload (pongPacket seq)).head? = none := rfl
    simp only [updateKey, hempty]
    cases Packet.parseHeader (pongPacket seq) <;> rfl
  rw [Server.log_sent, hrel, List.append_nil]
  rcases hsent with h | ⟨seq, h⟩
  · show updatesTo ep t.sent = []
    rw [h]
    rfl
  · show updatesTo ep t.sent = []
    rw [h, updatesTo, List.filter_cons, hpong]
    rfl

/-- No vehicle update ever reaches another player. -/
theorem no_update_delivered (w : World) (x : Env) (s : Server) (p q : UInt16) (source : UDPEndpoint) (vs : VehicleState)
    (data : Bytes) (h : Driving w s p q source vs data) : ¬ Delivered w x s q source vs data := by
  intro hex
  obtain ⟨t, u, ht, hu, ⟨dest, pl, pkt, -, -, hone, -⟩, -⟩ := hex
  rw [round_sends_nothing (silent_of_reach h.reach) ht hu dest] at hone
  cases hone

def readyFrame : Bytes := Packet.build .ready 0 0 [] 0 0

/-- `bob` connects as well, and both get ready. -/
def both : Server :=
  let s := after Sample.world Sample.joined Env.quiet (.accept "10.0.0.2")
  let s := after Sample.world s Env.quiet (.frame 1 (authFrame (userJson "bob")))
  let s := after Sample.world s Env.quiet (.frame 0 readyFrame)
  after Sample.world s Env.quiet (.frame 1 readyFrame)

theorem reach_both : Reach Sample.world anyStep both := by
  have h2 : Reach Sample.world anyStep Sample.joined :=
    .step (.step .init trivial Sample.step_connected) trivial Sample.step_joined
  have h3 := Reach.step h2 trivial (step_ends Sample.world Env.quiet _ (c := .accept "10.0.0.2") rfl)
  have h4 := Reach.step h3 trivial
    (step_after Sample.world Env.quiet _ (c := .frame 1 (authFrame (userJson "bob"))) (by decide))
  have h5 := Reach.step h4 trivial (step_after Sample.world Env.quiet _ (c := .frame 0 readyFrame) (by decide))
  exact Reach.step h5 trivial (step_after Sample.world Env.quiet _ (c := .frame 1 readyFrame) (by decide))

/-- `ann` drives, at the address she connected from. -/
theorem driving_both : Driving Sample.world both 1 2 epA .zero (Packet.buildVehicleUpdate 1 0 .zero) where
  reach := reach_both
  distinct := by decide
  sender := ⟨⟨1, "ann", "player", "10.0.0.1", .ready, false, false, []⟩, by decide, rfl, rfl⟩
  receiver := ⟨⟨2, "bob", "player", "10.0.0.2", .ready, false, false, []⟩, by decide, rfl⟩
  packet := ⟨0, rfl⟩
  notAi := by decide

theorem no_update_delivered_both :
    Driving Sample.world both 1 2 epA .zero (Packet.buildVehicleUpdate 1 0 .zero) ∧
      ¬ Delivered Sample.world Env.quiet both 2 epA .zero (Packet.buildVehicleUpdate 1 0 .zero) :=
  ⟨driving_both, no_update_delivered Sample.world Env.quiet both 1 2 epA .zero _ driving_both⟩

theorem update_is_lost : ¬ ∀ (w : World) (x : Env) (s : Server) (p q : UInt16) (source : UDPEndpoint) (vs : VehicleState)
    (data : Bytes), Driving w s p q source vs data → Delivered w x s q source vs data := by
  intro h
  obtain ⟨t, u, ht, hu, ⟨dest, pl, pkt, -, -, hone, -⟩, -⟩ :=
    h Sample.world Env.quiet both 1 2 epA .zero _ driving_both
  rw [round_sends_nothing (silent_of_reach reach_both) ht hu dest] at hone
  cases hone

end NovaMP.GameServer
