/-
  NovaMP.Server.VehicleStore — what the server's calls do to `VehicleSync`.

  Of all calls four reach the store: a datagram that `handleVehicleUpdate` accepts, a
  round, a `VEHICLE_DELETE` and a player that leaves. `storeCalls` says which operation
  of the store a call makes, so a run of the server is a history of the store
  (`vsync_run`), and what `Sync.History` says of the store holds of the server.

  Nothing in the repository fills the endpoint maps (`Endpoints`). What the handlers
  would do if something did is asked of the runs in which the maps may become anything
  between two calls (`MappedRun`).
-/

import NovaMP.Sync.History
import NovaMP.Server.Changes

namespace NovaMP.GameServer

open Lib Exec

/-! ## What an update claims -/

structure Claim where
  sender : UInt16
  vehicleId : UInt8
  vflags : UInt8
  deriving DecidableEq

/-- The sender in the header, and the first two bytes of the payload. -/
def claimOf (pkt : Bytes) : Option Claim :=
  match Packet.parseHeader pkt, Packet.payload pkt with
  | .ok hdr, vehicleId :: vflags :: _ => some ⟨hdr.senderId, vehicleId, vflags⟩
  | _, _ => none

theorem claimOf_buildVehicleUpdate (p : UInt16) (seq : UInt32) (vs : VehicleState) :
    claimOf (Packet.buildVehicleUpdate p seq vs) = some ⟨p, vs.vehicleId, vs.vflags⟩ := by
  have hh := Packet.parseHeader_build .vehicleUpdate p seq (VehicleState.codec.encode vs) 66 0 []
  rw [List.append_nil] at hh
  have hh : Packet.parseHeader (Packet.buildVehicleUpdate p seq vs) = .ok ⟨PacketType.vehicleUpdate.code, p, seq, 66, 0⟩ := hh
  have hpl : ∃ rest, Packet.payload (Packet.buildVehicleUpdate p seq vs) = vs.vehicleId :: vs.vflags :: rest := ⟨_, rfl⟩
  obtain ⟨rest, hpl⟩ := hpl
  simp only [claimOf, hh, hpl]

variable (w : World) (x : Env) (s : Server)

/-! ## Datagrams -/

/-- `onUDPPacket` sends the packet on as it is: an AI update of the AI authority. -/
def forwards (source : UDPEndpoint) (data : Bytes) (hdr : PacketHeader) : Bool :=
  w.cfg.aiEnabled && x.isAuthority (playerAt s source) && decide (2 ≤ hdr.payloadLen) &&
    ((Packet.payload data)[1]?).any fun vflags => vflags &&& vfIsAi != 0

/-- The update a datagram brings to the store: the player of its endpoint and the state. -/
def stored (source : UDPEndpoint) (data : Bytes) : Option (UInt16 × VehicleState) :=
  match Packet.parseHeader data with
  | .error _ => none
  | .ok hdr =>
    if playerAt s source = 0xFFFF ∨ PacketType.ofCode hdr.type ≠ some .vehicleUpdate ∨
        forwards w x s source data hdr = true ∨ hdr.payloadLen.toNat < 66 then none
    else
      match Packet.parseVehicleState (Packet.payload data) hdr.payloadLen with
      | .ok vs => some (playerAt s source, vs)
      | .error _ => none

/-- A packet that is sent on as it is. -/
structure Forwarded (source : UDPEndpoint) (data : Bytes) (hdr : PacketHeader) (raw : Bytes) : Prop where
  header : Packet.parseHeader data = .ok hdr
  known : playerAt s source ≠ 0xFFFF
  type : PacketType.ofCode hdr.type = some .vehicleUpdate
  forwards : forwards w x s source data hdr = true
  bytes : readBytes data (hdr.payloadLen.toNat + 10) = .ok raw

/-- What a datagram can do. -/
inductive Arrival (source : UDPEndpoint) (data : Bytes) : Server → Prop
  | ignored : stored w x s source data = none → Arrival source data s
  | answered (seq : UInt32) : stored w x s source data = none →
      Arrival source data (s.log [.udp source (pongPacket seq)])
  | forwarded {hdr : PacketHeader} {raw : Bytes} : stored w x s source data = none →
      Forwarded w x s source data hdr raw → Arrival source data (s.log (s.toEndpoints raw (playerAt s source)))
  | updated {pid : UInt16} {vs : VehicleState} : stored w x s source data = some (pid, vs) →
      Arrival source data (updated s pid vs)

variable {w x s}

theorem updateOutcome_arrival {source : UDPEndpoint} {data : Bytes} {hdr : PacketHeader} {s' : Server}
    (hh : Packet.parseHeader data = .ok hdr) (hp : playerAt s source ≠ 0xFFFF)
    (ht : PacketType.ofCode hdr.type = some .vehicleUpdate) (hf : forwards w x s source data hdr = false)
    (h : updateOutcome s (playerAt s source) (Packet.payload data) hdr.payloadLen = (.ok (), s')) :
    Arrival w x s source data s' := by
  unfold updateOutcome at h
  by_cases hlen : hdr.payloadLen.toNat < 66
  · rw [if_pos hlen] at h
    cases h
    exact .ignored (by simp [stored, hh, hlen])
  · rw [if_neg hlen] at h
    cases hvs : Packet.parseVehicleState (Packet.payload data) hdr.payloadLen with
    | error e => rw [hvs] at h; cases h
    | ok vs =>
      rw [hvs] at h
      cases h
      exact .updated (by simp [stored, hh, hp, ht, hf, hlen, hvs])

theorem onUDPPacket_arrival {source : UDPEndpoint} {data : Bytes} {s' : Server}
    (h : onUDPPacket w x source data [] s = (.ok (), s')) : Arrival w x s source data s' := by
  rw [onUDPPacket_eq] at h
  cases hh : Packet.parseHeader data with
  | error e => rw [hh] at h; cases h
  | ok hdr =>
    rw [hh] at h
    dsimp only [datagramOutcome] at h
    by_cases hping : PacketType.ofCode hdr.type = some .ping
    · rw [if_pos hping] at h
      cases h
      exact .answered _ (by simp [stored, hh, hping])
    rw [if_neg hping] at h
    by_cases hno : playerAt s source = 0xFFFF ∨ PacketType.ofCode hdr.type ≠ some .vehicleUpdate
    · rw [if_pos hno] at h
      cases h
      refine .ignored ?_
      rcases hno with hp | ht
      · simp [stored, hh, hp]
      · simp [stored, hh, ht]
    rw [if_neg hno] at h
    obtain ⟨hp, ht⟩ := not_or.mp hno
    have ht : PacketType.ofCode hdr.type = some .vehicleUpdate := not_not.mp ht
    by_cases hauth : w.cfg.aiEnabled ∧ x.isAuthority (playerAt s source) ∧ 2 ≤ hdr.payloadLen
    · rw [if_pos hauth] at h
      cases hb : (Packet.payload data)[1]? with
      | none => simp [readByte, hb] at h
      | some vflags =>
        simp only [readByte, hb] at h
        by_cases hai : vflags &&& vfIsAi ≠ 0
        · rw [if_pos hai] at h
          have hf : forwards w x s source data hdr = true := by simp [forwards, hauth, hb, hai]
          cases hraw : readBytes data (hdr.payloadLen.toNat + 10) with
          | error e => rw [hraw] at h; cases h
          | ok raw =>
            rw [hraw] at h
            cases h
            exact .forwarded (by simp [stored, hh, hf]) ⟨hh, hp, ht, hf, hraw⟩
        · rw [if_neg hai] at h
          refine updateOutcome_arrival hh hp ht ?_ h
          simpa [forwards, hb] using fun _ _ _ => not_not.mp hai
    · rw [if_neg hauth] at h
      refine updateOutcome_arrival hh hp ht ?_ h
      refine Bool.eq_false_iff.mpr fun hf => hauth ?_
      simp only [forwards, Bool.and_eq_true, decide_eq_true_eq] at hf
      exact ⟨hf.1.1.1, hf.1.1.2, hf.1.2⟩

variable (w x s)

/-! ## Calls -/

/-- What the store has to do with an announcement. -/
def settle : Announcement → Option VehicleSync.Call
  | .delete pid vid => some (.onVehicleDelete pid vid)
  | .leave pid => if pid ∈ s.players then some (.onPlayerDisconnect pid) else none
  | .join _ | .spawn _ _ => none

/-- The operations of the store that a call makes. -/
def storeCalls : Call → List VehicleSync.Call
  | .datagram source data =>
    if isDatagram data then
      match stored w x s source data with
      | some (pid, vs) => [.onVehicleUpdate pid vs]
      | none => []
    else []
  | .broadcastAll => [.broadcastAll]
  | c => (announced w x s c).filterMap (settle s)

/-- The store after some operations. -/
def settled (vsync : VehicleSync) (cs : List VehicleSync.Call) : VehicleSync := cs.foldl VehicleSync.call vsync

/-- The state the store has for a vehicle. -/
def stateOf (s : Server) (p : UInt16) (v : UInt8) : Option VehicleState := (VehicleSync.abs s.vsync (p, v)).map (·.state)

/-- The operation updates the vehicle `k`. -/
def updates (k : VehicleSync.Key) : VehicleSync.Call → Bool
  | .onVehicleUpdate p st => (p, st.vehicleId) == k
  | _ => false

/-- Only a datagram updates the store. -/
theorem mem_storeCalls_update {w : World} {x : Env} {s : Server} {c : Call} {pid : UInt16} {vs : VehicleState}
    (h : .onVehicleUpdate pid vs ∈ storeCalls w x s c) :
    ∃ source data, c = .datagram source data ∧ stored w x s source data = some (pid, vs) := by
  have hsettle (as : List Announcement) : .onVehicleUpdate pid vs ∉ as.filterMap (settle s) := by
    intro hm
    obtain ⟨a, -, ha⟩ := List.mem_filterMap.mp hm
    cases a with
    | join p => cases ha
    | spawn p v => cases ha
    | delete p v => cases ha
    | leave p =>
      simp only [settle] at ha
      split at ha <;> cases ha
  cases c with
  | datagram source data =>
    refine ⟨source, data, rfl, ?_⟩
    simp only [storeCalls] at h
    split at h
    · cases hst : stored w x s source data with
      | none => rw [hst] at h; cases h
      | some u =>
        rw [hst] at h
        cases List.mem_singleton.mp h
        rfl
    · cases h
  | broadcastAll => cases List.mem_singleton.mp h
  | _ => exact absurd h (hsettle _)

theorem readied_vsync (pid : UInt16) : (readied w s pid).vsync = s.vsync := by
  unfold readied
  split <;> rfl

theorem spawnOutcome_vsync (pid : UInt16) (body : Bytes) : (spawnOutcome w s pid body).2.vsync = s.vsync := by
  unfold spawnOutcome
  split
  · split
    · rfl
    · split <;> rfl
  · rfl

theorem chatted_vsync (pid : UInt16) (msg : Bytes) : (chatted x s pid msg).vsync = s.vsync := by
  unfold chatted
  split
  · rfl
  · split
    · rfl
    · dsimp only
      split <;> rfl

theorem claimed_vsync (pid : UInt16) : (claimed w x s pid).vsync = s.vsync := by
  unfold claimed
  split
  · dsimp only
    split <;> rfl
  · rfl

theorem announceLeave_vsync (pid : UInt16) : (announceLeave w x s pid).vsync = s.vsync := by
  unfold announceLeave
  dsimp only
  split <;> rfl

theorem dropped_vsync (sid : UInt16) : (dropped s sid).2.vsync = s.vsync := by
  unfold dropped
  split <;> rfl

theorem authOutcome_vsync (sid : UInt16) (b : AuthBranch) : (authOutcome w x s sid b).2.vsync = s.vsync := by
  cases b with
  | throws e => rfl
  | refused error drop =>
    cases drop with
    | false => rfl
    | true => exact dropped_vsync _ sid
  | bridge => rfl
  | badRole e => rfl
  | player username role =>
    simp only [authOutcome]
    split
    · split
      · rfl
      · exact dropped_vsync _ sid
    · rfl

theorem kicked_vsync (id : UInt16) (reason : Bytes) : (kicked s id reason).2.vsync = s.vsync := by
  unfold kicked
  split
  · exact dropped_vsync _ _
  · rfl

/-- A packet that deletes no vehicle announces nothing the store has to do with. -/
theorem settle_turn {s' : Server} {pid : UInt16} {t : Option PacketType} {as : List Announcement} (h : Turn s pid t as s')
    (ht : t ≠ some .vehicleDelete) : as.filterMap (settle s) = [] := by
  cases h with
  | quiet _ => rfl
  | ready _ _ => rfl
  | spawn _ _ _ => rfl
  | delete _ _ => exact absurd rfl ht

theorem inGame_vsync {pid : UInt16} {pl : Bytes} {len : UInt16} {t : Option PacketType} {s' : Server}
    (h : inGame w x s pid pl len t = (.ok (), s')) :
    s'.vsync = settled s.vsync ((aboutPlayers (inGamePosts w x s pid pl len t)).filterMap (settle s)) := by
  by_cases ht : t = some .vehicleDelete
  · subst ht
    dsimp only [inGame, inGamePosts] at h ⊢
    by_cases hlen : len < 1
    · rw [if_pos hlen] at h ⊢
      cases h
      rfl
    rw [if_neg hlen] at h ⊢
    cases hv : readByte pl 0 with
    | error e => rw [hv] at h; cases h
    | ok vid =>
      rw [hv] at h
      cases h
      unfold deleted deletePosts
      cases s.players.lookup pid <;> rfl
  · rw [settle_turn s (inGame_turn w x s h) ht]
    show s'.vsync = s.vsync
    have hs' : (inGame w x s pid pl len t).2.vsync = s.vsync := by
      unfold inGame
      split
      · split
        · rfl
        · exact spawnOutcome_vsync w s pid _
      · exact absurd rfl ht
      · split
        · rfl
        · exact chatted_vsync x s pid _
      · exact readied_vsync w s pid
      · exact claimed_vsync w x s pid
      · rfl
    rw [← hs', h]

theorem close_vsync (object : Nat) :
    (closed w x s object).vsync = settled s.vsync ((announced w x s (.close object)).filterMap (settle s)) := by
  simp only [announced, posts, closePosts]
  cases ht : s.tcp.objects[object]? with
  | none =>
    rw [closed, ht]
    rfl
  | some t =>
    rw [closed_some w x s ht]
    dsimp only
    cases hl : s.sessionToPlayer.lookup t.id with
    | none =>
      rw [disconnected_none (by exact hl)]
      rfl
    | some pid =>
      dsimp only
      by_cases hp : pid = 0xFFFF
      · subst hp
        rw [if_pos rfl, disconnected_sentinel (by exact hl)]
        rfl
      · rw [if_neg hp, disconnected_some (by exact hl) hp, aboutPlayers_leave, announceLeave_vsync]
        unfold removePlayer
        by_cases hm : pid ∈ s.players
        · have hsettle : [Announcement.leave pid].filterMap (settle s) = [.onPlayerDisconnect pid] := by simp [settle, hm]
          rw [if_pos (by exact hm), hsettle]
          rfl
        · have hsettle : [Announcement.leave pid].filterMap (settle s) = [] := by simp [settle, hm]
          rw [if_neg (by exact hm), hsettle]
          rfl

theorem aboutPlayers_auth (sid : UInt16) (b : AuthBranch) : aboutPlayers (authPosts x s sid b) = [] := by
  cases b with
  | throws e => rfl
  | refused error drop => rfl
  | bridge => exact aboutPlayers_authority (x.onHeadlessConnect (freshId s))
  | badRole e => rfl
  | player username role =>
    simp only [authPosts]
    split
    · split <;> rfl
    · rfl

theorem dispatch_vsync {sid : UInt16} {pl : Bytes} {hdr : PacketHeader} {s' : Server}
    (h : dispatch w x s sid pl hdr = (.ok (), s')) :
    s'.vsync = settled s.vsync ((aboutPlayers (dispatchPosts w x s sid pl hdr)).filterMap (settle s)) := by
  unfold dispatch at h
  unfold dispatchPosts
  by_cases ha : PacketType.ofCode hdr.type = some .authRequest
  · rw [if_pos ha] at h ⊢
    cases hb : readBytes pl hdr.payloadLen.toNat with
    | error e => rw [hb] at h; cases h
    | ok body =>
      rw [hb] at h
      have hs' : s' = (authOutcome w x s sid (authBranch w s body)).2 := congrArg Prod.snd h.symm
      dsimp only
      rw [aboutPlayers_auth, hs']
      exact authOutcome_vsync w x s sid _
  rw [if_neg ha] at h ⊢
  by_cases hp : playerOf s sid = 0xFFFF
  · rw [if_pos hp] at h ⊢
    cases h
    rfl
  · rw [if_neg hp] at h ⊢
    exact inGame_vsync w x s h

theorem outcome_vsync {c : Call} {s' : Server} (h : outcome w x s c = (.ok (), s')) :
    s'.vsync = settled s.vsync (storeCalls w x s c) := by
  cases c with
  | accept ip => cases h; rfl
  | frame object data =>
    simp only [storeCalls, announced, posts]
    cases ht : s.tcp.objects[object]? with
    | none =>
      simp only [outcome, ht] at h
      cases h
      rfl
    | some t =>
      rw [outcome_frame w x s ht] at h
      dsimp only
      by_cases hf : isFrame t data
      · rw [if_pos hf] at h ⊢
        cases hh : Packet.parseHeader data with
        | error e => rw [hh] at h; cases h
        | ok hdr =>
          rw [hh] at h
          exact dispatch_vsync w x s h
      · rw [if_neg hf] at h ⊢
        cases h
        rfl
  | close object =>
    cases h
    exact close_vsync w x s object
  | datagram source data =>
    simp only [outcome] at h
    simp only [storeCalls]
    by_cases hd : isDatagram data
    · rw [if_pos hd] at h ⊢
      rw [← onUDPPacket_eq] at h
      cases onUDPPacket_arrival h with
      | ignored hno => rw [hno]; rfl
      | answered seq hno => rw [hno]; rfl
      | forwarded hno _ => rw [hno]; rfl
      | updated hup => rw [hup]; rfl
    · rw [if_neg hd] at h ⊢
      cases h
      rfl
  | broadcastAll => cases h; rfl
  | kickPlayer id reason => exact congrArg (·.2.vsync) h ▸ kicked_vsync s id reason
  | banPlayer id reason =>
    have hban : (markBanned s id).vsync = s.vsync := by
      unfold markBanned
      split <;> rfl
    have hkick := kicked_vsync (markBanned s id) id (utf8 "Banned: " ++ reason)
    rw [hban] at hkick
    exact congrArg (·.2.vsync) h ▸ hkick
  | sendChat playerId msg => cases h; rfl
  | grantAuthority pid => cases h; rfl
  | revokeAuthority pid => cases h; rfl

theorem storeCalls_clear (c : Call) : storeCalls w x s.clear c = storeCalls w x s c := by
  cases c <;> rfl

theorem step_vsync {c : Call} {s' : Server} (h : Step w s x c s') : s'.vsync = settled s.vsync (storeCalls w x s c) := by
  rw [← storeCalls_clear]
  exact outcome_vsync w x s.clear (step_outcome h)

/-! ## Runs with any endpoint maps -/

/-- A run in which the endpoint maps may become anything between two calls, with the
    history of its calls, the latest first. -/
inductive MappedRun (ok : Server → Env → Call → Prop) : List Moment → Server → Prop
  | init : MappedRun ok [] Server.init
  | step {h : List Moment} {s s' : Server} {x : Env} {c : Call} : MappedRun ok h s → ok s x c → Step w s x c s' →
      MappedRun ok (⟨s, x, c, s'⟩ :: h) s'
  | endpoints {h : List Moment} {s : Server} (udp : UDPServer) : MappedRun ok h s → MappedRun ok h { s with udp := udp }

variable {w s} {ok : Server → Env → Call → Prop} {h : List Moment}

theorem Run.mapped (hr : Run w ok h s) : MappedRun w ok h s := by
  induction hr with
  | init => exact .init
  | step _ hok hs ih => exact .step ih hok hs

theorem MappedRun.invariant {I : Server → Prop} (h0 : I Server.init)
    (hs : ∀ s x c s', I s → ok s x c → Step w s x c s' → I s') (hudp : ∀ s udp, I s → I { s with udp := udp })
    (hr : MappedRun w ok h s) : I s := by
  induction hr with
  | init => exact h0
  | step _ hok hstep ih => exact hs _ _ _ _ ih hok hstep
  | endpoints udp _ ih => exact hudp _ udp ih

/-- The run up to a call of its history. -/
theorem MappedRun.split {later earlier : List Moment} {m : Moment} (hr : MappedRun w ok (later ++ m :: earlier) s) :
    MappedRun w ok earlier m.before ∧ ok m.before m.env m.call ∧ Step w m.before m.env m.call m.after := by
  generalize hl : later ++ m :: earlier = h at hr
  induction hr generalizing later with
  | init => exact absurd hl (by simp)
  | step hr hok hstep ih =>
    cases later with
    | nil =>
      cases hl
      exact ⟨hr, hok, hstep⟩
    | cons m' later => exact ih (List.cons.inj hl).2
  | endpoints _ _ ih => exact ih hl

/-- What a run does to the store. -/
def storeHistory (w : World) : List Moment → List VehicleSync.Call
  | [] => []
  | m :: h => (storeCalls w m.env m.before m.call).reverse ++ storeHistory w h

theorem settled_run (cs h : List VehicleSync.Call) :
    settled (VehicleSync.run h) cs = VehicleSync.run (cs.reverse ++ h) := by
  induction cs generalizing h with
  | nil => rfl
  | cons c cs ih =>
    rw [List.reverse_cons, List.append_assoc]
    exact ih (c :: h)

/-- The server's store is a run of `VehicleSync`. -/
theorem vsync_run (hr : MappedRun w ok h s) : s.vsync = VehicleSync.run (storeHistory w h) := by
  induction hr with
  | init => rfl
  | step _ _ hstep ih => rw [step_vsync _ _ _ hstep, ih, settled_run, storeHistory]
  | endpoints _ _ ih => exact ih

/-! ## A server with cars -/

namespace Garage

def pickup : Json := .obj [("model", .str "pickup")]

def world : World := World.sample [userJson "ann", userJson "bob", pickup]

def spawning : Bytes := Packet.buildStr .vehicleSpawn 0 0 (utf8 pickup.text)

def deleting (vid : UInt8) : Bytes := Packet.build .vehicleDelete 0 0 [vid] 1 0

def connected : Server := after world Server.init Env.quiet (.accept "10.0.0.1")

def joined : Server := after world connected Env.quiet (.frame 0 (authFrame (userJson "ann")))

/-- `ann` is player 1 and has the vehicle 0. -/
def stocked : Server := after world joined Env.quiet (.frame 0 spawning)

theorem step_connected : Step world Server.init Env.quiet (.accept "10.0.0.1") connected :=
  step_ends world _ _ rfl

theorem step_joined : Step world connected Env.quiet (.frame 0 (authFrame (userJson "ann"))) joined :=
  step_after world _ _ (by decide)

theorem step_stocked : Step world joined Env.quiet (.frame 0 spawning) stocked :=
  step_after world _ _ (by decide)

/-- The history of a run to `stocked`. -/
def history : List Moment :=
  [⟨joined, Env.quiet, .frame 0 spawning, stocked⟩,
    ⟨connected, Env.quiet, .frame 0 (authFrame (userJson "ann")), joined⟩,
    ⟨Server.init, Env.quiet, .accept "10.0.0.1", connected⟩]

theorem run_stocked {ok : Server → Env → Call → Prop} (h1 : ok Server.init Env.quiet (.accept "10.0.0.1"))
    (h2 : ok connected Env.quiet (.frame 0 (authFrame (userJson "ann")))) (h3 : ok joined Env.quiet (.frame 0 spawning)) :
    Run world ok history stocked :=
  .step (.step (.step .init h1 step_connected) h2 step_joined) h3 step_stocked

end Garage

end NovaMP.GameServer
