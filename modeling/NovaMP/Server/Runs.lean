/-
  NovaMP.Server.Runs — runs of the server, one call after another.

  A step is a call that ends, with the log cleared before it; plugins and
  `AIAuthority` may answer differently each time (any `Env`). `Reach w ok` are the
  states reached by steps that meet the guard `ok`; with `anyStep` these are all
  reachable states. A call that hangs or throws out of its io thread has no next state.

  - `Same`: what most calls leave alone, the connections, the two player maps' keys
    and the UDP maps; and they hold no lock when they fire a plugin event.
  - `Stable`: what the updates of a player's packet keep one by one, the packet keeps.
  - `frame_cases`: a frame changes nothing, is an authentication request (`authText`),
    or comes from a player in the game.
  - `outcome_cases`: all that one completed call can do to the connections and the
    player maps. Every invariant over runs is derived from it.
-/

import NovaMP.Server.Spec

namespace NovaMP

open Lib Exec

def Server.clear (s : Server) : Server := { s with sent := [], fired := [] }

namespace GameServer

variable (w : World)

/-! ## Steps and runs -/

def Step (s : Server) (x : Env) (c : Call) (s' : Server) : Prop := exec w x c [] s.clear = (.ok (), s')

inductive Reach (ok : Server → Env → Call → Prop) : Server → Prop
  | init : Reach ok Server.init
  | step {s s' : Server} {x : Env} {c : Call} : Reach ok s → ok s x c → Step w s x c s' → Reach ok s'

def anyStep : Server → Env → Call → Prop := fun _ _ _ => True

variable {w}

theorem Reach.invariant {ok : Server → Env → Call → Prop} {I : Server → Prop} (h0 : I Server.init)
    (hs : ∀ s x c s', I s → ok s x c → Step w s x c s' → I s') {s : Server} (h : Reach w ok s) : I s := by
  induction h with
  | init => exact h0
  | step _ hok hstep ih => exact hs _ _ _ _ ih hok hstep

theorem step_outcome {s s' : Server} {x : Env} {c : Call} (h : Step w s x c s') :
    outcome w x s.clear c = (.ok (), s') := by
  rw [← exec_eq]
  exact h

/-! ## What most calls leave alone -/

/-- The events of `s'` that `s` has not seen were fired with no lock held. -/
def Unlocked (s s' : Server) : Prop := ∀ e ∈ s'.fired, e ∈ s.fired ∨ e.held = []

theorem Unlocked.trans {s t u : Server} (h : Unlocked s t) (h' : Unlocked t u) : Unlocked s u := by
  intro e he
  rcases h' e he with he | he
  · exact h e he
  · exact .inr he

structure Same (s s' : Server) : Prop where
  tcp : s'.tcp = s.tcp
  sessionToPlayer : s'.sessionToPlayer = s.sessionToPlayer
  keys : s'.players.keys = s.players.keys
  nextPlayerId : s'.nextPlayerId = s.nextPlayerId
  udp : s'.udp = s.udp
  unlocked : Unlocked s s'

namespace Same

theorem refl (s : Server) : Same s s := ⟨rfl, rfl, rfl, rfl, rfl, fun _ he => .inl he⟩

theorem trans {s t u : Server} (h : Same s t) (h' : Same t u) : Same s u :=
  ⟨h'.tcp.trans h.tcp, h'.sessionToPlayer.trans h.sessionToPlayer, h'.keys.trans h.keys,
    h'.nextPlayerId.trans h.nextPlayerId, h'.udp.trans h.udp, h.unlocked.trans h'.unlocked⟩

theorem log (s : Server) (es : List Sent) : Same s (s.log es) := ⟨rfl, rfl, rfl, rfl, rfl, fun _ he => .inl he⟩

theorem note (s : Server) (event : String) (args : List Bytes) : Same s (s.note ⟨event, args, []⟩) := by
  refine ⟨rfl, rfl, rfl, rfl, rfl, fun e he => ?_⟩
  rcases List.mem_append.mp he with he | he
  · exact .inl he
  · rw [List.mem_singleton.mp he]
    exact .inr rfl

theorem put (s : Server) (id : UInt16) (p : Player) : Same s { s with players := s.players.put id p } :=
  ⟨rfl, rfl, Table.keys_put _ _ _, rfl, rfl, fun _ he => .inl he⟩

theorem vsync (s : Server) (v : VehicleSync) : Same s { s with vsync := v } :=
  ⟨rfl, rfl, rfl, rfl, rfl, fun _ he => .inl he⟩

end Same

variable (w) (x : Env) (s : Server)

/-- `P` is kept by each update that a player's packet is made of. -/
structure Stable (P : Server → Prop) : Prop where
  log {s : Server} (es : List Sent) : P s → P (s.log es)
  note {s : Server} (event : String) (args : List Bytes) : P s → P (s.note ⟨event, args, []⟩)
  put {s : Server} (id : UInt16) (p : Player) : P s → P { s with players := s.players.put id p }
  delete {s : Server} (pid : UInt16) (vid : UInt8) : P s → P { s with vsync := s.vsync.onVehicleDelete pid vid }

namespace Stable

variable {P : Server → Prop} (hP : Stable P) {s} (h : P s)

include hP h

theorem authority (calls : List AuthorityCall) : P (authority w s calls) := hP.log _ h

theorem announceLeave (pid : UInt16) : P (announceLeave w x s pid) := by
  have hleft := hP.note "onPlayerDisconnect" [cstr (idText pid)] (hP.log (s.toAll (leavePacket w pid)) h)
  unfold GameServer.announceLeave
  dsimp only
  split
  · exact hP.authority w hleft _
  · exact hleft

theorem readied (pid : UInt16) : P (readied w s pid) := by
  unfold GameServer.readied
  split
  · exact h
  · exact hP.log _ (hP.note _ _ (hP.log _ (hP.put pid _ h)))

theorem spawned (pid : UInt16) (p : Player) (pv : PlayerVehicle) : P (spawned w s pid p pv) :=
  hP.note _ _ (hP.log _ (hP.put pid _ h))

theorem spawnOutcome (pid : UInt16) (body : Bytes) : P (spawnOutcome w s pid body).2 := by
  unfold GameServer.spawnOutcome
  split
  · split
    · exact h
    · split
      · exact h
      · exact hP.spawned w h pid _ _
  · exact h

theorem deleted (pid : UInt16) (vid : UInt8) : P (deleted s pid vid) := by
  unfold GameServer.deleted
  split
  · exact h
  · exact hP.note _ _ (hP.log _ (hP.put pid _ (hP.delete pid vid h)))

theorem chatted (pid : UInt16) (msg : Bytes) : P (chatted x s pid msg) := by
  unfold GameServer.chatted
  split
  · exact h
  · split
    · exact h
    · dsimp only
      split
      · exact hP.note _ _ h
      · exact hP.log _ (hP.note _ _ h)

theorem claimed (pid : UInt16) : P (claimed w x s pid) := by
  unfold GameServer.claimed
  split
  · dsimp only
    split
    · exact hP.authority w h _
    · exact hP.log _ (hP.authority w h _)
  · exact h

theorem inGame (pid : UInt16) (pl : Bytes) (len : UInt16) (t : Option PacketType) : P (inGame w x s pid pl len t).2 := by
  unfold GameServer.inGame
  split
  · split
    · exact h
    · exact hP.spawnOutcome w h pid _
  · split
    · exact h
    · split
      · exact h
      · exact hP.deleted h pid _
  · split
    · exact h
    · exact hP.chatted x h pid _
  · exact hP.readied w h pid
  · exact hP.claimed w x h pid
  · exact h

theorem markBanned (id : UInt16) : P (markBanned s id) := by
  unfold GameServer.markBanned
  split
  · exact hP.put id _ h
  · exact h

end Stable

theorem same_stable : Stable (Same s) where
  log _ h := h.trans (.log _ _)
  note _ _ h := h.trans (.note _ _ _)
  put _ _ h := h.trans (.put _ _ _)
  delete _ _ h := h.trans (.vsync _ _)

theorem authority_same (calls : List AuthorityCall) : Same s (authority w s calls) := .log s _

theorem announceLeave_same (pid : UInt16) : Same s (announceLeave w x s pid) :=
  (same_stable s).announceLeave w x (.refl s) pid

theorem inGame_same (pid : UInt16) (pl : Bytes) (len : UInt16) (t : Option PacketType) :
    Same s (inGame w x s pid pl len t).2 :=
  (same_stable s).inGame w x (.refl s) pid pl len t

theorem markBanned_same (id : UInt16) : Same s (markBanned s id) := (same_stable s).markBanned (.refl s) id

/-- A datagram touches nothing but the log and the store, and makes the server send
    datagrams only. -/
theorem datagramOutcome_keeps {P : Server → Prop} (h : P s)
    (hlog : ∀ sent : List Sent, (∀ e ∈ sent, ∃ dest pkt, e = .udp dest pkt) → P (s.log sent))
    (hstore : ∀ vsync, P { s with vsync := vsync }) (source : UDPEndpoint) (data : Bytes) (hdr : PacketHeader) :
    P (datagramOutcome w x s source data hdr).2 := by
  have hupdate (pid : UInt16) (pl : Bytes) (len : UInt16) : P (updateOutcome s pid pl len).2 := by
    unfold updateOutcome
    split
    · exact h
    · split
      · exact h
      · exact hstore _
  unfold datagramOutcome
  split
  · exact hlog _ fun e he => ⟨_, _, List.mem_singleton.mp he⟩
  split
  · exact h
  split
  · split
    · exact h
    · split
      · split
        · exact h
        · refine hlog _ fun e he => ?_
          obtain ⟨entry, -, rfl⟩ := List.mem_map.mp he
          exact ⟨_, _, rfl⟩
      · exact hupdate _ _ _
  · exact hupdate _ _ _

theorem datagramOutcome_same (source : UDPEndpoint) (data : Bytes) (hdr : PacketHeader) :
    Same s (datagramOutcome w x s source data hdr).2 :=
  datagramOutcome_keeps w x s (.refl s) (fun _ _ => .log s _) (fun _ => .vsync s _) source data hdr

/-! ## A session closes -/

variable {w x s}

theorem disconnected_none {sid : UInt16} (h : s.sessionToPlayer.lookup sid = none) : disconnected w x s sid = s := by
  simp only [disconnected, h]

theorem disconnected_some {sid pid : UInt16} (h : s.sessionToPlayer.lookup sid = some pid) (hpid : pid ≠ 0xFFFF) :
    disconnected w x s sid =
      announceLeave w x (removePlayer { s with sessionToPlayer := s.sessionToPlayer.erase sid } pid) pid := by
  simp only [disconnected, h, if_neg hpid]

/-- A player id that stands for no player just leaves the map. -/
theorem disconnected_sentinel {sid : UInt16} (h : s.sessionToPlayer.lookup sid = some 0xFFFF) :
    disconnected w x s sid = { s with sessionToPlayer := s.sessionToPlayer.erase sid } := by
  simp only [disconnected, h, if_true]

variable (w x s)

theorem removePlayer_tcp (pid : UInt16) : (removePlayer s pid).tcp = s.tcp := by
  unfold removePlayer
  split <;> rfl

theorem removePlayer_sessionToPlayer (pid : UInt16) : (removePlayer s pid).sessionToPlayer = s.sessionToPlayer := by
  unfold removePlayer
  split <;> rfl

theorem disconnected_tcp (sid : UInt16) : (disconnected w x s sid).tcp = s.tcp := by
  cases hl : s.sessionToPlayer.lookup sid with
  | none => rw [disconnected_none hl]
  | some pid =>
    by_cases hp : pid = 0xFFFF
    · subst hp
      rw [disconnected_sentinel hl]
    · rw [disconnected_some hl hp, (announceLeave_same w x _ pid).tcp, removePlayer_tcp]

theorem disconnected_sessionToPlayer (sid : UInt16) :
    (disconnected w x s sid).sessionToPlayer = s.sessionToPlayer.erase sid := by
  cases hl : s.sessionToPlayer.lookup sid with
  | none => rw [disconnected_none hl, Table.erase_of_notMem (AList.lookup_eq_none.mp hl)]
  | some pid =>
    by_cases hp : pid = 0xFFFF
    · subst hp
      rw [disconnected_sentinel hl]
    · rw [disconnected_some hl hp, (announceLeave_same w x _ pid).sessionToPlayer, removePlayer_sessionToPlayer]

theorem closed_some {object : Nat} {t : TCPSession} (ht : s.tcp.objects[object]? = some t) :
    closed w x s object = disconnected w x { s with tcp := (s.tcp.closeSocket object).eraseSession t.id } t.id := by
  simp only [closed, ht]

/-! ## Frames -/

/-- The session and the text of the authentication request in a frame, if it is one
    whose text the frame holds. -/
def authText (s : Server) (object : Nat) (data : Bytes) : Option (UInt16 × Bytes) :=
  match s.tcp.objects[object]?, Packet.parseHeader data with
  | some t, .ok hdr =>
    if isFrame t data ∧ PacketType.ofCode hdr.type = some .authRequest then
      match readBytes (Packet.payload data) hdr.payloadLen.toNat with
      | .ok body => some (t.id, body)
      | .error _ => none
    else none
  | _, _ => none

theorem authText_object {object : Nat} {data : Bytes} {sid : UInt16} {body : Bytes}
    (h : authText s object data = some (sid, body)) :
    ∃ t, s.tcp.objects[object]? = some t ∧ t.id = sid ∧ isFrame t data := by
  unfold authText at h
  split at h
  · rename_i t hdr ht hh
    split at h
    · rename_i hc
      split at h
      · cases h
        exact ⟨t, ht, rfl, hc.1⟩
      · cases h
    · cases h
  · cases h

theorem outcome_frame {object : Nat} {t : TCPSession} (ht : s.tcp.objects[object]? = some t) (data : Bytes) :
    outcome w x s (.frame object data) =
      if isFrame t data then
        match Packet.parseHeader data with
        | .error e => (.error (.fault e), s)
        | .ok hdr => dispatch w x s t.id (Packet.payload data) hdr
      else (.ok (), s) := by
  dsimp only [outcome]
  split
  · rename_i t' ht'
    rw [ht] at ht'
    cases ht'
    rfl
  · rename_i hnone
    rw [ht] at hnone
    cases hnone

theorem outcome_auth {object : Nat} {data : Bytes} {sid : UInt16} {body : Bytes}
    (h : authText s object data = some (sid, body)) :
    outcome w x s (.frame object data) = authOutcome w x s sid (authBranch w s body) := by
  unfold authText at h
  cases ht : s.tcp.objects[object]? with
  | none => simp [ht] at h
  | some t =>
    cases hh : Packet.parseHeader data with
    | error e => simp [ht, hh] at h
    | ok hdr =>
      simp only [ht, hh] at h
      split at h
      · rename_i hc
        cases hb : readBytes (Packet.payload data) hdr.payloadLen.toNat with
        | error e => simp [hb] at h
        | ok body' =>
          simp only [hb, Option.some.injEq, Prod.mk.injEq] at h
          obtain ⟨rfl, rfl⟩ := h
          rw [outcome_frame w x s ht, if_pos hc.1, hh]
          simp only [dispatch, if_pos hc.2, hb]
      · cases h

/-- A frame leaves the state as it is, is an authentication request, or is a packet of
    the session's player. -/
theorem frame_cases (object : Nat) (data : Bytes) :
    (authText s object data = none ∧
      ∃ r : Except Fault Unit, outcome w x s (.frame object data) = (r.mapError .fault, s)) ∨
    (∃ sid body, authText s object data = some (sid, body)) ∨
    (authText s object data = none ∧
      ∃ t hdr, s.tcp.objects[object]? = some t ∧ isFrame t data ∧ Packet.parseHeader data = .ok hdr ∧
        playerOf s t.id ≠ 0xFFFF ∧
        outcome w x s (.frame object data) = inGame w x s (playerOf s t.id) (Packet.payload data) hdr.payloadLen
          (PacketType.ofCode hdr.type)) := by
  cases ht : s.tcp.objects[object]? with
  | none => exact .inl ⟨by simp only [authText, ht], .ok (), by simp only [outcome, ht]; rfl⟩
  | some t =>
    rw [outcome_frame w x s ht]
    simp only [authText, ht]
    by_cases hf : isFrame t data
    · rw [if_pos hf]
      cases hh : Packet.parseHeader data with
      | error e => exact .inl ⟨rfl, .error e, rfl⟩
      | ok hdr =>
        simp only [dispatch, hf, true_and]
        by_cases ha : PacketType.ofCode hdr.type = some .authRequest
        · rw [if_pos ha, if_pos ha]
          cases hb : readBytes (Packet.payload data) hdr.payloadLen.toNat with
          | error e => exact .inl ⟨rfl, .error e, rfl⟩
          | ok body => exact .inr (.inl ⟨t.id, body, rfl⟩)
        · rw [if_neg ha, if_neg ha]
          by_cases hp : playerOf s t.id = 0xFFFF
          · rw [if_pos hp]
            exact .inl ⟨rfl, .ok (), rfl⟩
          · rw [if_neg hp]
            exact .inr (.inr ⟨rfl, t, hdr, rfl, hf, rfl, hp, rfl⟩)
    · rw [if_neg hf]
      refine .inl ⟨?_, .ok (), rfl⟩
      cases Packet.parseHeader data with
      | error e => rfl
      | ok hdr => exact if_neg fun h => hf h.1

/-! ## What a completed call can do -/

/-- The session a call registers a player for, before any plugin is asked. -/
def registering (s : Server) : Call → Option UInt16
  | .frame object data =>
    match authText s object data with
    | some (sid, body) =>
      match authBranch w s body with
      | .bridge | .player _ _ => some sid
      | _ => none
    | none => none
  | _ => none

theorem dropped_ok {s s' : Server} {sid : UInt16} (h : dropped s sid = (.ok (), s')) :
    s' = s ∧ s.tcp.sessions.lookup sid = none := by
  unfold dropped at h
  cases hl : s.tcp.sessions.lookup sid with
  | none => rw [hl] at h; cases h; exact ⟨rfl, rfl⟩
  | some object => rw [hl] at h; cases h

/-- A kick that ends, so of nobody who is connected, touches nothing but the log. -/
theorem kicked_keeps {P : Server → Prop} {s s' : Server} (hs : P s) (hlog : ∀ sent, P (s.log sent)) {id : UInt16}
    {reason : Bytes} (h : kicked s id reason = (.ok (), s')) : P s' := by
  unfold kicked at h
  split at h
  · rw [(dropped_ok h).1]
    exact hlog _
  · cases h
    exact hs

theorem kicked_same {s s' : Server} {id : UInt16} {reason : Bytes} (h : kicked s id reason = (.ok (), s')) :
    Same s s' :=
  kicked_keeps (P := Same s) (.refl s) (fun _ => .log s _) h

/-- What one completed call does to the connections and the player maps. -/
inductive Effect (s : Server) : Call → Server → Prop
  | same {c : Call} {s' : Server} : Same s s' → Effect s c s'
  | accept (ip : String) : Effect s (.accept ip) { s with tcp := s.tcp.addSession ip }
  | close {object : Nat} {t : TCPSession} : s.tcp.objects[object]? = some t →
      Effect s (.close object) (closed w x s object)
  | registered {object : Nat} {data : Bytes} {sid : UInt16} {username role : String} {st : PlayerState} {s' : Server} :
      registering w s (.frame object data) = some sid → Same (registered s sid username role st) s' →
      Effect s (.frame object data) s'
  | vetoed {object : Nat} {data : Bytes} {sid : UInt16} {username role : String} {st : PlayerState} {s' : Server} :
      registering w s (.frame object data) = some sid →
      Same (unregistered (registered s sid username role st) sid (freshId s)) s' →
      Effect s (.frame object data) s'

theorem auth_effect {object : Nat} {data : Bytes} {sid : UInt16} {body : Bytes} {s' : Server}
    (ha : authText s object data = some (sid, body))
    (h : authOutcome w x s sid (authBranch w s body) = (.ok (), s')) : Effect w x s (.frame object data) s' := by
  have hreg : ∀ b, authBranch w s body = b → (b = .bridge ∨ ∃ u r, b = .player u r) →
      registering w s (.frame object data) = some sid := by
    intro b hb hc
    simp only [registering, ha, hb]
    rcases hc with rfl | ⟨u, r, rfl⟩ <;> rfl
  cases hb : authBranch w s body with
  | throws e => rw [hb] at h; cases h
  | refused error drop =>
    rw [hb] at h
    cases drop with
    | false => cases h; exact .same (.log s _)
    | true =>
      rw [(dropped_ok h).1]
      exact .same (.log s _)
  | bridge =>
    rw [hb] at h
    cases h
    exact .registered (hreg _ hb (.inl rfl)) ((Same.log _ _).trans (authority_same w _ _))
  | badRole e => rw [hb] at h; cases h
  | player username role =>
    rw [hb] at h
    have hr := hreg _ hb (.inr ⟨username, role, rfl⟩)
    simp only [authOutcome] at h
    split at h
    · split at h
      · cases h
      · rw [(dropped_ok h).1]
        exact .vetoed hr (show Same (unregistered (registered s sid username role .loadingMods) sid (freshId s)) _ from
          ⟨rfl, rfl, rfl, rfl, rfl, (Same.note _ _ _).unlocked⟩)
    · cases h
      exact .registered hr ((Same.note _ _ _).trans ((Same.log _ _).trans (Same.log _ _)))

theorem outcome_cases {c : Call} {s' : Server} (h : outcome w x s c = (.ok (), s')) : Effect w x s c s' := by
  cases c with
  | accept ip => cases h; exact .accept ip
  | frame object data =>
    rcases frame_cases w x s object data with ⟨-, r, hr⟩ | ⟨sid, body, ha⟩ | ⟨-, t, hdr, -, -, -, -, hg⟩
    · rw [hr] at h
      obtain rfl : s = s' := congrArg Prod.snd h
      exact .same (.refl s)
    · rw [outcome_auth w x s ha] at h
      exact auth_effect w x s ha h
    · have hsame := inGame_same w x s (playerOf s t.id) (Packet.payload data) hdr.payloadLen (PacketType.ofCode hdr.type)
      rw [← hg, h] at hsame
      exact .same hsame
  | close object =>
    cases h
    cases ht : s.tcp.objects[object]? with
    | none => rw [closed, ht]; exact .same (.refl s)
    | some t => exact .close ht
  | datagram source data =>
    simp only [outcome] at h
    split at h
    · split at h
      · cases h
      · rename_i hdr _
        have hsame := datagramOutcome_same w x s source data hdr
        rw [h] at hsame
        exact .same hsame
    · cases h
      exact .same (.refl s)
  | broadcastAll => cases h; exact .same ((Same.vsync s _).trans (.log _ _))
  | kickPlayer id reason => exact .same (kicked_same h)
  | banPlayer id reason => exact .same ((markBanned_same s id).trans (kicked_same h))
  | sendChat playerId msg => cases h; exact .same (.log s _)
  | grantAuthority pid => cases h; exact .same (.log s _)
  | revokeAuthority pid => cases h; exact .same (.log s _)

theorem step_cases {c : Call} {s' : Server} (h : Step w s x c s') : Effect w x s.clear c s' :=
  outcome_cases w x _ (step_outcome h)

/-! ## A server to run -/

/-- The state a call leaves. -/
def after (s : Server) (x : Env) (c : Call) : Server := (exec w x c [] s.clear).2

theorem step_after {c : Call} (h : (exec w x c [] s.clear).1 = .ok ()) : Step w s x c (after w s x c) :=
  Prod.ext h rfl

/-- The calls that end on every state. -/
def ends : Call → Bool
  | .accept _ | .close _ | .broadcastAll | .sendChat _ _ | .grantAuthority _ | .revokeAuthority _ => true
  | .frame _ _ | .datagram _ _ | .kickPlayer _ _ | .banPlayer _ _ => false

theorem step_ends {c : Call} (h : ends c) : Step w s x c (after w s x c) := by
  refine step_after w x s ?_
  rw [exec_eq]
  cases c with
  | accept ip => rfl
  | close object => rfl
  | broadcastAll => rfl
  | sendChat playerId msg => rfl
  | grantAuthority pid => rfl
  | revokeAuthority pid => rfl
  | _ => cases h

end GameServer

/-- Plugins that refuse nothing, and an `AIAuthority` that decides nothing. -/
def Env.quiet : Env :=
  { plugin := fun _ _ => []
    isAuthority := fun _ => false
    onHeadlessConnect := fun _ => []
    onClientClaim := fun _ => (false, [])
    onAuthorityDisconnect := fun _ => [] }

namespace Json

def insertMember (m : String × String) : List (String × String) → List (String × String)
  | [] => [m]
  | m' :: ms => if m.1 < m'.1 then m :: m' :: ms else m' :: insertMember m ms

def quoted (s : String) : String := "\"" ++ s ++ "\""

def commas : List String → String
  | [] => ""
  | [s] => s
  | s :: ss => s ++ "," ++ commas ss

mutual

/-- `dump()` of a value without floating-point numbers and without text to escape: the
    members of an object come in the order of their keys. -/
def text : Json → String
  | null => "null"
  | bool b => if b then "true" else "false"
  | int n => toString n
  | real _ => "null"
  | str s => quoted s
  | arr xs => "[" ++ commas (texts xs) ++ "]"
  | obj ms => "\x7b" ++ commas ((memberTexts ms).map fun m => quoted m.1 ++ ":" ++ m.2) ++ "\x7d"

def texts : List Json → List String
  | [] => []
  | j :: js => text j :: texts js

def memberTexts : List (String × Json) → List (String × String)
  | [] => []
  | (k, j) :: ms => insertMember (k, text j) (memberTexts ms)

end

end Json

/-- An open server of eight slots, whose `parse` knows `texts`. -/
def World.sample (texts : List Json) : World where
  cfg :=
    { name := "Test", description := "", map := "gridmap_v2", password := "", maxPlayers := 8
      vehicleLimitPerPlayer := 4, aiEnabled := false, aiCount := 0, aiUpdateRateHz := 20, aiSpeedLimit := 0
      aiMode := "traffic", bridgeToken := "" }
  parse := fun b => texts.find? fun j => utf8 j.text == b
  dump := Json.text

/-- The text of `\x7b"username":name\x7d`. -/
def userJson (name : String) : Json := .obj [("username", .str name)]

def authFrame (j : Json) : Bytes := Packet.buildStr .authRequest 0 0 (utf8 j.text)

namespace Sample

open GameServer

/-- Two users, `ann` and `bob`. -/
def world : World := World.sample [userJson "ann", userJson "bob"]

def connected : Server := after world Server.init Env.quiet (.accept "10.0.0.1")

/-- The first connection has authenticated as `ann`. -/
def joined : Server := after world connected Env.quiet (.frame 0 (authFrame (userJson "ann")))

theorem step_connected : Step world Server.init Env.quiet (.accept "10.0.0.1") connected :=
  step_ends world _ _ rfl

theorem step_joined : Step world connected Env.quiet (.frame 0 (authFrame (userJson "ann"))) joined :=
  step_after world _ _ (by decide)

end Sample

end NovaMP
