/-
  NovaMP.Server.Locks — calls that wait for a mutex their own chain holds.

  `TCPServer::disconnect` closes a session while it holds `m_sessions_mutex`; the close
  callback comes back synchronously, into `TCPServer::onSessionClose`, which takes that
  mutex again, and would go on to `GameServer::onDisconnect`, which takes
  `m_players_mutex` (held by `kickPlayer`). So every disconnect by the server hangs
  unless `m_sessions` has lost the session.

  - `no_deadlock_iff`: a call hangs exactly when it disconnects a session of
    `m_sessions` (`Reenters`): on a refused `AUTH_REQUEST`, on a kick and on a ban.
  - Plugin events are fired with no lock held, so what a plugin calls starts a chain
    of its own.
  - `kick_hangs`: kicking the only player of a server.
-/

import NovaMP.Server.Runs

namespace NovaMP.GameServer

open Lib Exec

variable (w : World) (x : Env) (s : Server)

/-! ## When a call disconnects -/

/-- `handleAuth` refuses the request and disconnects: a wrong token or password, a full
    server, or a plugin's veto. (A veto that is not UTF-8 throws instead.) -/
def Disconnects (body : Bytes) : Prop :=
  match authBranch w s body with
  | .refused _ drop => drop = true
  | .player username _ =>
    refuses (vetoOf x s username) = true ∧ ∃ j, Json.ofBytes (vetoOf x s username) = .ok j
  | _ => False

def Reenters : Call → Prop
  | .frame object data =>
    ∃ sid body, authText s object data = some (sid, body) ∧ Disconnects w x s body ∧ sid ∈ s.tcp.sessions
  | .kickPlayer id _ | .banPlayer id _ => ∃ sid, s.sessionToPlayer.keyOf id = some sid ∧ sid ∈ s.tcp.sessions
  | _ => False

/-! ## When a call hangs -/

def Hangs (r : Except (Stop Mutex Fault) Unit × Server) : Prop := ∃ l, r.1 = .error (.deadlock l)

theorem not_hangs_ok (t : Server) : ¬ Hangs (.ok (), t) := fun ⟨_, h⟩ => nomatch h

theorem not_hangs_fault (e : Fault) (t : Server) : ¬ Hangs (.error (.fault e), t) := fun ⟨_, h⟩ => nomatch h

theorem dropped_hangs_iff (t : Server) (sid : UInt16) : Hangs (dropped t sid) ↔ sid ∈ t.tcp.sessions := by
  unfold dropped
  cases hl : t.tcp.sessions.lookup sid with
  | none => exact iff_of_false (not_hangs_ok t) (AList.lookup_eq_none.mp hl)
  | some object => exact iff_of_true ⟨.sessions, rfl⟩ (Table.mem_of_lookup hl)

theorem kicked_hangs_iff (id : UInt16) (reason : Bytes) :
    Hangs (kicked s id reason) ↔ ∃ sid, s.sessionToPlayer.keyOf id = some sid ∧ sid ∈ s.tcp.sessions := by
  unfold kicked
  cases hk : s.sessionToPlayer.keyOf id with
  | none => exact iff_of_false (not_hangs_ok s) (fun ⟨_, h, _⟩ => nomatch h)
  | some sid =>
    rw [dropped_hangs_iff]
    exact ⟨fun h => ⟨sid, rfl, h⟩, fun ⟨_, h, hm⟩ => Option.some.inj h ▸ hm⟩

theorem authOutcome_hangs_iff (sid : UInt16) (body : Bytes) :
    Hangs (authOutcome w x s sid (authBranch w s body)) ↔ Disconnects w x s body ∧ sid ∈ s.tcp.sessions := by
  unfold Disconnects
  cases authBranch w s body with
  | throws e => exact iff_of_false (not_hangs_fault e _) (fun h => h.1)
  | refused error drop =>
    cases drop with
    | false => exact iff_of_false (not_hangs_ok _) (fun h => nomatch h.1)
    | true =>
      show Hangs (dropped _ sid) ↔ _
      rw [dropped_hangs_iff]
      exact ⟨fun h => ⟨rfl, h⟩, fun h => h.2⟩
  | bridge => exact iff_of_false (not_hangs_ok _) (fun h => h.1)
  | badRole e => exact iff_of_false (not_hangs_fault e _) (fun h => h.1)
  | player username role =>
    simp only [authOutcome]
    by_cases hv : refuses (vetoOf x s username) = true
    · rw [if_pos hv]
      cases hj : Json.ofBytes (vetoOf x s username) with
      | error e =>
        refine iff_of_false (not_hangs_fault e _) (fun h => ?_)
        obtain ⟨error, he⟩ := h.1.2
        cases he
      | ok error =>
        show Hangs (dropped _ sid) ↔ _
        rw [dropped_hangs_iff]
        exact ⟨fun h => ⟨⟨hv, error, rfl⟩, h⟩, fun h => h.2⟩
    · rw [if_neg hv]
      exact iff_of_false (not_hangs_ok _) (fun h => hv h.1.1)

theorem inGame_not_hangs (pid : UInt16) (pl : Bytes) (len : UInt16) (t : Option PacketType) :
    ¬ Hangs (inGame w x s pid pl len t) := by
  unfold inGame
  split
  · split
    · exact not_hangs_fault _ _
    · unfold spawnOutcome
      split
      · split
        · exact not_hangs_ok _
        · split
          · exact not_hangs_fault _ _
          · exact not_hangs_ok _
      · exact not_hangs_ok _
  · split
    · exact not_hangs_ok _
    · split
      · exact not_hangs_fault _ _
      · exact not_hangs_ok _
  · split
    · exact not_hangs_fault _ _
    · exact not_hangs_ok _
  · exact not_hangs_ok _
  · exact not_hangs_ok _
  · exact not_hangs_ok _

theorem updateOutcome_not_hangs (pid : UInt16) (pl : Bytes) (len : UInt16) : ¬ Hangs (updateOutcome s pid pl len) := by
  unfold updateOutcome
  split
  · exact not_hangs_ok _
  · split
    · exact not_hangs_fault _ _
    · exact not_hangs_ok _

theorem datagramOutcome_not_hangs (source : UDPEndpoint) (data : Bytes) (hdr : PacketHeader) :
    ¬ Hangs (datagramOutcome w x s source data hdr) := by
  unfold datagramOutcome
  split
  · exact not_hangs_ok _
  split
  · exact not_hangs_ok _
  split
  · split
    · exact not_hangs_fault _ _
    · split
      · split
        · exact not_hangs_fault _ _
        · exact not_hangs_ok _
      · exact updateOutcome_not_hangs s _ _ _
  · exact updateOutcome_not_hangs s _ _ _

theorem hangs_iff (c : Call) : Hangs (outcome w x s c) ↔ Reenters w x s c := by
  cases c with
  | accept ip => exact iff_of_false (not_hangs_ok _) id
  | frame object data =>
    have hnone (ha : authText s object data = none) : ¬ Reenters w x s (.frame object data) := by
      intro hex
      obtain ⟨sid, body, ha', -⟩ := hex
      rw [ha] at ha'
      cases ha'
    rcases frame_cases w x s object data with ⟨ha, r, hr⟩ | ⟨sid, body, ha⟩ | ⟨ha, t, hdr, -, -, -, -, hg⟩
    · refine iff_of_false ?_ (hnone ha)
      rw [hr]
      cases r with
      | ok _ => exact not_hangs_ok s
      | error e => exact not_hangs_fault e s
    · rw [outcome_auth w x s ha, authOutcome_hangs_iff]
      constructor
      · intro hex
        obtain ⟨hd, hm⟩ := hex
        exact ⟨sid, body, ha, hd, hm⟩
      · intro hex
        obtain ⟨sid', body', ha', hd, hm⟩ := hex
        rw [ha] at ha'
        cases ha'
        exact ⟨hd, hm⟩
    · refine iff_of_false ?_ (hnone ha)
      rw [hg]
      exact inGame_not_hangs w x s _ _ _ _
  | close object => exact iff_of_false (not_hangs_ok _) id
  | datagram source data =>
    refine iff_of_false ?_ id
    simp only [outcome]
    split
    · split
      · exact not_hangs_fault _ _
      · exact datagramOutcome_not_hangs w x s source data _
    · exact not_hangs_ok _
  | broadcastAll => exact iff_of_false (not_hangs_ok _) id
  | kickPlayer id reason => exact kicked_hangs_iff s id reason
  | banPlayer id reason =>
    have hsame := markBanned_same s id
    show Hangs (kicked (markBanned s id) id _) ↔ _
    rw [kicked_hangs_iff, hsame.sessionToPlayer, hsame.tcp]
    exact Iff.rfl
  | sendChat playerId msg => exact iff_of_false (not_hangs_ok _) id
  | grantAuthority pid => exact iff_of_false (not_hangs_ok _) id
  | revokeAuthority pid => exact iff_of_false (not_hangs_ok _) id

/-! ## Plugin events -/

theorem dropped_unlocked (t : Server) (sid : UInt16) : Unlocked t (dropped t sid).2 := by
  unfold dropped
  split <;> exact fun _ he => .inl he

theorem kicked_unlocked (id : UInt16) (reason : Bytes) : Unlocked s (kicked s id reason).2 := by
  unfold kicked
  split
  · exact dropped_unlocked _ _
  · exact fun _ he => .inl he

theorem authOutcome_unlocked (sid : UInt16) (b : AuthBranch) : Unlocked s (authOutcome w x s sid b).2 := by
  cases b with
  | throws e => exact fun _ he => .inl he
  | refused error drop =>
    cases drop with
    | false => exact fun _ he => .inl he
    | true => exact dropped_unlocked _ _
  | bridge => exact fun _ he => .inl he
  | badRole e => exact fun _ he => .inl he
  | player username role =>
    have hnote : Unlocked s ((registered s sid username role .loadingMods).note
        ⟨"onPlayerAuth", authArgs s username, []⟩) := (Same.note _ _ _).unlocked
    simp only [authOutcome]
    split
    · split
      · exact hnote
      · exact hnote.trans (dropped_unlocked _ _)
    · exact hnote

theorem closed_unlocked (object : Nat) : Unlocked s (closed w x s object) := by
  unfold closed disconnected
  split
  · dsimp only
    split
    · exact fun _ he => .inl he
    · split
      · exact fun _ he => .inl he
      · rename_i pid _ _
        refine Unlocked.trans ?_ (announceLeave_same w x _ pid).unlocked
        unfold removePlayer
        split <;> exact fun _ he => .inl he
  · exact fun _ he => .inl he

theorem outcome_unlocked (c : Call) : Unlocked s (outcome w x s c).2 := by
  cases c with
  | accept ip => exact fun _ he => .inl he
  | frame object data =>
    rcases frame_cases w x s object data with ⟨-, r, hr⟩ | ⟨sid, body, ha⟩ | ⟨-, t, hdr, -, -, -, -, hg⟩
    · rw [hr]
      exact fun _ he => .inl he
    · rw [outcome_auth w x s ha]
      exact authOutcome_unlocked w x s sid _
    · rw [hg]
      exact (inGame_same w x s _ _ _ _).unlocked
  | close object => exact closed_unlocked w x s object
  | datagram source data =>
    simp only [outcome]
    split
    · split
      · exact fun _ he => .inl he
      · exact (datagramOutcome_same w x s source data _).unlocked
    · exact fun _ he => .inl he
  | broadcastAll => exact fun _ he => .inl he
  | kickPlayer id reason => exact kicked_unlocked s id reason
  | banPlayer id reason => exact (markBanned_same s id).unlocked.trans (kicked_unlocked _ id _)
  | sendChat playerId msg => exact fun _ he => .inl he
  | grantAuthority pid => exact fun _ he => .inl he
  | revokeAuthority pid => exact fun _ he => .inl he

/-! ## Entry calls -/

/-- A call never waits for a mutex its own chain holds exactly when it disconnects no
    session of `m_sessions`; and the plugins it calls run with no mutex held. -/
theorem no_deadlock_iff (w : World) (x : Env) (s : Server) (c : Call) :
    ((∀ l, (exec w x c [] s).1 ≠ .error (.deadlock l)) ↔ ¬ Reenters w x s c) ∧
      ∀ e ∈ (exec w x c [] s).2.fired, e ∈ s.fired ∨ e.held = [] := by
  rw [exec_eq]
  refine ⟨?_, outcome_unlocked w x s c⟩
  rw [← hangs_iff, Hangs, not_exists]

theorem kick_hangs : ¬ ∀ (w : World) (x : Env) (s : Server) (c : Call) (l : Mutex),
    (exec w x c [] s).1 ≠ .error (.deadlock l) := by
  intro h
  exact h Sample.world Env.quiet Sample.joined (.kickPlayer 1 []) .sessions (by decide)

end NovaMP.GameServer
