/-
  NovaMP.Server.Refusals — what a refused login leaves behind (`GameServer::handleAuth`).

  Five of the six refusals come before anything is written. The sixth is the veto of a
  plugin: the player is registered first, and after the veto the entries of its id and of
  the session are erased. `docs/lua_api.md` says that the plugins are asked before the player
  is added. Erasing is an undo only where there were no entries before.

  - `refused_unchanged_iff`: a refused request leaves both maps as they were, but for one
    that only the plugins refused, on a session that has a player or with an id in use.
  - `ghost_after_veto`: `ann` logs in again, and a plugin refuses her.
-/

import NovaMP.Server.Messages

namespace NovaMP.GameServer

open Lib Exec

variable (w : World) (x : Env) (s : Server) (sid : UInt16) (payload : Bytes) (len : UInt16)

/-! ## Refused requests -/

/-- `handleAuth` answers with `ok=false` and this error. -/
def AnswersFalse (error : String) : Prop :=
  ∃ body, readBytes payload len.toNat = .ok body ∧
    ⟨.session sid, .authError error⟩ ∈ authPosts x s sid (authBranch w s body)

/-- The request passes the checks of `handleAuth`, so that only the plugins are left. -/
def PassesChecks : Prop :=
  ∃ body username role, readBytes payload len.toNat = .ok body ∧ authBranch w s body = .player username role

/-- Who is in the game and on which session, after the handler. -/
def Unchanged : Prop :=
  (handleAuth w x sid payload len [] s).2.players = s.players ∧
    (handleAuth w x sid payload len [] s).2.sessionToPlayer = s.sessionToPlayer

variable {w x s sid payload len}

/-! ## What they write -/

/-- Closing the session leaves the two maps alone, as it hangs. -/
theorem dropped_registry (t : Server) (sid : UInt16) :
    (dropped t sid).2.players = t.players ∧ (dropped t sid).2.sessionToPlayer = t.sessionToPlayer := by
  unfold dropped
  split <;> exact ⟨rfl, rfl⟩

theorem refused_registry (error : String) (drop : Bool) :
    (authOutcome w x s sid (.refused error drop)).2.players = s.players ∧
      (authOutcome w x s sid (.refused error drop)).2.sessionToPlayer = s.sessionToPlayer := by
  cases drop with
  | false => exact ⟨rfl, rfl⟩
  | true => exact dropped_registry _ sid

/-- After a veto the entries of the new id and of the session are gone. -/
theorem vetoed_registry (w : World) (sid : UInt16) {username : String} (hv : refuses (vetoOf x s username) = true)
    (role : String) :
    (authOutcome w x s sid (.player username role)).2.players = s.players.erase (freshId s) ∧
      (authOutcome w x s sid (.player username role)).2.sessionToPlayer = s.sessionToPlayer.erase sid := by
  have herased : (unregistered (registered s sid username role .loadingMods) sid (freshId s)).players =
      s.players.erase (freshId s) ∧
      (unregistered (registered s sid username role .loadingMods) sid (freshId s)).sessionToPlayer =
        s.sessionToPlayer.erase sid :=
    ⟨Table.erase_insert_self _ _ _, Table.erase_insert_self _ _ _⟩
  simp only [authOutcome, if_pos hv]
  cases Json.ofBytes (vetoOf x s username) with
  | error e => exact herased
  | ok error =>
    obtain ⟨hplayers, hsessions⟩ := dropped_registry
      ((unregistered ((registered s sid username role .loadingMods).note ⟨"onPlayerAuth", authArgs s username, []⟩)
        sid (freshId s)).log _) sid
    exact ⟨hplayers.trans herased.1, hsessions.trans herased.2⟩

/-- A request is answered with `ok=false` where a check fails, or by a veto. -/
theorem authError_cases {b : AuthBranch} {error : String} (h : ⟨.session sid, .authError error⟩ ∈ authPosts x s sid b) :
    (∃ drop, b = .refused error drop) ∨
      ∃ username role, b = .player username role ∧ refuses (vetoOf x s username) = true := by
  cases b with
  | throws e | badRole e => cases h
  | refused error' drop =>
    cases List.mem_singleton.mp h
    exact .inl ⟨drop, rfl⟩
  | bridge =>
    rcases List.mem_cons.mp h with h | h
    · cases h
    · obtain ⟨c, -, hc⟩ := List.mem_map.mp h
      cases c <;> cases hc
  | player username role =>
    refine .inr ⟨username, role, rfl, ?_⟩
    by_contra hv
    simp [authPosts, if_neg hv] at h

/-- A refused request leaves the players and their sessions as they were, unless only the
    plugins refused it and its session has a player or the new id is in use. -/
theorem refused_unchanged_iff (w : World) (x : Env) (s : Server) (sid : UInt16) (payload : Bytes) (len : UInt16)
    {error : String} (h : AnswersFalse w x s sid payload len error) :
    Unchanged w x s sid payload len ↔
      ¬ (PassesChecks w s payload len ∧ (sid ∈ s.sessionToPlayer ∨ freshId s ∈ s.players)) := by
  obtain ⟨body, hread, hpost⟩ := h
  have hrun : handleAuth w x sid payload len [] s = authOutcome w x s sid (authBranch w s body) := by
    rw [handleAuth_eq, hread]
  unfold Unchanged
  rw [hrun]
  rcases authError_cases hpost with ⟨drop, hb⟩ | ⟨username, role, hb, hv⟩
  · rw [hb]
    refine iff_of_true (refused_registry error drop) ?_
    intro hrefused
    obtain ⟨⟨body', username, role, hread', hb'⟩, -⟩ := hrefused
    obtain rfl : body = body' := Except.ok.inj (hread.symm.trans hread')
    rw [hb] at hb'
    cases hb'
  · obtain ⟨hplayers, hsessions⟩ := vetoed_registry w sid hv role
    have hchecks : PassesChecks w s payload len := ⟨body, username, role, hread, hb⟩
    rw [hb, hplayers, hsessions, Table.erase_eq_self_iff, Table.erase_eq_self_iff]
    constructor
    · rintro ⟨hid, hsid⟩ ⟨-, hin | hin⟩
      · exact hsid hin
      · exact hid hin
    · intro hno
      exact ⟨fun hid => hno ⟨hchecks, .inr hid⟩, fun hsid => hno ⟨hchecks, .inl hsid⟩⟩

/-! ## A veto -/

namespace Veto

/-- A plugin that refuses everybody. -/
def env : Env := { Env.quiet with plugin := fun _ _ => utf8 "no" }

def request : Bytes := utf8 (userJson "ann").text

theorem answers : AnswersFalse Sample.world env Sample.joined 1 request 18 "no" := by
  refine ⟨request, by decide, ?_⟩
  decide

theorem answers_first : AnswersFalse Sample.world env Sample.connected 1 request 18 "no" := by
  refine ⟨request, by decide, ?_⟩
  decide

end Veto

/-- On a fresh session. -/
theorem refused_unchanged_fresh : Unchanged Sample.world Veto.env Sample.connected 1 Veto.request 18 := by
  refine (refused_unchanged_iff Sample.world Veto.env Sample.connected 1 Veto.request 18 Veto.answers_first).mpr ?_
  intro hbad
  rcases hbad with ⟨-, hsid | hid⟩
  · exact absurd hsid (by decide)
  · exact absurd hid (by decide)

/-- `ann` is in the game and sends her request again. -/
theorem ghost_after_veto : ¬ ∀ (w : World) (x : Env) (s : Server) (sid : UInt16) (payload : Bytes) (len : UInt16)
    (error : String), Reach w anyStep s → AnswersFalse w x s sid payload len error → Unchanged w x s sid payload len := by
  intro hall
  have hreach : Reach Sample.world anyStep Sample.joined :=
    .step (.step .init trivial Sample.step_connected) trivial Sample.step_joined
  have hsessions := (hall _ _ _ _ _ _ _ hreach Veto.answers).2
  have hgone : (handleAuth Sample.world Veto.env 1 Veto.request 18 [] Sample.joined).2.sessionToPlayer.lookup 1 =
      none := by decide
  rw [hsessions] at hgone
  exact absurd hgone (by decide)

end NovaMP.GameServer
