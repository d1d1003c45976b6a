/-
  NovaMP.Server.Gate — how a session comes to have a player.

  A `Login` of the session `sid` is a completed `AUTH_REQUEST` on it that registered the
  player `pid`: it gave the bridge's name and token, or another name and the server's
  password if there is one. Nothing else ever maps a session, and closing one unmaps it,
  so every mapping has its login, made since the session id was last closed.

  - `change_login`: one call, from the changes it can make.
  - `password_gate`: every run.
-/

import NovaMP.Server.Changes

namespace NovaMP.GameServer

open Lib Exec

variable (w : World) (x : Env) (s : Server)

/-- The name and the password of a request are those the server wants. -/
structure Credentials (body : Bytes) (username : String) : Prop where
  named : username ≠ ""
  secret : ∃ j password, w.parse body = some j ∧ j.value "username" "" = .ok username ∧
    j.value "server_password" "" = .ok password ∧
    (username = aiBridge → w.cfg.aiEnabled = true ∧ password = w.cfg.bridgeToken) ∧
    (username ≠ aiBridge → w.cfg.password ≠ "" → password = w.cfg.password)

/-- An `AUTH_REQUEST` on the session `sid` that registered the player `pid`. -/
structure Login (sid pid : UInt16) (m : Moment) : Prop where
  fresh : pid = freshId m.before
  mapped : m.after.sessionToPlayer.lookup sid = some pid
  request : ∃ object data body username p, m.call = .frame object data ∧
    authText m.before object data = some (sid, body) ∧ Credentials w body username ∧
    m.after.players.lookup pid = some p ∧ p.username = username

/-- A session with the id `sid` closes. -/
def Closes (sid : UInt16) (m : Moment) : Prop :=
  ∃ object t, m.call = .close object ∧ m.before.tcp.objects[object]? = some t ∧ t.id = sid

/-! ## One call -/

theorem admits_credentials {body : Bytes} {username role : String} {st : PlayerState}
    (h : (authBranch w s body).admits = some (username, role, st)) : Credentials w body username := by
  obtain ⟨j, password, ha⟩ := admits_admission h
  rcases ha.checks with ⟨hu, hai, htok, -, -⟩ | ⟨hbridge, hempty, hpass, -, -, -⟩
  · have hne : aiBridge ≠ "" := by decide
    exact ⟨hu ▸ hne, j, password, ha.json, ha.user, ha.pass, fun _ => ⟨hai, htok⟩, fun h => absurd hu h⟩
  · exact ⟨hempty, j, password, ha.json, ha.user, ha.pass, fun h => absurd h hbridge, fun _ => hpass⟩

variable {w s}

theorem registered_login {s' : Server} {object : Nat} {data : Bytes} {sid : UInt16} {body : Bytes}
    {username role : String} {st : PlayerState} (ha : authText s object data = some (sid, body))
    (hb : (authBranch w s body).admits = some (username, role, st)) (h : Alike (registered s sid username role st) s') :
    Login w sid (freshId s) ⟨s, x, .frame object data, s'⟩ := by
  refine ⟨rfl, ?_, object, data, body, username,
    ⟨freshId s, username, role, s.remoteIP sid, st, false, false, []⟩, rfl, ha, admits_credentials w s hb, ?_, rfl⟩
  · rw [h.sessionToPlayer]
    exact AList.lookup_insert s.sessionToPlayer
  · rw [h.players]
    exact AList.lookup_insert s.players

/-- A session is mapped after a call because it was before, or because the call is its
    login. -/
theorem change_login {c : Call} {as : List Announcement} {s' : Server} (h : Change w s c as s') {sid pid : UInt16}
    (hl : s'.sessionToPlayer.lookup sid = some pid) :
    s.sessionToPlayer.lookup sid = some pid ∨ Login w sid pid ⟨s, x, c, s'⟩ := by
  have hkept : s'.sessionToPlayer = s.sessionToPlayer → s.sessionToPlayer.lookup sid = some pid := by
    intro hmap
    rw [← hmap]
    exact hl
  -- A session that closes is unmapped, so `sid` is another one.
  have herase : ∀ closing, s'.sessionToPlayer = s.sessionToPlayer.erase closing →
      s.sessionToPlayer.lookup sid = some pid := by
    intro closing hmap
    rw [hmap, Table.lookup_erase'] at hl
    split at hl
    · cases hl
    · exact hl
  cases h with
  | quiet ha => exact .inl (hkept ha.sessionToPlayer)
  | accept ha => exact .inl (hkept ha.sessionToPlayer)
  | turn ht hf hh hp hturn => exact .inl (hkept (turn_alike hturn).sessionToPlayer)
  | banned hp ha => exact .inl (hkept ha.sessionToPlayer)
  | closed ht hp ha => exact .inl (herase _ ha.sessionToPlayer)
  | left ht hl hp ha => exact .inl (herase _ ha.sessionToPlayer)
  | @registered _ _ sid' _ _ _ _ _ ha hb hr =>
    have hin : s'.sessionToPlayer.lookup sid = some pid := hl
    rw [hr.sessionToPlayer] at hin
    change (s.sessionToPlayer.insert sid' (freshId s)).lookup sid = some pid at hin
    rw [Table.lookup_insert'] at hin
    split at hin
    · rename_i hsid
      cases hin
      subst hsid
      exact .inr (registered_login x ha hb hr)
    · exact .inl hin
  | @vetoed _ _ sid' _ _ _ _ _ ha hb hr =>
    have hin : s'.sessionToPlayer.lookup sid = some pid := hl
    rw [hr.sessionToPlayer] at hin
    change ((s.sessionToPlayer.insert sid' (freshId s)).erase sid').lookup sid = some pid at hin
    rw [Table.lookup_erase'] at hin
    split at hin
    · cases hin
    · rename_i hne
      rw [Table.lookup_insert', if_neg hne] at hin
      exact .inl hin

/-- Nobody is mapped to a session that has just closed. -/
theorem closes_unmaps {c : Call} {s' : Server} (h : Step w s x c s') {sid : UInt16} (hc : Closes sid ⟨s, x, c, s'⟩) :
    s'.sessionToPlayer.lookup sid = none := by
  obtain ⟨object, t, rfl, ht, rfl⟩ := hc
  have hs' : s' = closed w x s.clear object := (congrArg Prod.snd (step_outcome h)).symm
  rw [hs', closed_some w x s.clear ht, disconnected_sessionToPlayer]
  exact AList.lookup_erase t.id _

/-! ## Every run -/

/-- A mapped session has logged in since it was last closed. -/
theorem login_of_mapped {ok : Server → Env → Call → Prop} {h : List Moment} {s : Server} (hr : Run w ok h s)
    {sid pid : UInt16} (hl : s.sessionToPlayer.lookup sid = some pid) :
    ∃ later m earlier, h = later ++ m :: earlier ∧ Login w sid pid m ∧ ∀ m' ∈ later, ¬ Closes sid m' := by
  induction hr with
  | init => simp [Server.init] at hl
  | @step h s s' x c hr hok hs ih =>
    rcases change_login x (step_change w x s hs) hl with hbefore | hlogin
    · obtain ⟨later, m, earlier, rfl, hlog, hopen⟩ := ih hbefore
      refine ⟨⟨s, x, c, s'⟩ :: later, m, earlier, rfl, hlog, fun m' hm' => ?_⟩
      rcases List.mem_cons.mp hm' with rfl | hm'
      · intro hc
        rw [closes_unmaps x hs hc] at hl
        cases hl
      · exact hopen m' hm'
    · exact ⟨[], _, h, rfl, hlogin, fun m' hm' => by cases hm'⟩

/-- A call that maps a session to a player is the session's login. -/
theorem login_of_new {ok : Server → Env → Call → Prop} {h : List Moment} {s : Server} (hr : Run w ok h s)
    {m : Moment} (hm : m ∈ h) {sid pid : UInt16} (hl : m.after.sessionToPlayer.lookup sid = some pid)
    (hnew : m.before.sessionToPlayer.lookup sid ≠ some pid) : Login w sid pid m := by
  induction hr with
  | init => cases hm
  | @step h s s' x c hr hok hs ih =>
    rcases List.mem_cons.mp hm with rfl | hm
    · rcases change_login x (step_change w x s hs) hl with hbefore | hlogin
      · exact absurd hbefore hnew
      · exact hlogin
    · exact ih hm

/-- In every run, each mapped session has given the server's password, or the bridge's
    name and token, since it was last closed; no call maps a session in another way; and
    no player is without a name. -/
theorem password_gate (w : World) {h : List Moment} {s : Server} (hr : Run w anyStep h s) :
    (∀ sid pid, s.sessionToPlayer.lookup sid = some pid →
      ∃ later m earlier, h = later ++ m :: earlier ∧ Login w sid pid m ∧ ∀ m' ∈ later, ¬ Closes sid m') ∧
    (∀ m ∈ h, ∀ sid pid, m.after.sessionToPlayer.lookup sid = some pid →
      m.before.sessionToPlayer.lookup sid ≠ some pid → Login w sid pid m) ∧
    ∀ pid p, s.players.lookup pid = some p → p.username ≠ "" :=
  ⟨fun _ _ hl => login_of_mapped hr hl, fun _ hm _ _ hl hnew => login_of_new hr hm hl hnew,
    fun pid p hp => (records_reach hr.reach pid p hp).named⟩

namespace Locked

/-- `ann` with the password `key`. -/
def login : Json := .obj [("server_password", .str "key"), ("username", .str "ann")]

/-- A server with the password `key`. -/
def world : World :=
  { World.sample [login] with cfg := { (World.sample []).cfg with password := "key" } }

def connected : Server := after world Server.init Env.quiet (.accept "10.0.0.1")

def joined : Server := after world connected Env.quiet (.frame 0 (authFrame login))

theorem run_joined : Run world anyStep
    [⟨connected, Env.quiet, .frame 0 (authFrame login), joined⟩, ⟨Server.init, Env.quiet, .accept "10.0.0.1", connected⟩]
    joined :=
  .step (.step .init trivial (step_ends world _ _ rfl)) trivial (step_after world _ _ (by decide))

end Locked

theorem password_gate_joined : Locked.joined.sessionToPlayer.lookup 1 = some 1 ∧
    ∃ h, Run Locked.world anyStep h Locked.joined ∧ ∃ m ∈ h, Login Locked.world 1 1 m := by
  have hl : Locked.joined.sessionToPlayer.lookup 1 = some 1 := by decide
  obtain ⟨later, m, earlier, hh, hlogin, -⟩ := (password_gate Locked.world Locked.run_joined).1 1 1 hl
  exact ⟨hl, _, Locked.run_joined, m, hh ▸ List.mem_append_right later List.mem_cons_self, hlogin⟩

end NovaMP.GameServer
