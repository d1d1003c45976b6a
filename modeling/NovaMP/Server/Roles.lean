/-
  NovaMP.Server.Roles — who decides a player's role.

  `handleAuth` gives the bridge its role against its token, and any other player the
  role its own request asks for. A plugin reads roles through `MP.GetPlayers`, as C
  strings (`luaRole`), and obeys the commands of an `admin`.

  Two accepted requests with the same name and password:
  - `role_chosen`: they get equal roles without privileges exactly when what they ask
    for is equal and without privileges, or they are the bridge's (`RoleFixed`).
  - `role_not_fixed`: one asks for `admin` and is one.
-/

import NovaMP.Server.Changes

namespace NovaMP.GameServer

open Lib Exec

variable (w : World) (x : Env) (s : Server)

/-- A role as `LuaEngine::lua_GetPlayers` shows it. -/
def luaRole (role : String) : Bytes := cstr (utf8 role)

/-- The request `j` on a session object is accepted: it has taken an id, and its session
    and the player `p` have it. -/
structure Accepted (object : Nat) (data : Bytes) (j : Json) (p : Player) : Prop where
  request : ∃ sid body s', authText s object data = some (sid, body) ∧ w.parse body = some j ∧
    Step w s x (.frame object data) s' ∧ s'.nextPlayerId = freshId s + 1 ∧
    s'.sessionToPlayer.lookup sid = some (freshId s) ∧ s'.players.lookup (freshId s) = some p

/-- Two requests agree on the name and the password. -/
structure SameCredentials (j j' : Json) : Prop where
  username : j.value "username" "" = j'.value "username" ""
  password : j.value "server_password" "" = j'.value "server_password" ""

/-- A role that commands nothing: not `admin`, and `bridge` only against its token. -/
structure Plain (j : Json) (role : String) : Prop where
  admin : luaRole role ≠ utf8 "admin"
  bridge : j.value "server_password" "" ≠ .ok w.cfg.bridgeToken → luaRole role ≠ utf8 "bridge"

/-- What the requests ask for gives them no choice. -/
def RoleFixed (j j' : Json) : Prop :=
  j.value "username" "" = .ok aiBridge ∨
    ∃ role, j.value "role" "player" = .ok role ∧ j'.value "role" "player" = .ok role ∧ Plain w j role

variable {w x s}

/-- An accepted request passed the checks, and its record is made of what it says. -/
theorem Accepted.admission {object : Nat} {data : Bytes} {j : Json} {p : Player} (h : Accepted w x s object data j p) :
    ∃ body password, Admission w s body p.username p.role p.state j password := by
  obtain ⟨sid, body, s', ha, hj, hs, hnext, hl, hp⟩ := h.request
  have hkept : s'.nextPlayerId ≠ s.nextPlayerId := fun he => freshId_advances s (he.symm.trans hnext)
  generalize announced w x s.clear (.frame object data) = as at *
  have hc := step_change w x s hs
  generalize announced w x s.clear (.frame object data) = as at hc
  cases hc with
  | quiet h => exact absurd h.nextPlayerId hkept
  | turn _ _ _ _ h => exact absurd (turn_alike h).nextPlayerId hkept
  | registered ha' hb h =>
    obtain ⟨rfl, rfl⟩ : sid = _ ∧ body = _ := by simpa using ha.symm.trans ha'
    obtain ⟨j', password, hadm⟩ := admits_admission hb
    obtain rfl : j = j' := Option.some.inj (hj.symm.trans hadm.json)
    rw [h.players] at hp
    obtain rfl := Option.some.inj ((AList.lookup_insert s.players).symm.trans hp)
    exact ⟨body, password, hadm⟩
  | vetoed ha' hb h =>
    obtain ⟨rfl, rfl⟩ : sid = _ ∧ body = _ := by simpa using ha.symm.trans ha'
    rw [h.sessionToPlayer] at hl
    have herased : ((s.sessionToPlayer.insert sid (freshId s)).erase sid).lookup sid = some (freshId s) := hl
    rw [AList.lookup_erase] at herased
    cases herased

/-- The bridge's request is accepted against its token. -/
theorem Accepted.bridge {object : Nat} {data : Bytes} {j : Json} {p : Player} (h : Accepted w x s object data j p)
    (hu : j.value "username" "" = .ok aiBridge) :
    p.role = "bridge" ∧ j.value "server_password" "" = .ok w.cfg.bridgeToken := by
  obtain ⟨body, password, ha⟩ := h.admission
  have hname : p.username = aiBridge := Except.ok.inj (ha.user.symm.trans hu)
  rcases ha.checks with ⟨-, -, htok, hrole, -⟩ | ⟨hne, -⟩
  · exact ⟨hrole, htok ▸ ha.pass⟩
  · exact absurd hname hne

/-- Any other player has the role its request asks for. -/
theorem Accepted.asked {object : Nat} {data : Bytes} {j : Json} {p : Player} (h : Accepted w x s object data j p)
    (hu : j.value "username" "" ≠ .ok aiBridge) : j.value "role" "player" = .ok p.role := by
  obtain ⟨body, password, ha⟩ := h.admission
  rcases ha.checks with ⟨hname, -⟩ | ⟨-, -, -, -, hrole, -⟩
  · exact absurd (hname ▸ ha.user) hu
  · exact hrole

/-- Two accepted requests with the same credentials make players of one role without
    privileges exactly when they ask for one, or are the bridge's. -/
theorem role_chosen (w : World) (s : Server) (x x' : Env) {object object' : Nat} {data data' : Bytes} {j j' : Json}
    {p p' : Player} (h : Accepted w x s object data j p) (h' : Accepted w x' s object' data' j' p')
    (hsame : SameCredentials j j') : (p.role = p'.role ∧ Plain w j p.role) ↔ RoleFixed w j j' := by
  by_cases hu : j.value "username" "" = .ok aiBridge
  · obtain ⟨hrole, htok⟩ := h.bridge hu
    obtain ⟨hrole', -⟩ := h'.bridge (hsame.username ▸ hu)
    refine iff_of_true ⟨hrole.trans hrole'.symm, ?_, fun hne => absurd htok hne⟩ (.inl hu)
    rw [hrole]
    decide
  · have hrole := h.asked hu
    have hrole' := h'.asked (hsame.username ▸ hu)
    constructor
    · intro hp
      obtain ⟨heq, hplain⟩ := hp
      exact .inr ⟨p.role, hrole, heq ▸ hrole', hplain⟩
    · intro hf
      rcases hf with hb | ⟨role, hr, hr', hplain⟩
      · exact absurd hb hu
      · have heq : p.role = role := Except.ok.inj (hrole.symm.trans hr)
        have heq' : p'.role = role := Except.ok.inj (hrole'.symm.trans hr')
        exact ⟨heq.trans heq'.symm, heq ▸ hplain⟩

/-! ## A player who asks to be an admin -/

namespace Impostor

/-- `ann` asking for a role. -/
def asking (role : String) : Json := .obj [("role", .str role), ("username", .str "ann")]

def world : World := World.sample [asking "admin", userJson "ann"]

def connected : Server := after world Server.init Env.quiet (.accept "10.0.0.1")

/-- `ann` with the role `role`. -/
def ann (role : String) : Player := ⟨1, "ann", role, "10.0.0.1", .loadingMods, false, false, []⟩

theorem reach_connected : Reach world anyStep connected := .step .init trivial (step_ends world _ _ rfl)

theorem accepted_admin :
    Accepted world Env.quiet connected 0 (authFrame (asking "admin")) (asking "admin") (ann "admin") := by
  refine ⟨1, utf8 (asking "admin").text, after world connected Env.quiet (.frame 0 (authFrame (asking "admin"))),
    ?_, rfl, step_after world _ _ ?_, ?_, ?_, ?_⟩ <;> decide

theorem accepted_player :
    Accepted world Env.quiet connected 0 (authFrame (userJson "ann")) (userJson "ann") (ann "player") := by
  refine ⟨1, utf8 (userJson "ann").text, after world connected Env.quiet (.frame 0 (authFrame (userJson "ann"))),
    ?_, rfl, step_after world _ _ ?_, ?_, ?_, ?_⟩ <;> decide

theorem same_credentials : SameCredentials (userJson "ann") (asking "admin") := ⟨rfl, rfl⟩

end Impostor

theorem role_chosen_ann : (("player" : String) = "player" ∧ Plain Impostor.world (userJson "ann") "player") ↔
    RoleFixed Impostor.world (userJson "ann") (userJson "ann") :=
  role_chosen Impostor.world Impostor.connected Env.quiet Env.quiet Impostor.accepted_player Impostor.accepted_player
    ⟨rfl, rfl⟩

/-- A request with a role of its own makes an admin of `ann`. -/
theorem role_not_fixed : ¬ ∀ (w : World) (s : Server) (x x' : Env) (object object' : Nat) (data data' : Bytes)
    (j j' : Json) (p p' : Player), Reach w anyStep s → Accepted w x s object data j p →
    Accepted w x' s object' data' j' p' → SameCredentials j j' → p.role = p'.role ∧ Plain w j p.role := by
  intro hall
  obtain ⟨heq, -⟩ := hall _ _ _ _ _ _ _ _ _ _ _ _ Impostor.reach_connected Impostor.accepted_player
    Impostor.accepted_admin Impostor.same_credentials
  exact absurd heq (by decide)

end NovaMP.GameServer
