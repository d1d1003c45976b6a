/-
  NovaMP.Server.Requests — JSON requests that make a handler throw.

  `handleAuth` and `handleVehicleSpawn` catch what `json::parse` throws, but not what
  `value(key, default)` throws afterwards: the text must be an object (306), and a
  member that is there must be a string (302). The exception leaves the io thread.

  - `value_ok_iff`: `value` returns exactly on `HasText`.
  - `requests_answered_iff`: `handleAuth` ends with a reply, and `handleVehicleSpawn`
    ends with one more vehicle or none, exactly when the members they read are absent or
    strings; `handleAuth` must also not be asked to disconnect a session it would hang
    on, and a plugin's veto must be UTF-8, since it becomes a JSON string.
  - `array_throws`: an `AUTH_REQUEST` with the text `[]`.
-/

import NovaMP.Server.Locks

namespace NovaMP

open Lib Exec

namespace Json

/-- An object whose member `key` is absent or a string. -/
def HasText (j : Json) (key : String) : Prop :=
  ∃ members, j = .obj members ∧ ∀ v, members.lookup key = some v → ∃ t, v = .str t

theorem value_ok_iff (j : Json) (key dflt : String) : (∃ t, j.value key dflt = .ok t) ↔ j.HasText key := by
  cases j with
  | obj members =>
    simp only [value]
    cases hl : members.lookup key with
    | none => exact iff_of_true ⟨dflt, rfl⟩ ⟨members, rfl, fun v h => by rw [hl] at h; cases h⟩
    | some v =>
      cases v with
      | str t =>
        refine iff_of_true ⟨t, rfl⟩ ⟨members, rfl, fun v h => ?_⟩
        rw [hl] at h
        exact ⟨t, (Option.some.inj h).symm⟩
      | _ =>
        refine iff_of_false (fun ⟨_, h⟩ => nomatch h) ?_
        intro hex
        obtain ⟨ms, hms, hall⟩ := hex
        cases hms
        obtain ⟨t, ht⟩ := hall _ hl
        cases ht
  | _ =>
    refine iff_of_false (fun ⟨_, h⟩ => nomatch h) ?_
    intro hex
    obtain ⟨ms, hms, -⟩ := hex
    cases hms

end Json

namespace GameServer

variable (w : World) (x : Env) (s : Server)

/-! ## What a request asks for -/

/-- The checks before a player is registered pass. -/
def Admitted (username password : String) : Prop :=
  username ≠ aiBridge ∧ username ≠ "" ∧ ¬ (w.cfg.password ≠ "" ∧ password ≠ w.cfg.password) ∧
    ¬ w.cfg.maxPlayers ≤ (s.players.keys.length : Int)

/-- What `handleAuth` needs of a request that is JSON. -/
def AuthReadable (body : Bytes) : Prop :=
  ∀ j, w.parse body = some j → j.HasText "username" ∧ j.HasText "server_password" ∧
    ∀ username password, j.value "username" "" = .ok username → j.value "server_password" "" = .ok password →
      Admitted w s username password → j.HasText "role" ∧
        (refuses (vetoOf x s username) = true → ∃ error, Json.ofBytes (vetoOf x s username) = .ok error)

/-- What `handleVehicleSpawn` needs of a request that is JSON. -/
def SpawnReadable (pid : UInt16) (body : Bytes) : Prop :=
  ∀ j p, w.parse body = some j → s.players.lookup pid = some p →
    (p.vehicles.length : Int) < w.cfg.vehicleLimitPerPlayer → j.HasText "model"

/-! ## What it should come to -/

/-- Among what a call sent there is this reply to the session. -/
def Replied (t : Server) (sid : UInt16) (reply : Json) : Prop :=
  ∃ new, t.sent = s.sent ++ new ∧ .tcp sid (s.tcp.sessions.lookup sid) (authResponse w reply) ∈ new

def AuthAnswered (sid : UInt16) (r : Except (Stop Mutex Fault) Unit × Server) : Prop :=
  r.1 = .ok () ∧
    ((∃ pid, r.2.sessionToPlayer.lookup sid = some pid ∧ pid ∈ r.2.players ∧ Replied w s r.2 sid (okTrue w pid)) ∨
      ∃ error, Replied w s r.2 sid (okFalse error))

/-- Nothing changed, or one vehicle more. -/
def SpawnAnswered (pid : UInt16) (r : Except (Stop Mutex Fault) Unit × Server) : Prop :=
  r.1 = .ok () ∧
    (r.2 = s ∨ ∃ p v sent fired, s.players.lookup pid = some p ∧
      r.2 = { s with players := s.players.put pid { p with vehicles := p.vehicles ++ [v] }, sent, fired })

/-! ## Authentication -/

/-- What is left to decide once both members are read. -/
theorem authBranch_of_read {body : Bytes} {j : Json} {username password : String} (hp : w.parse body = some j)
    (hu : j.value "username" "" = .ok username) (hs : j.value "server_password" "" = .ok password) :
    (¬ Admitted w s username password ∧
      (authBranch w s body = .bridge ∨ ∃ error drop, authBranch w s body = .refused error drop)) ∨
    (Admitted w s username password ∧
      authBranch w s body = match j.value "role" "player" with
        | .error e => .badRole e
        | .ok role => .player username role) := by
  simp only [authBranch, hp, hu, hs]
  by_cases h1 : username = aiBridge
  · rw [if_pos h1]
    refine .inl ⟨fun h => h.1 h1, ?_⟩
    split
    · exact .inr ⟨_, _, rfl⟩
    · exact .inl rfl
  rw [if_neg h1]
  by_cases h2 : username = ""
  · rw [if_pos h2]
    exact .inl ⟨fun h => h.2.1 h2, .inr ⟨_, _, rfl⟩⟩
  rw [if_neg h2]
  by_cases h3 : w.cfg.password ≠ "" ∧ password ≠ w.cfg.password
  · rw [if_pos h3]
    exact .inl ⟨fun h => h.2.2.1 h3, .inr ⟨_, _, rfl⟩⟩
  rw [if_neg h3]
  by_cases h4 : w.cfg.maxPlayers ≤ (s.players.keys.length : Int)
  · rw [if_pos h4]
    exact .inl ⟨fun h => h.2.2.2 h4, .inr ⟨_, _, rfl⟩⟩
  rw [if_neg h4]
  exact .inr ⟨⟨h1, h2, h3, h4⟩, rfl⟩

theorem not_hasText {j : Json} {key dflt : String} {e : Fault} (h : j.value key dflt = .error e) : ¬ j.HasText key := by
  intro ht
  obtain ⟨t, hv⟩ := (Json.value_ok_iff j key dflt).mpr ht
  rw [h] at hv
  cases hv

/-- `AuthReadable` by the branch a request takes. -/
theorem authReadable_iff (body : Bytes) : AuthReadable w x s body ↔
    match authBranch w s body with
    | .throws _ | .badRole _ => False
    | .player username _ =>
      refuses (vetoOf x s username) = true → ∃ error, Json.ofBytes (vetoOf x s username) = .ok error
    | _ => True := by
  unfold AuthReadable
  cases hp : w.parse body with
  | none =>
    have hb : authBranch w s body = .refused "Invalid JSON" false := by simp only [authBranch, hp]
    rw [hb]
    exact iff_of_true (fun j h => nomatch h) trivial
  | some j =>
    cases hu : j.value "username" "" with
    | error e =>
      have hb : authBranch w s body = .throws e := by simp only [authBranch, hp, hu]
      rw [hb]
      exact iff_of_false (fun h => not_hasText hu (h j rfl).1) (fun h => h)
    | ok username =>
      cases hs : j.value "server_password" "" with
      | error e =>
        have hb : authBranch w s body = .throws e := by simp only [authBranch, hp, hu, hs]
        rw [hb]
        exact iff_of_false (fun h => not_hasText hs (h j rfl).2.1) (fun h => h)
      | ok password =>
        have hut := (Json.value_ok_iff j _ "").mp ⟨username, hu⟩
        have hst := (Json.value_ok_iff j _ "").mp ⟨password, hs⟩
        rcases authBranch_of_read w s hp hu hs with ⟨hn, hb⟩ | ⟨ha, hb⟩
        · -- A request that is not admitted needs nothing more.
          refine iff_of_true ?_ ?_
          · intro j' hj
            cases hj
            refine ⟨hut, hst, fun u q hu' hq' ha => absurd ha ?_⟩
            rw [hu] at hu'
            rw [hs] at hq'
            cases hu'
            cases hq'
            exact hn
          · rcases hb with hb | ⟨error, drop, hb⟩ <;> rw [hb] <;> trivial
        · rw [hb]
          cases hr : j.value "role" "player" with
          | error e =>
            exact iff_of_false (fun h => not_hasText hr ((h j rfl).2.2 username password hu hs ha).1) (fun h => h)
          | ok role =>
            constructor
            · intro h
              exact ((h j rfl).2.2 username password hu hs ha).2
            · intro h j' hj
              cases hj
              refine ⟨hut, hst, fun u q hu' hq' _ => ⟨(Json.value_ok_iff j _ "player").mp ⟨role, hr⟩, ?_⟩⟩
              rw [hu] at hu'
              cases hu'
              exact h

theorem dropped_of_notMem {t : Server} {sid : UInt16} (h : sid ∉ t.tcp.sessions) : dropped t sid = (.ok (), t) := by
  simp only [dropped, AList.lookup_eq_none.mpr h]

theorem dropped_of_mem {t : Server} {sid : UInt16} (h : sid ∈ t.tcp.sessions) : (dropped t sid).1 ≠ .ok () := by
  obtain ⟨l, hl⟩ := (dropped_hangs_iff t sid).mpr h
  rw [hl]
  exact fun h => nomatch h

/-- Whatever a request is refused for, the reply goes out before the session is dropped. -/
theorem refused_answered_iff (t : Server) (sid : UInt16) (error : Json) (htcp : t.tcp = s.tcp) (hsent : t.sent = s.sent) :
    AuthAnswered w s sid (dropped (t.log (t.toSession sid (authResponse w (okFalse error)))) sid) ↔
      sid ∉ s.tcp.sessions := by
  by_cases h : sid ∈ s.tcp.sessions
  · refine iff_of_false (fun ha => ?_) (fun hn => hn h)
    exact dropped_of_mem (by rw [Server.log_tcp, htcp]; exact h) ha.1
  · rw [dropped_of_notMem (by rw [Server.log_tcp, htcp]; exact h)]
    refine iff_of_true ⟨rfl, .inr ⟨error, _, by rw [Server.log_sent, hsent], ?_⟩⟩ h
    rw [Server.toSession, htcp]
    exact List.mem_singleton.mpr rfl

theorem auth_answered_iff (sid : UInt16) (body : Bytes) :
    AuthAnswered w s sid (authOutcome w x s sid (authBranch w s body)) ↔
      AuthReadable w x s body ∧ ¬ (Disconnects w x s body ∧ sid ∈ s.tcp.sessions) := by
  rw [authReadable_iff]
  unfold Disconnects
  cases authBranch w s body with
  | throws e => exact iff_of_false (fun h => nomatch h.1) (fun h => h.1)
  | badRole e => exact iff_of_false (fun h => nomatch h.1) (fun h => h.1)
  | refused error drop =>
    cases drop with
    | false =>
      refine iff_of_true ⟨rfl, .inr ⟨.str error, _, rfl, ?_⟩⟩ ⟨trivial, fun h => nomatch h.1⟩
      exact List.mem_singleton.mpr rfl
    | true =>
      refine (refused_answered_iff w s s sid (.str error) rfl rfl).trans ?_
      exact ⟨fun h => ⟨trivial, fun h' => h h'.2⟩, fun h h' => h.2 ⟨rfl, h'⟩⟩
  | bridge =>
    refine iff_of_true ⟨rfl, .inl ⟨freshId s, ?_, ?_, ?_⟩⟩ ⟨trivial, fun h => h.1⟩
    · exact AList.lookup_insert _
    · exact (AList.mem_insert _).mpr (.inl rfl)
    · refine ⟨_, List.append_assoc _ _ _, ?_⟩
      exact List.mem_append_left _ (List.mem_singleton.mpr rfl)
  | player username role =>
    simp only [authOutcome]
    by_cases hv : refuses (vetoOf x s username) = true
    · rw [if_pos hv]
      cases hj : Json.ofBytes (vetoOf x s username) with
      | error e =>
        refine iff_of_false (fun h => ?_) (fun h => ?_)
        · cases h.1
        · obtain ⟨error, he⟩ := h.1 hv
          cases he
      | ok error =>
        refine (refused_answered_iff w s _ sid error ?_ ?_).trans ?_
        · rfl
        · rfl
        · exact ⟨fun h => ⟨fun _ => ⟨error, rfl⟩, fun h' => h h'.2⟩, fun h h' => h.2 ⟨⟨hv, error, rfl⟩, h'⟩⟩
    · rw [if_neg hv]
      refine iff_of_true ⟨rfl, .inl ⟨freshId s, ?_, ?_, ?_⟩⟩ ⟨fun h => absurd h hv, fun h => hv h.1.1⟩
      · exact AList.lookup_insert _
      · exact (AList.mem_insert _).mpr (.inl rfl)
      · refine ⟨_, List.append_assoc _ _ _, ?_⟩
        exact List.mem_append_left _ (List.mem_singleton.mpr rfl)

/-! ## Spawning a vehicle -/

theorem spawn_answered_iff (pid : UInt16) (body : Bytes) :
    SpawnAnswered s pid (spawnOutcome w s pid body) ↔ SpawnReadable w s pid body := by
  unfold SpawnReadable spawnOutcome
  cases hp : w.parse body with
  | none => exact iff_of_true ⟨rfl, .inl rfl⟩ (fun j p h => nomatch h)
  | some j =>
    cases hl : s.players.lookup pid with
    | none => exact iff_of_true ⟨rfl, .inl rfl⟩ (fun j p _ h => nomatch h)
    | some p =>
      dsimp only
      by_cases hlim : w.cfg.vehicleLimitPerPlayer ≤ (p.vehicles.length : Int)
      · rw [if_pos hlim]
        refine iff_of_true ⟨rfl, .inl rfl⟩ ?_
        intro j' p' _ hp' hlt
        cases hp'
        omega
      · rw [if_neg hlim]
        cases hm : j.value "model" "etk800" with
        | error e =>
          exact iff_of_false (fun h => nomatch h.1) (fun h => not_hasText hm (h j p rfl rfl (by omega)))
        | ok model =>
          refine iff_of_true ⟨rfl, .inr ⟨p, newVehicle w p j model, _, _, hl, rfl⟩⟩ ?_
          intro j' p' hj _ _
          cases hj
          exact (Json.value_ok_iff j "model" "etk800").mp ⟨model, hm⟩

/-! ## Both handlers -/

/-- A request whose payload was received whole is answered exactly when the members it
    needs are absent or strings, and `handleAuth` does not hang on disconnecting. -/
theorem requests_answered_iff (w : World) (x : Env) (s : Server) (payload : Bytes) (len : UInt16)
    (h : payload.length = len.toNat) :
    (∀ sid, AuthAnswered w s sid (handleAuth w x sid payload len [] s) ↔
      AuthReadable w x s payload ∧ ¬ (Disconnects w x s payload ∧ sid ∈ s.tcp.sessions)) ∧
    (∀ pid, SpawnAnswered s pid (handleVehicleSpawn w x pid payload len [] s) ↔ SpawnReadable w s pid payload) := by
  have hread : readBytes payload len.toNat = .ok payload := by
    rw [← h, readBytes_of_le (Nat.le_refl _), List.take_length]
  constructor
  · intro sid
    rw [handleAuth_eq, hread]
    exact auth_answered_iff w x s sid payload
  · intro pid
    rw [handleVehicleSpawn_eq, hread]
    exact spawn_answered_iff w s pid payload

theorem requests_answered_ann :
    (utf8 (userJson "ann").text).length = (18 : UInt16).toNat ∧
    (∀ sid, AuthAnswered Sample.world Sample.connected sid
        (handleAuth Sample.world Env.quiet sid (utf8 (userJson "ann").text) 18 [] Sample.connected) ↔
      AuthReadable Sample.world Env.quiet Sample.connected (utf8 (userJson "ann").text) ∧
        ¬ (Disconnects Sample.world Env.quiet Sample.connected (utf8 (userJson "ann").text) ∧
          sid ∈ Sample.connected.tcp.sessions)) := by
  have h : (utf8 (userJson "ann").text).length = (18 : UInt16).toNat := by decide
  exact ⟨h, (requests_answered_iff Sample.world Env.quiet Sample.connected _ 18 h).1⟩

/-- A server whose `parse` knows the text `[]`. -/
def arrayWorld : World := World.sample [.arr []]

theorem array_throws : ¬ ∀ (w : World) (x : Env) (s : Server) (payload : Bytes) (len : UInt16),
    payload.length = len.toNat →
      (∀ sid, AuthAnswered w s sid (handleAuth w x sid payload len [] s)) ∧
      (∀ pid, SpawnAnswered s pid (handleVehicleSpawn w x pid payload len [] s)) := by
  intro h
  have hok := ((h arrayWorld Env.quiet Server.init (utf8 "[]") 2 (by decide)).1 1).1
  have hthrow : (handleAuth arrayWorld Env.quiet 1 (utf8 "[]") 2 [] Server.init).1 = .error (.fault (.typeError 306)) := by
    decide
  rw [hthrow] at hok
  cases hok

end GameServer

end NovaMP
