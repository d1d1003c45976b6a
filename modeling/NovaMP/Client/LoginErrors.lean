/-
  NovaMP.Client.LoginErrors — logins that throw
  (`client/src/auth/nova_auth.cpp`, `client/src/compat/beammp_auth.cpp`).

  What comes from the auth server or the cache file is parsed inside a `try` block and
  read outside, member by member, and a member that is no object's or has another type
  throws. `main` catches nothing.

  - `readCache_ok_iff`: the cache file can be read exactly if the members that are looked
    at have their types (`ReadableFile`).
  - `authenticate_ok_iff`: a login returns exactly if the reply and, where it comes to
    that, the cache file can be read.
  - `login_returns_iff`: both classes; what is not accepted is then left to the cache file.
  - `cached_array_throws`: a cache file with `[]` in it.
-/

import NovaMP.Client.Auth

namespace NovaMP

open Lib

namespace Auth

/-! ## Data that can be read -/

variable (h : Host) (sch : Scheme) (x : Env)

/-- The record of the user in the cache file, if it is his, has a time and a lifetime that
    are numbers, and a token that is a text, if it is not too old. -/
def ReadableRecord (j : Json) : Prop :=
  j.Has "saved_at" Json.IsNum ∧ (sch.expires = true → j.Has "expires_in" Json.IsNum) ∧
    ∀ saved_at expires_in, j.valueInt64 h.trunc "saved_at" 0 = .ok saved_at → lifetime h sch j = .ok expires_in →
      (-2 ^ 63 ≤ x.now - saved_at ∧ x.now - saved_at < 2 ^ 63) ∧
        (x.now - saved_at ≤ expires_in → j.Has sch.cached Json.IsStr)

/-- The cache file is missing or no JSON, or an object with what is looked at as expected. -/
def ReadableFile (username : Bytes) (file : Option Bytes) : Prop :=
  ∀ j, file.bind h.parse = some j → j.Has "username" Json.IsStr ∧
    ∀ name, j.value "username" "" = .ok name → utf8 name = username → ReadableRecord h sch x j

/-- The reply is an object with what is looked at as expected. -/
def ReadableReply (j : Json) : Prop :=
  j.Has "success" Json.IsBool ∧
    (j.valueBool "success" false = .ok false → j.Has "message" Json.IsStr) ∧
    (Accepts j → j.Has sch.issued Json.IsStr ∧
      ∀ s, j.value sch.issued "" = .ok s → utf8 s ≠ [] → sch.expires = true → j.Has "expires_in" Json.IsNum)

/-- The server has accepted the login and sent a token. -/
def LogsIn (username password : Bytes) : Prop := ∃ token ≠ [], Issues h sch x username password token

/-- The reply, if it is JSON, can be read, and so can the cache file where the login is left
    to it. -/
def Readable (username password : Bytes) (file : Option Bytes) : Prop :=
  (∀ j, reply h sch x username password = .json j → ReadableReply sch j) ∧
    (¬ LogsIn h sch x username password → ReadableFile h sch x username file)

variable {h sch x} {username password : Bytes} {a : State} {j : Json}

theorem lifetime_ok_iff : (∃ n, lifetime h sch j = .ok n) ↔ (sch.expires = true → j.Has "expires_in" Json.IsNum) := by
  unfold lifetime
  split
  · rename_i hexp
    rw [Json.valueInt64_ok_iff]
    exact ⟨fun hnum _ => hnum, fun hall => hall hexp⟩
  · rename_i hexp
    exact iff_of_true ⟨_, rfl⟩ fun hexp' => absurd hexp' hexp

theorem age_eq_ok_iff {now saved_at since : Int} :
    age now saved_at = .ok since ↔ (-2 ^ 63 ≤ now - saved_at ∧ now - saved_at < 2 ^ 63) ∧ since = now - saved_at := by
  unfold age
  split
  · rename_i hrange
    rw [Except.ok.injEq, eq_comm]
    exact ⟨fun heq => ⟨hrange, heq⟩, fun heq => heq.2⟩
  · rename_i hrange
    exact iff_of_false nofun fun heq => hrange heq.1

/-- So do reads after an early return, unless it is taken. -/
theorem unless_returns_iff {ε α : Type} {c : Prop} [Decidable c] {a : α} {e : Except ε α} :
    (∃ b, (if c then pure a else e) = .ok b) ↔ (¬ c → ∃ b, e = .ok b) := by
  split
  · rename_i hc
    exact iff_of_true ⟨a, rfl⟩ fun hn => absurd hc hn
  · rename_i hc
    exact ⟨fun he _ => he, fun he => he hc⟩

theorem readCache_ok_iff {file : Option Bytes} :
    (∃ r, readCache h sch x username file = .ok r) ↔ ReadableFile h sch x username file := by
  unfold readCache ReadableFile
  cases file.bind h.parse with
  | none => exact iff_of_true ⟨none, rfl⟩ nofun
  | some j =>
    dsimp only
    simp only [bind_returns_iff, unless_returns_iff, mapError_eq_ok, Json.value_ok_iff_has, Json.valueInt64_ok_iff,
      lifetime_ok_iff, age_eq_ok_iff]
    constructor
    · rintro ⟨hname, hrecord⟩ j' hj
      cases hj
      refine ⟨hname, fun name hread hown => ?_⟩
      obtain ⟨hsaved, hrest⟩ := hrecord name hread (not_not.mpr hown)
      obtain ⟨saved_at, hsavedat⟩ := Json.valueInt64_ok_iff.mpr hsaved
      refine ⟨hsaved, (hrest saved_at hsavedat).1, fun saved_at expires_in hread hlife => ?_⟩
      obtain ⟨⟨since, hrange, -⟩, htoken⟩ := (hrest saved_at hread).2 expires_in hlife
      exact ⟨hrange, fun hle => (htoken _ ⟨hrange, rfl⟩ (not_lt.mpr hle)).1⟩
    · intro hall
      obtain ⟨hname, hrecord⟩ := hall j rfl
      refine ⟨hname, fun name hread hown => ?_⟩
      obtain ⟨hsaved, hexpires, hrest⟩ := hrecord name hread (not_not.mp hown)
      refine ⟨hsaved, fun saved_at hread => ⟨hexpires, fun expires_in hlife => ?_⟩⟩
      obtain ⟨hrange, htoken⟩ := hrest saved_at expires_in hread hlife
      refine ⟨⟨_, hrange, rfl⟩, ?_⟩
      rintro since ⟨-, rfl⟩ hnew
      exact ⟨htoken (not_lt.mp hnew), fun s _ => ⟨_, rfl⟩⟩

/-! ## Logins that return -/

theorem tryCache_ok_iff : (∃ b, (tryCache h sch x username a).1 = .ok b) ↔ ReadableFile h sch x username a.file := by
  rw [← readCache_ok_iff]
  unfold tryCache
  cases readCache h sch x username a.file with
  | error e => exact iff_of_false nofun nofun
  | ok found =>
    refine iff_of_true ?_ ⟨found, rfl⟩
    cases found with
    | none => exact ⟨false, rfl⟩
    | some token => exact ⟨!token.isEmpty, rfl⟩

/-- A reply without a token: the attempt fails if it can be read, and throws if not. -/
theorem accept_tokenless (ha : a.token = []) (hno : Accepts j → ∀ s, j.value sch.issued "" = .ok s → utf8 s = []) :
    (ReadableReply sch j ∧ accept h sch x username j a = (.ok false, a)) ∨
      (¬ ReadableReply sch j ∧ ∃ e, (accept h sch x username j a).1 = .error e) := by
  unfold accept
  cases hsuccess : j.valueBool "success" false with
  | error f =>
    refine .inr ⟨fun hread => ?_, _, rfl⟩
    obtain ⟨b, hb⟩ := Json.valueBool_ok_iff.mpr hread.1
    cases hsuccess.symm.trans hb
  | ok success =>
    have hbool : j.Has "success" Json.IsBool := Json.valueBool_ok_iff.mp ⟨success, hsuccess⟩
    cases success with
    | false =>
      have hnot : ¬ Accepts j := fun hacc => nomatch hsuccess.symm.trans hacc
      dsimp only
      cases hmessage : j.value "message" "unknown error" with
      | error f =>
        refine .inr ⟨fun hread => ?_, _, rfl⟩
        obtain ⟨text, htext⟩ := Json.value_ok_iff_has.mpr (hread.2.1 hsuccess)
        cases hmessage.symm.trans htext
      | ok text =>
        exact .inl ⟨⟨hbool, fun _ => Json.value_ok_iff_has.mp ⟨text, hmessage⟩, fun hacc => absurd hacc hnot⟩, rfl⟩
    | true =>
      have hfalse : j.valueBool "success" false ≠ .ok false := fun hf => nomatch hsuccess.symm.trans hf
      dsimp only
      cases hissued : j.value sch.issued "" with
      | error f =>
        refine .inr ⟨fun hread => ?_, _, rfl⟩
        obtain ⟨s, hs⟩ := Json.value_ok_iff_has.mpr (hread.2.2 hsuccess).1
        cases hissued.symm.trans hs
      | ok s =>
        have hempty := hno hsuccess s hissued
        refine .inl ⟨⟨hbool, fun hf => absurd hf hfalse, fun _ => ⟨Json.value_ok_iff_has.mp ⟨s, hissued⟩, ?_⟩⟩, ?_⟩
        · intro s' hs' hne
          cases hissued.symm.trans hs'
          exact absurd hempty hne
        · dsimp only
          rw [if_pos hempty, hempty, ← ha]

/-- A login that is not accepted with a token: it throws at a reply that cannot be read,
    and is left to the cache file otherwise. -/
theorem authenticate_tokenless_cases (hno : ¬ LogsIn h sch x username password) :
    ((∀ j, reply h sch x username password = .json j → ReadableReply sch j) ∧
      authenticate h sch x username password a =
        tryCache h sch x username { a with username := username, token := [] }) ∨
    ((∃ j, reply h sch x username password = .json j ∧ ¬ ReadableReply sch j) ∧
      ∃ e, (authenticate h sch x username password a).1 = .error e) := by
  cases hr : reply h sch x username password with
  | json j =>
    have hnone : Accepts j → ∀ s, j.value sch.issued "" = .ok s → utf8 s = [] := by
      intro hacc s hs
      by_contra hne
      exact hno ⟨_, hne, j, s, hr, hacc, hs, rfl⟩
    unfold authenticate tryLiveAuth
    rw [hr]
    rcases @accept_tokenless h sch x username { a with username := username, token := [] } j rfl hnone with
      ⟨hread, heq⟩ | ⟨hread, e, he⟩
    · refine .inl ⟨fun j' hj' => ?_, ?_⟩
      · cases hj'
        exact hread
      · dsimp only
        rw [heq]
    · refine .inr ⟨⟨j, rfl, hread⟩, e, ?_⟩
      dsimp only
      cases hcall : accept h sch x username j { a with username := username, token := [] } with
      | mk r b =>
        rw [hcall] at he
        obtain rfl : r = .error e := he
        rfl
  | unsent => exact .inl ⟨nofun, authenticate_unanswered (by simp [hr])⟩
  | unreachable => exact .inl ⟨nofun, authenticate_unanswered (by simp [hr])⟩
  | malformed => exact .inl ⟨nofun, authenticate_unanswered (by simp [hr])⟩

/-- A reply with a token, but a lifetime that cannot be read. -/
theorem authenticate_lifetime_error {s : String} {f : Fault} (hr : reply h sch x username password = .json j)
    (hj : Accepts j) (hissued : j.value sch.issued "" = .ok s) (hs : utf8 s ≠ []) (hlife : lifetime h sch j = .error f) :
    ∃ e, (authenticate h sch x username password a).1 = .error e := by
  have hexp : sch.expires = true := by
    by_contra hexp
    rw [lifetime, if_neg hexp] at hlife
    cases hlife
  unfold authenticate tryLiveAuth
  rw [hr]
  dsimp only [accept]
  rw [hj, hissued]
  dsimp only
  rw [if_neg hs, if_pos hexp, hlife]
  exact ⟨_, rfl⟩

/-- A login that is accepted with a token returns if the lifetime can be read. -/
theorem authenticate_token_ok_iff (hdirs : x.directories = true) (hin : LogsIn h sch x username password) :
    (∃ b, (authenticate h sch x username password a).1 = .ok b) ↔
      ∀ j, reply h sch x username password = .json j → ReadableReply sch j := by
  obtain ⟨token, hne, j, s, hr, hj, hissued, rfl⟩ := hin
  have hread : (∀ j', reply h sch x username password = .json j' → ReadableReply sch j') ↔
      ∃ n, lifetime h sch j = .ok n := by
    rw [lifetime_ok_iff]
    constructor
    · intro hall hexp
      exact ((hall j hr).2.2 hj).2 s hissued hne hexp
    · intro hexp j' hr'
      cases hr.symm.trans hr'
      refine ⟨Json.valueBool_ok_iff.mp ⟨true, hj⟩, fun hf => ?_, fun _ =>
        ⟨Json.value_ok_iff_has.mp ⟨s, hissued⟩, fun _ _ _ => hexp⟩⟩
      cases hj.symm.trans hf
  rw [hread]
  cases hlife : lifetime h sch j with
  | error f =>
    obtain ⟨e, he⟩ := authenticate_lifetime_error (a := a) hr hj hissued hne hlife
    rw [he]
    exact iff_of_false nofun nofun
  | ok n =>
    refine iff_of_true ⟨true, ?_⟩ ⟨n, rfl⟩
    exact (authenticate_issued (a := a) hr hj hissued hne).2.2.mpr ⟨⟨n, hlife⟩, hdirs⟩

theorem authenticate_ok_iff (hdirs : x.directories = true) :
    (∃ b, (authenticate h sch x username password a).1 = .ok b) ↔ Readable h sch x username password a.file := by
  by_cases hin : LogsIn h sch x username password
  · rw [authenticate_token_ok_iff hdirs hin]
    exact ⟨fun hall => ⟨hall, fun hno => absurd hin hno⟩, fun hread => hread.1⟩
  · rcases authenticate_tokenless_cases (a := a) hin with ⟨hall, heq⟩ | ⟨⟨j, hr, hbad⟩, e, he⟩
    · rw [heq, tryCache_ok_iff]
      exact ⟨fun hfile => ⟨hall, fun _ => hfile⟩, fun hread => hread.2 hin⟩
    · rw [he]
      exact iff_of_false nofun fun hread => hbad (hread.1 j hr)

/-! ## Both classes -/

variable (h sch x) (username password : Bytes) (a : State)

/-- A login returns a boolean, and if the server has not accepted it with a token, it is
    left to the cache file. -/
def LoginHandled : Prop :=
  (∃ b, (authenticate h sch x username password a).1 = .ok b) ∧
    (¬ LogsIn h sch x username password →
      authenticate h sch x username password a = tryCache h sch x username { a with username := username, token := [] })

def CacheHandled : Prop := ∃ b, (loadCached h sch x username a).1 = .ok b

theorem loginHandled_iff (hdirs : x.directories = true) :
    LoginHandled h sch x username password a ↔ Readable h sch x username password a.file := by
  rw [LoginHandled, authenticate_ok_iff hdirs]
  refine ⟨fun hh => hh.1, fun hread => ⟨hread, fun hno => ?_⟩⟩
  rcases authenticate_tokenless_cases (a := a) hno with ⟨-, heq⟩ | ⟨⟨j, hr, hbad⟩, -⟩
  · exact heq
  · exact absurd (hread.1 j hr) hbad

theorem cacheHandled_iff : CacheHandled h sch x username a ↔ ReadableFile h sch x username a.file :=
  tryCache_ok_iff (a := { a with username := username })

/-- For every reply and every cache file: the calls of both classes return, and a failed
    attempt is left to the cache file, exactly if the reply and the cache file are no JSON
    or objects with members of the expected types, as far as these are looked at. -/
theorem login_returns_iff (hdirs : x.directories = true) :
    ((LoginHandled h NovaAuth.scheme x username password a ↔ Readable h NovaAuth.scheme x username password a.file) ∧
      (CacheHandled h NovaAuth.scheme x username a ↔ ReadableFile h NovaAuth.scheme x username a.file)) ∧
    (LoginHandled h BeamMPAuth.scheme x username password a ↔ Readable h BeamMPAuth.scheme x username password a.file) ∧
      (CacheHandled h BeamMPAuth.scheme x username a ↔ ReadableFile h BeamMPAuth.scheme x username a.file) :=
  ⟨⟨loginHandled_iff h _ x username password a hdirs, cacheHandled_iff h _ x username a⟩,
    loginHandled_iff h _ x username password a hdirs, cacheHandled_iff h _ x username a⟩

/-! ## A cache file without a record -/

namespace Sample

/-- `[]` is an array, and nothing else is JSON. -/
def arrays : Host where
  parse data := if data = utf8 "[]" then some (.arr []) else none
  dump _ _ := []
  trunc _ := 0
  sha256 _ := []

/-- The server is out of reach. -/
def offline : Env := ⟨fun _ => none, 0, true, true⟩

def stored (file : Bytes) : State := ⟨[], [], some file⟩

theorem readable_empty : ReadableFile arrays NovaAuth.scheme offline (utf8 "ann") (stored []).file := by
  intro j hj
  cases hj

end Sample

theorem login_returns_empty : CacheHandled Sample.arrays NovaAuth.scheme Sample.offline (utf8 "ann") (Sample.stored []) :=
  (login_returns_iff Sample.arrays Sample.offline (utf8 "ann") [] (Sample.stored []) rfl).1.2.mpr Sample.readable_empty

/-- The cache file is `[]`. -/
theorem cached_array_throws : ¬ ∀ (h : Host) (x : Env) (username : Bytes) (a : State), x.directories = true →
    CacheHandled h NovaAuth.scheme x username a := by
  intro hall
  obtain ⟨b, hb⟩ := hall Sample.arrays Sample.offline (utf8 "ann") (Sample.stored (utf8 "[]")) rfl
  cases hb

end Auth

end NovaMP
