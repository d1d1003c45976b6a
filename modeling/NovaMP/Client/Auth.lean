/-
  NovaMP.Client.Auth — logging in from the client
  (`client/src/auth/nova_auth.cpp`, `client/src/compat/beammp_auth.cpp`).

  `NovaAuth` and `BeamMPAuth` are one program with other names and numbers: `authenticate`
  asks the auth server and, if that comes to nothing, the cache file; `loadCached` asks
  the cache file alone. `tryLiveAuth` returns `false` whether the server is out of reach,
  answers with something else or has rejected the login, and only `authenticate` clears
  the old token before it sets the name.

  - `tryCache_cases`: what `tryCache` does, from the record in the cache file.
  - `authenticate_unanswered`, `authenticate_denied`, `authenticate_tokenless`,
    `authenticate_issued`: what `authenticate` does, from the reply of the server.
-/

import NovaMP.Network.Members

namespace NovaMP

open Lib

namespace Auth

/-! ## What a login meets -/

/-- The libraries: `json::parse` (`none` throws), `dump(indent)`, the conversion of a
    `double` to `int64_t`, and `SHA256`. -/
structure Host where
  parse : Bytes → Option Json
  dump : Int → Json → Bytes
  trunc : UInt64 → Int
  sha256 : Bytes → Bytes

/-- One call: what `httpPost` returns for a body (`none` throws), the time in seconds,
    and whether the directories of the cache file can be created and the file written. -/
structure Env where
  httpPost : Bytes → Option Bytes
  now : Int
  directories : Bool
  writable : Bool

/-- What can be thrown out of a call; that the difference of two times is no `int64_t` is
    undefined behaviour. -/
inductive Thrown where
  | json (f : Fault)
  | filesystem
  | overflow

/-- What the two classes differ in: the members of the reply and of the cache file that
    hold the token, how long a cached token is good, whether replies and records tell
    that themselves, and how the password is sent. -/
structure Scheme where
  issued : String
  cached : String
  ttl : Int
  expires : Bool
  secret : Host → Bytes → Except Fault Json

/-- `m_username`, `m_token` or `m_private_key`, and the contents of the cache file. -/
structure State where
  username : Bytes
  token : Bytes
  file : Option Bytes

abbrev Result (α : Type) := Except Thrown α × State

def isLoggedIn (a : State) : Bool := !a.token.isEmpty

/-! ## The cache file -/

variable (h : Host) (sch : Scheme) (x : Env)

def record (username token : Bytes) (expires_in : Int) : Except Fault Json := do
  let username ← Json.ofBytes username
  let token ← Json.ofBytes token
  pure (.obj (if sch.expires
    then [("expires_in", .int expires_in), ("saved_at", .int x.now), (sch.cached, token), ("username", username)]
    else [(sch.cached, token), ("saved_at", .int x.now), ("username", username)]))

def saveCache (username token : Bytes) (expires_in : Int) (a : State) : Result Unit :=
  if !x.directories then (.error .filesystem, a)
  else if !x.writable then (.ok (), a)
  else
    match record sch x username token expires_in with
    | .error f => (.error (.json f), { a with file := some [] })
    | .ok j => (.ok (), { a with file := some (h.dump 2 j) })

/-- The lifetime of a token, which is in `j` if the scheme has it there. -/
def lifetime (j : Json) : Except Fault Int :=
  if sch.expires then j.valueInt64 h.trunc "expires_in" sch.ttl else .ok sch.ttl

/-- `now - saved_at` -/
def age (now saved_at : Int) : Except Thrown Int :=
  if -2 ^ 63 ≤ now - saved_at ∧ now - saved_at < 2 ^ 63 then .ok (now - saved_at) else .error .overflow

/-- The token that `tryCache` comes to, if it does. -/
def readCache (username : Bytes) (file : Option Bytes) : Except Thrown (Option Bytes) := do
  match file.bind h.parse with
  | none => pure none
  | some j =>
    let name ← (j.value "username" "").mapError .json
    if utf8 name ≠ username then pure none
    else
      let saved_at ← (j.valueInt64 h.trunc "saved_at" 0).mapError .json
      let expires_in ← (lifetime h sch j).mapError .json
      let since ← age x.now saved_at
      if since > expires_in then pure none
      else
        let token ← (j.value sch.cached "").mapError .json
        pure (some (utf8 token))

def tryCache (username : Bytes) (a : State) : Result Bool :=
  match readCache h sch x username a.file with
  | .error e => (.error e, a)
  | .ok none => (.ok false, a)
  | .ok (some token) => (.ok !token.isEmpty, { a with token := token })

/-! ## The auth server -/

def request (username password : Bytes) : Except Fault Bytes := do
  let username ← Json.ofBytes username
  let password ← sch.secret h password
  pure (h.dump (-1) (.obj [("password", password), ("username", username)]))

/-- After the two `try` blocks: no request could be made of the login, the server was not
    reached (it threw or the reply is empty), the reply is no JSON, or it is. -/
inductive Reply where
  | unsent
  | unreachable
  | malformed
  | json (j : Json)

def reply (username password : Bytes) : Reply :=
  match request h sch username password with
  | .error _ => .unsent
  | .ok body =>
    match x.httpPost body with
    | none => .unreachable
    | some response =>
      if response = [] then .unreachable
      else
        match h.parse response with
        | none => .malformed
        | some j => .json j

/-- `return true` after a call. -/
def returnTrue : Result Unit → Result Bool
  | (.error e, a) => (.error e, a)
  | (.ok _, a) => (.ok true, a)

/-- The rest of `tryLiveAuth`. `NovaAuth` stores the token in it. -/
def accept (username : Bytes) (j : Json) (a : State) : Result Bool :=
  match j.valueBool "success" false with
  | .error f => (.error (.json f), a)
  | .ok false =>
    match j.value "message" "unknown error" with
    | .error f => (.error (.json f), a)
    | .ok _ => (.ok false, a)
  | .ok true =>
    match j.value sch.issued "" with
    | .error f => (.error (.json f), a)
    | .ok token =>
      let a := { a with token := utf8 token }
      if utf8 token = [] then (.ok false, a)
      else if sch.expires then
        match lifetime h sch j with
        | .error f => (.error (.json f), a)
        | .ok expires_in => returnTrue (saveCache h sch x username (utf8 token) expires_in a)
      else (.ok true, a)

def tryLiveAuth (username password : Bytes) (a : State) : Result Bool :=
  match reply h sch x username password with
  | .unsent => (.ok false, a)
  | .unreachable => (.ok false, a)
  | .malformed => (.ok false, a)
  | .json j => accept h sch x username j a

/-! ## The public operations -/

/-- `BeamMPAuth` stores the token here. -/
def authenticate (username password : Bytes) (a : State) : Result Bool :=
  let a := { a with username := username, token := [] }
  match tryLiveAuth h sch x username password a with
  | (.error e, a) => (.error e, a)
  | (.ok true, a) =>
    if sch.expires then (.ok true, a) else returnTrue (saveCache h sch x username a.token sch.ttl a)
  | (.ok false, a) => tryCache h sch x username a

def loadCached (username : Bytes) (a : State) : Result Bool :=
  tryCache h sch x username { a with username := username }

/-- `removes` tells whether `fs::exists` and `fs::remove` go well. -/
def clearCache (removes : Bool) (a : State) : Result Unit :=
  if removes then (.ok (), { a with file := none, token := [] }) else (.error .filesystem, a)

/-! ## Records and replies -/

/-- The JSON is a record of a user and his token. -/
structure Record (j : Json) (username token : Bytes) : Prop where
  name : ∃ s, j.value "username" "" = .ok s ∧ utf8 s = username
  token : ∃ s, j.value sch.cached "" = .ok s ∧ utf8 s = token

/-- Its age is within its lifetime. -/
def Fresh (j : Json) : Prop :=
  ∃ saved_at expires_in since, j.valueInt64 h.trunc "saved_at" 0 = .ok saved_at ∧ lifetime h sch j = .ok expires_in ∧
    age x.now saved_at = .ok since ∧ since ≤ expires_in

/-- The cache file has a record of the user that has not expired, with this token. -/
def Usable (username : Bytes) (file : Option Bytes) (token : Bytes) : Prop :=
  ∃ j, file.bind h.parse = some j ∧ Record sch j username token ∧ Fresh h sch x j

/-- The reply says that the login is right. -/
def Accepts (j : Json) : Prop := j.valueBool "success" false = .ok true

/-- The reply says that it is wrong. -/
def Rejects (j : Json) : Prop := ∃ members, j = .obj members ∧ members.lookup "success" = some (.bool false)

/-- The server has accepted the login and sent the token. -/
def Issues (username password token : Bytes) : Prop :=
  ∃ j s, reply h sch x username password = .json j ∧ Accepts j ∧ j.value sch.issued "" = .ok s ∧ utf8 s = token

variable {h sch x} {username password token : Bytes} {j : Json} {a : State}

theorem mapError_eq_ok {α β : Type} {e : Except α β} {f : α → Thrown} {b : β} : e.mapError f = .ok b ↔ e = .ok b := by
  cases e <;> simp [Except.mapError]

theorem Rejects.success (hj : Rejects j) : j.valueBool "success" false = .ok false := by
  obtain ⟨members, rfl, hfalse⟩ := hj
  simp [Json.valueBool, Json.member, hfalse, Json.getBool, bind, Except.bind]

/-- `readCache` comes to a token exactly if the file has a usable record with it. -/
theorem readCache_eq_some_iff {file : Option Bytes} :
    readCache h sch x username file = .ok (some token) ↔ Usable h sch x username file token := by
  unfold readCache Usable
  cases file.bind h.parse with
  | none => simp [pure, Except.pure]
  | some j =>
    constructor
    · intro hread
      obtain ⟨name, hname, hrest⟩ := bind_eq_ok.mp hread
      by_cases hsame : utf8 name = username
      · rw [if_neg (not_not.mpr hsame)] at hrest
        obtain ⟨saved_at, hsaved, hrest⟩ := bind_eq_ok.mp hrest
        obtain ⟨expires_in, hexpires, hrest⟩ := bind_eq_ok.mp hrest
        obtain ⟨since, hsince, hrest⟩ := bind_eq_ok.mp hrest
        by_cases hage : since > expires_in
        · rw [if_pos hage] at hrest
          cases hrest
        · rw [if_neg hage] at hrest
          obtain ⟨s, hs, htoken⟩ := bind_eq_ok.mp hrest
          cases htoken
          exact ⟨j, rfl, ⟨⟨name, mapError_eq_ok.mp hname, hsame⟩, ⟨s, mapError_eq_ok.mp hs, rfl⟩⟩, saved_at, expires_in,
            since, mapError_eq_ok.mp hsaved, mapError_eq_ok.mp hexpires, hsince, not_lt.mp hage⟩
      · rw [if_pos hsame] at hrest
        cases hrest
    · rintro ⟨j', hj, ⟨⟨name, hname, hsame⟩, ⟨s, hs, rfl⟩⟩, saved_at, expires_in, since, hsaved, hexpires, hsince, hage⟩
      cases hj
      refine bind_eq_ok.mpr ⟨name, mapError_eq_ok.mpr hname, ?_⟩
      rw [if_neg (not_not.mpr hsame)]
      refine bind_eq_ok.mpr ⟨saved_at, mapError_eq_ok.mpr hsaved, ?_⟩
      refine bind_eq_ok.mpr ⟨expires_in, mapError_eq_ok.mpr hexpires, ?_⟩
      refine bind_eq_ok.mpr ⟨since, hsince, ?_⟩
      rw [if_neg (not_lt.mpr hage)]
      exact bind_eq_ok.mpr ⟨s, mapError_eq_ok.mpr hs, rfl⟩

/-! ## The attempts -/

/-- `tryCache` throws, finds nothing, or takes the token of the record. -/
theorem tryCache_cases (h : Host) (sch : Scheme) (x : Env) (username : Bytes) (a : State) :
    (∃ e, readCache h sch x username a.file = .error e ∧ tryCache h sch x username a = (.error e, a)) ∨
      ((∀ t, ¬ Usable h sch x username a.file t) ∧ (∀ e, readCache h sch x username a.file ≠ .error e) ∧
        tryCache h sch x username a = (.ok false, a)) ∨
      ∃ t, Usable h sch x username a.file t ∧ readCache h sch x username a.file = .ok (some t) ∧
        tryCache h sch x username a = (.ok !t.isEmpty, { a with token := t }) := by
  unfold tryCache
  cases hread : readCache h sch x username a.file with
  | error e => exact .inl ⟨e, rfl, rfl⟩
  | ok found =>
    cases found with
    | none =>
      refine .inr (.inl ⟨fun t ht => ?_, nofun, rfl⟩)
      rw [readCache_eq_some_iff.mpr ht] at hread
      cases hread
    | some t => exact .inr (.inr ⟨t, readCache_eq_some_iff.mp hread, rfl, rfl⟩)

/-- There is one usable token at most. -/
theorem Usable.unique {file : Option Bytes} {t t' : Bytes} (ht : Usable h sch x username file t)
    (ht' : Usable h sch x username file t') : t = t' := by
  rw [← readCache_eq_some_iff] at ht ht'
  rw [ht] at ht'
  exact Option.some.inj (Except.ok.inj ht')

theorem ofBytes_utf8 (s : String) : Json.ofBytes (utf8 s) = .ok (.str s) := by
  have hbytes : (⟨(utf8 s).toArray⟩ : ByteArray) = s.toByteArray := by
    simp [utf8]
  rw [Json.ofBytes, hbytes, String.fromUTF8?, dif_pos s.isValidUTF8]
  rfl

variable (sch) in
/-- A name that has been sent can be stored, so only the directories matter; the file is
    all that changes. -/
theorem saveCache_spec {s : String} {name : Json} (hname : Json.ofBytes username = .ok name) (expires_in : Int) :
    (∃ file, x.directories = true ∧
      saveCache h sch x username (utf8 s) expires_in a = (.ok (), { a with file := file })) ∨
    ∃ file e, x.directories = false ∧
      saveCache h sch x username (utf8 s) expires_in a = (.error e, { a with file := file }) := by
  have hrecord : ∃ j, record sch x username (utf8 s) expires_in = .ok j := by
    rw [record, hname, ofBytes_utf8]
    exact ⟨_, rfl⟩
  obtain ⟨j, hj⟩ := hrecord
  unfold saveCache
  cases x.directories with
  | false => exact .inr ⟨a.file, _, rfl, rfl⟩
  | true =>
    rw [hj]
    cases x.writable with
    | false => exact .inl ⟨a.file, rfl, rfl⟩
    | true => exact .inl ⟨_, rfl, rfl⟩

/-- What has been answered was sent. -/
theorem ofBytes_of_reply (hr : reply h sch x username password = .json j) :
    ∃ name, Json.ofBytes username = .ok name := by
  unfold reply at hr
  cases hreq : request h sch username password with
  | error f =>
    rw [hreq] at hr
    cases hr
  | ok body =>
    obtain ⟨name, hname, -⟩ := bind_eq_ok.mp hreq
    exact ⟨name, hname⟩

/-- `authenticate` for a login that is not answered. -/
theorem authenticate_unanswered (hr : ∀ j, reply h sch x username password ≠ .json j) :
    authenticate h sch x username password a =
      tryCache h sch x username { a with username := username, token := [] } := by
  unfold authenticate tryLiveAuth
  cases hreply : reply h sch x username password with
  | json j => exact absurd hreply (hr j)
  | unsent => rfl
  | unreachable => rfl
  | malformed => rfl

/-- A reply without the token: an exception, or the cache file. -/
theorem authenticate_denied (hr : reply h sch x username password = .json j) (hj : ¬ Accepts j) :
    (∃ e, authenticate h sch x username password a = (.error e, { a with username := username, token := [] })) ∧
        (j.valueBool "success" false = .ok false → ∀ text, j.value "message" "unknown error" ≠ .ok text) ∨
      j.valueBool "success" false = .ok false ∧ (∃ text, j.value "message" "unknown error" = .ok text) ∧
        authenticate h sch x username password a =
          tryCache h sch x username { a with username := username, token := [] } := by
  unfold authenticate tryLiveAuth
  rw [hr]
  dsimp only [accept]
  cases hsuccess : j.valueBool "success" false with
  | error f => exact .inl ⟨⟨_, rfl⟩, nofun⟩
  | ok success =>
    cases success with
    | true => exact absurd hsuccess hj
    | false =>
      cases hmessage : j.value "message" "unknown error" with
      | error f => exact .inl ⟨⟨_, rfl⟩, fun _ => nofun⟩
      | ok text => exact .inr ⟨rfl, ⟨text, rfl⟩, rfl⟩

/-- A reply that accepts the login but has no token: an exception, or the cache file. -/
theorem authenticate_tokenless (hr : reply h sch x username password = .json j) (hj : Accepts j)
    (hno : ∀ s, j.value sch.issued "" = .ok s → utf8 s = []) :
    (∃ e, authenticate h sch x username password a = (.error e, { a with username := username, token := [] })) ∨
      authenticate h sch x username password a =
        tryCache h sch x username { a with username := username, token := [] } := by
  unfold authenticate tryLiveAuth
  rw [hr]
  dsimp only [accept]
  rw [hj]
  dsimp only
  cases hissued : j.value sch.issued "" with
  | error f => exact .inl ⟨_, rfl⟩
  | ok s =>
    dsimp only
    rw [if_pos (hno s hissued), hno s hissued]
    exact .inr rfl

/-- A reply with a token: it is the token from then on. The call returns if the lifetime
    can be read and the cache file has its directories. -/
theorem authenticate_issued {s : String} (hr : reply h sch x username password = .json j) (hj : Accepts j)
    (hissued : j.value sch.issued "" = .ok s) (hs : utf8 s ≠ []) :
    (authenticate h sch x username password a).2.username = username ∧
      (authenticate h sch x username password a).2.token = utf8 s ∧
      ((authenticate h sch x username password a).1 = .ok true ↔
        (∃ expires_in, lifetime h sch j = .ok expires_in) ∧ x.directories = true) := by
  obtain ⟨name, hname⟩ := ofBytes_of_reply hr
  have hsave := fun expires_in =>
    saveCache_spec (h := h) sch (x := x) (s := s) (a := { a with username := username, token := utf8 s }) hname expires_in
  unfold authenticate tryLiveAuth
  rw [hr]
  dsimp only [accept]
  rw [hj, hissued]
  dsimp only
  rw [if_neg hs]
  cases hexp : sch.expires with
  | true =>
    rw [if_pos rfl]
    cases hlife : lifetime h sch j with
    | error f => exact ⟨rfl, rfl, by simp⟩
    | ok expires_in =>
      dsimp only
      obtain ⟨file, hdirs, hsaved⟩ | ⟨file, e, hdirs, hsaved⟩ := hsave expires_in
      · rw [hsaved]
        exact ⟨rfl, rfl, by simp [returnTrue, hdirs]⟩
      · rw [hsaved]
        exact ⟨rfl, rfl, by simp [returnTrue, hdirs]⟩
  | false =>
    have hlife : lifetime h sch j = .ok sch.ttl := by
      simp [lifetime, hexp]
    rw [if_neg Bool.false_ne_true]
    dsimp only
    rw [if_neg Bool.false_ne_true]
    obtain ⟨file, hdirs, hsaved⟩ | ⟨file, e, hdirs, hsaved⟩ := hsave sch.ttl
    · rw [hsaved]
      exact ⟨rfl, rfl, by simp [returnTrue, hdirs, hlife]⟩
    · rw [hsaved]
      exact ⟨rfl, rfl, by simp [returnTrue, hdirs]⟩

end Auth

/-! ## The two classes -/

namespace NovaAuth

def CACHE_TTL_SECS : Int := 30 * 24 * 3600

def scheme : Auth.Scheme where
  issued := "token"
  cached := "token"
  ttl := CACHE_TTL_SECS
  expires := true
  secret _ password := Json.ofBytes password

def authenticate (h : Auth.Host) (x : Auth.Env) : Bytes → Bytes → Auth.State → Auth.Result Bool :=
  Auth.authenticate h scheme x

def loadCached (h : Auth.Host) (x : Auth.Env) : Bytes → Auth.State → Auth.Result Bool := Auth.loadCached h scheme x

end NovaAuth

namespace BeamMPAuth

def CACHE_TTL : Int := 7 * 24 * 3600

/-- The bytes of the hash, each as two hexadecimal digits. -/
def sha256Hex (h : Auth.Host) (input : Bytes) : String :=
  String.ofList ((h.sha256 input).flatMap fun b => [Nat.digitChar (b.toNat / 16), Nat.digitChar (b.toNat % 16)])

def scheme : Auth.Scheme where
  issued := "message"
  cached := "key"
  ttl := CACHE_TTL
  expires := false
  secret h password := .ok (.str (sha256Hex h password))

def authenticate (h : Auth.Host) (x : Auth.Env) : Bytes → Bytes → Auth.State → Auth.Result Bool :=
  Auth.authenticate h scheme x

def loadCached (h : Auth.Host) (x : Auth.Env) : Bytes → Auth.State → Auth.Result Bool := Auth.loadCached h scheme x

end BeamMPAuth

end NovaMP
