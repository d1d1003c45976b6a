/-
  NovaMP.Client.Credentials — whom a client is logged in as
  (`client/src/auth/nova_auth.cpp`, `client/src/compat/beammp_auth.cpp`).

  The cached token is meant for a server that is out of reach, and a token for the user
  it was issued to or cached for. The first fails where a live attempt comes to nothing
  for another reason, the second where `loadCached` names a new user and finds no record
  of his.

  - `stays_rejected_iff`: a login that the server does not accept fails exactly if the
    cache file has nothing usable for it, except while the server is out of reach.
  - `token_of_user_iff`: over all runs, the token is the user's, and the results tell
    whether there is one, exactly if `loadCached` finds a record or comes when there is
    no token, and each token that is issued can be stored.
  - `wrong_password`, `other_user`: a failing input of each.
-/

import NovaMP.Client.Auth

namespace NovaMP.Auth

open Lib

/-! ## Logins that are rejected -/

variable (h : Host) (sch : Scheme) (x : Env)

/-- `authenticate` returns `true` only if the server has accepted the login, or is out of
    reach and the cache file has a usable token; an answer that rejects it makes the call
    return `false` and leaves no token. -/
structure StaysRejected (username password : Bytes) (a : State) : Prop where
  sound : (authenticate h sch x username password a).1 = .ok true →
    (∃ j, reply h sch x username password = .json j ∧ Accepts j) ∨
      (reply h sch x username password = .unreachable ∧ ∃ t ≠ [], Usable h sch x username a.file t)
  rejected : ∀ j, reply h sch x username password = .json j → Rejects j →
    (authenticate h sch x username password a).1 = .ok false ∧
      isLoggedIn (authenticate h sch x username password a).2 = false

/-- The call asks the cache file though the server is not out of reach: the login could not
    be sent, or the reply is no JSON or denies it with a text. -/
def TurnedAway (username password : Bytes) : Prop :=
  reply h sch x username password = .unsent ∨ reply h sch x username password = .malformed ∨
    ∃ j, reply h sch x username password = .json j ∧ j.valueBool "success" false = .ok false ∧
      ∃ text, j.value "message" "unknown error" = .ok text

/-- Then the cache file has no token; and a rejection comes with a text, and at a cache file
    that can be read. -/
structure Conclusive (username password : Bytes) (a : State) : Prop where
  denied : TurnedAway h sch x username password → ∀ t, Usable h sch x username a.file t → t = []
  rejected : ∀ j, reply h sch x username password = .json j → Rejects j →
    (∃ text, j.value "message" "unknown error" = .ok text) ∧ ∀ e, readCache h sch x username a.file ≠ .error e

variable {h sch x} {username password : Bytes} {a : State} {j : Json}

/-- After `tryCache` from a state without a token, the result tells whether there is one. -/
theorem tryCache_true_iff : (tryCache h sch x username a).1 = .ok true ↔ ∃ t ≠ [], Usable h sch x username a.file t := by
  rcases tryCache_cases h sch x username a with ⟨e, hread, heq⟩ | ⟨hnone, -, heq⟩ | ⟨t, ht, -, heq⟩
  · rw [heq]
    refine iff_of_false nofun fun ⟨t, _, ht⟩ => ?_
    rw [readCache_eq_some_iff.mpr ht] at hread
    cases hread
  · rw [heq]
    exact iff_of_false nofun fun ⟨t, _, ht⟩ => hnone t ht
  · rw [heq]
    have hresult : (Except.ok (!t.isEmpty) : Except Thrown Bool) = .ok true ↔ t ≠ [] := by
      cases t <;> simp
    rw [hresult]
    exact ⟨fun hne => ⟨t, hne, ht⟩, fun ⟨t', hne, ht'⟩ => ht.unique ht' ▸ hne⟩

theorem tryCache_false_iff (ha : a.token = []) :
    ((tryCache h sch x username a).1 = .ok false ∧ isLoggedIn (tryCache h sch x username a).2 = false) ↔
      (∀ t, Usable h sch x username a.file t → t = []) ∧ ∀ e, readCache h sch x username a.file ≠ .error e := by
  rcases tryCache_cases h sch x username a with ⟨e, hread, heq⟩ | ⟨hnone, hread, heq⟩ | ⟨t, ht, hread, heq⟩
  · rw [heq]
    exact iff_of_false (fun h' => nomatch h'.1) fun h' => h'.2 e hread
  · rw [heq]
    exact iff_of_true ⟨rfl, by simp [isLoggedIn, ha]⟩ ⟨fun t ht => absurd ht (hnone t), hread⟩
  · rw [heq]
    constructor
    · rintro ⟨-, hout⟩
      refine ⟨fun t' ht' => ?_, fun e he => nomatch hread.symm.trans he⟩
      rw [← ht.unique ht']
      simpa [isLoggedIn] using hout
    · rintro ⟨hempty, -⟩
      rw [hempty t ht]
      exact ⟨rfl, rfl⟩

theorem no_token_iff : ¬ (∃ t ≠ [], Usable h sch x username a.file t) ↔ ∀ t, Usable h sch x username a.file t → t = [] := by
  constructor
  · intro hno t ht
    by_contra hne
    exact hno ⟨t, hne, ht⟩
  · rintro hall ⟨t, hne, ht⟩
    exact hne (hall t ht)

/-- A login that is not answered. -/
theorem staysRejected_unanswered_iff (hr : ∀ j, reply h sch x username password ≠ .json j) :
    StaysRejected h sch x username password a ↔ Conclusive h sch x username password a := by
  have hcall := authenticate_unanswered (a := a) hr
  have htrue : (authenticate h sch x username password a).1 = .ok true ↔ ∃ t ≠ [], Usable h sch x username a.file t := by
    rw [hcall]
    exact tryCache_true_iff
  constructor
  · intro hstay
    refine ⟨fun hturned => no_token_iff.mp fun huse => ?_, fun j hj => absurd hj (hr j)⟩
    rcases hstay.sound (htrue.mpr huse) with ⟨j, hj, -⟩ | ⟨hreach, -⟩
    · exact hr j hj
    · rcases hturned with hsent | hform | ⟨j, hj, -⟩
      · exact nomatch hreach.symm.trans hsent
      · exact nomatch hreach.symm.trans hform
      · exact hr j hj
  · intro hcon
    refine ⟨fun hret => ?_, fun j hj => absurd hj (hr j)⟩
    have huse := htrue.mp hret
    cases hreply : reply h sch x username password with
    | unreachable => exact .inr ⟨rfl, huse⟩
    | unsent => exact absurd huse (no_token_iff.mpr (hcon.denied (.inl hreply)))
    | malformed => exact absurd huse (no_token_iff.mpr (hcon.denied (.inr (.inl hreply))))
    | json j => exact absurd hreply (hr j)

/-- A login that is denied. -/
theorem staysRejected_denied_iff (hr : reply h sch x username password = .json j) (hj : ¬ Accepts j) :
    StaysRejected h sch x username password a ↔ Conclusive h sch x username password a := by
  have hsame : ∀ {j'}, reply h sch x username password = .json j' → j' = j := fun hr' =>
    Reply.json.inj (hr'.symm.trans hr)
  rcases authenticate_denied (a := a) hr hj with ⟨⟨e, hcall⟩, htext⟩ | ⟨hfalse, htext, hcall⟩
  · constructor
    · intro hstay
      refine ⟨fun hturned => ?_, fun j' hj' hrej => ?_⟩
      · rcases hturned with hsent | hform | ⟨j', hj', hfalse, text, hmessage⟩
        · exact nomatch hsent.symm.trans hr
        · exact nomatch hform.symm.trans hr
        · obtain rfl := hsame hj'
          exact absurd hmessage (htext hfalse text)
      · have hret := (hstay.rejected j' hj' hrej).1
        rw [hcall] at hret
        cases hret
    · intro hcon
      refine ⟨fun hret => ?_, fun j' hj' hrej => ?_⟩
      · rw [hcall] at hret
        cases hret
      · obtain ⟨⟨text, hmessage⟩, -⟩ := hcon.rejected j' hj' hrej
        obtain rfl := hsame hj'
        exact absurd hmessage (htext hrej.success text)
  · constructor
    · intro hstay
      refine ⟨fun _ => no_token_iff.mp fun huse => ?_, fun j' hj' hrej => ?_⟩
      · have hret : (authenticate h sch x username password a).1 = .ok true := by
          rw [hcall]
          exact tryCache_true_iff.mpr huse
        rcases hstay.sound hret with ⟨j', hj', hacc⟩ | ⟨hreach, -⟩
        · obtain rfl := hsame hj'
          exact hj hacc
        · exact nomatch hreach.symm.trans hr
      · have hret := hstay.rejected j' hj' hrej
        obtain rfl := hsame hj'
        rw [hcall, tryCache_false_iff rfl] at hret
        exact ⟨htext, hret.2⟩
    · intro hcon
      have hnone := hcon.denied (.inr (.inr ⟨j, hr, hfalse, htext⟩))
      refine ⟨fun hret => ?_, fun j' hj' hrej => ?_⟩
      · rw [hcall] at hret
        exact absurd (tryCache_true_iff.mp hret) (no_token_iff.mpr hnone)
      · rw [hcall, tryCache_false_iff rfl]
        exact ⟨hnone, (hcon.rejected j' hj' hrej).2⟩

/-- A login that is accepted. -/
theorem staysRejected_accepted (hr : reply h sch x username password = .json j) (hj : Accepts j) :
    StaysRejected h sch x username password a ∧ Conclusive h sch x username password a := by
  have hno : ∀ {j'}, reply h sch x username password = .json j' → j'.valueBool "success" false ≠ .ok false := by
    intro j' hr' hfalse
    obtain rfl := Reply.json.inj (hr'.symm.trans hr)
    cases hj.symm.trans hfalse
  refine ⟨⟨fun _ => .inl ⟨j, hr, hj⟩, fun j' hr' hrej => absurd hrej.success (hno hr')⟩, fun hturned => ?_,
    fun j' hr' hrej => absurd hrej.success (hno hr')⟩
  rcases hturned with hsent | hform | ⟨j', hr', hfalse, -⟩
  · exact nomatch hsent.symm.trans hr
  · exact nomatch hform.symm.trans hr
  · exact absurd hfalse (hno hr')

theorem staysRejected_iff (h : Host) (sch : Scheme) (x : Env) (username password : Bytes) (a : State) :
    StaysRejected h sch x username password a ↔ Conclusive h sch x username password a := by
  cases hr : reply h sch x username password with
  | json j =>
    by_cases hj : Accepts j
    · obtain ⟨hstay, hcon⟩ := staysRejected_accepted (a := a) hr hj
      exact iff_of_true hstay hcon
    · exact staysRejected_denied_iff hr hj
  | unsent => exact staysRejected_unanswered_iff (by simp [hr])
  | unreachable => exact staysRejected_unanswered_iff (by simp [hr])
  | malformed => exact staysRejected_unanswered_iff (by simp [hr])

/-- For every reply of the auth server and every cache file: a login is true only if it is
    accepted, or answered by the cache file while the server is out of reach, and is false
    when it is rejected, exactly if a login that is turned away finds no token in the
    cache file, and a rejection has a text and a cache file that can be read. -/
theorem stays_rejected_iff (h : Host) (x : Env) (username password : Bytes) (a : State) :
    (StaysRejected h NovaAuth.scheme x username password a ↔ Conclusive h NovaAuth.scheme x username password a) ∧
      (StaysRejected h BeamMPAuth.scheme x username password a ↔ Conclusive h BeamMPAuth.scheme x username password a) :=
  ⟨staysRejected_iff h _ x username password a, staysRejected_iff h _ x username password a⟩

/-! ## Runs -/

/-- `disk` is a change of the cache file by somebody else. -/
inductive Call where
  | authenticate (username password : Bytes)
  | loadCached (username : Bytes)
  | clearCache (removes : Bool)
  | disk (file : Option Bytes)

def Call.isLogin : Call → Bool
  | .authenticate _ _ | .loadCached _ => true
  | _ => false

/-- `returned` is none if the call has thrown or returns nothing. -/
structure Moment where
  env : Env
  call : Call
  before : State
  returned : Option Bool
  after : State

variable (h sch)

def perform (x : Env) (a : State) : Call → Option Bool × State
  | .authenticate username password =>
    ((authenticate h sch x username password a).1.toOption, (authenticate h sch x username password a).2)
  | .loadCached username => ((loadCached h sch x username a).1.toOption, (loadCached h sch x username a).2)
  | .clearCache removes => (none, (clearCache removes a).2)
  | .disk file => (none, { a with file := file })

def moment (x : Env) (c : Call) (a : State) : Moment := ⟨x, c, a, (perform h sch x a c).1, (perform h sch x a c).2⟩

/-- The calls on one object, the newest first. -/
inductive Run : List Moment → State → Prop
  | init (file : Option Bytes) : Run [] ⟨[], [], file⟩
  | step {hist : List Moment} {a : State} (x : Env) (c : Call) :
      Run hist a → Run (moment h sch x c a :: hist) (perform h sch x a c).2

/-! ## The user of the token -/

/-- The call has got the token for the user, from the server or from the cache file. -/
def Sourced (m : Moment) (username token : Bytes) : Prop :=
  (∃ password, m.call = .authenticate username password ∧ Issues h sch m.env username password token) ∨
    (m.call.isLogin ∧ Usable h sch m.env username m.before.file token)

def Belongs (hist : List Moment) (username token : Bytes) : Prop := ∃ m ∈ hist, Sourced h sch m username token

/-- After the call a token is that of the user it names, and the result tells whether there
    is one. -/
structure Sound (m : Moment) (earlier : List Moment) : Prop where
  belongs : isLoggedIn m.after = true → Belongs h sch (m :: earlier) m.after.username m.after.token
  told : m.call.isLogin = true → (m.returned = some true ↔ isLoggedIn m.after = true)

/-- `loadCached` comes when there is no token, or finds a record of the user; the token that
    `authenticate` is given can be stored. -/
def Proper (m : Moment) : Prop :=
  match m.call with
  | .authenticate username password =>
    ∀ j s, reply h sch m.env username password = .json j → Accepts j → j.value sch.issued "" = .ok s → utf8 s ≠ [] →
      (∃ expires_in, lifetime h sch j = .ok expires_in) ∧ m.env.directories = true
  | .loadCached username => m.before.token = [] ∨ ∃ t, Usable h sch m.env username m.before.file t
  | _ => True

variable {h sch}

theorem Belongs.cons {hist : List Moment} {m : Moment} {token : Bytes} (hb : Belongs h sch hist username token) :
    Belongs h sch (m :: hist) username token := by
  obtain ⟨m', hm', hs⟩ := hb
  exact ⟨m', List.mem_cons_of_mem _ hm', hs⟩

theorem isLoggedIn_iff : isLoggedIn a = true ↔ a.token ≠ [] := by
  cases ha : a.token <;> simp [isLoggedIn, ha]

variable (h sch x username) in
/-- `tryCache` from a state without a token. -/
theorem tryCache_told (ha : a.token = []) :
    ((tryCache h sch x username a).1.toOption = some true ↔ isLoggedIn (tryCache h sch x username a).2 = true) ∧
      (tryCache h sch x username a).2.username = a.username ∧
      (isLoggedIn (tryCache h sch x username a).2 = true →
        Usable h sch x username a.file (tryCache h sch x username a).2.token) := by
  have hout : ¬ isLoggedIn a = true := by
    rw [isLoggedIn_iff, ha]
    exact not_not.mpr rfl
  rcases tryCache_cases h sch x username a with ⟨e, -, heq⟩ | ⟨-, -, heq⟩ | ⟨t, ht, -, heq⟩
  · rw [heq]
    exact ⟨iff_of_false nofun hout, rfl, fun hin => absurd hin hout⟩
  · rw [heq]
    exact ⟨iff_of_false nofun hout, rfl, fun hin => absurd hin hout⟩
  · rw [heq]
    refine ⟨?_, rfl, fun _ => ht⟩
    cases t <;> simp [isLoggedIn, Except.toOption]

/-- Without a token from the server a login throws or asks the cache file, in both cases
    after it has cleared the old token. -/
theorem authenticate_untaken (hno : ∀ j s, reply h sch x username password = .json j → Accepts j →
      j.value sch.issued "" = .ok s → utf8 s = []) :
    (∃ e, authenticate h sch x username password a = (.error e, { a with username := username, token := [] })) ∨
      authenticate h sch x username password a =
        tryCache h sch x username { a with username := username, token := [] } := by
  by_cases hr : ∃ j, reply h sch x username password = .json j
  · obtain ⟨j, hr⟩ := hr
    by_cases hj : Accepts j
    · exact authenticate_tokenless hr hj fun s => hno j s hr hj
    · rcases authenticate_denied (a := a) hr hj with ⟨herror, -⟩ | ⟨-, -, hcache⟩
      · exact .inl herror
      · exact .inr hcache
  · exact .inr (authenticate_unanswered fun j hj => hr ⟨j, hj⟩)

theorem authenticate_sound_iff (earlier : List Moment) :
    Sound h sch (moment h sch x (.authenticate username password) a) earlier ↔
      Proper h sch (moment h sch x (.authenticate username password) a) := by
  by_cases hissued : ∃ j s, reply h sch x username password = .json j ∧ Accepts j ∧ j.value sch.issued "" = .ok s ∧
      utf8 s ≠ []
  · obtain ⟨j, s, hr, hj, hs, hne⟩ := hissued
    obtain ⟨hu, ht, hret⟩ := authenticate_issued (a := a) hr hj hs hne
    have hin : isLoggedIn (authenticate h sch x username password a).2 = true := by
      rw [isLoggedIn_iff, ht]
      exact hne
    have htold : (authenticate h sch x username password a).1.toOption = some true ↔
        (∃ expires_in, lifetime h sch j = .ok expires_in) ∧ x.directories = true := by
      rw [← hret]
      cases (authenticate h sch x username password a).1 <;> simp [Except.toOption]
    constructor
    · intro hsound j' s' hr' hj' hs' _
      obtain rfl := Reply.json.inj (hr'.symm.trans hr)
      exact htold.mp ((hsound.told rfl).mpr hin)
    · intro hproper
      refine ⟨fun _ => ⟨_, List.mem_cons_self, .inl ⟨password, ?_, ?_⟩⟩, fun _ => ?_⟩
      · show Call.authenticate username password = .authenticate (authenticate h sch x username password a).2.username password
        rw [hu]
      · show Issues h sch x (authenticate h sch x username password a).2.username password _
        rw [hu]
        exact ⟨j, s, hr, hj, hs, ht.symm⟩
      · exact iff_of_true (htold.mpr (hproper j s hr hj hs hne)) hin
  · have hno : ∀ j s, reply h sch x username password = .json j → Accepts j → j.value sch.issued "" = .ok s →
        utf8 s = [] := by
      intro j s hr hj hs
      by_contra hne
      exact hissued ⟨j, s, hr, hj, hs, hne⟩
    refine iff_of_true ?_ fun j s hr hj hs hne => absurd (hno j s hr hj hs) hne
    rcases authenticate_untaken (a := a) hno with ⟨e, hcall⟩ | hcall
    · have hout : isLoggedIn (authenticate h sch x username password a).2 ≠ true := by
        rw [hcall]
        exact Bool.false_ne_true
      refine ⟨fun hin => absurd hin hout, fun _ => iff_of_false ?_ hout⟩
      show (authenticate h sch x username password a).1.toOption ≠ some true
      rw [hcall]
      exact nofun
    · obtain ⟨htold, hu, hin⟩ := tryCache_told h sch x username
        (a := { a with username := username, token := [] }) rfl
      rw [← hcall] at htold hu hin
      refine ⟨fun hlogged => ⟨_, List.mem_cons_self, .inr ⟨rfl, ?_⟩⟩, fun _ => htold⟩
      show Usable h sch x (authenticate h sch x username password a).2.username a.file _
      rw [hu]
      exact hin hlogged

theorem loadCached_sound_iff (earlier : List Moment) :
    Sound h sch (moment h sch x (.loadCached username) a) earlier ↔
      Proper h sch (moment h sch x (.loadCached username) a) := by
  have hproper : Proper h sch (moment h sch x (.loadCached username) a) ↔
      a.token = [] ∨ ∃ t, Usable h sch x username a.file t := Iff.rfl
  rw [hproper]
  by_cases htoken : a.token = []
  · obtain ⟨htold, hu, hin⟩ := tryCache_told h sch x username
      (a := { a with username := username }) htoken
    refine iff_of_true ⟨fun hlogged => ⟨_, List.mem_cons_self, .inr ⟨rfl, ?_⟩⟩, fun _ => htold⟩ (.inl htoken)
    show Usable h sch x (tryCache h sch x username { a with username := username }).2.username a.file _
    rw [hu]
    exact hin hlogged
  have hold : isLoggedIn { a with username := username } = true := isLoggedIn_iff.mpr htoken
  -- the old token is still there if the cache file has none to replace it
  have hstays : ∀ r : Except Thrown Bool, r.toOption ≠ some true →
      loadCached h sch x username a = (r, { a with username := username }) →
      ¬ Sound h sch (moment h sch x (.loadCached username) a) earlier := by
    intro r hr hcall hsound
    have hin : isLoggedIn (loadCached h sch x username a).2 = true := by
      rw [hcall]
      exact hold
    have hret : (loadCached h sch x username a).1.toOption = some true := (hsound.told rfl).mpr hin
    rw [hcall] at hret
    exact hr hret
  rcases tryCache_cases h sch x username { a with username := username } with
    ⟨e, hread, hcall⟩ | ⟨hnone, -, hcall⟩ | ⟨t, ht, -, hcall⟩
  · refine iff_of_false (hstays _ (by simp [Except.toOption]) hcall) fun hcond => ?_
    obtain ⟨t, ht⟩ := hcond.resolve_left htoken
    rw [readCache_eq_some_iff.mpr ht] at hread
    cases hread
  · refine iff_of_false (hstays _ (by simp [Except.toOption]) hcall) fun hcond => ?_
    obtain ⟨t, ht⟩ := hcond.resolve_left htoken
    exact hnone t ht
  · refine iff_of_true ⟨fun _ => ⟨_, List.mem_cons_self, .inr ⟨rfl, ?_⟩⟩, fun _ => ?_⟩ (.inr ⟨t, ht⟩)
    · show Usable h sch x (tryCache h sch x username { a with username := username }).2.username a.file
        (tryCache h sch x username { a with username := username }).2.token
      rw [hcall]
      exact ht
    · show (tryCache h sch x username { a with username := username }).1.toOption = some true ↔
        isLoggedIn (tryCache h sch x username { a with username := username }).2 = true
      rw [hcall]
      cases t <;> simp [isLoggedIn, Except.toOption]

/-- From a state whose token is its user's, a call is sound exactly if it is proper. -/
theorem sound_iff {hist : List Moment} (c : Call)
    (hb : isLoggedIn a = true → Belongs h sch hist a.username a.token) :
    Sound h sch (moment h sch x c a) hist ↔ Proper h sch (moment h sch x c a) := by
  cases c with
  | authenticate username password => exact authenticate_sound_iff hist
  | loadCached username => exact loadCached_sound_iff hist
  | clearCache removes =>
    refine iff_of_true ⟨fun hin => ?_, nofun⟩ trivial
    have hclear : (clearCache removes a).2 = a ∨ (clearCache removes a).2.token = [] := by
      cases removes
      · exact .inl rfl
      · exact .inr rfl
    have hin' : isLoggedIn (clearCache removes a).2 = true := hin
    rcases hclear with hsame | hnil
    · rw [hsame] at hin'
      show Belongs h sch _ (clearCache removes a).2.username (clearCache removes a).2.token
      rw [hsame]
      exact (hb hin').cons
    · exact absurd hnil (isLoggedIn_iff.mp hin')
  | disk file => exact iff_of_true ⟨fun hin => (hb hin).cons, nofun⟩ trivial

/-- Over a run both fail first at the same call. -/
theorem run_sound_iff {hist : List Moment} (hr : Run h sch hist a) :
    ((∀ m earlier, (m :: earlier) <:+ hist → Sound h sch m earlier) ↔ ∀ m ∈ hist, Proper h sch m) ∧
      ((∀ m earlier, (m :: earlier) <:+ hist → Sound h sch m earlier) →
        isLoggedIn a = true → Belongs h sch hist a.username a.token) := by
  induction hr with
  | init file => exact ⟨by simp, nofun⟩
  | @step hist a x c _ ih =>
    obtain ⟨hiff, hlast⟩ := ih
    have hsplit : (∀ m earlier, (m :: earlier) <:+ (moment h sch x c a :: hist) → Sound h sch m earlier) ↔
        Sound h sch (moment h sch x c a) hist ∧ ∀ m earlier, (m :: earlier) <:+ hist → Sound h sch m earlier := by
      constructor
      · exact fun hall => ⟨hall _ _ List.suffix_rfl, fun m earlier hs => hall m earlier (hs.trans (List.suffix_cons _ _))⟩
      · rintro ⟨hnew, hall⟩ m earlier hs
        rcases List.suffix_cons_iff.mp hs with heq | hs
        · cases heq
          exact hnew
        · exact hall m earlier hs
    rw [hsplit, List.forall_mem_cons]
    refine ⟨?_, fun hall => hall.1.belongs⟩
    constructor
    · rintro ⟨hnew, hall⟩
      exact ⟨(sound_iff c (hlast hall)).mp hnew, hiff.mp hall⟩
    · rintro ⟨hnew, hall⟩
      exact ⟨(sound_iff c (hlast (hiff.mpr hall))).mpr hnew, hiff.mpr hall⟩

/-- For every sequence of calls: after each one a token is that of the user, and the
    results of `authenticate` and `loadCached` tell whether there is one, exactly if every
    call is proper. -/
theorem token_of_user_iff (h : Host) {hist : List Moment} {a : State} :
    (Run h NovaAuth.scheme hist a →
      ((∀ m earlier, (m :: earlier) <:+ hist → Sound h NovaAuth.scheme m earlier) ↔
        ∀ m ∈ hist, Proper h NovaAuth.scheme m)) ∧
    (Run h BeamMPAuth.scheme hist a →
      ((∀ m earlier, (m :: earlier) <:+ hist → Sound h BeamMPAuth.scheme m earlier) ↔
        ∀ m ∈ hist, Proper h BeamMPAuth.scheme m)) :=
  ⟨fun hr => (run_sound_iff hr).1, fun hr => (run_sound_iff hr).1⟩

/-! ## Ann's desk -/

namespace Desk

def cacheText : Bytes :=
  utf8 "\x7b\"expires_in\":2592000,\"saved_at\":1000,\"token\":\"t1\",\"username\":\"ann\"\x7d"

def replyText : Bytes := utf8 "\x7b\"message\":\"wrong password\",\"success\":false\x7d"

def requestText : Bytes := utf8 "\x7b\"password\":\"guess\",\"username\":\"ann\"\x7d"

def cacheJson : Json :=
  .obj [("expires_in", .int 2592000), ("saved_at", .int 1000), ("token", .str "t1"), ("username", .str "ann")]

def replyJson : Json := .obj [("message", .str "wrong password"), ("success", .bool false)]

/-- A cached token of `ann`, and a reply to a wrong password of hers. -/
def host : Host where
  parse text := if text = cacheText then some cacheJson else if text = replyText then some replyJson else none
  dump _ _ := requestText
  trunc _ := 0
  sha256 _ := []

def env : Env := ⟨fun _ => some replyText, 2000, true, true⟩

def fresh : State := ⟨[], [], some cacheText⟩

theorem parse_cache : host.parse cacheText = some cacheJson := by
  simp [host]

theorem reply_rejected : reply host NovaAuth.scheme env (utf8 "ann") (utf8 "guess") = .json replyJson := rfl

theorem usable_ann : Usable host NovaAuth.scheme env (utf8 "ann") (some cacheText) (utf8 "t1") :=
  ⟨cacheJson, parse_cache, ⟨⟨"ann", rfl, rfl⟩, "t1", rfl, rfl⟩, 1000, 2592000, 1000, rfl, rfl, rfl, by decide⟩

theorem loadCached_ann : loadCached host NovaAuth.scheme env (utf8 "ann") fresh =
    (.ok true, ⟨utf8 "ann", utf8 "t1", some cacheText⟩) := by
  have hread := readCache_eq_some_iff.mpr usable_ann
  have hcall : tryCache host NovaAuth.scheme env (utf8 "ann") ⟨utf8 "ann", [], some cacheText⟩ =
      (.ok true, ⟨utf8 "ann", utf8 "t1", some cacheText⟩) := by
    rw [tryCache, hread]
    rfl
  exact hcall

end Desk

/-- `ann` logs in from the cache file. -/
theorem token_of_user_ann : ∀ m earlier,
    (m :: earlier) <:+ [moment Desk.host NovaAuth.scheme Desk.env (.loadCached (utf8 "ann")) Desk.fresh] →
    Sound Desk.host NovaAuth.scheme m earlier := by
  refine ((token_of_user_iff Desk.host).1 (Run.step Desk.env (.loadCached (utf8 "ann")) (Run.init _))).mpr ?_
  intro m hm
  obtain rfl := List.mem_singleton.mp hm
  exact .inl rfl

/-- A wrong password, with a cached token of the user. -/
theorem wrong_password : ¬ ∀ (h : Host) (x : Env) (username password : Bytes) (a : State),
    StaysRejected h NovaAuth.scheme x username password a ∧ StaysRejected h BeamMPAuth.scheme x username password a := by
  intro hall
  have hcon := (staysRejected_iff _ _ _ _ _ _).mp (hall Desk.host Desk.env (utf8 "ann") (utf8 "guess") Desk.fresh).1
  have hnone := hcon.denied (.inr (.inr ⟨Desk.replyJson, Desk.reply_rejected, rfl, "wrong password", rfl⟩))
  exact absurd (hnone (utf8 "t1") Desk.usable_ann) (by decide)

/-- `ann` logs in from the cache file, then `bob` is looked up there. -/
theorem other_user : ¬ ∀ (h : Host) (hist : List Moment) (a : State), Run h NovaAuth.scheme hist a →
    ∀ m earlier, (m :: earlier) <:+ hist → Sound h NovaAuth.scheme m earlier := by
  intro hall
  have hrun := Run.step Desk.env (.loadCached (utf8 "bob")) (Run.step Desk.env (.loadCached (utf8 "ann"))
    (@Run.init Desk.host NovaAuth.scheme (some Desk.cacheText)))
  have hsound := hall _ _ _ hrun _ _ List.suffix_rfl
  have hstate : (perform Desk.host NovaAuth.scheme Desk.env Desk.fresh (.loadCached (utf8 "ann"))).2 =
      ⟨utf8 "ann", utf8 "t1", some Desk.cacheText⟩ := congrArg Prod.snd Desk.loadCached_ann
  have hproper := (loadCached_sound_iff _).mp hsound
  have hcond : (perform Desk.host NovaAuth.scheme Desk.env Desk.fresh (.loadCached (utf8 "ann"))).2.token = [] ∨
      ∃ t, Usable Desk.host NovaAuth.scheme Desk.env (utf8 "bob")
        (perform Desk.host NovaAuth.scheme Desk.env Desk.fresh (.loadCached (utf8 "ann"))).2.file t := hproper
  rw [hstate] at hcond
  rcases hcond with hnil | ⟨t, j, hj, ⟨⟨name, hname, hbob⟩, -⟩, -⟩
  · exact absurd hnil (by decide)
  · cases Desk.parse_cache.symm.trans hj
    cases hname
    exact absurd hbob (by decide)

end NovaMP.Auth
