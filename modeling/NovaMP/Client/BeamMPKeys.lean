/-
  NovaMP.Client.BeamMPKeys — which key a BeamMP server is told
  (`runBeamMP` in `client/src/main.cpp`, with `client/src/compat/beammp_auth.cpp` and
  `client/src/compat/beammp_client.cpp`).

  Each start of the launcher makes a `BeamMPAuth` of its own, and what one start leaves to
  the next is the cache file. So the key that a server is told may have been issued starts
  ago, and to whom is only to be seen in the file.

  - `readLoop_told`: what the reader of a connection writes.
  - `Stored`: what the cache file has in it was issued to the user it names, at the time
    it names. `login_key`: a login keeps it so, and comes to such a key.
  - `session_key`: over all starts of the launcher, a server is told a key that was issued
    to the user who was typed, in the last seven days, and nothing else.
-/

import NovaMP.Client.Credentials
import NovaMP.Client.Handshake
import NovaMP.Client.Launcher

namespace NovaMP

open Lib

/-! ## What a server is told -/

namespace BeamMP

/-- The key goes out in reply to a map alone, and no other packet has data. -/
def Told (key : Bytes) (t : Turn) : Prop :=
  ∀ ok pkt, .wrote ok pkt ∈ t.effects →
    t.packet.code = Code.map.byte ∧ pkt = buildPacket Code.authPlayer.byte key ∨
      ∃ code : Code, pkt = buildPacket code.byte []

/-- So it has been up to now. -/
structure Discreet (key : Bytes) (s : Reader) : Prop where
  privateKey : s.client.privateKey = key
  turns : ∀ t ∈ s.turns, Told key t

/-- Also where something has been thrown. -/
def StaysDiscreet (key : Bytes) : Except Thrown Reader → Prop
  | .ok s => Discreet key s
  | .error e => Discreet key e.2

variable {h : Host} {cb : Callbacks} {w : Nat → Bool} {key : Bytes} {s : Reader}

theorem send_of_handles {p : Packet} {as : List Action} (ha : Handles cb key p as) {code : Code} {data : Bytes}
    (hm : .send code data ∈ as) : p.code = Code.map.byte ∧ code = .authPlayer ∧ data = key ∨ data = [] := by
  have hcall : ∀ c, Action.send code data ∉ callIf cb c := fun c hc => nomatch mem_callIf hc
  cases ha with
  | map hmap =>
    simp only [List.mem_cons, List.not_mem_nil, or_false, reduceCtorEq, false_or, Action.send.injEq] at hm
    exact .inl ⟨hmap, hm⟩
  | accepted _ _ _ =>
    refine .inr ?_
    rcases List.mem_append.mp hm with hm | hm
    · simp only [List.mem_cons, List.not_mem_nil, or_false, reduceCtorEq, false_or, Action.send.injEq] at hm
      exact hm.2
    · exact absurd hm (hcall _)
  | swallowed _ _ _ | ignore _ _ => exact absurd hm List.not_mem_nil
  | rejected _ _ | tell _ _ _ => exact absurd hm (hcall _)
  | kick _ =>
    rcases List.mem_cons.mp hm with hm | hm
    · cases hm
    · exact absurd hm (hcall _)
  | reply _ _ =>
    have hsent := List.mem_singleton.mp hm
    cases hsent
    exact .inr rfl

/-- What the actions write is what they send. -/
theorem foldl_perform_wrote (as : List Action) (d : Doing) :
    (as.foldl (perform w) d).client.privateKey = d.client.privateKey ∧
      ∀ ok pkt, .wrote ok pkt ∈ (as.foldl (perform w) d).effects →
        .wrote ok pkt ∈ d.effects ∨ ∃ code data, .send code data ∈ as ∧ pkt = buildPacket code.byte data := by
  induction as generalizing d with
  | nil => exact ⟨rfl, fun _ _ hm => .inl hm⟩
  | cons a as ih =>
    obtain ⟨hkey, hwrote⟩ := ih (perform w d a)
    have hone : (perform w d a).client.privateKey = d.client.privateKey ∧
        ∀ ok pkt, .wrote ok pkt ∈ (perform w d a).effects →
          .wrote ok pkt ∈ d.effects ∨ ∃ code data, .send code data = a ∧ pkt = buildPacket code.byte data := by
      cases a with
      | setMapName _ | setPlayerId _ | disconnected => exact ⟨rfl, fun _ _ hm => .inl hm⟩
      | call c =>
        refine ⟨rfl, fun ok pkt hm => .inl ?_⟩
        rcases List.mem_append.mp hm with hm | hm
        · exact hm
        · cases List.mem_singleton.mp hm
      | send code data =>
        rw [perform]
        split
        · refine ⟨rfl, fun ok pkt hm => ?_⟩
          rcases List.mem_append.mp hm with hm | hm
          · exact .inl hm
          · cases List.mem_singleton.mp hm
            exact .inr ⟨code, data, rfl, rfl⟩
        · exact ⟨rfl, fun _ _ hm => .inl hm⟩
    refine ⟨hkey.trans hone.1, fun ok pkt hm => ?_⟩
    rcases hwrote ok pkt hm with hm | ⟨code, data, hsend, hpkt⟩
    · rcases hone.2 ok pkt hm with hm | ⟨code, data, rfl, hpkt⟩
      · exact .inl hm
      · exact .inr ⟨code, data, List.mem_cons_self, hpkt⟩
    · exact .inr ⟨code, data, List.mem_cons_of_mem _ hsend, hpkt⟩

theorem handle_told (hs : Discreet key s) (p : Packet) : StaysDiscreet key (s.handle h cb w p) := by
  have hconcat : ∀ effects, Told key ⟨p, effects⟩ → ∀ t ∈ s.turns ++ [⟨p, effects⟩], Told key t := by
    intro effects htold t ht
    rcases List.mem_append.mp ht with ht | ht
    · exact hs.turns t ht
    · rw [List.mem_singleton.mp ht]
      exact htold
  unfold Reader.handle
  cases ha : handlePacket h cb s.client.privateKey p with
  | error f => exact ⟨hs.privateKey, hconcat [] fun _ _ hm => absurd hm List.not_mem_nil⟩
  | ok as =>
    obtain ⟨hkey, hwrote⟩ := foldl_perform_wrote (w := w) as ⟨s.client, s.writes, []⟩
    refine ⟨hkey.trans hs.privateKey, hconcat _ fun ok pkt hm => ?_⟩
    rcases hwrote ok pkt hm with hm | ⟨code, data, hsend, rfl⟩
    · cases hm
    · rcases send_of_handles (handles ha) hsend with ⟨hmap, rfl, rfl⟩ | rfl
      · exact .inl ⟨hmap, by rw [hs.privateKey]⟩
      · exact .inr ⟨code, rfl⟩

theorem frame_told (hs : Discreet key s) (f : Packet) : StaysDiscreet key (s.frame h cb w f) := by
  have hsplit : ∀ (t : Reader) buf inSplit, Discreet key t → Discreet key (t.setSplit buf inSplit) :=
    fun t buf inSplit ht => ⟨ht.privateKey, ht.turns⟩
  unfold Reader.frame
  split
  · exact hsplit _ _ _ hs
  split
  · split
    · exact hsplit _ _ _ hs
    · rename_i code data _
      have hhandle : StaysDiscreet key ((s.setSplit (code :: data) s.client.inSplit).handle h cb w ⟨code, data⟩) :=
        handle_told (hsplit s (code :: data) s.client.inSplit hs) ⟨code, data⟩
      cases hr : (s.setSplit (code :: data) s.client.inSplit).handle h cb w ⟨code, data⟩ with
      | error e =>
        rw [hr] at hhandle
        exact hhandle
      | ok t =>
        rw [hr] at hhandle
        exact hsplit _ _ _ hhandle
  · exact handle_told hs f

theorem serve_told (fs : List Packet) (hs : Discreet key s) : StaysDiscreet key (serve h cb w s fs) := by
  induction fs generalizing s with
  | nil => exact hs
  | cons f fs ih =>
    rw [serve]
    split
    · have hframe : StaysDiscreet key (s.frame h cb w f) := frame_told hs f
      cases hr : s.frame h cb w f with
      | error e =>
        rw [hr] at hframe
        exact hframe
      | ok t =>
        rw [hr] at hframe
        exact ih hframe
    · exact hs

/-- Whatever a server sends, that is all that it is told. -/
theorem readLoop_told (h : Host) (cb : Callbacks) (w : Nat → Bool) (key input : Bytes) :
    ∀ t ∈ turnsOf (readLoop h cb w (.start key) input), Told key t := by
  rw [turnsOf_readLoop]
  have hstart : Discreet key (.start key) := ⟨rfl, fun _ ht => absurd ht List.not_mem_nil⟩
  have hserve : StaysDiscreet key (serve h cb w (.start key) (framesOf input)) := serve_told (framesOf input) hstart
  cases hr : serve h cb w (.start key) (framesOf input) with
  | error e =>
    rw [hr] at hserve
    exact hserve.turns
  | ok s =>
    rw [hr] at hserve
    exact hserve.turns

end BeamMP

namespace Launcher

open Auth

/-! ## Starts of the launcher -/

/-- A start of the launcher for a BeamMP server: what `main` comes to, and what the first
    and the second login meet. -/
structure Launch where
  args : Option Direct
  servers : List ServerEntry
  cin : Istream UInt8
  start : Start
  main_start : main args servers cin = .ok (some start)
  beammp : start.network = .beammp
  first : Auth.Env
  second : Auth.Env
  /-- The file for the game can be opened. -/
  opens : Bool
  times : ∀ x ∈ [first, second], -2 ^ 63 ≤ x.now ∧ x.now < 2 ^ 63

/-- A connection that `BeamMPClient::connect` is to make. -/
structure Session where
  config : Option Bytes
  host : Bytes
  port : UInt16
  privateKey : Bytes

/-- Without a password the cache file comes first, and then a prompt. -/
def beamMPLogin (h : Host) (l : Launch) (file : Option Bytes) : Result Bool :=
  let auth : State := ⟨[], [], file⟩
  if l.start.password ≠ [] then BeamMPAuth.authenticate h l.first l.start.username l.start.password auth
  else
    match BeamMPAuth.loadCached h l.first l.start.username auth with
    | (.ok false, auth) => BeamMPAuth.authenticate h l.second l.start.username (promptLine l.start.cin).1 auth
    | result => result

/-- `runBeamMP`, up to `connect`, and the cache file that it leaves. What is thrown ends the
    launcher. -/
def runBeamMP (h : Host) (L : Libs) (l : Launch) (file : Option Bytes) : Except Thrown (Option Session) × Option Bytes :=
  match beamMPLogin h l file with
  | (.error e, auth) => (.error e, auth.file)
  | (.ok false, auth) => (.ok none, auth.file)
  | (.ok true, auth) =>
    match writeConnectConfig L l.opens l.start.host l.start.username (.ofInt l.start.port) with
    | .error f => (.error (.json f), auth.file)
    | .ok config => (.ok (some ⟨config, l.start.host, .ofInt l.start.port, auth.token⟩), auth.file)

structure Started where
  launch : Launch
  result : Except Thrown (Option Session)

/-- The starts of the launcher, the newest first, since there was no cache file. -/
inductive Launches (h : Host) (L : Libs) : List Started → Option Bytes → Prop
  | none : Launches h L [] none
  | launch {hist : List Started} {file : Option Bytes} (l : Launch) :
      Launches h L hist file → Launches h L (⟨l, (runBeamMP h L l file).1⟩ :: hist) (runBeamMP h L l file).2

/-! ## The cache file -/

/-- The auth server has issued the key to the user in this start, at this time. -/
def Grants (h : Host) (l : Launch) (username key : Bytes) (now : Int) : Prop :=
  l.start.username = username ∧
    (Issues h BeamMPAuth.scheme l.first username l.start.password key ∧ l.first.now = now ∨
      Issues h BeamMPAuth.scheme l.second username (promptLine l.start.cin).1 key ∧ l.second.now = now)

/-- The record of a key that has been issued. -/
def RecordOf (h : Host) (granted : Bytes → Bytes → Int → Prop) (text : Bytes) : Prop :=
  ∃ x username key j, granted username key x.now ∧ (-2 ^ 63 ≤ x.now ∧ x.now < 2 ^ 63) ∧
    Auth.record BeamMPAuth.scheme x username key BeamMPAuth.CACHE_TTL = .ok j ∧ text = h.dump 2 j

/-- `json::parse` reads what `dump` has written for keys that were issued, and nothing where
    there is nothing. -/
structure ReadsRecords (h : Host) (granted : Bytes → Bytes → Int → Prop) : Prop where
  record : ∀ x username key j, granted username key x.now → -2 ^ 63 ≤ x.now ∧ x.now < 2 ^ 63 →
    Auth.record BeamMPAuth.scheme x username key BeamMPAuth.CACHE_TTL = .ok j → h.parse (h.dump 2 j) = some j
  empty : h.parse [] = none

/-- What the cache file has in it, if anything. -/
def Stored (h : Host) (granted : Bytes → Bytes → Int → Prop) (file : Option Bytes) : Prop :=
  ∀ text ∈ file, text = [] ∨ RecordOf h granted text

variable {h : Host} {x : Auth.Env} {username password key : Bytes} {granted : Bytes → Bytes → Int → Prop}
  {file : Option Bytes}

theorem ofBytes_eq_ok {b : Bytes} {j : Json} (hj : Json.ofBytes b = .ok j) : ∃ s, j = .str s ∧ utf8 s = b := by
  unfold Json.ofBytes at hj
  cases hs : String.fromUTF8? ⟨b.toArray⟩ with
  | none =>
    rw [hs] at hj
    cases hj
  | some s =>
    rw [hs] at hj
    refine ⟨s, (Except.ok.inj hj).symm, ?_⟩
    unfold String.fromUTF8? at hs
    split at hs
    · rw [← Option.some.inj hs]
      rfl
    · cases hs

/-- A record tells the user, the key and the time it was made from. -/
theorem record_members {j : Json} (ht : -2 ^ 63 ≤ x.now ∧ x.now < 2 ^ 63)
    (hj : Auth.record BeamMPAuth.scheme x username key BeamMPAuth.CACHE_TTL = .ok j) :
    (∃ s, j.value "username" "" = .ok s ∧ utf8 s = username) ∧ (∃ s, j.value "key" "" = .ok s ∧ utf8 s = key) ∧
      ∀ trunc, j.valueInt64 trunc "saved_at" 0 = .ok x.now := by
  obtain ⟨name, hname, hj⟩ := bind_eq_ok.mp hj
  obtain ⟨token, htoken, hj⟩ := bind_eq_ok.mp hj
  obtain ⟨s, rfl, hs⟩ := ofBytes_eq_ok hname
  obtain ⟨t, rfl, hkey⟩ := ofBytes_eq_ok htoken
  have htime : x.now.bmod (2 ^ 64) = x.now := by
    rw [Int.bmod_def]
    omega
  rw [← Except.ok.inj hj]
  exact ⟨⟨s, rfl, hs⟩, ⟨t, rfl, hkey⟩, fun _ => congrArg Except.ok htime⟩

/-- What can be used of the cache file was issued to the user, and is not too old. -/
theorem usable_granted (hh : ReadsRecords h granted) (hf : Stored h granted file)
    (hu : Usable h BeamMPAuth.scheme x username file key) :
    ∃ t, granted username key t ∧ x.now - t ≤ BeamMPAuth.CACHE_TTL := by
  obtain ⟨j, hparse, ⟨⟨s, hs, rfl⟩, ⟨k, hk, rfl⟩⟩, saved_at, expires_in, since, hsaved, hexpires, hage, hsince⟩ := hu
  obtain ⟨text, htext, hj⟩ := Option.bind_eq_some_iff.mp hparse
  rcases hf text htext with rfl | ⟨x', u, k', j', hg, ht, hrecord, rfl⟩
  · rw [hh.empty] at hj
    cases hj
  · rw [hh.record x' u k' j' hg ht hrecord] at hj
    cases hj
    obtain ⟨⟨s', hs', rfl⟩, ⟨k'', hk'', rfl⟩, htime⟩ := record_members ht hrecord
    obtain rfl : s' = s := Except.ok.inj (hs'.symm.trans hs)
    obtain rfl : k'' = k := Except.ok.inj (hk''.symm.trans hk)
    obtain rfl : x'.now = saved_at := Except.ok.inj ((htime h.trunc).symm.trans hsaved)
    obtain rfl : BeamMPAuth.CACHE_TTL = expires_in := Except.ok.inj hexpires
    refine ⟨x'.now, hg, ?_⟩
    unfold age at hage
    split at hage
    · rw [Except.ok.inj hage]
      exact hsince
    · cases hage

/-! ## Logins -/

variable {a : State}

variable (h) in
theorem saveCache_file (sch : Scheme) (x : Auth.Env) (username key : Bytes) (expires_in : Int) (a : State) :
    (saveCache h sch x username key expires_in a).2.token = a.token ∧
      ((saveCache h sch x username key expires_in a).2.file = a.file ∨
        (saveCache h sch x username key expires_in a).2.file = some [] ∨
        ∃ j, Auth.record sch x username key expires_in = .ok j ∧
          (saveCache h sch x username key expires_in a).2.file = some (h.dump 2 j)) := by
  unfold saveCache
  split
  · exact ⟨rfl, .inl rfl⟩
  split
  · exact ⟨rfl, .inl rfl⟩
  cases hj : Auth.record sch x username key expires_in with
  | error f => exact ⟨rfl, .inr (.inl rfl)⟩
  | ok j => exact ⟨rfl, .inr (.inr ⟨j, rfl, rfl⟩)⟩

theorem returnTrue_state (r : Result Unit) : (returnTrue r).2 = r.2 := by
  obtain ⟨_ | _, a⟩ := r <;> rfl

/-- With a key from the server it is stored, and there is no other way to a key but the
    cache file. -/
theorem authenticate_cases (h : Host) (x : Auth.Env) (username password : Bytes) (a : State) :
    (∃ key ≠ [], Issues h BeamMPAuth.scheme x username password key ∧
      BeamMPAuth.authenticate h x username password a =
        returnTrue (saveCache h BeamMPAuth.scheme x username key BeamMPAuth.CACHE_TTL
          { a with username := username, token := key })) ∨
      (∃ e, BeamMPAuth.authenticate h x username password a = (.error e, { a with username := username, token := [] })) ∨
      BeamMPAuth.authenticate h x username password a =
        tryCache h BeamMPAuth.scheme x username { a with username := username, token := [] } := by
  by_cases hissued : ∃ j s, reply h BeamMPAuth.scheme x username password = .json j ∧ Accepts j ∧
      j.value BeamMPAuth.scheme.issued "" = .ok s ∧ utf8 s ≠ []
  · obtain ⟨j, s, hr, hj, hs, hne⟩ := hissued
    refine .inl ⟨utf8 s, hne, ⟨j, s, hr, hj, hs, rfl⟩, ?_⟩
    have hexpires : BeamMPAuth.scheme.expires = false := rfl
    unfold BeamMPAuth.authenticate Auth.authenticate tryLiveAuth
    rw [hr]
    dsimp only [accept]
    rw [hj, hs]
    dsimp only
    rw [if_neg hne, hexpires]
    rfl
  · refine .inr (authenticate_untaken fun j s hr hj hs => ?_)
    by_contra hne
    exact hissued ⟨j, s, hr, hj, hs, hne⟩

/-- What a login leaves in the cache file, and the key it has come to. -/
structure Login (h : Host) (granted : Bytes → Bytes → Int → Prop) (x : Auth.Env) (username : Bytes) (r : Result Bool) :
    Prop where
  file : Stored h granted r.2.file
  key : r.1 = .ok true → r.2.token ≠ [] ∧ ∃ t, granted username r.2.token t ∧ x.now - t ≤ BeamMPAuth.CACHE_TTL

theorem tryCache_login (hh : ReadsRecords h granted) (hf : Stored h granted a.file) :
    Login h granted x username (tryCache h BeamMPAuth.scheme x username a) := by
  rcases tryCache_cases h BeamMPAuth.scheme x username a with ⟨e, -, heq⟩ | ⟨-, -, heq⟩ | ⟨k, hk, -, heq⟩
  · rw [heq]
    exact ⟨hf, nofun⟩
  · rw [heq]
    exact ⟨hf, nofun⟩
  · rw [heq]
    refine ⟨hf, fun htrue => ⟨?_, usable_granted hh hf hk⟩⟩
    rintro rfl
    cases htrue

theorem authenticate_login (hh : ReadsRecords h granted) (hf : Stored h granted a.file)
    (hg : ∀ key, Issues h BeamMPAuth.scheme x username password key → granted username key x.now)
    (ht : -2 ^ 63 ≤ x.now ∧ x.now < 2 ^ 63) :
    Login h granted x username (BeamMPAuth.authenticate h x username password a) := by
  rcases authenticate_cases h x username password a with ⟨key, hne, hissues, heq⟩ | ⟨e, heq⟩ | heq
  · obtain ⟨htoken, hfile⟩ := saveCache_file h BeamMPAuth.scheme x username key BeamMPAuth.CACHE_TTL
      { a with username := username, token := key }
    refine ⟨?_, fun _ => ?_⟩
    · rw [heq, returnTrue_state]
      rcases hfile with hsame | hnil | ⟨j, hj, hnew⟩
      · rw [hsame]
        exact hf
      · rw [hnil]
        exact fun text htext => .inl (Option.some.inj htext).symm
      · rw [hnew]
        exact fun text htext => .inr ⟨x, username, key, j, hg key hissues, ht, hj, (Option.some.inj htext).symm⟩
    · rw [heq, returnTrue_state, htoken]
      refine ⟨hne, x.now, hg key hissues, ?_⟩
      rw [Int.sub_self]
      decide
  · rw [heq]
    exact ⟨hf, nofun⟩
  · rw [heq]
    exact tryCache_login hh hf

/-- A start leaves the keys of the cache file to those they were issued to, and comes to
    such a key. -/
theorem login_key (hh : ReadsRecords h granted) (l : Launch) (hf : Stored h granted file)
    (hg : ∀ u k t, Grants h l u k t → granted u k t) :
    ∃ x ∈ [l.first, l.second], Login h granted x l.start.username (beamMPLogin h l file) := by
  have hfirst : l.first ∈ [l.first, l.second] := List.mem_cons_self
  have hsecond : l.second ∈ [l.first, l.second] := List.mem_cons_of_mem _ (List.mem_singleton_self _)
  unfold beamMPLogin
  dsimp only
  by_cases hpassword : l.start.password ≠ []
  · rw [if_pos hpassword]
    exact ⟨l.first, hfirst, authenticate_login hh hf (fun key hk => hg _ _ _ ⟨rfl, .inl ⟨hk, rfl⟩⟩) (l.times _ hfirst)⟩
  · rw [if_neg hpassword]
    have hcached : Login h granted l.first l.start.username
        (BeamMPAuth.loadCached h l.first l.start.username ⟨[], [], file⟩) := tryCache_login hh hf
    rcases hresult : BeamMPAuth.loadCached h l.first l.start.username ⟨[], [], file⟩ with ⟨e | found, auth⟩
    · rw [hresult] at hcached
      exact ⟨l.first, hfirst, hcached⟩
    · rw [hresult] at hcached
      cases found with
      | true => exact ⟨l.first, hfirst, hcached⟩
      | false =>
        exact ⟨l.second, hsecond, authenticate_login hh hcached.file
          (fun key hk => hg _ _ _ ⟨rfl, .inr ⟨hk, rfl⟩⟩) (l.times _ hsecond)⟩

theorem runBeamMP_file (h : Host) (L : Libs) (l : Launch) (file : Option Bytes) :
    (runBeamMP h L l file).2 = (beamMPLogin h l file).2.file := by
  unfold runBeamMP
  rcases beamMPLogin h l file with ⟨e | ok, auth⟩
  · rfl
  · cases ok with
    | false => rfl
    | true =>
      dsimp only
      cases writeConnectConfig L l.opens l.start.host l.start.username (.ofInt l.start.port) <;> rfl

/-- A connection is made with what the login has come to. -/
theorem runBeamMP_session {L : Libs} {l : Launch} {s : Session} (hs : (runBeamMP h L l file).1 = .ok (some s)) :
    (beamMPLogin h l file).1 = .ok true ∧ s.privateKey = (beamMPLogin h l file).2.token ∧ s.host = l.start.host ∧
      s.port = .ofInt l.start.port := by
  unfold runBeamMP at hs
  rcases hlogin : beamMPLogin h l file with ⟨e | ok, auth⟩
  · rw [hlogin] at hs
    cases hs
  · rw [hlogin] at hs
    cases ok with
    | false => cases hs
    | true =>
      dsimp only at hs
      cases hconfig : writeConnectConfig L l.opens l.start.host l.start.username (.ofInt l.start.port) with
      | error f =>
        rw [hconfig] at hs
        cases hs
      | ok config =>
        rw [hconfig] at hs
        rw [← Option.some.inj (Except.ok.inj hs)]
        exact ⟨rfl, rfl, rfl, rfl⟩

/-- One of these starts has got the key for the user. -/
def Granted (h : Host) (hist : List Started) (username key : Bytes) (now : Int) : Prop :=
  ∃ m ∈ hist, Grants h m.launch username key now

theorem launches_stored {L : Libs} {hist : List Started} (hh : ReadsRecords h granted) (hr : Launches h L hist file)
    (hg : ∀ u k t, Granted h hist u k t → granted u k t) : Stored h granted file := by
  induction hr with
  | none => exact fun _ htext => absurd htext nofun
  | @launch hist file l _ ih =>
    have hbefore := ih fun u k t ⟨m, hm, hk⟩ => hg u k t ⟨m, List.mem_cons_of_mem _ hm, hk⟩
    obtain ⟨x, -, hlogin⟩ := login_key hh l hbefore fun u k t hk => hg u k t ⟨_, List.mem_cons_self, hk⟩
    rw [runBeamMP_file]
    exact hlogin.file

/-- Each start has begun with the cache file that the earlier ones have left. -/
theorem launches_started {L : Libs} {later earlier : List Started} {m : Started}
    (hr : Launches h L (later ++ m :: earlier) file) :
    ∃ before, Launches h L earlier before ∧ m.result = (runBeamMP h L m.launch before).1 := by
  induction later generalizing file with
  | nil =>
    cases hr with
    | launch l hr => exact ⟨_, hr, rfl⟩
  | cons m' later ih =>
    cases hr with
    | launch l hr => exact ih hr

/-! ## The key -/

/-- What a connection comes to that a start has made after earlier ones. -/
structure Honest (h : Host) (m : Started) (earlier : List Started) (s : Session) : Prop where
  chosen : s.host = m.launch.start.host ∧ s.port = .ofInt m.launch.start.port
  some_key : s.privateKey ≠ []
  /-- The key was issued to the user who was typed, now or in the last seven days. -/
  issued : ∃ t, Granted h (m :: earlier) (promptLine m.launch.cin).1 s.privateKey t ∧
    ∃ x ∈ [m.launch.first, m.launch.second], x.now - t ≤ BeamMPAuth.CACHE_TTL
  /-- Whatever the server sends, it is told the key in reply to a map, and nothing else. -/
  told : ∀ (lib : BeamMP.Host) (cb : BeamMP.Callbacks) (w : Nat → Bool) (input : Bytes),
    ∀ turn ∈ BeamMP.turnsOf (BeamMP.readLoop lib cb w (.start s.privateKey) input), BeamMP.Told s.privateKey turn

/-- However often the launcher is started, for whatever servers, with whatever names and
    passwords and answers of the auth server. -/
theorem session_key (h : Host) (L : Libs) (later earlier : List Started) {m : Started} {s : Session}
    (hr : Launches h L (later ++ m :: earlier) file) (hh : ReadsRecords h (Granted h (m :: earlier)))
    (hs : m.result = .ok (some s)) : Honest h m earlier s := by
  obtain ⟨before, hearlier, hresult⟩ := launches_started hr
  rw [hresult] at hs
  obtain ⟨htrue, hkey, hhost, hport⟩ := runBeamMP_session hs
  have hstored : Stored h (Granted h (m :: earlier)) before := launches_stored hh hearlier
    fun u k t ⟨m', hm', hk⟩ => ⟨m', List.mem_cons_of_mem _ hm', hk⟩
  obtain ⟨x, hx, hlogin⟩ := login_key hh m.launch hstored fun u k t hk => ⟨m, List.mem_cons_self, hk⟩
  obtain ⟨hne, t, hgranted, hage⟩ := hlogin.key htrue
  refine ⟨⟨hhost, hport⟩, hkey ▸ hne, ⟨t, ?_, x, hx, hage⟩, fun lib cb w input => BeamMP.readLoop_told lib cb w _ input⟩
  rw [hkey, ← main_username m.launch.main_start]
  exact hgranted

namespace Returning

def direct : Direct := ⟨utf8 "10.0.0.1", utf8 "4444", true⟩

def start (password : String) : Start := ⟨utf8 "10.0.0.1", 4444, .beammp, utf8 "ann", utf8 password, Istream.ofText []⟩

theorem main_direct {cin : Istream UInt8} (rest : Istream UInt8) {password : String}
    (hname : promptLine cin = (utf8 "ann", rest))
    (hpassword : promptLine rest = (utf8 password, Istream.ofText [])) :
    main (some direct) [] cin = .ok (some (start password)) := by
  have hport : stoi direct.port = some 4444 := by decide
  rw [main, hname]
  dsimp only
  rw [hpassword]
  dsimp only
  rw [hport]
  rfl

def keyText : Bytes := utf8 "\x7b\n  \"key\": \"k1\",\n  \"saved_at\": 1000,\n  \"username\": \"ann\"\n\x7d"

def keyJson : Json := .obj [("key", .str "k1"), ("saved_at", .int 1000), ("username", .str "ann")]

def replyText : Bytes := utf8 "\x7b\"message\":\"k1\",\"success\":true\x7d"

def replyJson : Json := .obj [("message", .str "k1"), ("success", .bool true)]

def requestText : Bytes := utf8 "\x7b\"password\":\"ab\",\"username\":\"ann\"\x7d"

def host : Host where
  parse text := if text = keyText then some keyJson else if text = replyText then some replyJson else none
  dump indent _ := if indent = 2 then keyText else requestText
  trunc _ := 0
  sha256 _ := [0xAB]

/-- The auth server answers at first, and is out of reach later. -/
def answered : Auth.Env := ⟨fun _ => some replyText, 1000, true, true⟩

def unanswered : Auth.Env := ⟨fun _ => none, 5000, true, true⟩

/-- `ann` types her password. -/
def typed : Launch where
  args := some direct
  servers := []
  cin := Istream.ofText (utf8 "ann\nsecret\n")
  start := start "secret"
  main_start := main_direct (Istream.ofText (utf8 "secret\n")) (by decide) (by decide)
  beammp := rfl
  first := answered
  second := unanswered
  opens := true
  times := by decide

/-- She comes back, and types none. -/
def returned : Launch where
  args := some direct
  servers := []
  cin := Istream.ofText (utf8 "ann\n\n")
  start := start ""
  main_start := main_direct (Istream.ofText (utf8 "\n")) (by decide) (by decide)
  beammp := rfl
  first := unanswered
  second := unanswered
  opens := true
  times := by decide

theorem reply_answered : reply host BeamMPAuth.scheme answered (utf8 "ann") (utf8 "secret") = .json replyJson := rfl

theorem typed_file : (runBeamMP host Sample.libs typed none).2 = some keyText := by
  rw [runBeamMP_file]
  rfl

theorem parse_key : host.parse keyText = some keyJson := by simp [host]

theorem usable_key : Usable host BeamMPAuth.scheme unanswered (utf8 "ann") (some keyText) (utf8 "k1") :=
  ⟨keyJson, parse_key, ⟨⟨"ann", rfl, rfl⟩, "k1", rfl, rfl⟩, 1000, BeamMPAuth.CACHE_TTL, 4000, rfl, rfl, rfl, by decide⟩

theorem returned_session : ∃ s, (runBeamMP host Sample.libs returned (some keyText)).1 = .ok (some s) := by
  have hread := readCache_eq_some_iff.mpr usable_key
  have hcached : BeamMPAuth.loadCached host returned.first returned.start.username ⟨[], [], some keyText⟩ =
      (.ok true, ⟨utf8 "ann", utf8 "k1", some keyText⟩) := by
    show tryCache host BeamMPAuth.scheme unanswered (utf8 "ann") ⟨utf8 "ann", [], some keyText⟩ = _
    rw [tryCache, hread]
    rfl
  have hconfig : writeConnectConfig Sample.libs returned.opens returned.start.host returned.start.username
      (.ofInt returned.start.port) = .ok (some (utf8 Sample.config.text)) := by
    have hhost : Json.ofBytes returned.start.host = .ok (.str "10.0.0.1") := ofBytes_utf8 "10.0.0.1"
    have huser : Json.ofBytes returned.start.username = .ok (.str "ann") := ofBytes_utf8 "ann"
    rw [writeConnectConfig, if_pos (show returned.opens = true from rfl), hhost, huser]
    rfl
  rw [runBeamMP, beamMPLogin, if_neg (by decide)]
  rw [hcached]
  dsimp only
  rw [hconfig]
  exact ⟨_, rfl⟩

theorem reply_unanswered (username password : Bytes) (j : Json) :
    reply host BeamMPAuth.scheme unanswered username password ≠ .json j := by
  unfold reply
  cases Auth.request host BeamMPAuth.scheme username password <;> exact nofun

/-- The one key that is issued. -/
theorem granted_key {r r' : Except Thrown (Option Session)} {username key : Bytes} {now : Int}
    (hg : Granted host [⟨returned, r⟩, ⟨typed, r'⟩] username key now) :
    username = utf8 "ann" ∧ key = utf8 "k1" ∧ now = 1000 := by
  have hno : ∀ password, ¬ Issues host BeamMPAuth.scheme unanswered username password key :=
    fun password ⟨j, _, hj, _⟩ => reply_unanswered username password j hj
  obtain ⟨m, hm, hu, hissues⟩ := hg
  rcases List.mem_cons.mp hm with rfl | hm
  · rcases hissues with ⟨hissues, -⟩ | ⟨hissues, -⟩ <;> exact absurd hissues (hno _)
  · obtain rfl := List.mem_singleton.mp hm
    rcases hissues with ⟨⟨j, s, hj, -, hs, hkey⟩, hnow⟩ | ⟨hissues, -⟩
    · have hname : utf8 "ann" = username := hu
      subst hname
      cases reply_answered.symm.trans hj
      cases hs
      exact ⟨rfl, hkey.symm, hnow.symm⟩
    · exact absurd hissues (hno _)

theorem readsRecords {r r' : Except Thrown (Option Session)} :
    ReadsRecords host (Granted host [⟨returned, r⟩, ⟨typed, r'⟩]) where
  record := by
    intro x username key j hg ht hj
    obtain ⟨rfl, rfl, hnow⟩ := granted_key hg
    rw [Auth.record, ofBytes_utf8, ofBytes_utf8] at hj
    have hkey : j = keyJson := by
      rw [← Except.ok.inj hj, hnow]
      rfl
    rw [hkey]
    exact parse_key
  empty := by decide

end Returning

/-- `ann` comes back when the auth server is out of reach. -/
theorem session_key_ann : ∃ m earlier s, m.launch = Returning.returned ∧ m.result = .ok (some s) ∧
    Honest Returning.host m earlier s := by
  obtain ⟨s, hs⟩ := Returning.returned_session
  have hfile := Returning.typed_file
  have hr := Launches.launch (h := Returning.host) (L := Sample.libs) Returning.returned (.launch Returning.typed .none)
  rw [hfile] at hr
  exact ⟨_, _, s, rfl, hs, session_key Returning.host Sample.libs [] _ hr Returning.readsRecords hs⟩

end Launcher

end NovaMP
