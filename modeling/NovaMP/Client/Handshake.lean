/-
  NovaMP.Client.Handshake — the answer to the authentication of a BeamMP client
  (`BeamMPClient::handlePacket` in `client/src/compat/beammp_client.cpp`).

  The class comment says: wait for `CODE_MAP`, send the player key, wait for the player
  id. `handlePacket` keeps no phase. It takes any `CODE_AUTH_PLAYER` at any time, cuts
  the number to 16 bits, and swallows what `stoi` throws on a number that is no `int`.

  - `heard`: the packets up to the one that ends the connection, whatever the server sends
    and whichever replies can be written.
  - `handles_leaves`, `handle_handed`: what a packet leaves of the client, whichever callbacks
    are set.
  - `handshake_iff`: the connect callback is used as promised (`Handshake`) exactly if
    these packets are in the promised order, with an id of 16 bits (`Proper`).
  - `accepted_twice`: a server that sends the id twice, and no map.
-/

import NovaMP.Client.BeamMP

namespace NovaMP.BeamMP

open Lib

/-! ## What the server sends -/

/-- The packets that these frames make up; `buf` is what is in `m_split_buf`. -/
def packetsOf (buf : Bytes) : List Packet → List Packet
  | [] => []
  | f :: fs =>
    if f.code = Code.split.byte then packetsOf (buf ++ f.data) fs
    else if f.code = Code.splitFinish.byte then
      match buf ++ f.data with
      | [] => packetsOf [] fs
      | code :: data => ⟨code, data⟩ :: packetsOf [] fs
    else f :: packetsOf buf fs

/-- The number at the beginning of the data. -/
def number (data : Bytes) : Nat := decimal (leadingDigits data)

instance (j : Json) : Decidable (Loggable j) :=
  decidable_of_iff (serverInfo ⟨fun _ => none, fun _ => none, fun _ => none, fun _ => 0⟩ j = .ok ()) (serverInfo_ok_iff j)

instance (h : Host) (p : Packet) : Decidable (Throws h p) :=
  match hj : h.parse p.data with
  | none => .isFalse (by rintro ⟨-, j, hj', -⟩; rw [hj] at hj'; cases hj')
  | some j => decidable_of_iff (p.code = Code.serverInfo.byte ∧ ¬ Loggable j) (by simp [Throws, hj])

/-- A packet that is replied to. -/
def Replied (p : Packet) : Prop :=
  p.code = Code.map.byte ∨ p.code = Code.wait.byte ∨ p.code = Code.ping.byte ∨
    p.code = Code.authPlayer.byte ∧ startsWithDigit p.data = true ∧ number p.data < 2 ^ 31

instance (p : Packet) : Decidable (Replied p) := inferInstanceAs (Decidable (_ ∨ _ ∨ _ ∨ _ ∧ _ ∧ _))

/-- A kick, a packet that throws, or a reply that cannot be written. -/
def Ends (h : Host) (w : Nat → Bool) (n : Nat) (p : Packet) : Prop :=
  p.code = Code.authKick.byte ∨ Throws h p ∨ Replied p ∧ w n = false

instance (h : Host) (w : Nat → Bool) (n : Nat) (p : Packet) : Decidable (Ends h w n p) :=
  inferInstanceAs (Decidable (_ ∨ _ ∨ _ ∧ _))

/-- The packets up to the one that ends the connection; `n` replies were written before. -/
def heard (h : Host) (w : Nat → Bool) (n : Nat) : List Packet → List Packet
  | [] => []
  | p :: ps => p :: if Ends h w n p then [] else heard h w (if Replied p then n + 1 else n) ps

/-- The first `CODE_AUTH_PLAYER` refuses, or comes after the map and has an id of 16
    bits; later ones have a number that is no `int`. -/
def Proper (ps : List Packet) : Prop :=
  ∀ before p after, ps = before ++ p :: after → p.code = Code.authPlayer.byte →
    if ∃ q ∈ before, q.code = Code.authPlayer.byte then startsWithDigit p.data = true ∧ 2 ^ 31 ≤ number p.data
    else startsWithDigit p.data = false ∨ (∃ q ∈ before, q.code = Code.map.byte) ∧ number p.data < 2 ^ 16

/-! ## The promise -/

/-- The calls of the connect callback, each with `playerID()`. -/
def Turn.connects (t : Turn) : List (Bool × UInt16) :=
  t.effects.filterMap fun e =>
    match e with
    | .called (.connect ok _) pid => some (ok, pid)
    | _ => none

structure Handshake (key : Bytes) (ts : List Turn) : Prop where
  /-- The connect callback is called at most once. -/
  once : (ts.flatMap Turn.connects).length ≤ 1
  /-- It is called with `true` only after the key was sent in reply to the map, and then
      `playerID()` is the number of the server. -/
  mapped : ∀ before t after pid, ts = before ++ t :: after → (true, pid) ∈ t.connects →
    (∃ m ∈ before, m.packet.code = Code.map.byte ∧ .wrote true (buildPacket Code.authPlayer.byte key) ∈ m.effects) ∧
      pid.toNat = number t.packet.data
  /-- The first `CODE_AUTH_PLAYER` calls it. -/
  answered : ∀ before t after, ts = before ++ t :: after → t.packet.code = Code.authPlayer.byte →
    (∀ b ∈ before, b.packet.code ≠ Code.authPlayer.byte) → t.connects ≠ []

def turnsOf : Except Thrown Reader → List Turn
  | .ok s => s.turns
  | .error e => e.2.turns

/-! ## The answer to one packet -/

/-- The call of the connect callback that a packet leads to. -/
def answer (p : Packet) : Option Bool :=
  if p.code = Code.authPlayer.byte then
    if startsWithDigit p.data then if number p.data < 2 ^ 31 then some true else none
    else some false
  else none

/-- What is known of a turn. -/
structure Answered (key : Bytes) (t : Turn) : Prop where
  said : t.connects.map (·.1) = (answer t.packet).toList
  id : ∀ pid, (true, pid) ∈ t.connects → pid = .ofNat (number t.packet.data)
  key : t.packet.code = Code.map.byte → ∃ ok, .wrote ok (buildPacket Code.authPlayer.byte key) ∈ t.effects

/-- Every write of the turn has succeeded. -/
def Turn.Written (t : Turn) : Prop := ∀ pkt, .wrote false pkt ∉ t.effects

variable {h : Host} {cb : Callbacks} {w : Nat → Bool}

theorem stoi_number {data : Bytes} (hd : startsWithDigit data = true) :
    stoi data = if number data < 2 ^ 31 then some (number data : Int) else none := by
  cases data with
  | nil => cases hd
  | cons b rest => exact stoi_of_digit hd

theorem answer_of_ne {p : Packet} (hp : p.code ≠ Code.authPlayer.byte) : answer p = none := by
  rw [answer, if_neg hp]

/-- What the actions of a packet have done when they were started with a connection. -/
structure Did (w : Nat → Bool) (c : BeamMPClient) (n : Nat) (p : Packet) (d : Doing) : Prop where
  answered : Answered c.privateKey ⟨p, d.effects⟩
  written : d.client.connected = true → Turn.Written ⟨p, d.effects⟩
  connected : d.client.connected = true ↔ p.code ≠ Code.authKick.byte ∧ (Replied p → w n = true)
  writes : d.writes = if Replied p then n + 1 else n
  splitBuf : d.client.splitBuf = c.splitBuf
  privateKey : d.client.privateKey = c.privateKey

variable {c : BeamMPClient} {n : Nat} {p : Packet}

theorem not_replied (hmap : p.code ≠ Code.map.byte) (hasks : ¬ Asks p)
    (hauth : p.code = Code.authPlayer.byte → startsWithDigit p.data = true → 2 ^ 31 ≤ number p.data) : ¬ Replied p := by
  rintro (hc | hc | hc | ⟨hc, hd, hlt⟩)
  · exact hmap hc
  · exact hasks (.inl hc)
  · exact hasks (.inr hc)
  · have hge := hauth hc hd
    omega

/-- The turn of a packet that is no map and is not answered. -/
theorem answered_none {key : Bytes} {es : List Effect} (hmap : p.code ≠ Code.map.byte) (hanswer : answer p = none)
    (hes : Turn.connects ⟨p, es⟩ = []) : Answered key ⟨p, es⟩ where
  said := by
    rw [hes, hanswer]
    rfl
  id pid hpid := by
    rw [hes] at hpid
    cases hpid
  key hcode := absurd hcode hmap

/-- What a packet leaves of the client, whichever callbacks are set. -/
structure Leaves (w : Nat → Bool) (c : BeamMPClient) (n : Nat) (p : Packet) (d : Doing) : Prop where
  connected : d.client.connected = true ↔ p.code ≠ Code.authKick.byte ∧ (Replied p → w n = true)
  writes : d.writes = if Replied p then n + 1 else n
  splitBuf : d.client.splitBuf = c.splitBuf
  privateKey : d.client.privateKey = c.privateKey

theorem leaves_quiet {d : Doing} (hreply : ¬ Replied p) (hconn : d.client.connected = true ↔ p.code ≠ Code.authKick.byte)
    (hwrites : d.writes = n) (hbuf : d.client.splitBuf = c.splitBuf) (hkey : d.client.privateKey = c.privateKey) :
    Leaves w c n p d where
  connected := hconn.trans ⟨fun h => ⟨h, fun h' => absurd h' hreply⟩, fun h => h.1⟩
  writes := by rw [hwrites, if_neg hreply]
  splitBuf := hbuf
  privateKey := hkey

/-- A reply is written or ends the connection. -/
theorem leaves_reply {d : Doing} (hreply : Replied p) (hkick : p.code ≠ Code.authKick.byte) (hconn : d.client.connected = w n)
    (hwrites : d.writes = n + 1) (hbuf : d.client.splitBuf = c.splitBuf) (hkey : d.client.privateKey = c.privateKey) :
    Leaves w c n p d where
  connected := by
    rw [hconn]
    exact ⟨fun hw => ⟨hkick, fun _ => hw⟩, fun h => h.2 hreply⟩
  writes := by rw [hwrites, if_pos hreply]
  splitBuf := hbuf
  privateKey := hkey

theorem foldl_callIf (cb : Callbacks) (w : Nat → Bool) (d : Doing) (call : Callback) :
    ∃ effects, (callIf cb call).foldl (perform w) d = { d with effects := effects } := by
  rcases callIf_cases cb call with hcall | hcall <;> rw [hcall]
  · exact ⟨d.effects, rfl⟩
  · exact ⟨_, rfl⟩

theorem handles_leaves {as : List Action} (hc : c.connected = true) (ha : Handles cb c.privateKey p as) :
    Leaves w c n p (as.foldl (perform w) ⟨c, n, []⟩) := by
  have hopen : Ordinary p → (c.connected = true ↔ p.code ≠ Code.authKick.byte) := fun hord => iff_of_true hc hord.2.2
  cases ha with
  | map hcode =>
    have hkick : p.code ≠ Code.authKick.byte := by rw [hcode]; decide
    simp only [List.foldl_cons, List.foldl_nil, perform, hc, if_true]
    exact leaves_reply (.inl hcode) hkick rfl rfl rfl rfl
  | @accepted m hcode hdigit hstoi =>
    have hkick : p.code ≠ Code.authKick.byte := by rw [hcode]; decide
    rw [stoi_number hdigit] at hstoi
    split at hstoi <;> cases hstoi
    rename_i hlt
    obtain ⟨effects, hcall⟩ := foldl_callIf cb w
      ([.setPlayerId (.ofInt (number p.data)), .send .ready []].foldl (perform w) ⟨c, n, []⟩) (.connect true [])
    rw [List.foldl_append, hcall]
    simp only [List.foldl_cons, List.foldl_nil, perform, hc, if_true]
    exact leaves_reply (.inr (.inr (.inr ⟨hcode, hdigit, hlt⟩))) hkick rfl rfl rfl rfl
  | swallowed hcode hdigit hstoi =>
    have hmap : p.code ≠ Code.map.byte := by rw [hcode]; decide
    have hkick : p.code ≠ Code.authKick.byte := by rw [hcode]; decide
    rw [stoi_number hdigit] at hstoi
    split at hstoi
    · cases hstoi
    rename_i hlt
    exact leaves_quiet (not_replied hmap (not_asks hcode (by decide)) fun _ _ => by omega) (iff_of_true hc hkick) rfl rfl rfl
  | rejected hcode hdigit =>
    have hmap : p.code ≠ Code.map.byte := by rw [hcode]; decide
    have hkick : p.code ≠ Code.authKick.byte := by rw [hcode]; decide
    have hno : ¬ startsWithDigit p.data = true := by rw [hdigit]; decide
    obtain ⟨effects, hcall⟩ := foldl_callIf cb w ⟨c, n, []⟩ (.connect false p.data)
    rw [hcall]
    exact leaves_quiet (not_replied hmap (not_asks hcode (by decide)) fun _ h => absurd h hno) (iff_of_true hc hkick) rfl rfl rfl
  | kick hcode =>
    have hmap : p.code ≠ Code.map.byte := by rw [hcode]; decide
    have hauth : p.code ≠ Code.authPlayer.byte := by rw [hcode]; decide
    obtain ⟨effects, hcall⟩ := foldl_callIf cb w (perform w ⟨c, n, []⟩ .disconnected)
      (.disconnect (utf8 "Kicked: " ++ p.data))
    rw [List.foldl_cons, hcall]
    exact leaves_quiet (not_replied hmap (not_asks hcode (by decide)) fun h => absurd h hauth)
      (iff_of_false Bool.false_ne_true fun h => h hcode) rfl rfl rfl
  | @tell call hord hasks _ =>
    obtain ⟨effects, hcall⟩ := foldl_callIf cb w ⟨c, n, []⟩ call
    rw [hcall]
    exact leaves_quiet (not_replied hord.1 hasks fun h => absurd h hord.2.1) (hopen hord) rfl rfl rfl
  | reply hord hasks =>
    simp only [List.foldl_cons, List.foldl_nil, perform, hc, if_true]
    exact leaves_reply (.inr (hasks.imp id fun h => .inl h)) hord.2.2 rfl rfl rfl rfl
  | ignore hord hasks =>
    exact leaves_quiet (not_replied hord.1 hasks fun h => absurd h hord.2.1) (hopen hord) rfl rfl rfl

theorem Leaves.did_quiet {d : Doing} (hd : Leaves w c n p d) (ha : Answered c.privateKey ⟨p, d.effects⟩)
    (heffects : ∀ ok pkt, Effect.wrote ok pkt ∉ d.effects) : Did w c n p d :=
  ⟨ha, fun _ pkt => heffects false pkt, hd.connected, hd.writes, hd.splitBuf, hd.privateKey⟩

theorem Leaves.did_reply {d : Doing} {pkt : Bytes} {calls : List Effect} (hd : Leaves w c n p d)
    (ha : Answered c.privateKey ⟨p, d.effects⟩) (heffects : d.effects = .wrote (w n) pkt :: calls)
    (hcalls : ∀ ok pkt', Effect.wrote ok pkt' ∉ calls) (hconn : d.client.connected = w n) : Did w c n p d := by
  refine ⟨ha, fun hc pkt' hmem => ?_, hd.connected, hd.writes, hd.splitBuf, hd.privateKey⟩
  rw [hconn] at hc
  rcases List.mem_cons.mp (heffects ▸ hmem) with he | he
  · rw [hc] at he
    cases he
  · exact hcalls false pkt' he

theorem connects_ordinary {cb : Callback} (hcb : cb.Ordinary) (pid : UInt16) : Turn.connects ⟨p, [.called cb pid]⟩ = [] := by
  cases cb with
  | connect _ _ => cases hcb
  | _ => rfl

theorem handles_did (hcb : cb.connect = true) {as : List Action} (hc : c.connected = true)
    (ha : Handles cb c.privateKey p as) : Did w c n p (as.foldl (perform w) ⟨c, n, []⟩) := by
  have hcall : ∀ ok err, callIf cb (.connect ok err) = [.call (.connect ok err)] := by
    intro ok err
    have hhas : cb.has (.connect ok err) = true := hcb
    rw [callIf, if_pos hhas]
  have hleaves : Leaves w c n p (as.foldl (perform w) ⟨c, n, []⟩) := handles_leaves hc ha
  have hquiet : ∀ d : Doing, Leaves w c n p d → Ordinary p → Turn.connects ⟨p, d.effects⟩ = [] →
      (∀ ok pkt, Effect.wrote ok pkt ∉ d.effects) → Did w c n p d := fun d hd hord hnone heffects =>
    hd.did_quiet (answered_none hord.1 (answer_of_ne hord.2.1) hnone) heffects
  cases ha with
  | map hcode =>
    have hauth : p.code ≠ Code.authPlayer.byte := by rw [hcode]; decide
    simp only [List.foldl_cons, List.foldl_nil, perform, hc, if_true, List.nil_append] at hleaves ⊢
    refine hleaves.did_reply ⟨?_, by simp [Turn.connects], fun _ => ⟨w n, List.mem_singleton_self _⟩⟩ rfl (by simp) rfl
    rw [answer_of_ne hauth]
    rfl
  | @accepted m hcode hdigit hstoi =>
    have hmap : p.code ≠ Code.map.byte := by rw [hcode]; decide
    rw [stoi_number hdigit] at hstoi
    split at hstoi <;> cases hstoi
    rename_i hlt
    simp only [hcall, List.foldl_cons, List.foldl_nil, perform, hc, if_true, List.nil_append, List.cons_append] at hleaves ⊢
    refine hleaves.did_reply ⟨?_, ?_, fun h => absurd h hmap⟩ rfl (by simp) rfl
    · rw [answer, if_pos hcode, if_pos hdigit, if_pos hlt]
      rfl
    · intro pid hpid
      have hpid' : (true, pid) ∈ [(true, UInt16.ofInt (number p.data))] := hpid
      rw [← ofInt16_natCast]
      exact (Prod.mk.inj (List.mem_singleton.mp hpid')).2
  | swallowed hcode hdigit hstoi =>
    have hmap : p.code ≠ Code.map.byte := by rw [hcode]; decide
    rw [stoi_number hdigit] at hstoi
    split at hstoi
    · cases hstoi
    rename_i hlt
    refine hleaves.did_quiet (answered_none hmap ?_ rfl) (by simp)
    rw [answer, if_pos hcode, if_pos hdigit, if_neg hlt]
  | rejected hcode hdigit =>
    have hmap : p.code ≠ Code.map.byte := by rw [hcode]; decide
    have hno : ¬ startsWithDigit p.data = true := by rw [hdigit]; decide
    simp only [hcall, List.foldl_cons, List.foldl_nil, perform, List.nil_append] at hleaves ⊢
    refine hleaves.did_quiet ⟨?_, by simp [Turn.connects], fun h => absurd h hmap⟩ (by simp)
    rw [answer, if_pos hcode, if_neg hno]
    rfl
  | kick hcode =>
    have hmap : p.code ≠ Code.map.byte := by rw [hcode]; decide
    have hauth : p.code ≠ Code.authPlayer.byte := by rw [hcode]; decide
    have hanswer : answer p = none := answer_of_ne hauth
    rcases callIf_cases cb (.disconnect (utf8 "Kicked: " ++ p.data)) with hnone | hone
    · rw [hnone] at hleaves ⊢
      exact hleaves.did_quiet (answered_none hmap hanswer rfl) (by simp [perform])
    · rw [hone] at hleaves ⊢
      exact hleaves.did_quiet (answered_none hmap hanswer rfl) (by simp [perform])
  | @tell call hord hasks hcallord =>
    rcases callIf_cases cb call with hnone | hone
    · rw [hnone] at hleaves ⊢
      exact hquiet _ hleaves hord rfl (by simp)
    · rw [hone] at hleaves ⊢
      exact hquiet _ hleaves hord (connects_ordinary hcallord _) (by simp [perform])
  | @reply code hord hasks =>
    simp only [List.foldl_cons, List.foldl_nil, perform, hc, if_true, List.nil_append] at hleaves ⊢
    refine hleaves.did_reply (answered_none hord.1 ?_ (by simp [Turn.connects])) rfl (by simp) rfl
    exact answer_of_ne hord.2.1
  | ignore hord hasks => exact hquiet _ hleaves hord rfl (by simp)

/-! ## The turns of the loop -/

/-- A call of `handlePacket` that returns has its actions performed, as one turn. -/
theorem handle_ok {s t : Reader} (hr : s.handle h cb w p = .ok t) :
    ∃ as, handlePacket h cb s.client.privateKey p = .ok as ∧
      t = { s with
        client := (as.foldl (perform w) ⟨s.client, s.writes, []⟩).client
        writes := (as.foldl (perform w) ⟨s.client, s.writes, []⟩).writes
        turns := s.turns ++ [⟨p, (as.foldl (perform w) ⟨s.client, s.writes, []⟩).effects⟩] } := by
  rw [Reader.handle] at hr
  cases ha : handlePacket h cb s.client.privateKey p with
  | error f =>
    rw [ha] at hr
    cases hr
  | ok as =>
    rw [ha] at hr
    cases hr
    exact ⟨as, rfl, rfl⟩

/-- What a call of `handlePacket` that returns leaves behind, whichever callbacks are set. -/
structure Handed (h : Host) (w : Nat → Bool) (s t : Reader) (p : Packet) : Prop where
  fine : ¬ Throws h p
  turn : ∃ effects, t.turns = s.turns ++ [⟨p, effects⟩]
  connected : t.client.connected = true ↔ ¬ Ends h w s.writes p
  writes : t.writes = if Replied p then s.writes + 1 else s.writes
  splitBuf : t.client.splitBuf = s.client.splitBuf
  privateKey : t.client.privateKey = s.client.privateKey

theorem handle_handed {s t : Reader} (hs : s.client.connected = true) (hr : s.handle h cb w p = .ok t) :
    Handed h w s t p := by
  obtain ⟨as, ha, rfl⟩ := handle_ok hr
  have hfine : ¬ Throws h p := handlePacket_ok_iff.mp ⟨as, ha⟩
  have hleaves : Leaves w s.client s.writes p _ := handles_leaves hs (handles ha)
  refine ⟨hfine, ⟨_, rfl⟩, hleaves.connected.trans ?_, hleaves.writes, hleaves.splitBuf, hleaves.privateKey⟩
  constructor
  · rintro ⟨hkick, hw⟩ (hk | ht | ⟨hreply, hfail⟩)
    · exact hkick hk
    · exact hfine ht
    · exact Bool.false_ne_true (hfail.symm.trans (hw hreply))
  · intro hends
    refine ⟨fun hk => hends (.inl hk), fun hreply => ?_⟩
    by_contra hfail
    exact hends (.inr (.inr ⟨hreply, Bool.eq_false_iff.mpr hfail⟩))

/-- The same with the connect callback set. -/
structure Took (h : Host) (w : Nat → Bool) (s t : Reader) (p : Packet) : Prop where
  fine : ¬ Throws h p
  turn : ∃ effects, t.turns = s.turns ++ [⟨p, effects⟩] ∧ Answered s.client.privateKey ⟨p, effects⟩ ∧
    (t.client.connected = true → Turn.Written ⟨p, effects⟩)
  connected : t.client.connected = true ↔ ¬ Ends h w s.writes p
  writes : t.writes = if Replied p then s.writes + 1 else s.writes
  splitBuf : t.client.splitBuf = s.client.splitBuf
  privateKey : t.client.privateKey = s.client.privateKey

theorem handle_took (hcb : cb.connect = true) {s t : Reader} (hs : s.client.connected = true)
    (hr : s.handle h cb w p = .ok t) : Took h w s t p := by
  obtain ⟨hfine, -, hconn, hwrites, hbuf, hkey⟩ := handle_handed hs hr
  obtain ⟨as, ha, rfl⟩ := handle_ok hr
  have hdid : Did w s.client s.writes p _ := handles_did hcb hs (handles ha)
  exact ⟨hfine, ⟨_, rfl, hdid.answered, hdid.written⟩, hconn, hwrites, hbuf, hkey⟩

/-- A packet that throws has its turn too. -/
theorem handle_thrown {s : Reader} {e : Thrown} (hr : s.handle h cb w p = .error e) :
    Throws h p ∧ e.2.turns = s.turns ++ [⟨p, []⟩] := by
  rw [Reader.handle] at hr
  cases ha : handlePacket h cb s.client.privateKey p with
  | ok as =>
    rw [ha] at hr
    cases hr
  | error f =>
    rw [ha] at hr
    cases hr
    refine ⟨?_, rfl⟩
    by_contra hno
    obtain ⟨as, has⟩ := handlePacket_ok_iff.mpr hno
    rw [ha] at has
    cases has

/-- Each turn is answered, and all replies but those of the last one are written. -/
structure Good (key : Bytes) (ts : List Turn) : Prop where
  answered : ∀ t ∈ ts, Answered key t
  written : ∀ t ∈ ts.dropLast, t.Written

theorem Good.last {key : Bytes} {t : Turn} (ht : Answered key t) : Good key [t] := ⟨by simpa using ht, by simp⟩

theorem Good.cons {key : Bytes} {t : Turn} {ts : List Turn} (ht : Answered key t) (hw : t.Written) (hts : Good key ts) :
    Good key (t :: ts) := by
  refine ⟨List.forall_mem_cons.mpr ⟨ht, hts.answered⟩, fun u hu => ?_⟩
  cases ts with
  | nil => cases hu
  | cons t' ts =>
    rw [List.dropLast_cons_of_ne_nil (List.cons_ne_nil t' ts)] at hu
    rcases List.mem_cons.mp hu with rfl | hu
    · exact hw
    · exact hts.written u hu

/-- The packets of these turns are `ps`. -/
def Turns (key : Bytes) (s : Reader) (ps : List Packet) (r : Except Thrown Reader) : Prop :=
  ∃ ts, turnsOf r = s.turns ++ ts ∧ ts.map (·.packet) = ps ∧ Good key ts

theorem Turns.none {key : Bytes} (s : Reader) : Turns key s [] (.ok s) :=
  ⟨[], by simp [turnsOf], rfl, by simp, by simp⟩

/-- A packet is handled, and the loop goes on if that does not end the connection. -/
theorem handle_turns (hcb : cb.connect = true) {s : Reader} (hs : s.client.connected = true) {ps : List Packet}
    {rest : Reader → Except Thrown Reader}
    (hstop : ∀ t, t.client.connected = false → turnsOf (rest t) = t.turns)
    (hgo : ∀ t, Took h w s t p → t.client.connected = true → Turns s.client.privateKey t (heard h w t.writes ps) (rest t)) :
    Turns s.client.privateKey s (heard h w s.writes (p :: ps)) (s.handle h cb w p >>= rest) := by
  rw [heard]
  cases hr : s.handle h cb w p with
  | error e =>
    obtain ⟨hthrows, hturns⟩ := handle_thrown hr
    have hmap : p.code ≠ Code.map.byte := by rw [hthrows.1]; decide
    have hauth : p.code ≠ Code.authPlayer.byte := by rw [hthrows.1]; decide
    have hends : Ends h w s.writes p := .inr (.inl hthrows)
    rw [if_pos hends]
    exact ⟨_, hturns, rfl, .last (answered_none hmap (answer_of_ne hauth) rfl)⟩
  | ok t =>
    have ht := handle_took hcb hs hr
    obtain ⟨effects, hturns, hanswered, hwritten⟩ := ht.turn
    show Turns _ s _ (rest t)
    cases hc : t.client.connected with
    | false =>
      have hends : Ends h w s.writes p := by
        by_contra hno
        rw [ht.connected.mpr hno] at hc
        cases hc
      rw [if_pos hends]
      exact ⟨_, (hstop t hc).trans hturns, rfl, .last hanswered⟩
    | true =>
      obtain ⟨ts, hts, hpackets, hgood⟩ := hgo t ht hc
      rw [if_neg (ht.connected.mp hc), ← ht.writes]
      refine ⟨⟨p, effects⟩ :: ts, ?_, ?_, hgood.cons hanswered (hwritten hc)⟩
      · rw [hts, hturns, List.append_assoc]
        rfl
      · rw [List.map_cons, hpackets]

theorem serve_turns (hcb : cb.connect = true) (fs : List Packet) {s : Reader} (hs : s.client.connected = true) :
    Turns s.client.privateKey s (heard h w s.writes (packetsOf s.client.splitBuf fs)) (serve h cb w s fs) := by
  induction fs generalizing s with
  | nil => exact .none s
  | cons f fs ih =>
    have hstop : ∀ t : Reader, t.client.connected = false → turnsOf (serve h cb w t fs) = t.turns := by
      intro t ht
      rw [serve_disconnected ht]
      rfl
    rw [serve, if_pos hs, Reader.frame, packetsOf]
    split
    · -- An `S` frame.
      exact ih (s := s.setSplit (s.client.splitBuf ++ f.data) true) hs
    split
    · -- An `F` frame: what is in the buffer is handled before it is emptied.
      cases s.client.splitBuf ++ f.data with
      | nil => exact ih (s := s.setSplit [] false) hs
      | cons code data =>
        have hfull : (s.setSplit (code :: data) s.client.inSplit).client.connected = true := hs
        have hassoc : ∀ r : Except Thrown Reader, ((do let t ← r; pure (t.setSplit [] false)) >>= fun t => serve h cb w t fs) =
            r >>= fun t => serve h cb w (t.setSplit [] false) fs := by
          intro r
          cases r <;> rfl
        dsimp only
        rw [hassoc]
        refine handle_turns (p := ⟨code, data⟩) hcb hfull (fun t ht => ?_) fun t ht hc => ?_
        · exact hstop (t.setSplit [] false) ht
        · have hnext := ih (s := t.setSplit [] false) hc
          rw [← ht.privateKey]
          exact hnext
    · refine handle_turns hcb hs hstop fun t ht hc => ?_
      have hnext := ih hc
      rw [ht.splitBuf, ht.privateKey] at hnext
      exact hnext

/-! ## The promise and the packets -/

theorem answer_eq_none_iff (hp : p.code = Code.authPlayer.byte) :
    answer p = none ↔ startsWithDigit p.data = true ∧ 2 ^ 31 ≤ number p.data := by
  rw [answer, if_pos hp]
  cases startsWithDigit p.data <;> simp

theorem answer_eq_true_iff : answer p = some true ↔
    p.code = Code.authPlayer.byte ∧ startsWithDigit p.data = true ∧ number p.data < 2 ^ 31 := by
  rw [answer]
  by_cases hp : p.code = Code.authPlayer.byte <;> cases startsWithDigit p.data <;> simp [hp]

theorem Answered.connects_eq_nil_iff {key : Bytes} {t : Turn} (ht : Answered key t) :
    t.connects = [] ↔ answer t.packet = none := by
  rw [← List.map_eq_nil_iff (f := (·.1)), ht.said]
  cases answer t.packet <;> simp

theorem Answered.true_mem_iff {key : Bytes} {t : Turn} (ht : Answered key t) :
    (∃ pid, (true, pid) ∈ t.connects) ↔ answer t.packet = some true := by
  have hmem : (∃ pid, (true, pid) ∈ t.connects) ↔ true ∈ t.connects.map (·.1) := by simp
  rw [hmem, ht.said]
  cases answer t.packet <;> simp

/-- Once one call has been answered the later ones are not, so there is at most one. -/
theorem length_filterMap_le_one {α β : Type} {f : α → Option β} {P : α → Prop} {l : List α} (hP : ∀ a, f a ≠ none → P a)
    (hlater : ∀ before a after, l = before ++ a :: after → (∃ b ∈ before, P b) → f a = none) :
    (l.filterMap f).length ≤ 1 := by
  induction l with
  | nil => simp
  | cons a l ih =>
    cases hfa : f a with
    | none =>
      rw [List.filterMap_cons_none hfa]
      refine ih fun before b after hl hex => hlater (a :: before) b after (by rw [hl]; rfl) ?_
      obtain ⟨c, hc, hPc⟩ := hex
      exact ⟨c, List.mem_cons_of_mem a hc, hPc⟩
    | some v =>
      have hrest : l.filterMap f = [] := by
        rw [List.filterMap_eq_nil_iff]
        intro b hb
        obtain ⟨before, after, hl⟩ := List.append_of_mem hb
        refine hlater (a :: before) b after (by rw [hl]; rfl) ⟨a, List.mem_cons_self, hP a ?_⟩
        rw [hfa]
        exact Option.some_ne_none v
      rw [List.filterMap_cons_some hfa, hrest]
      simp

theorem Good.connects {key : Bytes} {ts : List Turn} (hgood : ∀ t ∈ ts, Answered key t) :
    (ts.flatMap Turn.connects).map (·.1) = (ts.map (·.packet)).filterMap answer := by
  induction ts with
  | nil => rfl
  | cons t ts ih =>
    obtain ⟨ht, hrest⟩ := List.forall_mem_cons.mp hgood
    rw [List.flatMap_cons, List.map_append, ih hrest, ht.said, List.map_cons]
    cases ha : answer t.packet with
    | none => rw [List.filterMap_cons_none ha]; rfl
    | some v => rw [List.filterMap_cons_some ha]; rfl

/-- An earlier turn has written its reply. -/
theorem Good.written_before {key : Bytes} {ts before after : List Turn} {t : Turn} (hgood : Good key ts)
    (hts : ts = before ++ t :: after) {m : Turn} (hm : m ∈ before) : m.Written := by
  refine hgood.written m ?_
  rw [hts, List.dropLast_append_of_ne_nil (List.cons_ne_nil t after)]
  exact List.mem_append_left _ hm

theorem proper_of_handshake {key : Bytes} {ts : List Turn} (hgood : Good key ts) (hs : Handshake key ts) :
    Proper (ts.map (·.packet)) := by
  intro before p after hps hp
  obtain ⟨tb, trest, hts, rfl, htrest⟩ := List.map_eq_append_iff.mp hps
  obtain ⟨t, ta, rfl, rfl, rfl⟩ := List.map_eq_cons_iff.mp htrest
  have ht : Answered key t := hgood.answered t (by rw [hts]; simp)
  split
  · rename_i hlater
    rw [← answer_eq_none_iff hp, ← ht.connects_eq_nil_iff]
    -- The first of the earlier ones was answered.
    obtain ⟨q, hq, hqcode⟩ := hlater
    obtain ⟨u₀, hu₀, rfl⟩ := List.mem_map.mp hq
    have hfind : (tb.find? fun u => u.packet.code = Code.authPlayer.byte).isSome := by
      rw [List.find?_isSome]
      exact ⟨u₀, hu₀, by simpa using hqcode⟩
    obtain ⟨u, hu⟩ := Option.isSome_iff_exists.mp hfind
    obtain ⟨hucode, b₁, b₂, htb, hfirst⟩ := List.find?_eq_some_iff_append.mp hu
    have hanswered := hs.answered b₁ u (b₂ ++ t :: ta) (by rw [hts, htb]; simp) (by simpa using hucode)
      fun b hb => by simpa using hfirst b hb
    have hone := hs.once
    rw [hts, htb] at hone
    simp only [List.flatMap_append, List.flatMap_cons, List.length_append] at hone
    have hpos : 0 < u.connects.length := List.length_pos_iff.mpr hanswered
    exact List.length_eq_zero_iff.mp (by omega)
  · rename_i hfirst
    have hanswered := hs.answered tb t ta hts hp fun b hb hb' => hfirst ⟨_, List.mem_map_of_mem hb, hb'⟩
    rw [Ne, ht.connects_eq_nil_iff, answer_eq_none_iff hp] at hanswered
    cases hdigit : startsWithDigit t.packet.data with
    | false => exact .inl rfl
    | true =>
      have hlt : number t.packet.data < 2 ^ 31 := by
        by_contra hge
        exact hanswered ⟨hdigit, Nat.le_of_not_lt hge⟩
      obtain ⟨pid, hpid⟩ := ht.true_mem_iff.mpr (answer_eq_true_iff.mpr ⟨hp, hdigit, hlt⟩)
      obtain ⟨⟨m, hm, hmcode, -⟩, hnum⟩ := hs.mapped tb t ta pid hts hpid
      exact .inr ⟨⟨_, List.mem_map_of_mem hm, hmcode⟩, hnum ▸ pid.toNat_lt⟩

theorem handshake_of_proper {key : Bytes} {ts : List Turn} (hgood : Good key ts) (hp : Proper (ts.map (·.packet))) :
    Handshake key ts := by
  have hsplit : ∀ before t after, ts = before ++ t :: after →
      ts.map (·.packet) = before.map (·.packet) ++ t.packet :: after.map (·.packet) := by
    intro before t after hts
    rw [hts, List.map_append, List.map_cons]
  refine ⟨?_, ?_, ?_⟩
  · rw [← List.length_map (·.1), Good.connects hgood.answered]
    refine length_filterMap_le_one (P := fun q => q.code = Code.authPlayer.byte) (fun q hq => ?_) fun before q after hl hex => ?_
    · by_contra hne
      exact hq (answer_of_ne hne)
    · by_cases hq : q.code = Code.authPlayer.byte
      · have hproper := hp before q after hl hq
        rw [if_pos hex] at hproper
        exact (answer_eq_none_iff hq).mpr hproper
      · exact answer_of_ne hq
  · intro before t after pid hts hpid
    have ht : Answered key t := hgood.answered t (by rw [hts]; simp)
    obtain ⟨hcode, hdigit, hlt⟩ := answer_eq_true_iff.mp (ht.true_mem_iff.mp ⟨pid, hpid⟩)
    have hproper := hp _ _ _ (hsplit before t after hts) hcode
    split at hproper
    · omega
    · obtain ⟨⟨q, hq, hqcode⟩, hsmall⟩ := hproper.resolve_left (by simp [hdigit])
      obtain ⟨m, hm, rfl⟩ := List.mem_map.mp hq
      obtain ⟨ok, hok⟩ := (hgood.answered m (by rw [hts]; exact List.mem_append_left _ hm)).key hqcode
      cases ok with
      | false => exact absurd hok (hgood.written_before hts hm _)
      | true =>
        refine ⟨⟨m, hm, hqcode, hok⟩, ?_⟩
        rw [ht.id pid hpid, UInt16.toNat_ofNat']
        exact Nat.mod_eq_of_lt hsmall
  · intro before t after hts hcode hfirst
    have ht : Answered key t := hgood.answered t (by rw [hts]; simp)
    have hproper := hp _ _ _ (hsplit before t after hts) hcode
    rw [Ne, ht.connects_eq_nil_iff, answer_eq_none_iff hcode]
    rintro ⟨hdigit, hge⟩
    split at hproper
    · rename_i hex
      obtain ⟨q, hq, hqcode⟩ := hex
      obtain ⟨b, hb, rfl⟩ := List.mem_map.mp hq
      exact hfirst b hb hqcode
    · rcases hproper with hno | ⟨-, hsmall⟩
      · rw [hno] at hdigit
        cases hdigit
      · omega

/-- The end of the loop makes no turn. -/
theorem turnsOf_readLoop (s : Reader) (input : Bytes) :
    turnsOf (readLoop h cb w s input) = turnsOf (serve h cb w s (framesOf input)) := by
  rw [readLoop_eq]
  cases serve h cb w s (framesOf input) <;> rfl

/-- Whatever bytes the server sends and whichever replies can be written. -/
theorem handshake_iff (h : Host) (cb : Callbacks) (w : Nat → Bool) (key input : Bytes) (hcb : cb.connect = true) :
    Handshake key (turnsOf (readLoop h cb w (.start key) input)) ↔ Proper (heard h w 0 (packetsOf [] (framesOf input))) := by
  have hturns : Turns key (.start key) _ (serve h cb w (.start key) (framesOf input)) :=
    serve_turns hcb (framesOf input) (s := .start key) rfl
  obtain ⟨ts, hts, hpackets, hgood⟩ := hturns
  have hloop : turnsOf (readLoop h cb w (.start key) input) = ts := by
    rw [turnsOf_readLoop, hts]
    rfl
  have hps : ts.map (·.packet) = heard h w 0 (packetsOf [] (framesOf input)) := hpackets
  rw [hloop, ← hps]
  exact ⟨proper_of_handshake hgood, handshake_of_proper hgood⟩

/-! ## Two servers -/

namespace Servers

def map : Packet := ⟨Code.map.byte, [103, 114, 105, 100]⟩

/-- The player id 7. -/
def seven : Packet := ⟨Code.authPlayer.byte, [55]⟩

def bytes (ps : List Packet) : Bytes := ps.flatMap fun p => buildPacket p.code p.data

theorem proper_seven : Proper [map, seven] := by
  intro before p after hps hp
  rcases before with _ | ⟨a, _ | ⟨b, _ | ⟨d, before⟩⟩⟩
  · cases hps
    cases hp
  · cases hps
    decide
  · cases hps
  · cases hps

end Servers

theorem handshake_seven : Handshake [1] (turnsOf (readLoop Sample.host Sample.callbacks noError (.start [1])
    (Servers.bytes [Servers.map, Servers.seven]))) := by
  refine (handshake_iff Sample.host Sample.callbacks noError [1] (Servers.bytes [Servers.map, Servers.seven]) rfl).mpr ?_
  have hframes : framesOf (Servers.bytes [Servers.map, Servers.seven]) = [Servers.map, Servers.seven] := framesOf_build (by decide)
  have hheard : heard Sample.host noError 0 (packetsOf [] [Servers.map, Servers.seven]) = [Servers.map, Servers.seven] := by decide
  rw [hframes, hheard]
  exact Servers.proper_seven

/-- A server that sends the id twice, and no map. -/
theorem accepted_twice : ¬ ∀ (h : Host) (cb : Callbacks) (w : Nat → Bool) (key input : Bytes), cb.connect = true →
    Handshake key (turnsOf (readLoop h cb w (.start key) input)) := by
  intro hall
  have hs := hall Sample.host Sample.callbacks noError [1] (Servers.bytes [Servers.seven, Servers.seven]) rfl
  have hframes : framesOf (Servers.bytes [Servers.seven, Servers.seven]) = [Servers.seven, Servers.seven] :=
    framesOf_build (by decide)
  have hturns : (turnsOf (serve Sample.host Sample.callbacks noError (.start [1]) [Servers.seven, Servers.seven])).flatMap
      Turn.connects = [(true, 7), (true, 7)] := rfl
  have hone := hs.once
  rw [turnsOf_readLoop, hframes, hturns] at hone
  simp at hone

end NovaMP.BeamMP
