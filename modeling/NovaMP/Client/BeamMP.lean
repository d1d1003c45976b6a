/-
  NovaMP.Client.BeamMP — the client of the BeamMP protocol
  (`client/src/compat/beammp_client.cpp`, `beammp_protocol.hpp`, `beammp_protocol.cpp`).

  A frame is a code byte, a size in three bytes (little-endian) and the data. `readLoop`
  puts the data of `S` frames together with that of the `F` frame after them and takes
  the result for a code byte and its data. `handlePacket` never reads what it changes,
  except `m_connected` in `send`, so what it does is a list of actions.

  Here the loop runs alone (`NovaMP.Client.Lifetime` has it beside other threads): the
  server has sent some bytes and then closes, and `writes n` says whether the `n`-th
  `asio::write` succeeds.

  - `handles`: what `handlePacket` can do. It throws on server info of an unexpected
    shape (`Throws`), as `value` is called outside the `try` block, and on nothing else.
  - `readLoop_eq`: on any bytes, the loop serves the complete frames one after the other
    (`serve`), up to the one that ends the connection.
-/

import NovaMP.Lib.Loop
import NovaMP.Network.Members

namespace NovaMP.BeamMP

open Lib

/-! ## The protocol -/

inductive Code where
  | authPlayer | authKick | chat | disconnect | map | ok | ping | pong | ready | sync | vehicleSpawn | vehicleDel
  | vehicleReset | electrics | nodeMoved | split | splitFinish | serverInfo | wait
  deriving DecidableEq, Repr

def Code.byte : Code → UInt8
  | authPlayer => 80
  | authKick => 75
  | chat => 67
  | disconnect => 68
  | map => 77
  | ok => 79
  | ping => 112
  | pong => 113
  | ready => 82
  | sync => 84
  | vehicleSpawn => 86
  | vehicleDel => 88
  | vehicleReset => 90
  | electrics => 69
  | nodeMoved => 78
  | split => 83
  | splitFinish => 70
  | serverInfo => 73
  | wait => 87

/-- A frame, or a packet: a code byte, which may be no `Code`, and data. -/
structure Packet where
  code : UInt8
  data : Bytes
  deriving DecidableEq

/-- `sz` is 32 bits wide, and three of its bytes are written. -/
def buildPacket (code : UInt8) (data : Bytes) : Bytes :=
  let sz := data.length % 2 ^ 32
  code :: leBytes 3 sz ++ data.take sz

structure Transform where
  playerId : UInt16
  vehicleId : UInt8
  /-- Floats as their bits. -/
  pos : Arr3 UInt32
  rot : Arr4 UInt32
  vel : Arr3 UInt32
  angVel : Arr3 UInt32
  timestamp : UInt64
  deriving DecidableEq

/-- What the standard library and `nlohmann::json` compute: a text as a float or a double
    (`none` if that throws), a document (`none` if it is none), a double as an integer. -/
structure Host where
  parse : Bytes → Option Json
  stof : Bytes → Option UInt32
  stod : Bytes → Option UInt64
  trunc : UInt64 → Int

/-- The pieces `std::getline` gives: there is none after a separator at the end. -/
def getlines (sep : UInt8) (text : Bytes) : List Bytes :=
  let parts := text.splitOn sep
  if parts.getLast? = some [] then parts.dropLast else parts

/-- What stands before the first `sep` and after it. -/
def cutAt (sep : UInt8) (text : Bytes) : Option (Bytes × Bytes) :=
  (text.idxOf? sep).map fun i => (text.take i, text.drop (i + 1))

/-- `"<pid>-<vid>"` -/
def parseIds (text : Bytes) : Option (UInt16 × UInt8) := do
  let (first, second) ← cutAt 45 text
  let pid ← stoi first
  let vid ← stoi second
  pure (.ofInt pid, .ofInt vid)

def parseTransform (h : Host) (data : Bytes) : Option Transform := do
  let parts := getlines 58 data
  if parts.length < 14 then none
  else
    let at? (i : Nat) : Option UInt32 := (parts[i]?).bind h.stof
    let (pid, vid) ← (parts[0]?).bind parseIds
    let pos : Arr3 UInt32 := ⟨← at? 1, ← at? 2, ← at? 3⟩
    let rot : Arr4 UInt32 := ⟨← at? 4, ← at? 5, ← at? 6, ← at? 7⟩
    let vel : Arr3 UInt32 := ⟨← at? 8, ← at? 9, ← at? 10⟩
    let angVel : Arr3 UInt32 := ⟨← at? 11, ← at? 12, ← at? 13⟩
    let timestamp ← match parts[14]? with
      | some part => h.stod part
      | none => some 0
    pure ⟨pid, vid, pos, rot, vel, angVel, timestamp⟩

/-! ## `handlePacket` -/

inductive Callback where
  | connect (ok : Bool) (err : Bytes)
  | disconnect (reason : Bytes)
  | chat (message : Bytes)
  | vehicle (t : Transform)
  | spawn (pid : UInt16) (vid : UInt8) (modelData : Bytes)
  | delete (pid : UInt16) (vid : UInt8)
  deriving DecidableEq

/-- Which callbacks are set. -/
structure Callbacks where
  connect : Bool
  disconnect : Bool
  chat : Bool
  vehicle : Bool
  spawn : Bool
  delete : Bool

def Callbacks.has (cb : Callbacks) : Callback → Bool
  | .connect _ _ => cb.connect
  | .disconnect _ => cb.disconnect
  | .chat _ => cb.chat
  | .vehicle _ => cb.vehicle
  | .spawn _ _ _ => cb.spawn
  | .delete _ _ => cb.delete

inductive Action where
  | setMapName (name : Bytes)
  | setPlayerId (id : UInt16)
  | send (code : Code) (data : Bytes)
  /-- `m_connected = false` -/
  | disconnected
  | call (c : Callback)
  deriving DecidableEq

/-- `if (cb) cb(…)` -/
def callIf (cb : Callbacks) (c : Callback) : List Action := if cb.has c then [.call c] else []

/-- The members that are logged; `value` throws on what it cannot convert. -/
def serverInfo (h : Host) (j : Json) : Except Fault Unit := do
  let _ ← j.value "name" "?"
  let _ ← j.value "map" "?"
  let _ ← j.valueNumber h.trunc "players" 0
  let _ ← j.valueNumber h.trunc "maxPlayers" 0

def startsWithDigit (data : Bytes) : Bool := data.head?.any isDigit

/-- `key` is `m_private_key`. -/
def handlePacket (h : Host) (cb : Callbacks) (key : Bytes) (p : Packet) : Except Fault (List Action) :=
  let data := p.data
  if p.code = Code.map.byte then .ok [.setMapName data, .send .authPlayer key]
  else if p.code = Code.authPlayer.byte then
    if startsWithDigit data then
      match stoi data with
      | some n => .ok ([.setPlayerId (.ofInt n), .send .ready []] ++ callIf cb (.connect true []))
      | none => .ok []
    else .ok (callIf cb (.connect false data))
  else if p.code = Code.authKick.byte then .ok (.disconnected :: callIf cb (.disconnect (utf8 "Kicked: " ++ data)))
  else if p.code = Code.chat.byte then .ok (callIf cb (.chat data))
  else if p.code = Code.sync.byte then
    match parseTransform h data with
    | some t => .ok (callIf cb (.vehicle t))
    | none => .ok []
  else if p.code = Code.vehicleSpawn.byte then
    match cutAt 58 data with
    | some (idPart, modelData) =>
      match parseIds idPart with
      | some (pid, vid) => .ok (callIf cb (.spawn pid vid modelData))
      | none => .ok []
    | none => .ok []
  else if p.code = Code.vehicleDel.byte then
    match parseIds data with
    | some (pid, vid) => .ok (callIf cb (.delete pid vid))
    | none => .ok []
  else if p.code = Code.serverInfo.byte then
    match h.parse data with
    | some j => (serverInfo h j).map fun _ => []
    | none => .ok []
  else if p.code = Code.wait.byte then .ok [.send .ok []]
  else if p.code = Code.ping.byte then .ok [.send .pong []]
  else .ok []

/-! ## Server info that cannot be logged -/

def IsText (v : Json) : Prop := ∃ t, v = .str t

def IsNumber (v : Json) : Prop := (∃ n, v = .int n) ∨ (∃ bits, v = .real bits) ∨ ∃ b, v = .bool b

/-- An object whose members have the types that `handlePacket` logs. -/
def Loggable (j : Json) : Prop :=
  ∃ members, j = .obj members ∧ (∀ key ∈ ["name", "map"], ∀ v, members.lookup key = some v → IsText v) ∧
    ∀ key ∈ ["players", "maxPlayers"], ∀ v, members.lookup key = some v → IsNumber v

/-- A server info packet with JSON of another shape. -/
def Throws (h : Host) (p : Packet) : Prop :=
  p.code = Code.serverInfo.byte ∧ ∃ j, h.parse p.data = some j ∧ ¬ Loggable j

variable {h : Host} {cb : Callbacks}

theorem value_ok_iff (members : List (String × Json)) (key dflt : String) :
    (∃ t, (Json.obj members).value key dflt = .ok t) ↔ ∀ v, members.lookup key = some v → IsText v :=
  Json.value_ok_iff_has.trans Json.has_obj_iff

theorem valueNumber_ok_iff (members : List (String × Json)) (key : String) (dflt : Int) :
    (∃ n, (Json.obj members).valueNumber h.trunc key dflt = .ok n) ↔ ∀ v, members.lookup key = some v → IsNumber v :=
  Json.valueNumber_ok_iff_has.trans Json.has_obj_iff

theorem serverInfo_ok_iff (j : Json) : serverInfo h j = .ok () ↔ Loggable j := by
  cases j with
  | obj members =>
    have hiff : Loggable (.obj members) ↔ ((∃ t, (Json.obj members).value "name" "?" = .ok t) ∧
        ∃ t, (Json.obj members).value "map" "?" = .ok t) ∧
        (∃ n, (Json.obj members).valueNumber h.trunc "players" 0 = .ok n) ∧
        ∃ n, (Json.obj members).valueNumber h.trunc "maxPlayers" 0 = .ok n := by
      rw [value_ok_iff, value_ok_iff, valueNumber_ok_iff, valueNumber_ok_iff, Loggable]
      constructor
      · rintro ⟨m, hm, htexts, hnumbers⟩
        cases hm
        simpa using And.intro htexts hnumbers
      · intro hall
        exact ⟨members, rfl, by simpa using hall.1, by simpa using hall.2⟩
    rw [hiff, serverInfo]
    cases (Json.obj members).value "name" "?" <;> cases (Json.obj members).value "map" "?" <;>
      cases (Json.obj members).valueNumber h.trunc "players" 0 <;>
      cases (Json.obj members).valueNumber h.trunc "maxPlayers" 0 <;> simp [bind, Except.bind, pure, Except.pure]
  | null | bool _ | int _ | real _ | str _ | arr _ =>
    refine iff_of_false (fun hok => ?_) fun ⟨_, hm, _⟩ => by cases hm
    cases hok

/-! ## What `handlePacket` does -/

theorem mem_callIf {c : Callback} {a : Action} (ha : a ∈ callIf cb c) : a = .call c := by
  rw [callIf] at ha
  split at ha
  · exact List.mem_singleton.mp ha
  · cases ha

theorem callIf_cases (cb : Callbacks) (c : Callback) : callIf cb c = [] ∨ callIf cb c = [.call c] := by
  rw [callIf]
  split
  · exact .inr rfl
  · exact .inl rfl

/-- No `CODE_MAP`, `CODE_AUTH_PLAYER` or `CODE_AUTH_KICK`. -/
def Ordinary (p : Packet) : Prop :=
  p.code ≠ Code.map.byte ∧ p.code ≠ Code.authPlayer.byte ∧ p.code ≠ Code.authKick.byte

/-- `CODE_WAIT` and `CODE_PING`. -/
def Asks (p : Packet) : Prop := p.code = Code.wait.byte ∨ p.code = Code.ping.byte

theorem not_asks {p : Packet} {c : Code} (hp : p.code = c.byte) (hc : c ≠ .wait ∧ c ≠ .ping) : ¬ Asks p := by
  rw [Asks, hp]
  revert hc
  cases c <;> decide

/-- A callback of the game, not of the connection. -/
def Callback.Ordinary : Callback → Prop
  | .connect _ _ | .disconnect _ => False
  | _ => True

inductive Handles (cb : Callbacks) (key : Bytes) (p : Packet) : List Action → Prop
  | map : p.code = Code.map.byte → Handles cb key p [.setMapName p.data, .send .authPlayer key]
  | accepted {n : Int} : p.code = Code.authPlayer.byte → startsWithDigit p.data = true → stoi p.data = some n →
      Handles cb key p ([.setPlayerId (.ofInt n), .send .ready []] ++ callIf cb (.connect true []))
  | swallowed : p.code = Code.authPlayer.byte → startsWithDigit p.data = true → stoi p.data = none → Handles cb key p []
  | rejected : p.code = Code.authPlayer.byte → startsWithDigit p.data = false →
      Handles cb key p (callIf cb (.connect false p.data))
  | kick : p.code = Code.authKick.byte →
      Handles cb key p (.disconnected :: callIf cb (.disconnect (utf8 "Kicked: " ++ p.data)))
  | tell {c : Callback} : Ordinary p → ¬ Asks p → c.Ordinary → Handles cb key p (callIf cb c)
  | reply {code : Code} : Ordinary p → Asks p → Handles cb key p [.send code []]
  | ignore : Ordinary p → ¬ Asks p → Handles cb key p []

theorem handles {key : Bytes} {p : Packet} {as : List Action} (hp : handlePacket h cb key p = .ok as) :
    Handles cb key p as := by
  unfold handlePacket at hp
  dsimp only at hp
  by_cases hmap : p.code = Code.map.byte
  · rw [if_pos hmap] at hp
    cases hp
    exact .map hmap
  rw [if_neg hmap] at hp
  by_cases hauth : p.code = Code.authPlayer.byte
  · rw [if_pos hauth] at hp
    by_cases hdigit : startsWithDigit p.data = true
    · rw [if_pos hdigit] at hp
      cases hn : stoi p.data <;> rw [hn] at hp <;> cases hp
      · exact .swallowed hauth hdigit hn
      · exact .accepted hauth hdigit hn
    · rw [if_neg hdigit] at hp
      cases hp
      exact .rejected hauth (Bool.eq_false_iff.mpr hdigit)
  rw [if_neg hauth] at hp
  by_cases hkick : p.code = Code.authKick.byte
  · rw [if_pos hkick] at hp
    cases hp
    exact .kick hkick
  rw [if_neg hkick] at hp
  have hord : Ordinary p := ⟨hmap, hauth, hkick⟩
  by_cases hchat : p.code = Code.chat.byte
  · rw [if_pos hchat] at hp
    cases hp
    exact .tell hord (not_asks hchat (by decide)) trivial
  rw [if_neg hchat] at hp
  by_cases hsync : p.code = Code.sync.byte
  · rw [if_pos hsync] at hp
    have hno := not_asks hsync (by decide)
    cases ht : parseTransform h p.data <;> rw [ht] at hp <;> cases hp
    · exact .ignore hord hno
    · exact .tell hord hno trivial
  rw [if_neg hsync] at hp
  by_cases hspawn : p.code = Code.vehicleSpawn.byte
  · rw [if_pos hspawn] at hp
    have hno := not_asks hspawn (by decide)
    split at hp
    · split at hp <;> cases hp
      · exact .tell hord hno trivial
      · exact .ignore hord hno
    · cases hp
      exact .ignore hord hno
  rw [if_neg hspawn] at hp
  by_cases hdel : p.code = Code.vehicleDel.byte
  · rw [if_pos hdel] at hp
    have hno := not_asks hdel (by decide)
    split at hp <;> cases hp
    · exact .tell hord hno trivial
    · exact .ignore hord hno
  rw [if_neg hdel] at hp
  by_cases hinfo : p.code = Code.serverInfo.byte
  · rw [if_pos hinfo] at hp
    have hno := not_asks hinfo (by decide)
    cases hj : h.parse p.data with
    | none =>
      rw [hj] at hp
      cases hp
      exact .ignore hord hno
    | some j =>
      rw [hj] at hp
      dsimp only at hp
      cases hi : serverInfo h j <;> rw [hi] at hp <;> cases hp
      exact .ignore hord hno
  rw [if_neg hinfo] at hp
  by_cases hwait : p.code = Code.wait.byte
  · rw [if_pos hwait] at hp
    cases hp
    exact .reply hord (.inl hwait)
  rw [if_neg hwait] at hp
  by_cases hping : p.code = Code.ping.byte
  · rw [if_pos hping] at hp
    cases hp
    exact .reply hord (.inr hping)
  · rw [if_neg hping] at hp
    cases hp
    exact .ignore hord (not_or.mpr ⟨hwait, hping⟩)

theorem handlePacket_serverInfo {key : Bytes} {p : Packet} (hcode : p.code = Code.serverInfo.byte) :
    handlePacket h cb key p = match h.parse p.data with
      | some j => (serverInfo h j).map fun _ => []
      | none => .ok [] := by
  obtain ⟨code, data⟩ := p
  cases hcode
  rfl

theorem ok_ite {c : Prop} [Decidable c] {r r' : Except Fault (List Action)} (hr : ∃ as, r = .ok as)
    (hr' : ∃ as, r' = .ok as) : ∃ as, (if c then r else r') = .ok as := by
  split
  · exact hr
  · exact hr'

theorem handlePacket_other (key : Bytes) {p : Packet} (hcode : p.code ≠ Code.serverInfo.byte) :
    ∃ as, handlePacket h cb key p = .ok as := by
  unfold handlePacket
  dsimp only
  rw [if_neg hcode]
  refine ok_ite ⟨_, rfl⟩ (ok_ite ?authPlayer (ok_ite ⟨_, rfl⟩ (ok_ite ⟨_, rfl⟩ (ok_ite ?sync (ok_ite ?spawn
    (ok_ite ?delete (ok_ite ⟨_, rfl⟩ (ok_ite ⟨_, rfl⟩ ⟨_, rfl⟩))))))))
  case authPlayer =>
    refine ok_ite ?_ ⟨_, rfl⟩
    cases stoi p.data <;> exact ⟨_, rfl⟩
  case sync => cases parseTransform h p.data <;> exact ⟨_, rfl⟩
  case spawn =>
    cases cutAt 58 p.data with
    | none => exact ⟨_, rfl⟩
    | some parts => cases hids : parseIds parts.1 <;> exact ⟨_, by simp only [hids]; rfl⟩
  case delete => cases parseIds p.data <;> exact ⟨_, rfl⟩

/-- Only server info throws. -/
theorem handlePacket_ok_iff {key : Bytes} {p : Packet} : (∃ as, handlePacket h cb key p = .ok as) ↔ ¬ Throws h p := by
  by_cases hcode : p.code = Code.serverInfo.byte
  · rw [handlePacket_serverInfo hcode]
    cases hparse : h.parse p.data with
    | none =>
      refine iff_of_true ⟨[], rfl⟩ fun ht => ?_
      obtain ⟨-, j, hj, -⟩ := ht
      rw [hparse] at hj
      cases hj
    | some j =>
      have hiff : (∃ as, (serverInfo h j).map (fun _ => ([] : List Action)) = .ok as) ↔ serverInfo h j = .ok () := by
        cases serverInfo h j <;> simp [Except.map]
      show (∃ as, (serverInfo h j).map (fun _ => ([] : List Action)) = .ok as) ↔ _
      rw [hiff, serverInfo_ok_iff]
      constructor
      · rintro hl ⟨-, j', hj', hbad⟩
        rw [hparse] at hj'
        cases hj'
        exact hbad hl
      · intro hnot
        by_contra hbad
        exact hnot ⟨hcode, j, hparse, hbad⟩
  · exact iff_of_true (handlePacket_other key hcode) fun ht => hcode ht.1

/-! ## The client -/

structure BeamMPClient where
  connected : Bool
  playerId : UInt16
  mapName : Bytes
  privateKey : Bytes
  splitBuf : Bytes
  inSplit : Bool
  deriving DecidableEq

/-- The client as `connect` leaves it with a connection. -/
def BeamMPClient.start (key : Bytes) : BeamMPClient := ⟨true, 0, [], key, [], false⟩

inductive Effect where
  | wrote (ok : Bool) (packet : Bytes)
  /-- A callback, and what `playerID()` is as it runs. -/
  | called (c : Callback) (playerId : UInt16)
  deriving DecidableEq

/-- A call of `handlePacket`. -/
structure Turn where
  packet : Packet
  effects : List Effect
  deriving DecidableEq

/-- The client, the number of calls of `asio::write`, the calls of `handlePacket`, and
    what the end of the loop did. -/
structure Reader where
  client : BeamMPClient
  writes : Nat
  turns : List Turn
  ending : List Effect
  deriving DecidableEq

def Reader.start (key : Bytes) : Reader := ⟨.start key, 0, [], []⟩

/-- An exception that leaves `readLoop`, and the state it is thrown in. -/
abbrev Thrown := Fault × Reader

variable (h cb) (w : Nat → Bool)

structure Doing where
  client : BeamMPClient
  writes : Nat
  effects : List Effect

def perform (d : Doing) : Action → Doing
  | .setMapName name => { d with client := { d.client with mapName := name } }
  | .setPlayerId id => { d with client := { d.client with playerId := id } }
  | .send code data =>
    if d.client.connected then
      { client := { d.client with connected := w d.writes }
        writes := d.writes + 1
        effects := d.effects ++ [.wrote (w d.writes) (buildPacket code.byte data)] }
    else d
  | .disconnected => { d with client := { d.client with connected := false } }
  | .call c => { d with effects := d.effects ++ [.called c d.client.playerId] }

def Reader.handle (s : Reader) (p : Packet) : Except Thrown Reader :=
  match handlePacket h cb s.client.privateKey p with
  | .error f => .error (f, { s with turns := s.turns ++ [⟨p, []⟩] })
  | .ok actions =>
    let d := actions.foldl (perform w) ⟨s.client, s.writes, []⟩
    .ok { s with client := d.client, writes := d.writes, turns := s.turns ++ [⟨p, d.effects⟩] }

def Reader.setSplit (s : Reader) (buf : Bytes) (inSplit : Bool) : Reader :=
  { s with client := { s.client with splitBuf := buf, inSplit := inSplit } }

/-- The part of the loop after the two reads. -/
def Reader.frame (s : Reader) (f : Packet) : Except Thrown Reader :=
  if f.code = Code.split.byte then .ok (s.setSplit (s.client.splitBuf ++ f.data) true)
  else if f.code = Code.splitFinish.byte then
    match s.client.splitBuf ++ f.data with
    | [] => .ok (s.setSplit [] false)
    | code :: data => do
      let s ← (s.setSplit (code :: data) s.client.inSplit).handle h cb w ⟨code, data⟩
      pure (s.setSplit [] false)
  else s.handle h cb w f

/-- The two reads: the first frame of the input, if it is all there, and the rest. -/
def firstFrame (input : Bytes) : Option (Packet × Bytes) :=
  match input with
  | code :: b1 :: b2 :: b3 :: input =>
    let size := ofLE [b1, b2, b3]
    -- Three bytes never say more than 50 MB.
    if 50 * 1024 * 1024 < size then none
    else if input.length < size then none
    else some (⟨code, input.take size⟩, input.drop size)
  | _ => none

theorem firstFrame_length {input rest : Bytes} {f : Packet} (hf : firstFrame input = some (f, rest)) :
    rest.length < input.length := by
  unfold firstFrame at hf
  split at hf
  · dsimp only at hf
    split at hf
    · cases hf
    split at hf
    · cases hf
    · cases hf
      simp only [List.length_drop, List.length_cons]
      omega
  · cases hf

def loopBody (s : Reader × Bytes) : Pass (Reader × Bytes) Thrown :=
  if s.1.client.connected then
    match firstFrame s.2 with
    | none => .leave
    | some (f, rest) =>
      match s.1.frame h cb w f with
      | .ok t => .next (t, rest)
      | .error e => .raise e
  else .leave

theorem loopBody_decreases (s t : Reader × Bytes) (hnext : loopBody h cb w s = .next t) : t.2.length < s.2.length := by
  unfold loopBody at hnext
  split at hnext
  · split at hnext
    · cases hnext
    · rename_i f rest hf
      split at hnext <;> cases hnext
      exact firstFrame_length hf
  · cases hnext

/-- `while (m_connected)` -/
def mainLoop : Loop (Reader × Bytes) Thrown := ⟨loopBody h cb w, fun s => s.2.length, loopBody_decreases h cb w⟩

/-- What comes after the loop. -/
def Reader.close (s : Reader) : Reader :=
  { s with
    client := { s.client with connected := false }
    ending := if cb.disconnect then [.called (.disconnect (utf8 "connection closed")) s.client.playerId] else [] }

/-- `input` is all that the server sends. -/
def readLoop (s : Reader) (input : Bytes) : Except Thrown Reader :=
  ((mainLoop h cb w).run (s, input)).map fun t => t.1.close cb

/-! ## The loop, frame by frame -/

/-- The complete frames of the input. -/
def framesOf (input : Bytes) : List Packet :=
  match _hf : firstFrame input with
  | none => []
  | some (f, rest) => f :: framesOf rest
termination_by input.length
decreasing_by exact firstFrame_length _hf

/-- The loop over frames that have been read. -/
def serve (s : Reader) : List Packet → Except Thrown Reader
  | [] => .ok s
  | f :: fs => if s.client.connected then do serve (← s.frame h cb w f) fs else .ok s

variable {h cb w}

theorem framesOf_none {input : Bytes} (hf : firstFrame input = none) : framesOf input = [] := by
  rw [framesOf]
  split
  · rfl
  · rename_i hf'
    rw [hf] at hf'
    cases hf'

theorem framesOf_some {input rest : Bytes} {f : Packet} (hf : firstFrame input = some (f, rest)) :
    framesOf input = f :: framesOf rest := by
  rw [framesOf]
  split
  · rename_i hf'
    rw [hf] at hf'
    cases hf'
  · rename_i hf'
    rw [hf] at hf'
    cases hf'
    rfl

theorem serve_disconnected {s : Reader} (hs : s.client.connected = false) (fs : List Packet) : serve h cb w s fs = .ok s := by
  cases fs with
  | nil => rfl
  | cons f fs => rw [serve, hs, if_neg Bool.false_ne_true]

theorem run_eq_serve (s : Reader) (input : Bytes) :
    ((mainLoop h cb w).run (s, input)).map Prod.fst = serve h cb w s (framesOf input) := by
  induction hn : input.length using Nat.strong_induction_on generalizing s input with
  | _ n ih =>
    cases hc : s.client.connected with
    | false =>
      have hleave : (mainLoop h cb w).body (s, input) = .leave := by
        show loopBody h cb w (s, input) = .leave
        rw [loopBody, hc, if_neg Bool.false_ne_true]
      rw [Loop.run_leave hleave, serve_disconnected hc]
      rfl
    | true =>
      have hbody : (mainLoop h cb w).body (s, input) = match firstFrame input with
          | none => .leave
          | some (f, rest) =>
            match s.frame h cb w f with
            | .ok t => .next (t, rest)
            | .error e => .raise e := by
        show loopBody h cb w (s, input) = _
        rw [loopBody, if_pos hc]
      cases hf : firstFrame input with
      | none =>
        rw [hf] at hbody
        rw [Loop.run_leave hbody, framesOf_none hf]
        rfl
      | some p =>
        obtain ⟨f, rest⟩ := p
        rw [hf] at hbody
        rw [framesOf_some hf, serve, if_pos hc]
        cases ht : s.frame h cb w f with
        | error e =>
          simp only [ht] at hbody
          rw [Loop.run_raise hbody]
          rfl
        | ok t =>
          simp only [ht] at hbody
          rw [Loop.run_next hbody]
          exact ih rest.length (hn ▸ firstFrame_length hf) t rest rfl

theorem readLoop_eq (s : Reader) (input : Bytes) :
    readLoop h cb w s input = (serve h cb w s (framesOf input)).map (Reader.close cb) := by
  rw [readLoop, ← run_eq_serve]
  cases (mainLoop h cb w).run (s, input) <;> rfl

/-! ## Frames on the wire -/

/-- The loop reads as many bytes as the three length bytes say. -/
theorem firstFrame_buildPacket (code : UInt8) (data rest : Bytes) :
    firstFrame (buildPacket code data ++ rest) = some (⟨code, data.take (data.length % 2 ^ 24)⟩,
      (data.take (data.length % 2 ^ 32)).drop (data.length % 2 ^ 24) ++ rest) := by
  have hle : ofLE (leBytes 3 (data.length % 2 ^ 32)) = data.length % 2 ^ 24 := by
    rw [ofLE_leBytes]
    exact Nat.mod_mod_of_dvd data.length (by decide)
  have hread : data.length % 2 ^ 24 ≤ (data.take (data.length % 2 ^ 32)).length := by
    rw [List.length_take]
    omega
  have htake : (data.take (data.length % 2 ^ 32)).take (data.length % 2 ^ 24) = data.take (data.length % 2 ^ 24) := by
    rw [List.take_take]
    congr 1
    omega
  rw [buildPacket]
  rcases hb : leBytes 3 (data.length % 2 ^ 32) with _ | ⟨b1, _ | ⟨b2, _ | ⟨b3, _ | ⟨b4, bs⟩⟩⟩⟩
  case cons.cons.cons.nil =>
    rw [hb] at hle
    simp only [firstFrame, List.cons_append, List.nil_append, hle]
    rw [if_neg (by omega), if_neg (by rw [List.length_append]; omega), List.take_append_of_le_length hread, htake,
      List.drop_append_of_le_length hread]
  all_goals
    have hlen := leBytes_length 3 (data.length % 2 ^ 32)
    rw [hb] at hlen
    simp at hlen

theorem firstFrame_build {code : UInt8} {data : Bytes} (hdata : data.length < 2 ^ 24) (rest : Bytes) :
    firstFrame (buildPacket code data ++ rest) = some (⟨code, data⟩, rest) := by
  rw [firstFrame_buildPacket, Nat.mod_eq_of_lt hdata, Nat.mod_eq_of_lt (by omega : data.length < 2 ^ 32), List.take_length,
    List.drop_length, List.nil_append]

theorem framesOf_build {fs : List Packet} (hfs : ∀ f ∈ fs, f.data.length < 2 ^ 24) :
    framesOf (fs.flatMap fun f => buildPacket f.code f.data) = fs := by
  induction fs with
  | nil => exact framesOf_none rfl
  | cons f fs ih =>
    obtain ⟨hf, hrest⟩ := List.forall_mem_cons.mp hfs
    rw [List.flatMap_cons, framesOf_some (firstFrame_build hf _), ih hrest]

/-- Every reply is written. -/
def noError : Nat → Bool := fun _ => true

namespace Sample

/-- A text that begins with a five is the number 5; nothing else is JSON. -/
def host : Host where
  parse data := if data.head? = some 53 then some (.int 5) else none
  stof _ := none
  stod _ := none
  trunc _ := 0

def callbacks : Callbacks := ⟨true, true, true, true, true, true⟩

end Sample

end NovaMP.BeamMP
