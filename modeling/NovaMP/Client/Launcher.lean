/-
  NovaMP.Client.Launcher — from the launcher's prompts to the server's answer
  (`main` and `runNovaMP` in `client/src/main.cpp`, `client/src/launcher.cpp`,
  `loadConnectConfig`, `connect` and `onExtensionLoaded` in
  `client/Resources/Client/main.lua`, `NetworkClient::connect` in
  `client/src/network/client.cpp`).

  `runNovaMP` starts two clients for one user. The game's mod finds the server and the
  user's name in a file of JSON that the launcher writes; the launcher's own
  `NetworkClient` is told them. Neither is told the password that was typed: both put
  an empty `server_password` into their request, and no role.

  - `mod_request`, `client_request`: both send one request, `loginRequest`.
  - `request_branch`: what the server makes of that.
  - `launched_login`: so it is the name, the state of the server and its plugins that decide
    about a user of the launcher, and nothing else that was typed. Where there is a
    password, nobody gets in with it; the one name that does is the AI bridge's, where that
    is asked for an empty token.
-/

import NovaMP.Client.Auth
import NovaMP.Client.BrowserConsole
import NovaMP.Client.Extension
import NovaMP.Client.Sending
import NovaMP.Network.Members

namespace NovaMP

open Lib Lib.Istream

namespace Launcher

open ServerBrowser Client Client.Extension

/-! ## The prompts -/

/-- `nlohmann::json`'s `dump(2)` and `dump()`, and the game's `jsonDecode` and `jsonEncode`. -/
structure Libs where
  dump2 : Json → String
  dump : Json → String
  decode : Bytes → Option Json
  encode : Json → Bytes

/-- The arguments of a direct connection: address, port and whether `beammp` is the third. -/
structure Direct where
  ip : Bytes
  port : Bytes
  beammp : Bool

/-- What `main` knows when it goes on to a server. -/
structure Start where
  host : Bytes
  port : Int
  network : ServerNetwork
  username : Bytes
  password : Bytes
  cin : Istream UInt8

/-- `promptLine` -/
def promptLine (cin : Istream UInt8) : Bytes × Istream UInt8 := ((getline 10 cin).1.getD [], (getline 10 cin).2)

/-- `main`, up to the choice of the protocol. It is `none` if no server is selected; `stoi`
    throws out of `main` (`error`). -/
def main (args : Option Direct) (servers : List ServerEntry) (cin : Istream UInt8) : Except Unit (Option Start) :=
  let (username, cin) := promptLine cin
  let (password, cin) := promptLine cin
  match args with
  | some a =>
    match stoi a.port with
    | none => .error ()
    | some port => .ok (some ⟨a.ip, port, if a.beammp then .beammp else .novamp, username, password, cin⟩)
  | none =>
    let ui := runConsoleUI servers cin
    .ok (ui.selected.map fun e => ⟨utf8 e.host, e.port, e.network, username, password, ui.cin⟩)

/-! ## The file -/

def masterUrl : String := "http://master.novaMP.gg"

/-- The object of `Launcher::writeConnectConfig`; `m_jwt_token` is never set. -/
def connectConfig (host username : Json) (port : UInt16) : Json :=
  .obj [("host", host), ("port", .int port.toNat), ("username", username), ("token", .str ""),
    ("master_url", .str masterUrl)]

/-- `Launcher::writeConnectConfig`: the file's text, unless it cannot be opened. `dump`
    throws on text that is not UTF-8. -/
def writeConnectConfig (L : Libs) (opens : Bool) (host username : Bytes) (port : UInt16) : Except Fault (Option Bytes) :=
  if opens then do
    let host ← Json.ofBytes host
    let username ← Json.ofBytes username
    pure (some (utf8 (L.dump2 (connectConfig host username port))))
  else pure none

/-! ## The two clients -/

/-- The object that both clients send. -/
def loginRequest (username token serverPassword : Json) : Json :=
  .obj [("username", username), ("token", token), ("server_password", serverPassword), ("version", .str "1.0.0")]

/-- `v or default` -/
def orElse (v : Option Json) (dflt : String) : Json :=
  match v with
  | some j => if truthy (some j) then j else .str dflt
  | none => .str dflt

/-- `onExtensionLoaded` with the file that the mod finds, and what its `connect` writes
    once there is a connection. -/
def onExtensionLoaded (L : Libs) (file : Option Bytes) : Except StringPack.PackError (Option Bytes) :=
  match file.bind L.decode with
  | some cfg =>
    if truthy (field cfg "host") && truthy (field cfg "port") then
      let auth := L.encode (loginRequest (orElse (field cfg "username") "Player") (orElse (field cfg "token") "") (.str ""))
      (tcpSend ⟨0, 0⟩ 0x01 (some auth)).2.map some
    else .ok none
  | none => .ok none

/-- What `NetworkClient::connect` writes once there is a connection. -/
def networkConnect (L : Libs) (username token serverPassword : Bytes) : Except Fault Bytes := do
  let username ← Json.ofBytes username
  let token ← Json.ofBytes token
  let serverPassword ← Json.ofBytes serverPassword
  pure (NetworkClient.sendTCP ⟨0, 0⟩ 0x01 (utf8 (L.dump (loginRequest username token serverPassword)))).2

/-- `runNovaMP`: the file, and what the launcher's client writes. The result of
    `launchGame` is not looked at. -/
def runNovaMP (L : Libs) (opens : Bool) (st : Start) : Except Fault (Option Bytes × Except Fault Bytes) := do
  let file ← writeConnectConfig L opens st.host st.username (UInt16.ofInt st.port)
  pure (file, networkConnect L st.username [] [])

/-! ## The request -/

/-- The name is the first line, whatever is chosen. -/
theorem main_username {args : Option Direct} {servers : List ServerEntry} {cin : Istream UInt8} {st : Start}
    (h : main args servers cin = .ok (some st)) : st.username = (promptLine cin).1 := by
  unfold main at h
  dsimp only at h
  cases args with
  | none =>
    obtain ⟨e, -, he⟩ := Option.map_eq_some_iff.mp (Except.ok.inj h)
    rw [← he]
  | some a =>
    dsimp only at h
    split at h
    · cases h
    · rw [← Option.some.inj (Except.ok.inj h)]

/-- What both clients ask for, with an empty token and password and no role. -/
def request (username : String) : Json := loginRequest (.str username) (.str "") (.str "")

/-- The body of the first packet of a client. -/
def firstPacket (body : Bytes) (fits : body.length ≤ 65535) : Client.Sent := ⟨0x01, 0, 1, body, fits⟩

variable {L : Libs} {host username : String} {port : UInt16}

theorem runNovaMP_ok (L : Libs) (host username : String) {st : Start} (hhost : st.host = utf8 host)
    (huser : st.username = utf8 username) : runNovaMP L true st =
      .ok (some (utf8 (L.dump2 (connectConfig (.str host) (.str username) (UInt16.ofInt st.port)))),
        .ok (NetworkClient.sendTCP ⟨0, 0⟩ 0x01 (utf8 (L.dump (request username)))).2) := by
  have hempty : Json.ofBytes [] = .ok (.str "") := Auth.ofBytes_utf8 ""
  rw [runNovaMP, writeConnectConfig, if_pos rfl, networkConnect, hhost, huser, Auth.ofBytes_utf8, Auth.ofBytes_utf8, hempty]
  rfl

/-- What the mod writes after it has read the file. -/
theorem mod_request {file : Bytes} (hfile : L.decode file = some (connectConfig (.str host) (.str username) port))
    (hfits : (L.encode (request username)).length ≤ 65535) :
    onExtensionLoaded L (some file) = .ok (some (Framing.frame (firstPacket _ hfits).data)) := by
  have hmod : (tcpSend ⟨0, 0⟩ 0x01 (some (L.encode (request username)))).2 =
      .ok (Framing.frame (firstPacket _ hfits).data) :=
    congrArg Prod.snd (tcpSend_eq (firstPacket _ hfits) (s := ⟨0, 0⟩) rfl rfl)
  have hname : orElse (field (connectConfig (.str host) (.str username) port) "username") "Player" = .str username := rfl
  have htoken : orElse (field (connectConfig (.str host) (.str username) port) "token") "" = .str "" := rfl
  have hcfg : (truthy (field (connectConfig (.str host) (.str username) port) "host") &&
      truthy (field (connectConfig (.str host) (.str username) port) "port")) = true := rfl
  rw [onExtensionLoaded, Option.bind_some, hfile]
  dsimp only
  rw [if_pos hcfg, hname, htoken]
  show Except.map some (tcpSend ⟨0, 0⟩ 0x01 (some (L.encode (request username)))).2 = _
  rw [hmod]
  rfl

theorem client_request {body : Bytes} (hfits : body.length ≤ 65535) :
    (NetworkClient.sendTCP ⟨0, 0⟩ 0x01 body).2 = Framing.frame (firstPacket _ hfits).data :=
  congrArg Prod.snd (sendTCP_eq (firstPacket _ hfits) (c := ⟨0, 0⟩) rfl rfl)

/-! ## The answer -/

open GameServer

variable (w : World) (x : Env) (s : Server)

/-- What becomes of a user of the launcher. -/
def admission (username : String) : AuthBranch :=
  if username = aiBridge then
    if !w.cfg.aiEnabled || w.cfg.bridgeToken ≠ "" then .refused "Bridge token mismatch" true else .bridge
  else if username = "" then .refused "Username required" false
  else if w.cfg.password ≠ "" then .refused "Wrong password" true
  else if w.cfg.maxPlayers ≤ (s.players.keys.length : Int) then .refused "Server full" true
  else .player username "player"

theorem request_branch {body : Bytes} (hbody : w.parse body = some (request username)) :
    authBranch w s body = admission w s username := by
  have hname : (request username).value "username" "" = .ok username := rfl
  have hpassword : (request username).value "server_password" "" = .ok "" := rfl
  have hrole : (request username).value "role" "player" = .ok "player" := rfl
  unfold authBranch admission
  simp only [hbody, hname, hpassword, hrole]
  by_cases hbridge : username = aiBridge
  · rw [if_pos hbridge, if_pos hbridge]
    simp only [ne_comm]
  rw [if_neg hbridge, if_neg hbridge]
  by_cases hw : w.cfg.password = ""
  · simp [hw]
  · simp [hw, Ne.symm hw]

/-- The first packet of a client is a request with its body. -/
theorem authText_firstPacket {object : Nat} {t : TCPSession} (ht : s.tcp.objects[object]? = some t) (hopen : t.isOpen = true)
    {body : Bytes} (hfits : body.length ≤ 65535) :
    authText s object (firstPacket body hfits).data = some (t.id, body) := by
  have hframe : isFrame t (firstPacket body hfits).data := ⟨hopen, (firstPacket body hfits).data_bounds⟩
  have htype : PacketType.ofCode (firstPacket body hfits).header.type = some .authRequest := rfl
  have hread : readBytes (firstPacket body hfits).payload (firstPacket body hfits).header.payloadLen.toNat = .ok body := by
    have hlen : (firstPacket body hfits).header.payloadLen.toNat = body.length := (firstPacket body hfits).payloadLen_toNat
    rw [hlen]
    show readBytes body body.length = .ok body
    rw [readBytes_of_le (le_refl _), List.take_length]
  unfold authText
  rw [ht, (firstPacket body hfits).parseHeader_data]
  dsimp only
  rw [if_pos ⟨hframe, htype⟩, (firstPacket body hfits).payload_data]
  rw [hread]

theorem firstPacket_outcome {object : Nat} {t : TCPSession} (ht : s.tcp.objects[object]? = some t) (hopen : t.isOpen = true)
    {body : Bytes} (hfits : body.length ≤ 65535) (hbody : w.parse body = some (request username)) :
    outcome w x s (.frame object (firstPacket body hfits).data) = authOutcome w x s t.id (admission w s username) := by
  rw [outcome_auth w x s (authText_firstPacket s ht hopen hfits), request_branch w s hbody]

/-- A refusal registers nobody. -/
theorem refused_outcome (sid : UInt16) (error : String) (drop : Bool) :
    (authOutcome w x s sid (.refused error drop)).2.players = s.players ∧
      (authOutcome w x s sid (.refused error drop)).2.sessionToPlayer = s.sessionToPlayer := by
  simp only [authOutcome, dropped]
  split
  · split <;> exact ⟨rfl, rfl⟩
  · exact ⟨rfl, rfl⟩

/-- Under this name a user gets in as the AI bridge. -/
def PassesAsBridge (w : World) (username : String) : Prop :=
  username = aiBridge ∧ w.cfg.aiEnabled = true ∧ w.cfg.bridgeToken = ""

/-- Where there is a password, a user of the launcher is refused. -/
theorem admission_refused (hpassword : w.cfg.password ≠ "") (hname : ¬ PassesAsBridge w username) :
    ∃ error drop, admission w s username = .refused error drop := by
  unfold admission
  by_cases hbridge : username = aiBridge
  · rw [if_pos hbridge, if_pos]
    · exact ⟨_, _, rfl⟩
    · by_contra hopen
      simp only [Bool.or_eq_true, Bool.not_eq_true', decide_eq_true_eq, not_or, Bool.not_eq_false, not_not] at hopen
      exact hname ⟨hbridge, hopen.1, hopen.2⟩
  rw [if_neg hbridge]
  by_cases hempty : username = ""
  · rw [if_pos hempty]
    exact ⟨_, _, rfl⟩
  · rw [if_neg hempty, if_pos hpassword]
    exact ⟨_, _, rfl⟩

variable {w}

/-- The JSON libraries read what they have written. -/
structure ReadsBack (L : Libs) (w : World) (host username : String) (port : UInt16) : Prop where
  config : L.decode (utf8 (L.dump2 (connectConfig (.str host) (.str username) port))) =
    some (connectConfig (.str host) (.str username) port)
  mod : w.parse (L.encode (request username)) = some (request username)
  client : w.parse (utf8 (L.dump (request username))) = some (request username)
  /-- Both texts fit into a packet. -/
  fits : (L.encode (request username)).length ≤ 65535 ∧ (utf8 (L.dump (request username))).length ≤ 65535

/-- What a user of the launcher sends, and what the server does with it. -/
structure Answered (w : World) (username : String) (data : Bytes) : Prop where
  asks : ∃ body fits, data = (firstPacket body fits).data ∧ w.parse body = some (request username)
  exact_outcome : ∀ x s object t, s.tcp.objects[object]? = some t → t.isOpen = true →
    exec w x (.frame object data) [] s = authOutcome w x s t.id (admission w s username)
  /-- No password that was typed opens a server that has one. -/
  barred : w.cfg.password ≠ "" → ¬ PassesAsBridge w username → ∀ x s object t, s.tcp.objects[object]? = some t →
    t.isOpen = true → (exec w x (.frame object data) [] s).2.players = s.players ∧
      (exec w x (.frame object data) [] s).2.sessionToPlayer = s.sessionToPlayer

theorem answered {body : Bytes} (hfits : body.length ≤ 65535) (hbody : w.parse body = some (request username)) :
    Answered w username (firstPacket body hfits).data := by
  have hexact : ∀ x s object t, s.tcp.objects[object]? = some t → t.isOpen = true →
      exec w x (.frame object (firstPacket body hfits).data) [] s = authOutcome w x s t.id (admission w s username) := by
    intro x s object t ht hopen
    rw [exec_eq, firstPacket_outcome w x s ht hopen hfits hbody]
  refine ⟨⟨body, hfits, rfl, hbody⟩, hexact, fun hpassword hname x s object t ht hopen => ?_⟩
  obtain ⟨error, drop, hrefused⟩ := admission_refused w s hpassword hname
  rw [hexact x s object t ht hopen, hrefused]
  exact refused_outcome w x s t.id error drop

/-- For a host and a name that are text, a file that opens and requests that fit. -/
theorem launched_login (w : World) {L : Libs} {args : Option Direct} {servers : List ServerEntry} {cin : Istream UInt8}
    {st : Start} (hmain : main args servers cin = .ok (some st)) {host username : String} (hhost : st.host = utf8 host)
    (huser : (promptLine cin).1 = utf8 username) (hback : ReadsBack L w host username (UInt16.ofInt st.port)) :
    ∃ file mod client, runNovaMP L true st = .ok (some file, .ok (Framing.frame client)) ∧
      onExtensionLoaded L (some file) = .ok (some (Framing.frame mod)) ∧
      Answered w username mod ∧ Answered w username client := by
  refine ⟨_, (firstPacket _ hback.fits.1).data, (firstPacket _ hback.fits.2).data, ?_, mod_request hback.config hback.fits.1,
    answered _ hback.mod, answered _ hback.client⟩
  rw [runNovaMP_ok L host username hhost ((main_username hmain).trans huser), client_request hback.fits.2]

namespace Sample

/-- Ann types her name and the password of the server. -/
def prompts : Istream UInt8 := ofText (utf8 "ann\nsecret\n")

def direct : Direct := ⟨utf8 "10.0.0.1", utf8 "4444", false⟩

def start : Start := ⟨utf8 "10.0.0.1", 4444, .novamp, utf8 "ann", utf8 "secret", ofText []⟩

theorem main_start : main (some direct) [] prompts = .ok (some start) := by
  have hname : promptLine prompts = (utf8 "ann", ofText (utf8 "secret\n")) := by decide
  have hpassword : promptLine (ofText (utf8 "secret\n")) = (utf8 "secret", ofText []) := by decide
  have hport : stoi direct.port = some 4444 := by decide
  rw [main, hname]
  dsimp only
  rw [hpassword]
  dsimp only
  rw [hport]
  rfl

def config : Json := connectConfig (.str "10.0.0.1") (.str "ann") 4444

def libs : Libs where
  dump2 := Json.text
  dump := Json.text
  decode b := if b = utf8 config.text then some config else none
  encode j := utf8 j.text

def world : World := { World.sample [request "ann"] with cfg := { (World.sample []).cfg with password := "secret" } }

theorem parse_request : world.parse (utf8 (request "ann").text) = some (request "ann") := by
  show [request "ann"].find? (fun j => utf8 j.text == utf8 (request "ann").text) = some (request "ann")
  rw [List.find?_cons, beq_self_eq_true]

theorem readsBack : ReadsBack libs world "10.0.0.1" "ann" 4444 where
  config := by
    show (if utf8 config.text = utf8 config.text then some config else none) = some config
    rw [if_pos rfl]
  mod := parse_request
  client := parse_request
  fits := by decide +kernel

theorem launched_login_ann : ReadsBack libs world "10.0.0.1" "ann" (UInt16.ofInt start.port) ∧
    ∃ file mod client, runNovaMP libs true start = .ok (some file, .ok (Framing.frame client)) ∧
      onExtensionLoaded libs (some file) = .ok (some (Framing.frame mod)) ∧
      Answered world "ann" mod ∧ Answered world "ann" client :=
  ⟨readsBack, launched_login world main_start rfl rfl readsBack⟩

end Sample

end Launcher

end NovaMP
