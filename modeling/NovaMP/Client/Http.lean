/-
  NovaMP.Client.Http — what the client programs ask of web servers
  (`http_get` in `client/src/ui/server_browser.cpp`, `BeamMPClient::httpGet` in
  `client/src/compat/beammp_client.cpp`, `httpPost` in `client/src/auth/nova_auth.cpp`
  and `client/src/compat/beammp_auth.cpp`).

  Each takes a URL apart by hand, and they differ in what they make of it: `http_get` does
  not look at the scheme, and reads the port as a number; `httpGet` goes by the scheme, and
  hands the port on as it stands; `httpPost` always goes to port 443, and takes a port in the
  URL for a part of the host's name. All read until an error, whichever it is.

  - `getRequest_text`, `postRequest_text`: the requests are messages.
  - `http_get_url`, `httpGet_url`, `httpPost_url`: whom a URL makes them ask, and for what.
  - `exchanges`: a server that reads messages is asked that, and its body is the result.
-/

import NovaMP.Lib.Http
import NovaMP.Client.Auth
import NovaMP.Client.BrowserConsole

namespace NovaMP.Http

open Lib Lib.Http ServerBrowser

/-! ## Requests -/

/-- What `resolve` and `connect` are given; with TLS the certificate is to be that of the host. -/
structure Address where
  host : Bytes
  service : Bytes
  tls : Bool
  deriving DecidableEq

/-- What is written to whom. -/
structure Request where
  address : Address
  text : Bytes

/-- The URL without its scheme. -/
def afterScheme (url : Bytes) : Bytes := ((cut (utf8 "://") url).map (·.2)).getD url

def hostPath (rest : Bytes) : Bytes × Bytes :=
  match cut (utf8 "/") rest with
  | some (host, path) => (host, utf8 "/" ++ path)
  | none => (rest, utf8 "/")

/-- The host and the port, around the last colon (`rfind`). -/
def splitPort (host : Bytes) : Option (Bytes × Bytes) :=
  (cut (utf8 ":") host.reverse).map fun p => (p.2.reverse, p.1.reverse)

def getRequest (path host : Bytes) : Bytes :=
  utf8 "GET " ++ path ++ utf8 " HTTP/1.0\r\n" ++ utf8 "Host: " ++ host ++ utf8 "\r\n" ++ utf8 "Connection: close\r\n\r\n"

/-- `stoi` throws on what is no number. -/
def http_getRequest (url : Bytes) : Option Request :=
  let (host, path) := hostPath (afterScheme url)
  match splitPort host with
  | none => some ⟨⟨host, intText 80, false⟩, getRequest path host⟩
  | some (host, port) => (stoi port).map fun port => ⟨⟨host, intText port, false⟩, getRequest path host⟩

def httpGetRequest (url : Bytes) : Request :=
  let scheme := ((cut (utf8 "://") url).map (·.1)).getD (utf8 "http")
  let (host, path) := hostPath (afterScheme url)
  let portStr := if scheme = utf8 "https" then utf8 "443" else utf8 "80"
  let (host, portStr) := (splitPort host).getD (host, portStr)
  ⟨⟨host, portStr, scheme = utf8 "https"⟩, getRequest path host⟩

/-- The same in `NovaAuth` and `BeamMPAuth`. -/
def httpPostRequest (url body contentType : Bytes) : Request :=
  let (host, path) := hostPath (afterScheme url)
  ⟨⟨host, utf8 "443", true⟩,
    utf8 "POST " ++ path ++ utf8 " HTTP/1.0\r\n" ++ utf8 "Host: " ++ host ++ utf8 "\r\n" ++
      utf8 "Content-Type: " ++ contentType ++ utf8 "\r\n" ++ utf8 "Content-Length: " ++ natText body.length ++ utf8 "\r\n" ++
      utf8 "Connection: close\r\n\r\n" ++ body⟩

/-! ## Responses -/

section

/-- What `read_some` returns, until it sets an error code; that read can have bytes, too. -/
structure Reads where
  pieces : List Bytes
  last : Bytes

def readResponse (r : Reads) : Bytes := r.pieces.foldl (fun response piece => response ++ piece) [] ++ r.last

/-- What comes of a request; `none` is one that throws. -/
abbrev Net := Request → Option Reads

variable (net : Net)

/-- The response that the loop has read. -/
def received (r : Request) : Option Bytes := (net r).map readResponse

def http_get (url : Bytes) : Option Bytes := ((http_getRequest url).bind (received net)).map bodyOf

def httpGet (url : Bytes) : Option Bytes := (received net (httpGetRequest url)).map bodyOf

def httpPost (url body contentType : Bytes) : Option Bytes := (received net (httpPostRequest url body contentType)).map bodyOf

end

/-! ## What the requests mean -/

def getMessage (path host : Bytes) : Message :=
  ⟨utf8 "GET " ++ path ++ utf8 " HTTP/1.0", [⟨utf8 "Host", host⟩, ⟨utf8 "Connection", utf8 "close"⟩], []⟩

def postMessage (path host contentType body : Bytes) : Message :=
  ⟨utf8 "POST " ++ path ++ utf8 " HTTP/1.0",
    [⟨utf8 "Host", host⟩, ⟨utf8 "Content-Type", contentType⟩, ⟨utf8 "Content-Length", natText body.length⟩,
      ⟨utf8 "Connection", utf8 "close"⟩], body⟩

theorem getRequest_text (path host : Bytes) : getRequest path host = (getMessage path host).text := by
  simp only [getRequest, getMessage, Message.text, Message.lines, wire, Field.line, List.map_cons, List.map_nil,
    List.flatMap_cons, List.flatMap_nil, List.append_assoc, List.append_nil]
  rfl

theorem postRequest_text (url body contentType : Bytes) : (httpPostRequest url body contentType).text =
    (postMessage (hostPath (afterScheme url)).2 (hostPath (afterScheme url)).1 contentType body).text := by
  simp only [httpPostRequest, postMessage, Message.text, Message.lines, wire, Field.line, List.map_cons, List.map_nil,
    List.flatMap_cons, List.flatMap_nil, List.append_assoc, List.append_nil]
  rfl

/-! ## What a URL means -/

/-- A URL with nothing in it that could be taken for the end of one of its parts. -/
structure Url where
  scheme : Bytes
  host : Bytes
  port : Option Nat
  path : Bytes
  named : (58 : UInt8) ∉ scheme
  hosted : (58 : UInt8) ∉ host ∧ (47 : UInt8) ∉ host ∧ CR ∉ host
  rooted : path = [] ∨ ∃ rest, path = utf8 "/" ++ rest
  plain : CR ∉ path

namespace Url

/-- The host, with the port if there is one. -/
def authority (u : Url) : Bytes :=
  match u.port with
  | none => u.host
  | some port => u.host ++ (utf8 ":" ++ natText port)

def text (u : Url) : Bytes := u.scheme ++ (utf8 "://" ++ (u.authority ++ u.path))

/-- What is asked for. -/
def target (u : Url) : Bytes := if u.path = [] then utf8 "/" else u.path

variable (u : Url)

theorem digits_plain {n : Nat} {b : UInt8} (hb : isDigit b = false) : b ∉ natText n := fun h => by
  rw [isDigit_of_mem_natText h] at hb
  cases hb

theorem authority_plain : (47 : UInt8) ∉ u.authority ∧ CR ∉ u.authority := by
  unfold authority
  split
  · exact u.hosted.2
  · have hcolon : (47 : UInt8) ∉ utf8 ":" ∧ CR ∉ utf8 ":" := by decide
    simp only [List.mem_append, not_or]
    exact ⟨⟨u.hosted.2.1, hcolon.1, digits_plain rfl⟩, u.hosted.2.2, hcolon.2, digits_plain rfl⟩

theorem target_plain : CR ∉ u.target := by
  unfold target
  split
  · decide
  · exact u.plain

theorem cut_text : cut (utf8 "://") u.text = some (u.scheme, u.authority ++ u.path) := cut_mark u.named _

theorem hostPath_text : hostPath (afterScheme u.text) = (u.authority, u.target) := by
  rw [afterScheme, cut_text]
  show hostPath (u.authority ++ u.path) = _
  rcases u.rooted with hpath | ⟨rest, hpath⟩
  · have hcut : cut (utf8 "/") u.authority = none := cut_none u.authority_plain.1
    rw [hostPath, target, hpath, List.append_nil, hcut, if_pos rfl]
  · have hcut : cut (utf8 "/") (u.authority ++ (utf8 "/" ++ rest)) = some (u.authority, rest) :=
      cut_mark u.authority_plain.1 rest
    have hne : utf8 "/" ++ rest ≠ [] := List.cons_ne_nil 47 rest
    rw [hostPath, target, hpath, hcut, if_neg hne]

/-- The port is what follows the colon, if there is one. -/
theorem splitPort_authority : splitPort u.authority = u.port.map fun port => (u.host, natText port) := by
  unfold splitPort authority
  cases u.port with
  | none =>
    have hcut : cut (utf8 ":") u.host.reverse = none := cut_none (by simpa using u.hosted.1)
    rw [hcut]
    rfl
  | some port =>
    have hcut : cut (utf8 ":") ((natText port).reverse ++ (utf8 ":" ++ u.host.reverse)) =
        some ((natText port).reverse, u.host.reverse) := cut_mark (by simpa using digits_plain (n := port) rfl) _
    have hreverse : (u.host ++ (utf8 ":" ++ natText port)).reverse = (natText port).reverse ++ (utf8 ":" ++ u.host.reverse) := by
      rw [List.reverse_append, List.reverse_append, List.append_assoc]
      rfl
    dsimp only
    rw [hreverse, hcut]
    simp

/-! ## Whom it makes them ask -/

theorem http_get_text (hport : ∀ port ∈ u.port, port < 2 ^ 31) : http_getRequest u.text =
    some ⟨⟨u.host, natText (u.port.getD 80), false⟩, getRequest u.target u.host⟩ := by
  rw [http_getRequest, hostPath_text]
  dsimp only
  rw [splitPort_authority]
  cases hp : u.port with
  | none =>
    rw [show u.authority = u.host by rw [authority, hp]]
    rfl
  | some port =>
    have hread : stoi (natText port) = some (port : Int) := by
      have hstoi : stoi (natText port ++ []) = some (port : Int) := stoi_natText (hport port hp) nofun
      rwa [List.append_nil] at hstoi
    show (stoi (natText port)).map _ = _
    rw [hread]
    rfl

theorem httpGet_text : httpGetRequest u.text =
    ⟨⟨u.host, natText (u.port.getD (if u.scheme = utf8 "https" then 443 else 80)), u.scheme = utf8 "https"⟩,
      getRequest u.target u.host⟩ := by
  rw [httpGetRequest, hostPath_text, cut_text]
  dsimp only [Option.map_some, Option.getD_some]
  rw [splitPort_authority]
  cases hp : u.port with
  | none =>
    rw [show u.authority = u.host by rw [authority, hp]]
    dsimp only [Option.map_none, Option.getD_none]
    split <;> rfl
  | some port => rfl

end Url

/-! ## The exchange -/

theorem getMessage_proper {path host : Bytes} (hpath : CR ∉ path) (hhost : CR ∉ host) : (getMessage path host).Proper where
  start := by
    have hliteral : CR ∉ utf8 "GET " ∧ CR ∉ utf8 " HTTP/1.0" := by decide
    refine ⟨List.append_ne_nil_of_right_ne_nil _ (by decide), ?_⟩
    simp only [getMessage, List.mem_append, not_or]
    exact ⟨⟨hliteral.1, hpath⟩, hliteral.2⟩
  fields := by
    have hliteral : (58 : UInt8) ∉ utf8 "Host" ∧ CR ∉ utf8 "Host" := by decide
    simp only [getMessage, List.forall_mem_cons]
    exact ⟨⟨hliteral.1, hliteral.2, hhost⟩, by decide⟩

theorem postMessage_proper {path host contentType : Bytes} (hpath : CR ∉ path) (hhost : CR ∉ host)
    (htype : CR ∉ contentType) (body : Bytes) : (postMessage path host contentType body).Proper where
  start := by
    have hliteral : CR ∉ utf8 "POST " ∧ CR ∉ utf8 " HTTP/1.0" := by decide
    refine ⟨List.append_ne_nil_of_right_ne_nil _ (by decide), ?_⟩
    simp only [postMessage, List.mem_append, not_or]
    exact ⟨⟨hliteral.1, hpath⟩, hliteral.2⟩
  fields := by
    have hliteral : ∀ name ∈ [utf8 "Host", utf8 "Content-Type", utf8 "Content-Length"], (58 : UInt8) ∉ name ∧ CR ∉ name := by
      decide
    simp only [List.forall_mem_cons] at hliteral
    simp only [postMessage, List.forall_mem_cons]
    exact ⟨⟨hliteral.1.1, hliteral.1.2, hhost⟩, ⟨hliteral.2.1.1, hliteral.2.1.2, htype⟩,
      ⟨hliteral.2.2.1.1, hliteral.2.2.1.2, Url.digits_plain rfl⟩, by decide⟩

/-- What is left of a response is what follows its first empty line. -/
theorem bodyOf_eq (response : Bytes) : bodyOf response = afterHead response := by
  have hfind : ∀ s : Bytes, (s.tails.find? fun rest => (crlf ++ crlf).isPrefixOf rest).map (·.drop 4) =
      (cut (crlf ++ crlf) s).map (·.2) := by
    intro s
    induction s with
    | nil => rfl
    | cons b bs ih =>
      rw [List.tails_cons, List.find?_cons, cut]
      by_cases hp : crlf ++ crlf <+: b :: bs
      · rw [List.isPrefixOf_iff_prefix.mpr hp, if_pos hp]
        rfl
      · have hno : (crlf ++ crlf).isPrefixOf (b :: bs) = false := by
          rw [Bool.eq_false_iff, ne_eq, List.isPrefixOf_iff_prefix]
          exact hp
        rw [hno, if_neg hp, Option.map_map]
        exact ih
  exact congrArg (·.getD response) (hfind response)

/-- A server that reads messages, and answers with one, which comes in any pieces. -/
def Serves (net : Net) (origin : Address → Message → Message) : Prop :=
  ∀ a text m, Http.read text = some m → (origin a m).Proper ∧ ∃ reads, net ⟨a, text⟩ = some reads ∧
    readResponse reads = (origin a m).text

section

variable {net : Net} {origin : Address → Message → Message}

theorem received_served (hnet : Serves net origin) {a : Address} {m : Message} (hm : m.Proper) :
    received net ⟨a, m.text⟩ = some (origin a m).text := by
  obtain ⟨-, reads, hreads, hresponse⟩ := hnet a m.text m (read_text hm)
  rw [received, hreads, Option.map_some, hresponse]

theorem body_served (hnet : Serves net origin) {a : Address} {m : Message} (hm : m.Proper) :
    (received net ⟨a, m.text⟩).map bodyOf = some (origin a m).body := by
  obtain ⟨hproper, -⟩ := hnet a m.text m (read_text hm)
  rw [received_served hnet hm, Option.map_some, bodyOf_eq, afterHead_text hproper]

theorem httpPost_served (hnet : Serves net origin) (u : Url) (body : Bytes) {contentType : Bytes} (htype : CR ∉ contentType) :
    httpPost net u.text body contentType =
      some (origin ⟨u.authority, utf8 "443", true⟩ (postMessage u.target u.authority contentType body)).body := by
  have hrequest : httpPostRequest u.text body contentType =
      ⟨⟨u.authority, utf8 "443", true⟩, (postMessage u.target u.authority contentType body).text⟩ := by
    have htext := postRequest_text u.text body contentType
    rw [u.hostPath_text] at htext
    rw [← htext, httpPostRequest, u.hostPath_text]
  rw [httpPost, hrequest]
  exact body_served hnet (postMessage_proper u.target_plain u.authority_plain.2 htype body)

end

/-- Whatever server answers whomever, and however its response is cut: each of the functions
    asks the server of its URL what the URL names, with the body whole, and returns the body of
    the answer. A response that breaks off gives what there is of the body, or as much of the
    head as has come. -/
theorem exchanges (net : Net) (origin : Address → Message → Message) (hnet : Serves net origin) :
    (∀ u : Url, (∀ port ∈ u.port, port < 2 ^ 31) → http_get net u.text =
      some (origin ⟨u.host, natText (u.port.getD 80), false⟩ (getMessage u.target u.host)).body) ∧
    (∀ u : Url, httpGet net u.text =
      some (origin ⟨u.host, natText (u.port.getD (if u.scheme = utf8 "https" then 443 else 80)), u.scheme = utf8 "https"⟩
        (getMessage u.target u.host)).body) ∧
    (∀ (u : Url) (body contentType : Bytes), CR ∉ contentType → httpPost net u.text body contentType =
      some (origin ⟨u.authority, utf8 "443", true⟩ (postMessage u.target u.authority contentType body)).body) ∧
    ∀ (reads : Reads) (rest : Bytes) (m : Message), m.Proper → readResponse reads ++ rest = m.text →
      bodyOf (readResponse reads) ++ rest = m.body ∨
        bodyOf (readResponse reads) = readResponse reads ∧ (readResponse reads).length < (wire m.lines ++ crlf).length := by
  refine ⟨fun u hport => ?_, fun u => ?_, fun u body contentType htype => httpPost_served hnet u body htype,
    fun reads rest m hm hrest => ?_⟩
  · rw [http_get, u.http_get_text hport, Option.bind_some, getRequest_text]
    exact body_served hnet (getMessage_proper u.target_plain u.hosted.2.2)
  · rw [httpGet, u.httpGet_text, getRequest_text]
    exact body_served hnet (getMessage_proper u.target_plain u.hosted.2.2)
  · rw [bodyOf_eq]
    exact afterHead_broken hm hrest

namespace Mirror

/-- It answers with what it was asked. -/
def origin (_ : Address) (m : Message) : Message := ⟨utf8 "HTTP/1.0 200 OK", [⟨utf8 "Server", utf8 "mirror"⟩], m.start⟩

/-- The first bytes come before the others. -/
def net : Net := fun r =>
  (Http.read r.text).map fun m => ⟨[(origin r.address m).text.take 5], (origin r.address m).text.drop 5⟩

theorem serves : Serves net origin := by
  intro a text m hm
  have hstart : Line (utf8 "HTTP/1.0 200 OK") := ⟨by decide, by decide⟩
  have hfields : ∀ f ∈ (origin a m).fields, (58 : UInt8) ∉ f.name ∧ CR ∉ f.name ∧ CR ∉ f.value :=
    List.forall_mem_singleton.mpr (by decide)
  refine ⟨⟨hstart, hfields⟩, ⟨[(origin a m).text.take 5], (origin a m).text.drop 5⟩, ?_, ?_⟩
  · rw [net, hm]
    rfl
  · show [] ++ (origin a m).text.take 5 ++ (origin a m).text.drop 5 = _
    rw [List.nil_append, List.take_append_drop]

def url : Url where
  scheme := utf8 "http"
  host := utf8 "localhost"
  port := some 8080
  path := utf8 "/servers"
  named := by decide
  hosted := by decide
  rooted := .inr ⟨utf8 "servers", by decide⟩
  plain := by decide

end Mirror

theorem exchanges_mirror : Mirror.url.text = utf8 "http://localhost:8080/servers" ∧
    http_get Mirror.net Mirror.url.text = some (utf8 "GET /servers HTTP/1.0") :=
  ⟨by decide, (exchanges Mirror.net Mirror.origin Mirror.serves).1 Mirror.url (by decide)⟩

/-! ## The lists and the logins -/

/-- `refresh`, down to the network; `masterUrl` is `m_master_url`. -/
def refreshOver (h : ServerBrowser.Host) (net : Net) (masterUrl : Bytes) (fetchBeam : Bool) : Bool × List ServerEntry :=
  refresh h fetchBeam ((http_getRequest (masterUrl ++ utf8 "/servers")).bind (received net))
    (received net (httpGetRequest (utf8 "https://backend.beammp.com/servers-info")))

/-- `httpPost` of a login, down to the network. -/
def loginOver (net : Net) (url : Bytes) (x : Auth.Env) : Auth.Env :=
  { x with httpPost := fun body => httpPost net url body (utf8 "application/json") }

def beamList : Url where
  scheme := utf8 "https"
  host := utf8 "backend.beammp.com"
  port := none
  path := utf8 "/servers-info"
  named := by decide
  hosted := by decide
  rooted := .inr ⟨utf8 "servers-info", by decide⟩
  plain := by decide

/-- The master's list. -/
def Url.servers (u : Url) : Url where
  scheme := u.scheme
  host := u.host
  port := u.port
  path := u.path ++ utf8 "/servers"
  named := u.named
  hosted := u.hosted
  rooted := by
    rcases u.rooted with hpath | ⟨rest, hpath⟩
    · exact .inr ⟨utf8 "servers", by rw [hpath]; rfl⟩
    · exact .inr ⟨rest ++ utf8 "/servers", by rw [hpath, List.append_assoc]⟩
  plain := by
    rw [List.mem_append, not_or]
    exact ⟨u.plain, by decide⟩

theorem Url.servers_text (u : Url) : u.servers.text = u.text ++ utf8 "/servers" := by
  have hauthority : u.servers.authority = u.authority := rfl
  simp only [Url.text, hauthority, List.append_assoc]
  rfl

section

variable {net : Net} {origin : Address → Message → Message}

/-- The browser's entries are those of the answers to the two requests. -/
theorem refresh_served (h : ServerBrowser.Host) (hnet : Serves net origin) (master : Url)
    (hport : ∀ port ∈ master.port, port < 2 ^ 31) (fetchBeam : Bool) :
    refreshOver h net master.text fetchBeam = refresh h fetchBeam
      (some (origin ⟨master.host, natText (master.port.getD 80), false⟩
        (getMessage (master.path ++ utf8 "/servers") master.host)).text)
      (some (origin ⟨beamList.host, utf8 "443", true⟩ (getMessage beamList.path beamList.host)).text) := by
  have hservers : master.servers.target = master.path ++ utf8 "/servers" :=
    if_neg (List.append_ne_nil_of_right_ne_nil master.path (by decide))
  have hnova := received_served hnet (a := ⟨master.host, natText (master.port.getD 80), false⟩)
    (getMessage_proper (hservers ▸ master.servers.target_plain) master.hosted.2.2)
  have hbeam := received_served hnet (a := ⟨beamList.host, utf8 "443", true⟩)
    (getMessage_proper beamList.plain beamList.hosted.2.2)
  have hurl : utf8 "https://backend.beammp.com/servers-info" = beamList.text := by decide
  have hrequest : httpGetRequest beamList.text =
      ⟨⟨beamList.host, utf8 "443", true⟩, getRequest beamList.path beamList.host⟩ := by
    rw [beamList.httpGet_text]
    rfl
  rw [refreshOver, ← master.servers_text, master.servers.http_get_text hport, Option.bind_some, getRequest_text, hservers,
    hurl, hrequest, getRequest_text]
  exact congrArg₂ (refresh h fetchBeam) hnova hbeam

theorem parsed_text (h : ServerBrowser.Host) {m : Message} (hm : m.Proper) : parsed h (some m.text) = h.parse m.body := by
  rw [parsed, Option.bind_some, bodyOf_eq, afterHead_text hm]

/-- A login is decided by the answer to its request, which has the body as it was made. -/
theorem login_served (hnet : Serves net origin) (u : Url) (x : Auth.Env) :
    loginOver net u.text x =
      { x with
        httpPost := fun body => some (origin ⟨u.authority, utf8 "443", true⟩
          (postMessage u.target u.authority (utf8 "application/json") body)).body } := by
  rw [loginOver]
  congr 1
  funext body
  exact httpPost_served hnet u body (by decide)

end

end NovaMP.Http
