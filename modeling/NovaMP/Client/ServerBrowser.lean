/-
  NovaMP.Client.ServerBrowser — the two public server lists
  (`client/src/ui/server_browser.cpp`, `BeamMPClient::fetchServerList` in
  `client/src/compat/beammp_client.cpp`).

  Both lists are JSON, and an entry is read member by member. The `try` block is around
  the loop: an entry with a member of another type ends it. What comes after is not read;
  what came before stays in the list, in `fetchNovaMP` as well, which then reports a
  failure. Only `fetchServerList` passes over entries without a host.

  - `readBeamMP_ok_iff`, `readNovaMP_ok_iff`: an entry can be read exactly if it is an
    object and its members have their types.
  - `lists_whole_iff`: the lists show what they should (`ListsWhole`) exactly if no entry
    to be shown comes after a bad one (`ListsFine`, which says more of the NovaMP list).
  - `refresh_whole`: then the browser has the entries of both.
  - `bad_entry_hides`: a `null` in front of a good entry.
-/

import NovaMP.Lib.Gather
import NovaMP.Network.Members

namespace NovaMP.ServerBrowser

open Lib

/-! ## The libraries -/

/-- `json::parse` (`none` throws), what a `double` is cast to as an `int` and as a
    `long long`, and whether `long long` is `int64_t`, which no boolean is converted to. -/
structure Host where
  parse : Bytes → Option Json
  toInt : UInt64 → Int
  toLongLong : UInt64 → Int
  sameType : Bool

/-- The body of a response: what follows the first empty line. -/
def bodyOf (response : Bytes) : Bytes :=
  ((response.tails.find? fun rest => [13, 10, 13, 10].isPrefixOf rest).map fun rest => rest.drop 4).getD response

/-- `j.value(key, default)` for a default of type `int`. -/
def Host.valueInt (h : Host) (j : Json) (key : String) (dflt : Int) : Except Fault Int :=
  (j.valueNumber h.toInt key dflt).map fun n => n.bmod (2 ^ 32)

/-- The same for `long long`. -/
def Host.valueLongLong (h : Host) (j : Json) (key : String) (dflt : Int) : Except Fault Int :=
  if h.sameType then j.valueInt64 h.toLongLong key dflt
  else (j.valueNumber h.toLongLong key dflt).map fun n => n.bmod (2 ^ 64)

/-- What a loop over a JSON value visits: the values of an object in the order of the keys,
    and a value that is neither object nor array once. -/
def elements : Json → List Json
  | .null => []
  | .arr xs => xs
  | .obj members => (members.mergeSort fun a b => a.1 ≤ b.1).map (·.2)
  | j => [j]

/-- The entries in `j["servers"]`. -/
def serversOf : Json → Except Fault (List Json)
  | .null => .ok []
  | .obj members => .ok (elements ((members.lookup "servers").getD .null))
  | _ => .error (.typeError 305)

/-! ## Entries -/

structure BeamMPServerEntry where
  name : String
  description : String
  host : String
  map : String
  version : String
  port : Int
  currentPlayers : Int
  maxPlayers : Int
  passwordProtected : Bool
  modded : Bool
  deriving DecidableEq

inductive ServerNetwork where
  | novamp | beammp
  deriving DecidableEq

structure ServerEntry where
  id : Int
  name : String
  description : String
  host : String
  map : String
  version : String
  port : Int
  currentPlayers : Int
  maxPlayers : Int
  passwordProtected : Bool
  modded : Bool
  network : ServerNetwork
  deriving DecidableEq

variable (h : Host)

def readBeamMP (s : Json) : Except Fault BeamMPServerEntry := do
  let name ← s.value "sname" ""
  let description ← s.value "sdesc" ""
  let host ← s.value "ip" ""
  let port ← h.valueInt s "port" 4444
  let map ← s.value "map" ""
  let version ← s.value "version" ""
  let currentPlayers ← h.valueInt s "players" 0
  let maxPlayers ← h.valueInt s "maxplayers" 0
  let passwordProtected ← s.valueBool "pass" false
  let mods ← h.valueInt s "mods" 0
  pure ⟨name, description, host, map, version, port, currentPlayers, maxPlayers, passwordProtected, 0 < mods⟩

def readNovaMP (s : Json) : Except Fault ServerEntry := do
  let id ← h.valueLongLong s "id" 0
  let name ← s.value "name" ""
  let description ← s.value "description" ""
  let host ← s.value "host" ""
  let port ← h.valueInt s "port" 4444
  let map ← s.value "map" ""
  let currentPlayers ← h.valueInt s "current_players" 0
  let maxPlayers ← h.valueInt s "max_players" 0
  let passwordProtected ← s.valueBool "password" false
  let version ← s.value "version" ""
  pure ⟨id, name, description, host, map, version, port, currentPlayers, maxPlayers, passwordProtected, false, .novamp⟩

def BeamMPServerEntry.toServerEntry (b : BeamMPServerEntry) : ServerEntry :=
  ⟨0, b.name, b.description, b.host, b.map, b.version, b.port, b.currentPlayers, b.maxPlayers, b.passwordProtected,
    b.modded, .beammp⟩

/-! ## The lists -/

/-- The JSON in what the socket received; `none` is a connection that throws. -/
def parsed (response : Option Bytes) : Option Json := response.bind fun r => h.parse (bodyOf r)

def fetchServerList (response : Option Bytes) : List BeamMPServerEntry :=
  match parsed h response with
  | some (.arr entries) => (gather (readBeamMP h) (fun e => e.host ≠ "") entries []).1
  | _ => []

/-- `servers` is `m_servers`. -/
def fetchNovaMP (response : Option Bytes) (servers : List ServerEntry) : Bool × List ServerEntry :=
  match parsed h response with
  | none => (false, servers)
  | some j =>
    match serversOf j with
    | .error _ => (false, servers)
    | .ok entries =>
      let fetched := gather (readNovaMP h) (fun _ => true) entries servers
      (fetched.2.isNone, fetched.1)

def fetchBeamMP (response : Option Bytes) (servers : List ServerEntry) : Bool × List ServerEntry :=
  let entries := fetchServerList h response
  (!entries.isEmpty, servers ++ entries.map BeamMPServerEntry.toServerEntry)

def refresh (fetchBeam : Bool) (nova beam : Option Bytes) : Bool × List ServerEntry :=
  let novaOk := fetchNovaMP h nova []
  if fetchBeam then
    let beamOk := fetchBeamMP h beam novaOk.2
    (novaOk.1 || beamOk.1, beamOk.2)
  else novaOk

/-! ## Entries to be shown -/

/-- The members that are read of an entry, with what converts to their types, and the
    member that is the host. -/
structure Format where
  members : List (String × (Json → Prop))
  host : String

/-- An object with members of their types. -/
def Format.Good (f : Format) (s : Json) : Prop := ∀ m ∈ f.members, s.Has m.1 m.2

/-- With a host, too. -/
def Format.Listed (f : Format) (s : Json) : Prop := f.Good s ∧ ∃ host, s.value f.host "" = .ok host ∧ host ≠ ""

def beamMPFormat : Format where
  members := [("sname", Json.IsStr), ("sdesc", Json.IsStr), ("ip", Json.IsStr), ("port", Json.IsNumOrBool),
    ("map", Json.IsStr), ("version", Json.IsStr), ("players", Json.IsNumOrBool), ("maxplayers", Json.IsNumOrBool),
    ("pass", Json.IsBool), ("mods", Json.IsNumOrBool)]
  host := "ip"

def novaMPFormat : Format where
  members := [("id", if h.sameType then Json.IsNum else Json.IsNumOrBool), ("name", Json.IsStr),
    ("description", Json.IsStr), ("host", Json.IsStr), ("port", Json.IsNumOrBool), ("map", Json.IsStr),
    ("current_players", Json.IsNumOrBool), ("max_players", Json.IsNumOrBool), ("password", Json.IsBool),
    ("version", Json.IsStr)]
  host := "host"

variable {h} {s : Json}

theorem valueInt_ok_iff {key : String} {dflt : Int} : (∃ n, h.valueInt s key dflt = .ok n) ↔ s.Has key Json.IsNumOrBool := by
  rw [← Json.valueNumber_ok_iff_has]
  exact map_returns_iff

theorem valueLongLong_ok_iff {key : String} {dflt : Int} : (∃ n, h.valueLongLong s key dflt = .ok n) ↔
    s.Has key (if h.sameType then Json.IsNum else Json.IsNumOrBool) := by
  unfold Host.valueLongLong
  split
  · exact Json.valueInt64_ok_iff
  · rw [← Json.valueNumber_ok_iff_has]
    exact map_returns_iff

theorem readBeamMP_ok_iff : Readable (readBeamMP h) s ↔ beamMPFormat.Good s := by
  refine (bind_returns_and fun _ => bind_returns_and fun _ => bind_returns_and fun _ => bind_returns_and fun _ =>
    bind_returns_and fun _ => bind_returns_and fun _ => bind_returns_and fun _ => bind_returns_and fun _ =>
    bind_returns_and fun _ => bind_returns_and fun _ => iff_of_true ⟨_, rfl⟩ trivial).trans ?_
  simp only [Json.value_ok_iff_has, Json.valueBool_ok_iff, valueInt_ok_iff]
  simp [Format.Good, beamMPFormat]

theorem readNovaMP_ok_iff : Readable (readNovaMP h) s ↔ (novaMPFormat h).Good s := by
  refine (bind_returns_and fun _ => bind_returns_and fun _ => bind_returns_and fun _ => bind_returns_and fun _ =>
    bind_returns_and fun _ => bind_returns_and fun _ => bind_returns_and fun _ => bind_returns_and fun _ =>
    bind_returns_and fun _ => bind_returns_and fun _ => iff_of_true ⟨_, rfl⟩ trivial).trans ?_
  simp only [Json.value_ok_iff_has, Json.valueBool_ok_iff, valueInt_ok_iff, valueLongLong_ok_iff]
  simp [Format.Good, novaMPFormat]

theorem readBeamMP_host {e : BeamMPServerEntry} (hr : readBeamMP h s = .ok e) : s.value "ip" "" = .ok e.host := by
  simp only [readBeamMP, bind_eq_ok] at hr
  obtain ⟨_, -, _, -, host, hhost, _, -, _, -, _, -, _, -, _, -, _, -, _, -, hread⟩ := hr
  cases hread
  exact hhost

theorem readNovaMP_host {e : ServerEntry} (hr : readNovaMP h s = .ok e) : s.value "host" "" = .ok e.host := by
  simp only [readNovaMP, bind_eq_ok] at hr
  obtain ⟨_, -, _, -, _, -, host, hhost, _, -, _, -, _, -, _, -, _, -, _, -, hread⟩ := hr
  cases hread
  exact hhost

section Reader

variable {β : Type} {read : Json → Except Fault β} {host : β → String} {f : Format}

/-- A reader of entries: what it can read, and the host of what it reads. -/
structure Reads (read : Json → Except Fault β) (host : β → String) (f : Format) : Prop where
  good : ∀ s, Readable read s ↔ f.Good s
  host : ∀ s e, read s = .ok e → s.value f.host "" = .ok (host e)

theorem Reads.wanted_iff (hf : Reads read host f) {s : Json} :
    (∃ e, wanted read (fun e => host e ≠ "") s = some e) ↔ f.Listed s := by
  constructor
  · rintro ⟨e, he⟩
    obtain ⟨hr, hhost⟩ := wanted_eq_some_iff.mp he
    exact ⟨(hf.good s).mp ⟨e, hr⟩, host e, hf.host s e hr, of_decide_eq_true hhost⟩
  · rintro ⟨hgood, name, hname, hne⟩
    obtain ⟨e, hr⟩ := (hf.good s).mpr hgood
    obtain rfl : name = host e := Except.ok.inj (hname.symm.trans (hf.host s e hr))
    exact ⟨e, wanted_eq_some_iff.mpr ⟨hr, decide_eq_true hne⟩⟩

theorem Reads.not_wanted_iff (hf : Reads read host f) {s : Json} :
    wanted read (fun e => host e ≠ "") s = none ↔ ¬ f.Listed s := by
  rw [← hf.wanted_iff, ← Option.isSome_iff_exists, Option.not_isSome_iff_eq_none]

open scoped Classical in
/-- What is shown of a list: the entries to be shown, in order. -/
def Shows (read : Json → Except Fault β) (f : Format) (l : List Json) (shown : List β) : Prop :=
  List.Forall₂ (fun s e => read s = .ok e) (l.filter fun s => f.Listed s) shown

theorem Reads.shows_iff (hf : Reads read host f) {l : List Json} {shown : List β} :
    Shows read f l shown ↔ shown = l.filterMap (wanted read fun e => host e ≠ "") := by
  classical
  unfold Shows
  induction l generalizing shown with
  | nil => rw [List.filter_nil, List.forall₂_nil_left_iff, List.filterMap_nil]
  | cons s l ih =>
    by_cases hs : f.Listed s
    · obtain ⟨e, he⟩ := hf.wanted_iff.mpr hs
      have hr := (wanted_eq_some_iff.mp he).1
      rw [List.filter_cons_of_pos (by simpa using hs), List.filterMap_cons_some he, List.forall₂_cons_left_iff]
      constructor
      · rintro ⟨e', shown', hr', hrest, rfl⟩
        obtain rfl : e = e' := Except.ok.inj (hr.symm.trans hr')
        rw [ih.mp hrest]
      · rintro rfl
        exact ⟨e, _, hr, ih.mpr rfl, rfl⟩
    · rw [List.filter_cons_of_neg (by simpa using hs), List.filterMap_cons_none (hf.not_wanted_iff.mpr hs), ih]

end Reader

theorem readBeamMP_reads : Reads (readBeamMP h) (·.host) beamMPFormat :=
  ⟨fun _ => readBeamMP_ok_iff, fun _ _ => readBeamMP_host⟩

theorem readNovaMP_reads : Reads (readNovaMP h) (·.host) (novaMPFormat h) :=
  ⟨fun _ => readNovaMP_ok_iff, fun _ _ => readNovaMP_host⟩

/-! ## What the lists show -/

/-- Both lists have all entries to be shown and no others, and a fetch that reports a
    failure has added none. -/
structure ListsWhole (h : Host) (beam nova : Option Bytes) (servers : List ServerEntry) : Prop where
  beamList : ∀ l, parsed h beam = some (.arr l) → Shows (readBeamMP h) beamMPFormat l (fetchServerList h beam)
  novaList : ∀ members l, parsed h nova = some (.obj members) → members.lookup "servers" = some (.arr l) →
    ∃ added, (fetchNovaMP h nova servers).2 = servers ++ added ∧ Shows (readNovaMP h) (novaMPFormat h) l added
  novaFailed : (fetchNovaMP h nova servers).1 = false → (fetchNovaMP h nova servers).2 = servers
  beamFailed : (fetchBeamMP h beam servers).1 = false → (fetchBeamMP h beam servers).2 = servers

/-- In the BeamMP list no entry to be shown comes after a bad one. In the NovaMP list all
    entries are to be shown, or the first is bad and none of the others is to be shown; if
    `servers` is no array, the first value in it is bad or none is. -/
structure ListsFine (h : Host) (beam nova : Option Bytes) : Prop where
  beamList : ∀ l, parsed h beam = some (.arr l) →
    l.Pairwise fun bad s => ¬ beamMPFormat.Good bad → ¬ beamMPFormat.Listed s
  novaList : ∀ members l, parsed h nova = some (.obj members) → members.lookup "servers" = some (.arr l) →
    (∀ s ∈ l, (novaMPFormat h).Listed s) ∨
      ∃ bad rest, l = bad :: rest ∧ ¬ (novaMPFormat h).Good bad ∧ ∀ s ∈ rest, ¬ (novaMPFormat h).Listed s
  novaOther : ∀ j items, parsed h nova = some j → serversOf j = .ok items →
    (∀ s ∈ items, (novaMPFormat h).Good s) ∨ ∃ bad rest, items = bad :: rest ∧ ¬ (novaMPFormat h).Good bad

section Lists

variable {beam nova : Option Bytes} {servers : List ServerEntry}

theorem fetchNovaMP_ok {j : Json} {items : List Json} (hj : parsed h nova = some j) (hitems : serversOf j = .ok items) :
    fetchNovaMP h nova servers = ((gather (readNovaMP h) (fun _ => true) items servers).2.isNone,
      (gather (readNovaMP h) (fun _ => true) items servers).1) := by
  rw [fetchNovaMP, hj]
  dsimp only
  rw [hitems]

/-- The BeamMP list is whole if nothing to be shown comes after a bad entry. -/
theorem fetchServerList_shows_iff {l : List Json} (hl : parsed h beam = some (.arr l)) :
    Shows (readBeamMP h) beamMPFormat l (fetchServerList h beam) ↔
      l.Pairwise fun bad s => ¬ beamMPFormat.Good bad → ¬ beamMPFormat.Listed s := by
  have hf := readBeamMP_reads (h := h)
  rw [hf.shows_iff, fetchServerList, hl]
  dsimp only
  refine (gather_complete_iff l []).trans (iff_of_eq ?_)
  congr 1
  funext bad s
  rw [hf.good, hf.not_wanted_iff]

/-- A fetch that fails before the first entry has added nothing. -/
theorem fetchNovaMP_failed_iff :
    ((fetchNovaMP h nova servers).1 = false → (fetchNovaMP h nova servers).2 = servers) ↔
      ∀ j items, parsed h nova = some j → serversOf j = .ok items →
        (∀ s ∈ items, (novaMPFormat h).Good s) ∨ ∃ bad rest, items = bad :: rest ∧ ¬ (novaMPFormat h).Good bad := by
  have hf := readNovaMP_reads (h := h)
  have hitems : ∀ items, ((∀ s ∈ items, (novaMPFormat h).Good s) ∨
      ∃ bad rest, items = bad :: rest ∧ ¬ (novaMPFormat h).Good bad) ↔
      ((gather (readNovaMP h) (fun _ => true) items servers).2 ≠ none →
        (gather (readNovaMP h) (fun _ => true) items servers).1 = servers) := by
    intro items
    rw [gather_unchanged_iff]
    simp only [hf.good]
  cases hj : parsed h nova with
  | none =>
    rw [fetchNovaMP, hj]
    exact iff_of_true (fun _ => rfl) nofun
  | some j =>
    cases hs : serversOf j with
    | error e =>
      rw [fetchNovaMP, hj]
      dsimp only
      rw [hs]
      refine iff_of_true (fun _ => rfl) ?_
      rintro _ items ⟨⟩ hok
      exact nomatch hs.symm.trans hok
    | ok items =>
      rw [fetchNovaMP_ok hj hs, Option.isNone_eq_false_iff, Option.isSome_iff_ne_none]
      constructor
      · rintro hun _ items' ⟨⟩ hok
        obtain rfl : items = items' := Except.ok.inj (hs.symm.trans hok)
        exact (hitems items).mpr hun
      · exact fun hall => (hitems items).mp (hall j items rfl hs)

/-- With an array of entries, it has added those to be shown besides if all are, or none
    after a bad one at the start. -/
theorem fetchNovaMP_shows_iff {members : List (String × Json)} {l : List Json}
    (hm : parsed h nova = some (.obj members)) (hl : members.lookup "servers" = some (.arr l)) :
    ((∃ added, (fetchNovaMP h nova servers).2 = servers ++ added ∧ Shows (readNovaMP h) (novaMPFormat h) l added) ∧
        ((fetchNovaMP h nova servers).1 = false → (fetchNovaMP h nova servers).2 = servers)) ↔
      (∀ s ∈ l, (novaMPFormat h).Listed s) ∨
        ∃ bad rest, l = bad :: rest ∧ ¬ (novaMPFormat h).Good bad ∧ ∀ s ∈ rest, ¬ (novaMPFormat h).Listed s := by
  have hf := readNovaMP_reads (h := h)
  have hs : serversOf (.obj members) = .ok l := by
    rw [serversOf, hl]
    rfl
  rw [fetchNovaMP_ok hm hs, Option.isNone_eq_false_iff, Option.isSome_iff_ne_none]
  simp only [hf.shows_iff, exists_eq_right]
  rw [gather_all_iff]
  simp only [hf.good, hf.wanted_iff, hf.not_wanted_iff]

theorem fetchBeamMP_failed (hfail : (fetchBeamMP h beam servers).1 = false) : (fetchBeamMP h beam servers).2 = servers := by
  have hnil : fetchServerList h beam = [] := by simpa [fetchBeamMP] using hfail
  rw [fetchBeamMP, hnil]
  exact List.append_nil servers

/-- The lists show what they should exactly if the bad entries in them are harmless. -/
theorem lists_whole_iff : ListsWhole h beam nova servers ↔ ListsFine h beam nova := by
  constructor
  · intro hwhole
    exact {
      beamList := fun l hl => (fetchServerList_shows_iff hl).mp (hwhole.beamList l hl)
      novaList := fun members l hm hl =>
        (fetchNovaMP_shows_iff hm hl).mp ⟨hwhole.novaList members l hm hl, hwhole.novaFailed⟩
      novaOther := fetchNovaMP_failed_iff.mp hwhole.novaFailed }
  · intro hfine
    exact {
      beamList := fun l hl => (fetchServerList_shows_iff hl).mpr (hfine.beamList l hl)
      novaList := fun members l hm hl => ((fetchNovaMP_shows_iff hm hl).mpr (hfine.novaList members l hm hl)).1
      novaFailed := fetchNovaMP_failed_iff.mpr hfine.novaOther
      beamFailed := fetchBeamMP_failed }

/-- The browser has the entries of both lists then. -/
theorem refresh_whole (hfine : ListsFine h beam nova) {members : List (String × Json)} {l lb : List Json}
    (hm : parsed h nova = some (.obj members)) (hl : members.lookup "servers" = some (.arr l))
    (hb : parsed h beam = some (.arr lb)) :
    ∃ added shown, Shows (readNovaMP h) (novaMPFormat h) l added ∧ Shows (readBeamMP h) beamMPFormat lb shown ∧
      (refresh h true nova beam).2 = added ++ shown.map BeamMPServerEntry.toServerEntry := by
  obtain ⟨added, hadded, hnova⟩ : ∃ added, (fetchNovaMP h nova []).2 = [] ++ added ∧ _ :=
    ((fetchNovaMP_shows_iff hm hl).mpr (hfine.novaList members l hm hl)).1
  refine ⟨added, _, hnova, (fetchServerList_shows_iff hb).mpr (hfine.beamList lb hb), ?_⟩
  show (fetchNovaMP h nova []).2 ++ _ = _
  rw [hadded, List.nil_append]

end Lists

/-! ## A bad entry at the start -/

def badList : Bytes := utf8 "[null,\x7b\"ip\":\"1.2.3.4\"\x7d]"

def badResponse : Bytes := utf8 "HTTP/1.0 200 OK\r\n\r\n" ++ badList

def badHost : Host where
  parse body := if body = badList then some (.arr [.null, .obj [("ip", .str "1.2.3.4")]]) else none
  toInt _ := 0
  toLongLong _ := 0
  sameType := false

/-- A `null` in front of a good entry empties the list. -/
theorem bad_entry_hides :
    parsed badHost badResponse = some (.arr [.null, .obj [("ip", .str "1.2.3.4")]]) ∧
      fetchServerList badHost badResponse = [] ∧ ¬ ListsWhole badHost badResponse none [] := by
  have hparsed : parsed badHost badResponse = some (.arr [.null, .obj [("ip", .str "1.2.3.4")]]) := by
    have hbody : bodyOf badResponse = badList := by decide
    show badHost.parse (bodyOf badResponse) = _
    rw [hbody]
    simp [badHost]
  have hnil : fetchServerList badHost badResponse = [] := by
    rw [fetchServerList, hparsed]
    rfl
  refine ⟨hparsed, hnil, fun hwhole => ?_⟩
  have hshows := hwhole.beamList _ hparsed
  rw [readBeamMP_reads.shows_iff, hnil] at hshows
  revert hshows
  decide

end NovaMP.ServerBrowser
