/-
  NovaMP.Server.Config — the server's configuration file
  (`ServerConfig::load` in `servers/src/config/config.cpp`, `main` in `servers/src/main.cpp`).

  A file is a table of sections. `load` takes each section as `*t[name].as_table()`, and
  `as_table` is null for what is no table; only `[ai_authority]` may be left out. The keys
  come with defaults. How a value is read as a type is toml++'s (`TomlValues`): `value<T>()`
  is empty for a value that cannot be a `T`, and `value_or` is then the default.

  - `load_configured`: if every section is there, each setting is the value of its key or
    its default (`Configured`).
  - `load_null`: if one is not, a null pointer is dereferenced.
  - `load_handled_iff`: so a file is handled exactly if it is no TOML at all or has all
    sections.
  - `empty_file_crashes`: a file with nothing in it.
-/

import Mathlib.Algebra.Ring.Int.Defs
import Mathlib.Data.List.Basic
import NovaMP.Server.State

namespace NovaMP

namespace Config

/-! ## TOML -/

inductive Toml where
  | str (s : String)
  | int (n : Int)
  /-- A floating-point number, as its 64-bit pattern. -/
  | real (bits : UInt64)
  | bool (b : Bool)
  /-- A date, a time or both. -/
  | date (text : String)
  | arr (xs : List Toml)
  | table (members : List (String × Toml))

abbrev Members := List (String × Toml)

/-- `node::value<T>()` for the types the configuration asks for, and the cast to `float`
    (back in a `double`). -/
structure TomlValues where
  string : Toml → Option String
  int : Toml → Option Int
  real : Toml → Option UInt64
  bool : Toml → Option Bool
  float : UInt64 → UInt64

/-- `t[key].value_or(dflt)` -/
def valueOr {α : Type} (value : Toml → Option α) (t : Members) (key : String) (dflt : α) : α :=
  ((t.lookup key).bind value).getD dflt

/-- `as_string` -/
def Toml.asString : Toml → Option String
  | str s => some s
  | _ => none

/-- The strings of an array, if it is one. -/
def strings : Option Toml → List String
  | some (.arr xs) => xs.filterMap Toml.asString
  | _ => []

/-! ## Loading -/

structure ServerConfig where
  name : String
  description : String
  map : String
  maxPlayers : Int
  password : String
  port : Int
  logLevel : String
  logFile : String
  tags : List String
  masterRegister : Bool
  masterUrl : String
  masterAuthToken : String
  masterHeartbeatHz : UInt64
  vehicleLimitPerPlayer : Int
  vehicleSyncHz : Int
  maxVehicles : Int
  allowVehicleDamage : Bool
  respawnOnDisconnect : Bool
  aiEnabled : Bool
  aiCount : Int
  aiSpeedLimit : UInt64
  aiMode : String
  aiUpdateRateHz : Int
  aiDespawnDist : UInt64
  aiSpawnDist : UInt64
  aiPathReplanSecs : UInt64
  aiVehiclePool : List String
  authorityMode : String
  beamngExePath : String
  authorityTimeoutSec : Int
  bridgeToken : String
  rconEnabled : Bool
  rconPort : Int
  rconPassword : String
  resourcesDir : String
  resourcesAutoReload : Bool

/-- What the server's handlers read of it. -/
def ServerConfig.forHandlers (c : ServerConfig) : NovaMP.ServerConfig where
  name := c.name
  description := c.description
  map := c.map
  password := c.password
  maxPlayers := c.maxPlayers
  vehicleLimitPerPlayer := c.vehicleLimitPerPlayer
  aiEnabled := c.aiEnabled
  aiCount := c.aiCount
  aiUpdateRateHz := c.aiUpdateRateHz
  aiSpeedLimit := c.aiSpeedLimit
  aiMode := c.aiMode
  bridgeToken := c.bridgeToken

inductive LoadFault where
  /-- A `std::exception`. -/
  | runtimeError (what : String)
  /-- A null pointer is dereferenced for a section. -/
  | nullSection (name : String)
deriving DecidableEq

/-- `*t[name].as_table()` -/
def asTable (t : Members) (name : String) : Except LoadFault Members :=
  match t.lookup name with
  | some (.table m) => .ok m
  | _ => .error (.nullSection name)

/-- The section `[ai_authority]`, which has defaults of its own if it is left out. -/
def loadAuthority (lib : TomlValues) (t : Members) : Except LoadFault (String × String × Int × String) :=
  if (t.lookup "ai_authority").isSome then do
    let auth ← asTable t "ai_authority"
    pure (valueOr lib.string auth "mode" "auto", valueOr lib.string auth "beamng_exe_path" "",
      valueOr lib.int auth "timeout_sec" 15, valueOr lib.string auth "bridge_token" "changeme_bridge")
  else pure ("auto", "", 15, "changeme_bridge")

/-- `file` is the result of `toml::parse_file`, or what its `parse_error` says. -/
def load (lib : TomlValues) (file : Except String Members) : Except LoadFault ServerConfig :=
  match file with
  | .error what => .error (.runtimeError ("Config parse error: " ++ what))
  | .ok t => do
    let srv ← asTable t "server"
    let mst ← asTable t "master"
    let gp ← asTable t "gameplay"
    let ai ← asTable t "ai_traffic"
    let pool := strings (ai.lookup "vehicle_pool")
    let (mode, exe, timeout, token) ← loadAuthority lib t
    let rcon ← asTable t "rcon"
    let res ← asTable t "resources"
    pure
      { name := valueOr lib.string srv "name" "NovaMP Server"
        description := valueOr lib.string srv "description" ""
        map := valueOr lib.string srv "map" "gridmap_v2"
        maxPlayers := valueOr lib.int srv "max_players" 8
        password := valueOr lib.string srv "password" ""
        port := valueOr lib.int srv "port" 4444
        logLevel := valueOr lib.string srv "log_level" "info"
        logFile := valueOr lib.string srv "log_file" "server.log"
        tags := strings (srv.lookup "tags")
        masterRegister := valueOr lib.bool mst "register" true
        masterUrl := valueOr lib.string mst "url" "http://master.novaMP.gg"
        masterAuthToken := valueOr lib.string mst "auth_token" ""
        -- 0.033
        masterHeartbeatHz := valueOr lib.real mst "heartbeat_hz" 0x3FA0E5604189374C
        vehicleLimitPerPlayer := valueOr lib.int gp "vehicle_limit_per_player" 1
        vehicleSyncHz := valueOr lib.int gp "vehicle_sync_hz" 100
        maxVehicles := valueOr lib.int gp "max_vehicles" 64
        allowVehicleDamage := valueOr lib.bool gp "allow_vehicle_damage" true
        respawnOnDisconnect := valueOr lib.bool gp "respawn_on_disconnect" false
        aiEnabled := valueOr lib.bool ai "enabled" false
        aiCount := valueOr lib.int ai "count" 10
        -- 14.0
        aiSpeedLimit := lib.float (valueOr lib.real ai "speed_limit" 0x402C000000000000)
        aiMode := valueOr lib.string ai "mode" "traffic"
        aiUpdateRateHz := valueOr lib.int ai "update_rate_hz" 20
        -- 500.0, 300.0 and 10.0
        aiDespawnDist := lib.float (valueOr lib.real ai "despawn_dist" 0x407F400000000000)
        aiSpawnDist := lib.float (valueOr lib.real ai "spawn_dist" 0x4072C00000000000)
        aiPathReplanSecs := lib.float (valueOr lib.real ai "path_replan_secs" 0x4024000000000000)
        aiVehiclePool := if pool.isEmpty then ["etk800", "vivace", "pessima"] else pool
        authorityMode := mode
        beamngExePath := exe
        authorityTimeoutSec := timeout
        bridgeToken := token
        rconEnabled := valueOr lib.bool rcon "enabled" false
        rconPort := valueOr lib.int rcon "port" 4445
        rconPassword := valueOr lib.string rcon "password" "changeme"
        resourcesDir := valueOr lib.string res "directory" "Resources/Server"
        resourcesAutoReload := valueOr lib.bool res "auto_reload" false }

/-- What `main` prints before it returns 1; it catches exceptions and nothing else. -/
def report : LoadFault → Option String
  | .runtimeError what => some ("Config error: " ++ what)
  | .nullSection _ => none

/-! ## The settings -/

/-- The value of a key in a section, as far as both are there. -/
def nodeAt (t : Members) (sect key : String) : Option Toml :=
  match t.lookup sect with
  | some (.table m) => m.lookup key
  | _ => none

structure Setting (α : Type) where
  sect : String
  key : String
  value : Toml → Option α
  dflt : α
  field : ServerConfig → α

namespace Setting

variable {α : Type} (setting : Setting α) (t : Members) (c : ServerConfig)

/-- The value that the key has, as the type asked for. -/
def given : Option α := (nodeAt t setting.sect setting.key).bind setting.value

/-- The field is the value of the key, or the default. -/
def Kept : Prop := setting.field c = (setting.given t).getD setting.dflt

/-- The field is the default if the key is absent or no such value. -/
def Defaults : Prop := setting.given t = none → setting.field c = setting.dflt

variable {setting t c}

theorem Kept.defaults (h : setting.Kept t c) : setting.Defaults t c := by
  intro hnone
  rw [Kept, hnone] at h
  exact h

end Setting

variable (lib : TomlValues)

def stringSettings : List (Setting String) :=
  [⟨"server", "name", lib.string, "NovaMP Server", (·.name)⟩,
    ⟨"server", "description", lib.string, "", (·.description)⟩,
    ⟨"server", "map", lib.string, "gridmap_v2", (·.map)⟩,
    ⟨"server", "password", lib.string, "", (·.password)⟩,
    ⟨"server", "log_level", lib.string, "info", (·.logLevel)⟩,
    ⟨"server", "log_file", lib.string, "server.log", (·.logFile)⟩,
    ⟨"master", "url", lib.string, "http://master.novaMP.gg", (·.masterUrl)⟩,
    ⟨"master", "auth_token", lib.string, "", (·.masterAuthToken)⟩,
    ⟨"ai_traffic", "mode", lib.string, "traffic", (·.aiMode)⟩,
    ⟨"ai_authority", "mode", lib.string, "auto", (·.authorityMode)⟩,
    ⟨"ai_authority", "beamng_exe_path", lib.string, "", (·.beamngExePath)⟩,
    ⟨"ai_authority", "bridge_token", lib.string, "changeme_bridge", (·.bridgeToken)⟩,
    ⟨"rcon", "password", lib.string, "changeme", (·.rconPassword)⟩,
    ⟨"resources", "directory", lib.string, "Resources/Server", (·.resourcesDir)⟩]

def intSettings : List (Setting Int) :=
  [⟨"server", "max_players", lib.int, 8, (·.maxPlayers)⟩,
    ⟨"server", "port", lib.int, 4444, (·.port)⟩,
    ⟨"gameplay", "vehicle_limit_per_player", lib.int, 1, (·.vehicleLimitPerPlayer)⟩,
    ⟨"gameplay", "vehicle_sync_hz", lib.int, 100, (·.vehicleSyncHz)⟩,
    ⟨"gameplay", "max_vehicles", lib.int, 64, (·.maxVehicles)⟩,
    ⟨"ai_traffic", "count", lib.int, 10, (·.aiCount)⟩,
    ⟨"ai_traffic", "update_rate_hz", lib.int, 20, (·.aiUpdateRateHz)⟩,
    ⟨"ai_authority", "timeout_sec", lib.int, 15, (·.authorityTimeoutSec)⟩,
    ⟨"rcon", "port", lib.int, 4445, (·.rconPort)⟩]

def boolSettings : List (Setting Bool) :=
  [⟨"master", "register", lib.bool, true, (·.masterRegister)⟩,
    ⟨"gameplay", "allow_vehicle_damage", lib.bool, true, (·.allowVehicleDamage)⟩,
    ⟨"gameplay", "respawn_on_disconnect", lib.bool, false, (·.respawnOnDisconnect)⟩,
    ⟨"ai_traffic", "enabled", lib.bool, false, (·.aiEnabled)⟩,
    ⟨"rcon", "enabled", lib.bool, false, (·.rconEnabled)⟩,
    ⟨"resources", "auto_reload", lib.bool, false, (·.resourcesAutoReload)⟩]

/-- A number that is cast to `float`. -/
def floatOf (node : Toml) : Option UInt64 := (lib.real node).map lib.float

def realSettings : List (Setting UInt64) :=
  [⟨"master", "heartbeat_hz", lib.real, 0x3FA0E5604189374C, (·.masterHeartbeatHz)⟩,
    ⟨"ai_traffic", "speed_limit", floatOf lib, lib.float 0x402C000000000000, (·.aiSpeedLimit)⟩,
    ⟨"ai_traffic", "despawn_dist", floatOf lib, lib.float 0x407F400000000000, (·.aiDespawnDist)⟩,
    ⟨"ai_traffic", "spawn_dist", floatOf lib, lib.float 0x4072C00000000000, (·.aiSpawnDist)⟩,
    ⟨"ai_traffic", "path_replan_secs", floatOf lib, lib.float 0x4024000000000000, (·.aiPathReplanSecs)⟩]

/-- The three models that are used where the file names none. -/
def defaultPool : List String := ["etk800", "vivace", "pessima"]

/-- Every setting is the value of its key or its default. -/
structure Configured (t : Members) (c : ServerConfig) : Prop where
  strings : ∀ setting ∈ stringSettings lib, setting.Kept t c
  ints : ∀ setting ∈ intSettings lib, setting.Kept t c
  bools : ∀ setting ∈ boolSettings lib, setting.Kept t c
  reals : ∀ setting ∈ realSettings lib, setting.Kept t c
  tags : c.tags = Config.strings (nodeAt t "server" "tags")
  pool : c.aiVehiclePool = if (Config.strings (nodeAt t "ai_traffic" "vehicle_pool")).isEmpty then defaultPool
    else Config.strings (nodeAt t "ai_traffic" "vehicle_pool")

/-- Every setting whose key is absent or mistyped is its default. -/
structure Defaulted (t : Members) (c : ServerConfig) : Prop where
  strings : ∀ setting ∈ stringSettings lib, setting.Defaults t c
  ints : ∀ setting ∈ intSettings lib, setting.Defaults t c
  bools : ∀ setting ∈ boolSettings lib, setting.Defaults t c
  reals : ∀ setting ∈ realSettings lib, setting.Defaults t c
  tags : (∀ xs, nodeAt t "server" "tags" ≠ some (.arr xs)) → c.tags = []
  pool : (∀ xs, nodeAt t "ai_traffic" "vehicle_pool" ≠ some (.arr xs)) → c.aiVehiclePool = defaultPool

/-- The file gives a configuration with its defaults, or an exception that `main` reports. -/
def Handled (file : Except String Members) : Prop :=
  match load lib file with
  | .ok c => ∀ t, file = .ok t → Defaulted lib t c
  | .error e => (report e).isSome

/-- The sections that have to be there. -/
def required : List String := ["server", "master", "gameplay", "ai_traffic", "rcon", "resources"]

def IsTable (t : Members) (name : String) : Prop := ∃ m, t.lookup name = some (.table m)

/-- The required sections are tables, and `[ai_authority]` is one if it is there. -/
structure Sectioned (t : Members) : Prop where
  required : ∀ name ∈ required, IsTable t name
  authority : t.lookup "ai_authority" = none ∨ IsTable t "ai_authority"

/-! ## What `load` does -/

variable {lib} {t : Members}

theorem strings_of_noArray {node : Option Toml} (h : ∀ xs, node ≠ some (.arr xs)) : strings node = [] := by
  cases node with
  | none => rfl
  | some v =>
    cases v with
    | arr xs => exact absurd rfl (h xs)
    | _ => rfl

theorem Configured.defaulted {c : ServerConfig} (h : Configured lib t c) : Defaulted lib t c where
  strings setting hs := (h.strings setting hs).defaults
  ints setting hs := (h.ints setting hs).defaults
  bools setting hs := (h.bools setting hs).defaults
  reals setting hs := (h.reals setting hs).defaults
  tags hno := by rw [h.tags, strings_of_noArray hno]
  pool hno := by
    rw [h.pool, strings_of_noArray hno]
    rfl

theorem asTable_eq {name : String} {m : Members} (h : t.lookup name = some (.table m)) : asTable t name = .ok m := by
  rw [asTable, h]

theorem asTable_null {name : String} (h : ¬ IsTable t name) : asTable t name = .error (.nullSection name) := by
  unfold asTable
  split
  · exact absurd ⟨_, ‹_›⟩ h
  · rfl

theorem nodeAt_eq {name : String} {m : Members} (h : t.lookup name = some (.table m)) (key : String) :
    nodeAt t name key = m.lookup key := by
  rw [nodeAt, h]

/-- A key of `[ai_authority]`: without the section it is absent. -/
theorem loadAuthority_eq (lib : TomlValues) (h : t.lookup "ai_authority" = none ∨ IsTable t "ai_authority") :
    loadAuthority lib t = .ok (((nodeAt t "ai_authority" "mode").bind lib.string).getD "auto",
      ((nodeAt t "ai_authority" "beamng_exe_path").bind lib.string).getD "",
      ((nodeAt t "ai_authority" "timeout_sec").bind lib.int).getD 15,
      ((nodeAt t "ai_authority" "bridge_token").bind lib.string).getD "changeme_bridge") := by
  rcases h with hnone | ⟨auth, hauth⟩
  · simp [loadAuthority, nodeAt, hnone]
    rfl
  · simp only [nodeAt_eq hauth, loadAuthority, hauth, Option.isSome_some, if_true, asTable_eq hauth]
    rfl

theorem floatOf_getD (node : Option Toml) (d : UInt64) :
    (node.bind (floatOf lib)).getD (lib.float d) = lib.float ((node.bind lib.real).getD d) := by
  cases node with
  | none => rfl
  | some v =>
    show ((lib.real v).map lib.float).getD _ = lib.float ((lib.real v).getD d)
    cases lib.real v <;> rfl

/-- If the sections are there, each setting is kept. -/
theorem load_configured (lib : TomlValues) (h : Sectioned t) : ∃ c, load lib (.ok t) = .ok c ∧ Configured lib t c := by
  obtain ⟨srv, hsrv⟩ := h.required "server" (by decide)
  obtain ⟨mst, hmst⟩ := h.required "master" (by decide)
  obtain ⟨gp, hgp⟩ := h.required "gameplay" (by decide)
  obtain ⟨ai, hai⟩ := h.required "ai_traffic" (by decide)
  obtain ⟨rcon, hrcon⟩ := h.required "rcon" (by decide)
  obtain ⟨res, hres⟩ := h.required "resources" (by decide)
  have hauth := loadAuthority_eq lib h.authority
  refine ⟨_, by simp only [load, asTable_eq hsrv, asTable_eq hmst, asTable_eq hgp, asTable_eq hai, asTable_eq hrcon,
    asTable_eq hres, hauth]; rfl, ?_⟩
  constructor
  case strings =>
    simp [stringSettings, Setting.Kept, Setting.given, valueOr, nodeAt_eq hsrv, nodeAt_eq hmst, nodeAt_eq hai,
      nodeAt_eq hrcon, nodeAt_eq hres]
  case ints =>
    simp [intSettings, Setting.Kept, Setting.given, valueOr, nodeAt_eq hsrv, nodeAt_eq hgp, nodeAt_eq hai,
      nodeAt_eq hrcon]
  case bools =>
    simp [boolSettings, Setting.Kept, Setting.given, valueOr, nodeAt_eq hmst, nodeAt_eq hgp, nodeAt_eq hai,
      nodeAt_eq hrcon, nodeAt_eq hres]
  case reals =>
    simp [realSettings, Setting.Kept, Setting.given, valueOr, nodeAt_eq hmst, nodeAt_eq hai, floatOf_getD]
  case tags => rw [nodeAt_eq hsrv]
  case pool => rw [nodeAt_eq hai]; rfl

theorem loadAuthority_null (hsome : t.lookup "ai_authority" ≠ none) (h : ¬ IsTable t "ai_authority") :
    loadAuthority lib t = .error (.nullSection "ai_authority") := by
  rw [loadAuthority, if_pos (Option.isSome_iff_ne_none.mpr hsome), asTable_null h]
  rfl

/-- A section is missing, or what comes after it ends in a null pointer. -/
theorem bind_null {α : Type} {name : String} {f : Members → Except LoadFault α}
    (h : ∀ m, t.lookup name = some (.table m) → ∃ missing, f m = .error (.nullSection missing)) :
    ∃ missing, (asTable t name >>= f) = .error (.nullSection missing) := by
  by_cases hname : IsTable t name
  · obtain ⟨m, hm⟩ := hname
    rw [asTable_eq hm]
    exact h m hm
  · rw [asTable_null hname]
    exact ⟨name, rfl⟩

/-- If one is missing, or no table, a null pointer is dereferenced. -/
theorem load_null (lib : TomlValues) (h : ¬ Sectioned t) : ∃ name, load lib (.ok t) = .error (.nullSection name) := by
  rw [load]
  refine bind_null fun srv hsrv => bind_null fun mst hmst => bind_null fun gp hgp => bind_null fun ai hai => ?_
  dsimp only
  by_cases hauth : t.lookup "ai_authority" = none ∨ IsTable t "ai_authority"
  · rw [loadAuthority_eq lib hauth]
    refine bind_null fun rcon hrcon => bind_null fun res hres => absurd ⟨?_, hauth⟩ h
    -- all of them are there
    simp only [required, List.forall_mem_cons]
    exact ⟨⟨srv, hsrv⟩, ⟨mst, hmst⟩, ⟨gp, hgp⟩, ⟨ai, hai⟩, ⟨rcon, hrcon⟩, ⟨res, hres⟩, nofun⟩
  · obtain ⟨hsome, hno⟩ := not_or.mp hauth
    rw [loadAuthority_null hsome hno]
    exact ⟨"ai_authority", rfl⟩

/-- A file is handled exactly if it is no TOML, or has all its sections. -/
theorem load_handled_iff (lib : TomlValues) (file : Except String Members) :
    Handled lib file ↔ ∀ t, file = .ok t → Sectioned t := by
  cases file with
  | error what => exact iff_of_true rfl nofun
  | ok t =>
    by_cases h : Sectioned t
    · refine iff_of_true ?_ fun t' ht' => by cases ht'; exact h
      obtain ⟨c, hc, hconf⟩ := load_configured lib h
      rw [Handled, hc]
      intro t' ht'
      cases ht'
      exact hconf.defaulted
    · refine iff_of_false (fun hhandled => ?_) fun hall => h (hall t rfl)
      obtain ⟨name, hnull⟩ := load_null lib h
      rw [Handled, hnull] at hhandled
      cases hhandled

/-- toml++'s conversions of a value to its own type. -/
def ownType : TomlValues where
  string := Toml.asString
  int := fun
    | .int n => if -2 ^ 31 ≤ n ∧ n < 2 ^ 31 then some n else none
    | _ => none
  real := fun
    | .real bits => some bits
    | _ => none
  bool := fun
    | .bool b => some b
    | _ => none
  float := id

/-- A file with nothing in it. -/
theorem empty_file_crashes : ¬ ∀ (lib : TomlValues) (file : Except String Members), Handled lib file := by
  intro h
  exact absurd (h ownType (.ok [])) (by simp [Handled, load, asTable, report, bind, Except.bind])

end Config

end NovaMP
