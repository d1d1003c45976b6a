/-
  NovaMP.Server.Rates — what the server makes of the configured numbers
  (`GameServer::GameServer`, `run`, `vehicleSyncLoop` and `aiTrafficLoop` in
  `servers/src/game_server.cpp`).

  A rate becomes an interval in microseconds by an integer division, and a port a
  `uint16_t` by a cast. `aiTrafficLoop` takes a rate below 1 as 1, `vehicleSyncLoop` takes
  it as it is, and neither looks at a rate above a million. The loop for the traffic and
  the RCON server are there only where they are enabled.

  - `interval_pos_iff`: a division gives an interval for the rates from 1 to a million.
  - `usable_iff`: so the numbers of a loaded configuration are usable exactly if the file's
    are in these ranges (`InRange`), as far as it has any.
  - `zero_rate`: a file with `vehicle_sync_hz = 0`.
-/

import NovaMP.Server.Config

namespace NovaMP

open Lib

namespace Config

/-! ## Intervals and ports -/

/-- `1000000 / hz`, rounded towards zero; `none` is a division by zero. -/
def interval (hz : Int) : Option Int := if hz = 0 then none else some (Int.tdiv 1000000 hz)

/-- The division is one, and its result positive. -/
def Ticks (iv : Option Int) : Prop := ∃ us, iv = some us ∧ 0 < us

namespace ServerConfig

variable (c : ServerConfig)

/-- The interval of `vehicleSyncLoop`. -/
def vehicleSyncInterval : Option Int := interval c.vehicleSyncHz

/-- The interval of `aiTrafficLoop`. -/
def aiTrafficInterval : Option Int := interval (max 1 c.aiUpdateRateHz)

/-- The port that both servers are created with. -/
def serverPort : UInt16 := UInt16.ofInt c.port

/-- The port that the RCON server is created with. -/
def rconServerPort : UInt16 := UInt16.ofInt c.rconPort

/-- The numbers do what they say: the loops that are started tick, and the servers that
    are created have the configured ports. -/
structure Usable : Prop where
  sync : Ticks c.vehicleSyncInterval
  ai : c.aiEnabled = true → Ticks c.aiTrafficInterval
  port : (c.serverPort.toNat : Int) = c.port
  rcon : c.rconEnabled = true → (c.rconServerPort.toNat : Int) = c.rconPort

end ServerConfig

theorem interval_pos_iff (hz : Int) : Ticks (interval hz) ↔ 1 ≤ hz ∧ hz ≤ 1000000 := by
  rcases Int.lt_trichotomy hz 0 with hneg | rfl | hpos
  · have hle : Int.tdiv 1000000 hz ≤ 0 := Int.tdiv_nonpos_of_nonneg_of_nonpos (by decide) (Int.le_of_lt hneg)
    refine iff_of_false (fun hticks => ?_) (by omega)
    obtain ⟨us, hus, hlt⟩ := hticks
    rw [interval, if_neg (Int.ne_of_lt hneg)] at hus
    cases hus
    omega
  · exact iff_of_false (fun ⟨us, hus, _⟩ => nomatch hus) (by decide)
  · have hdiv : 1 ≤ 1000000 / hz ↔ 1 * hz ≤ 1000000 := Int.le_ediv_iff_mul_le hpos
    rw [interval, if_neg (Int.ne_of_gt hpos), Int.tdiv_eq_ediv_of_nonneg (by decide)]
    constructor
    · rintro ⟨us, hus, hlt⟩
      cases hus
      omega
    · intro hrange
      exact ⟨_, rfl, by omega⟩

theorem aiInterval_pos_iff (hz : Int) : Ticks (interval (max 1 hz)) ↔ hz ≤ 1000000 := by
  rw [interval_pos_iff]
  omega

/-! ## The numbers of a file -/

variable (lib : TomlValues)

def vehicleLimit : Setting Int :=
  ⟨"gameplay", "vehicle_limit_per_player", lib.int, 1, (·.vehicleLimitPerPlayer)⟩

def vehicleSyncHz : Setting Int := ⟨"gameplay", "vehicle_sync_hz", lib.int, 100, (·.vehicleSyncHz)⟩

def aiEnabled : Setting Bool := ⟨"ai_traffic", "enabled", lib.bool, false, (·.aiEnabled)⟩

def aiUpdateRateHz : Setting Int := ⟨"ai_traffic", "update_rate_hz", lib.int, 20, (·.aiUpdateRateHz)⟩

def port : Setting Int := ⟨"server", "port", lib.int, 4444, (·.port)⟩

def rconEnabled : Setting Bool := ⟨"rcon", "enabled", lib.bool, false, (·.rconEnabled)⟩

def rconPort : Setting Int := ⟨"rcon", "port", lib.int, 4445, (·.rconPort)⟩

/-- A number of the file, if there is one, is in a range that the default is in. -/
def Setting.Within (setting : Setting Int) (t : Members) (P : Int → Prop) : Prop :=
  ∀ n, setting.given t = some n → P n

/-- The numbers that are used are in range. -/
structure InRange (t : Members) : Prop where
  sync : (vehicleSyncHz lib).Within t fun n => 1 ≤ n ∧ n ≤ 1000000
  ai : (aiEnabled lib).given t = some true → (aiUpdateRateHz lib).Within t fun n => n ≤ 1000000
  port : (port lib).Within t fun n => 0 ≤ n ∧ n < 2 ^ 16
  rcon : (rconEnabled lib).given t = some true → (rconPort lib).Within t fun n => 0 ≤ n ∧ n < 2 ^ 16

variable {lib} {t : Members} {c : ServerConfig}

/-- A field is in a range that has the default exactly if the number of the file is. -/
theorem Setting.Kept.within_iff {setting : Setting Int} (h : setting.Kept t c) {P : Int → Prop} (hdflt : P setting.dflt) :
    P (setting.field c) ↔ setting.Within t P := by
  rw [h, Within]
  cases setting.given t with
  | none => exact iff_of_true hdflt nofun
  | some n => exact ⟨fun hn m hm => Option.some.inj hm ▸ hn, fun hall => hall n rfl⟩

/-- A switch that is off by default is on exactly if the file says so. -/
theorem Setting.Kept.on_iff {setting : Setting Bool} (h : setting.Kept t c) (hdflt : setting.dflt = false) :
    setting.field c = true ↔ setting.given t = some true := by
  rw [h, hdflt]
  cases setting.given t with
  | none => simp
  | some b => simp

theorem configured_of_load (h : load lib (.ok t) = .ok c) : Configured lib t c := by
  have hsect : Sectioned t := by
    by_contra hno
    obtain ⟨name, hnull⟩ := load_null lib hno
    rw [hnull] at h
    cases h
  obtain ⟨c', hc', hconf⟩ := load_configured lib hsect
  rw [hc'] at h
  cases h
  exact hconf

/-- The numbers of a loaded configuration are usable exactly if those of the file are in
    range. -/
theorem usable_iff (lib : TomlValues) {t : Members} {c : ServerConfig} (h : load lib (.ok t) = .ok c) :
    c.Usable ↔ InRange lib t := by
  have hconf := configured_of_load h
  have hsync : (vehicleSyncHz lib).Kept t c := hconf.ints _ (by simp [intSettings, vehicleSyncHz])
  have hrate : (aiUpdateRateHz lib).Kept t c := hconf.ints _ (by simp [intSettings, aiUpdateRateHz])
  have hport : (port lib).Kept t c := hconf.ints _ (by simp [intSettings, port])
  have hrcon : (rconPort lib).Kept t c := hconf.ints _ (by simp [intSettings, rconPort])
  have haion : (aiEnabled lib).Kept t c := hconf.bools _ (by simp [boolSettings, aiEnabled])
  have hrconon : (rconEnabled lib).Kept t c := hconf.bools _ (by simp [boolSettings, rconEnabled])
  have hsyncs : Ticks c.vehicleSyncInterval ↔ (vehicleSyncHz lib).Within t fun n => 1 ≤ n ∧ n ≤ 1000000 :=
    (interval_pos_iff _).trans (hsync.within_iff (P := fun n => 1 ≤ n ∧ n ≤ 1000000) (by simp [vehicleSyncHz]))
  have hrates : Ticks c.aiTrafficInterval ↔ (aiUpdateRateHz lib).Within t fun n => n ≤ 1000000 :=
    (aiInterval_pos_iff _).trans (hrate.within_iff (P := fun n => n ≤ 1000000) (by simp [aiUpdateRateHz]))
  have hports : (c.serverPort.toNat : Int) = c.port ↔ (port lib).Within t fun n => 0 ≤ n ∧ n < 2 ^ 16 :=
    ofInt16_eq_iff.trans (hport.within_iff (P := fun n => 0 ≤ n ∧ n < 2 ^ 16) (by simp [port]))
  have hrcons : (c.rconServerPort.toNat : Int) = c.rconPort ↔ (rconPort lib).Within t fun n => 0 ≤ n ∧ n < 2 ^ 16 :=
    ofInt16_eq_iff.trans (hrcon.within_iff (P := fun n => 0 ≤ n ∧ n < 2 ^ 16) (by simp [rconPort]))
  have hai : c.aiEnabled = true ↔ (aiEnabled lib).given t = some true := haion.on_iff rfl
  have hron : c.rconEnabled = true ↔ (rconEnabled lib).given t = some true := hrconon.on_iff rfl
  constructor
  · intro hu
    obtain ⟨hs, ha, hp, hr⟩ := hu
    exact ⟨hsyncs.mp hs, fun hon => hrates.mp (ha (hai.mpr hon)), hports.mp hp,
      fun hon => hrcons.mp (hr (hron.mpr hon))⟩
  · intro hin
    obtain ⟨hs, ha, hp, hr⟩ := hin
    exact ⟨hsyncs.mpr hs, fun hon => hrates.mpr (ha (hai.mp hon)), hports.mpr hp,
      fun hon => hrcons.mpr (hr (hron.mp hon))⟩

/-! ## Two files -/

/-- A file with the required sections and nothing in them but the keys of `[gameplay]`. -/
def fileWith (gameplay : Members) : Members :=
  [("server", .table []), ("master", .table []), ("gameplay", .table gameplay), ("ai_traffic", .table []),
    ("rcon", .table []), ("resources", .table [])]

theorem load_fileWith (gameplay : Members) : ∃ c, load ownType (.ok (fileWith gameplay)) = .ok c := ⟨_, rfl⟩

/-- All the numbers are given, and used. -/
def numbered : Members :=
  [("server", .table [("port", .int 30814)]), ("master", .table []), ("gameplay", .table [("vehicle_sync_hz", .int 60)]),
    ("ai_traffic", .table [("enabled", .bool true), ("update_rate_hz", .int 30)]),
    ("rcon", .table [("enabled", .bool true), ("port", .int 30815)]), ("resources", .table [])]

theorem inRange_numbered : InRange ownType numbered where
  sync n hn := by
    obtain rfl : 60 = n := Option.some.inj hn
    decide
  ai _ n hn := by
    obtain rfl : 30 = n := Option.some.inj hn
    decide
  port n hn := by
    obtain rfl : 30814 = n := Option.some.inj hn
    decide
  rcon _ n hn := by
    obtain rfl : 30815 = n := Option.some.inj hn
    decide

theorem usable_numbers : ∃ c, load ownType (.ok numbered) = .ok c ∧ c.vehicleSyncHz = 60 ∧ c.aiEnabled = true ∧
    c.serverPort = 30814 ∧ c.rconServerPort = 30815 ∧ c.Usable :=
  ⟨_, rfl, rfl, rfl, rfl, rfl, (usable_iff ownType rfl).mpr inRange_numbered⟩

/-- The vehicles are synchronised at no rate: the thread divides by zero. -/
theorem zero_rate : ¬ ∀ (lib : TomlValues) (t : Members) (c : ServerConfig), load lib (.ok t) = .ok c → c.Usable := by
  intro h
  obtain ⟨c, hc⟩ := load_fileWith [("vehicle_sync_hz", .int 0)]
  have hsync : c.vehicleSyncHz = 0 := by
    cases hc
    rfl
  obtain ⟨us, hus, -⟩ := (h ownType _ c hc).sync
  rw [ServerConfig.vehicleSyncInterval, hsync] at hus
  cases hus

end Config

end NovaMP
