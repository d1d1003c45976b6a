/-
  NovaMP.Server.VehicleLimits — the limits on vehicles
  (`handleVehicleSpawn` in `servers/src/game_server.cpp`, `vehicle_limit_per_player` and
  `max_vehicles` in `servers/src/config/config.hpp`).

  A spawn request is refused when its player has `vehicle_limit_per_player` vehicles.
  Nothing reads `max_vehicles`, so it is a number beside the model here.

  - `step_total`: a call adds one vehicle to the total, on an accepted request, or none.
  - `each_kept`, `each_kept_loaded`: the limit on each player holds in every state, for a
    configuration whose limit is not negative.
  - `limits_kept_iff`: so both limits hold in all states of a run exactly if neither of them
    is negative (or nobody joins) and every accepted request comes below the total.
  - `limit_passed`: two vehicles of one player, with a total of one.
-/

import NovaMP.Server.Rates
import NovaMP.Server.VehicleNumbers

namespace NovaMP.GameServer

open Lib

/-! ## The limits -/

/-- The vehicles of all players together. -/
def totalVehicles (s : Server) : Nat := s.players.sumValues fun p => p.vehicles.length

/-- Each player and all of them together are within their limit. -/
structure WithinLimits (w : World) (maxVehicles : Int) (s : Server) : Prop where
  each : ∀ pid p, s.players.lookup pid = some p → (p.vehicles.length : Int) ≤ w.cfg.vehicleLimitPerPlayer
  total : (totalVehicles s : Int) ≤ maxVehicles

/-- A request is accepted only below the total, and nobody joins under a negative limit. -/
structure HasRoom (w : World) (maxVehicles : Int) (m : Moment) : Prop where
  limit : 0 ≤ w.cfg.vehicleLimitPerPlayer ∨ ∀ pid, m.after.players.lookup pid = none
  spawn : ∀ pid p, SpawnAccepted w m.before m.call pid p → (totalVehicles m.before : Int) < maxVehicles

variable {w : World} {x : Env} {s s' : Server} {c : Call} {maxVehicles : Int}

/-! ## One call -/

theorem NoneAdded.total_le (h : NoneAdded s s') : totalVehicles s' ≤ totalVehicles s := by
  refine Table.sumValues_le fun pid p' hp' => ?_
  rcases h pid p' hp' with hnil | ⟨p, hp, hsub⟩
  · exact .inl (List.length_eq_zero_iff.mpr hnil)
  · exact .inr ⟨p, hp, hsub.length_le⟩

/-- An accepted request adds one vehicle to the total. -/
theorem totalVehicles_put {pid : UInt16} {p : Player} {v : PlayerVehicle} (hp : s.players.lookup pid = some p)
    (h : s'.players = s.players.put pid { p with vehicles := p.vehicles ++ [v] }) :
    totalVehicles s' = totalVehicles s + 1 := by
  have hput := Table.sumValues_put (fun q : Player => q.vehicles.length) hp { p with vehicles := p.vehicles ++ [v] }
  rw [← h] at hput
  simp only [List.length_append, List.length_singleton] at hput
  unfold totalVehicles
  omega

/-- A call that accepts a request adds one vehicle, and any other none. -/
theorem step_total (h : Step w s x c s') :
    (∃ pid p, SpawnAccepted w s c pid p ∧ totalVehicles s' = totalVehicles s + 1) ∨
      ((∀ pid p, ¬ SpawnAccepted w s c pid p) ∧ totalVehicles s' ≤ totalVehicles s) := by
  rcases step_vehicles h with ⟨pid, p, v, hacc, -, hput⟩ | ⟨hno, hnone⟩
  · exact .inl ⟨pid, p, hacc, totalVehicles_put hacc.player hput⟩
  · exact .inr ⟨hno, hnone.total_le⟩

/-- The limit on each player is checked. -/
theorem step_each (h : Step w s x c s') (hlimit : 0 ≤ w.cfg.vehicleLimitPerPlayer)
    (hs : ∀ pid p, s.players.lookup pid = some p → (p.vehicles.length : Int) ≤ w.cfg.vehicleLimitPerPlayer) :
    ∀ pid p, s'.players.lookup pid = some p → (p.vehicles.length : Int) ≤ w.cfg.vehicleLimitPerPlayer := by
  intro pid' p' hp'
  rcases step_vehicles h with ⟨pid, p, v, hacc, -, hput⟩ | ⟨-, hnone⟩
  · rw [hput] at hp'
    by_cases hid : pid' = pid
    · subst hid
      rw [Table.lookup_put_self hacc.player] at hp'
      cases hp'
      have hroom := hacc.limit
      rw [List.length_append, List.length_singleton]
      omega
    · rw [Table.lookup_put_ne hid] at hp'
      exact hs pid' p' hp'
  · rcases hnone pid' p' hp' with hnil | ⟨p, hp, hsub⟩
    · rw [hnil]
      exact hlimit
    · have hle := hs pid' p hp
      have hshort := hsub.length_le
      omega

/-- Under a negative limit nobody is within it. -/
theorem each_iff_of_neg (h : w.cfg.vehicleLimitPerPlayer < 0) :
    (∀ pid p, s.players.lookup pid = some p → (p.vehicles.length : Int) ≤ w.cfg.vehicleLimitPerPlayer) ↔
      ∀ pid, s.players.lookup pid = none := by
  constructor
  · intro hall pid
    cases hp : s.players.lookup pid with
    | none => rfl
    | some p =>
      have hle := hall pid p hp
      omega
  · intro hnone pid p hp
    rw [hnone pid] at hp
    cases hp

/-- A call stays within the limits exactly if there is room for what it does. -/
theorem step_within_iff (h : Step w s x c s') (hs : WithinLimits w maxVehicles s) :
    WithinLimits w maxVehicles s' ↔ HasRoom w maxVehicles ⟨s, x, c, s'⟩ := by
  have heach : (∀ pid p, s'.players.lookup pid = some p → (p.vehicles.length : Int) ≤ w.cfg.vehicleLimitPerPlayer) ↔
      0 ≤ w.cfg.vehicleLimitPerPlayer ∨ ∀ pid, s'.players.lookup pid = none := by
    by_cases hlimit : 0 ≤ w.cfg.vehicleLimitPerPlayer
    · exact iff_of_true (step_each h hlimit hs.each) (.inl hlimit)
    · rw [or_iff_right hlimit]
      exact each_iff_of_neg (Int.not_le.mp hlimit)
  have htotal : (totalVehicles s' : Int) ≤ maxVehicles ↔
      ∀ pid p, SpawnAccepted w s c pid p → (totalVehicles s : Int) < maxVehicles := by
    have hbefore := hs.total
    rcases step_total h with ⟨pid, p, hacc, hone⟩ | ⟨hno, hle⟩
    · refine ⟨fun hle _ _ _ => by omega, fun hall => ?_⟩
      have hlt := hall pid p hacc
      omega
    · exact iff_of_true (by omega) fun pid p hacc => absurd hacc (hno pid p)
  exact ⟨fun hw => ⟨heach.mp hw.each, htotal.mp hw.total⟩, fun hr => ⟨heach.mpr hr.limit, htotal.mpr hr.spawn⟩⟩

/-! ## Runs -/

theorem within_init_iff : WithinLimits w maxVehicles Server.init ↔ 0 ≤ maxVehicles := by
  have htotal : totalVehicles Server.init = 0 := rfl
  constructor
  · intro h
    have hle := h.total
    omega
  · intro h
    refine ⟨fun pid p hp => ?_, by omega⟩
    simp [Server.init] at hp

theorem each_kept {ok : Server → Env → Call → Prop} (hlimit : 0 ≤ w.cfg.vehicleLimitPerPlayer) (hr : Reach w ok s) :
    ∀ pid p, s.players.lookup pid = some p → (p.vehicles.length : Int) ≤ w.cfg.vehicleLimitPerPlayer := by
  refine hr.invariant (I := fun s => ∀ pid p, s.players.lookup pid = some p →
    (p.vehicles.length : Int) ≤ w.cfg.vehicleLimitPerPlayer) ?_ fun _ _ _ _ hs _ h => step_each h hlimit hs
  intro pid p hp
  simp [Server.init] at hp

/-- A file that gives no negative limit. -/
theorem each_kept_loaded {lib : Config.TomlValues} {t : Config.Members} {c : Config.ServerConfig}
    (hload : Config.load lib (.ok t) = .ok c) (hcfg : w.cfg = c.forHandlers)
    (hfile : (Config.vehicleLimit lib).Within t fun n => 0 ≤ n) {ok : Server → Env → Call → Prop} (hr : Reach w ok s) :
    ∀ pid p, s.players.lookup pid = some p → (p.vehicles.length : Int) ≤ c.vehicleLimitPerPlayer := by
  have hkept : (Config.vehicleLimit lib).Kept t c :=
    (Config.configured_of_load hload).ints _ (by simp [Config.intSettings, Config.vehicleLimit])
  have hlimit : 0 ≤ w.cfg.vehicleLimitPerPlayer := by
    rw [hcfg]
    exact (hkept.within_iff (P := fun n => 0 ≤ n) (by simp [Config.vehicleLimit])).mpr hfile
  intro pid p hp
  have hle := each_kept hlimit hr pid p hp
  rwa [hcfg] at hle

/-- Both limits hold in all states of a run exactly if the total is not negative and there
    is room for what each call does. -/
theorem limits_kept_iff (w : World) (maxVehicles : Int) {h : List Moment} {s : Server} (hr : Run w anyStep h s) :
    (WithinLimits w maxVehicles Server.init ∧ ∀ m ∈ h, WithinLimits w maxVehicles m.after) ↔
      0 ≤ maxVehicles ∧ ∀ m ∈ h, HasRoom w maxVehicles m := by
  rw [within_init_iff]
  refine and_congr_right fun hmax => ?_
  exact hr.forall_iff (within_init_iff.mpr hmax) fun m hs hbefore => step_within_iff hs hbefore

/-! ## Two vehicles -/

/-- The first vehicle of `ann`, with a total of one. -/
theorem limits_kept_first : Garage.history.length = 3 ∧ WithinLimits Garage.world 1 Server.init ∧
    ∀ m ∈ Garage.history, WithinLimits Garage.world 1 m.after := by
  refine ⟨rfl, ?_⟩
  refine (limits_kept_iff Garage.world 1 (Garage.run_stocked trivial trivial trivial)).mpr ⟨by decide, fun m hm => ?_⟩
  have hempty : ∀ m ∈ Garage.history, totalVehicles m.before < 1 := by decide
  refine ⟨.inl (by decide), fun pid p _ => ?_⟩
  have hlt := hempty m hm
  omega

/-- The second one, which the limit on each player allows. -/
theorem limit_passed : ¬ ∀ (w : World) (maxVehicles : Int) (h : List Moment) (s : Server),
    0 ≤ w.cfg.vehicleLimitPerPlayer → 0 ≤ maxVehicles → Run w anyStep h s →
      ∀ m ∈ h, WithinLimits w maxVehicles m.after := by
  intro hall
  have htotal : totalVehicles Parade.two = 2 := by decide
  have hmem : ⟨Garage.stocked, Env.quiet, .frame 0 Garage.spawning, Parade.two⟩ ∈ Parade.parade :=
    List.mem_append_left _ (List.mem_cons_of_mem _ (List.mem_cons_of_mem _ List.mem_cons_self))
  have hle : (totalVehicles Parade.two : Int) ≤ 1 :=
    (hall Garage.world 1 _ _ (by decide) (by decide) Parade.run_twins _ hmem).total
  omega

end NovaMP.GameServer
