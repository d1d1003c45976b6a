/-
  NovaMP.Client.AiTraffic — which vehicles the authority sends as traffic
  (`client/Resources/Client/ai_authority.lua`, `main.lua`, `vehicle_sync.lua`).

  By its own comment the module sends what no human player owns. It leaves out `player_vids`,
  and only `onVehicleSpawned` puts a vehicle there, after it has announced it to the server.
  So two kinds of vehicles are sent that a human owns: those of other players, which
  `vehicle_sync.lua` has spawned, and those of the user that could not be announced.

  A `Drive` is the client with what the game knows: the vehicles of the user, and which of
  them were not announced. `leaked` are the updates that described a human's vehicle.

  - `Drive.Inv`: a vehicle of the user is in `player_vids` or was not announced.
  - `nothing_leaked`: nothing leaks if neither kind is there when updates are due.
  - `remote_car_leaked`: the car of another player.
-/

import NovaMP.Client.Extension
import NovaMP.Lib.Runs

namespace NovaMP.Client

open Lib Extension

/-! ## The client and its user -/

structure Drive where
  client : Extension
  /-- The vehicles of the user. -/
  locals : Finset Nat
  /-- Those whose spawn was not announced. -/
  unannounced : Finset Nat
  leaked : List AiUpdate

namespace Drive

/-- A value in `remote_vehicles`. -/
def isRemote (x : Extension) (gid : Nat) : Bool :=
  x.remoteVehicles.entries.any fun e => e.2.entries.any fun f => f.2 == gid

def owned (d : Drive) (gid : Nat) : Bool := gid ∈ d.locals || isRemote d.client gid

/-- Whether `onVehicleSpawned` gets to the end. -/
def announces (x : Extension) (text : Bytes) : Bool := x.connected && (tcpSend x.mod 0x06 (some text)).2.isOk

inductive Event where
  | packet (i : Incoming) (spawned : Option Nat)
  | game (e : GameEvent)
  | tick (due : Bool) (read : Nat → Option Reading)

/-- The user's vehicles after an event of the game, and those that were not announced. -/
def account (d : Drive) : GameEvent → Finset Nat × Finset Nat
  | .spawned gid text =>
    (insert gid d.locals, if announces d.client text then d.unannounced.erase gid else insert gid d.unannounced)
  | .destroyed gid => (d.locals.erase gid, d.unannounced.erase gid)
  | .appears _ | .vanishes _ => (d.locals, d.unannounced)

def step (d : Drive) : Event → Drive
  | .packet i spawned => { d with client := (d.client.handle spawned i).1 }
  | .game e => { d with client := (d.client.happens e).1, locals := (d.account e).1, unannounced := (d.account e).2 }
  | .tick due read =>
    let (client, sent, _) := d.client.onUpdate due read
    { d with client, leaked := d.leaked ++ sent.filter fun u => d.owned u.gid }

def system : System Drive Event := ⟨⟨.init, ∅, ∅, []⟩, step⟩

/-- All runs. -/
abbrev Run : Drive → Prop := system.Run fun _ _ => True

/-- When updates are due, the game has no vehicle of another player and none that the user
    has spawned unannounced, unless `player_vids` has it. -/
def OnlyTraffic (d : Drive) : Event → Prop
  | .tick true _ => d.client.connected = true → d.client.active = true → ∀ gid ∈ d.client.scene,
      gid ∉ d.client.playerVids → isRemote d.client gid = false ∧ gid ∉ d.unannounced
  | _ => True

/-- The runs whose ticks are all of this kind. -/
abbrev TrafficRun : Drive → Prop := system.Run OnlyTraffic

/-! ## Each event keeps it -/

def Inv (d : Drive) : Prop := ∀ gid ∈ d.locals, gid ∈ d.client.playerVids ∨ gid ∈ d.unannounced

variable {d : Drive}

theorem playerVids_spawned (x : Extension) (gid : Nat) (text : Bytes) :
    (x.happens (.spawned gid text)).1.playerVids =
      if announces x text then insert gid x.playerVids else x.playerVids := by
  have hscene : ¬ gid ∉ x.scene.insert gid := fun h => h (List.mem_insert_self)
  rw [happens, onVehicleSpawned, announces]
  cases x.connected with
  | false => rfl
  | true =>
    dsimp only
    rw [if_neg (by simp), if_neg hscene]
    rcases tcpSend x.mod 0x06 (some text) with ⟨mod, e | bytes⟩ <;> rfl

theorem playerVids_destroyed (x : Extension) (gid : Nat) :
    (x.happens (.destroyed gid)).1.playerVids = x.playerVids ∨
      (x.happens (.destroyed gid)).1.playerVids = x.playerVids.erase gid := by
  rw [happens, onVehicleDestroyed]
  split
  · exact .inl rfl
  split
  · exact .inl rfl
  split
  · exact .inl rfl
  · exact .inr rfl

theorem inv_game (hi : d.Inv) (e : GameEvent) : (d.step (.game e)).Inv := by
  cases e with
  | spawned gid text =>
    intro g hg
    show g ∈ (d.client.happens (.spawned gid text)).1.playerVids ∨
      g ∈ if announces d.client text then d.unannounced.erase gid else insert gid d.unannounced
    rw [playerVids_spawned]
    by_cases hgid : g = gid
    · subst hgid
      split
      · exact .inl (Finset.mem_insert_self ..)
      · exact .inr (Finset.mem_insert_self ..)
    · have hold := hi g ((Finset.mem_insert.mp hg).resolve_left hgid)
      split
      · exact hold.imp Finset.mem_insert_of_mem fun h => Finset.mem_erase.mpr ⟨hgid, h⟩
      · exact hold.imp_right Finset.mem_insert_of_mem
  | destroyed gid =>
    intro g hg
    obtain ⟨hgid, hg⟩ := Finset.mem_erase.mp hg
    have hold := hi g hg
    rcases playerVids_destroyed d.client gid with hsame | herase
    · exact hold.imp (fun h => hsame ▸ h) fun h => Finset.mem_erase.mpr ⟨hgid, h⟩
    · exact hold.imp (fun h => herase ▸ Finset.mem_erase.mpr ⟨hgid, h⟩) fun h => Finset.mem_erase.mpr ⟨hgid, h⟩
  | appears gid | vanishes gid => exact hi

theorem inv_step (hi : d.Inv) (e : Event) : (d.step e).Inv := by
  cases e with
  | packet i spawned =>
    intro g hg
    have hvids : (d.client.handle spawned i).1.playerVids = d.client.playerVids :=
      (handle_change d.client spawned i).playerVids
    exact (hi g hg).imp_left fun h => hvids ▸ h
  | game e => exact inv_game hi e
  | tick due read =>
    obtain ⟨vidMap, hframe⟩ := onUpdate_frame d.client due read
    have hvids : (d.client.onUpdate due read).1.playerVids = d.client.playerVids := by rw [hframe]
    intro g hg
    exact (hi g hg).imp_left fun h => hvids ▸ h

/-- An update that is sent at a tick describes no human's vehicle. -/
theorem sent_not_owned (hi : d.Inv) {due : Bool} {read : Nat → Option Reading} (ht : d.OnlyTraffic (.tick due read))
    {u : AiUpdate} (hu : u ∈ (d.client.onUpdate due read).2.1) : d.owned u.gid = false := by
  by_cases hruns : due = true ∧ d.client.connected = true ∧ d.client.active = true
  · obtain ⟨rfl, hconnected, hactive⟩ := hruns
    obtain ⟨hscene, hvids, -, -⟩ := onUpdate_sent hu
    obtain ⟨hremote, hspawned⟩ := ht hconnected hactive u.gid hscene hvids
    have hlocal : u.gid ∉ d.locals := fun h => (hi u.gid h).elim hvids hspawned
    rw [owned, hremote, decide_eq_false hlocal]
    rfl
  · rw [onUpdate_idle hruns] at hu
    cases hu

theorem leaked_step (hi : d.Inv) {e : Event} (ht : d.OnlyTraffic e) : (d.step e).leaked = d.leaked := by
  cases e with
  | packet _ _ | game _ => rfl
  | tick due read =>
    have hnone : ((d.client.onUpdate due read).2.1.filter fun u => d.owned u.gid) = [] := by
      rw [List.filter_eq_nil_iff]
      intro u hu
      rw [sent_not_owned hi ht hu]
      exact Bool.false_ne_true
    show d.leaked ++ (d.client.onUpdate due read).2.1.filter (fun u => d.owned u.gid) = d.leaked
    rw [hnone, List.append_nil]

/-- In a run in which the game has only traffic and announced vehicles of the user whenever
    updates are due, no update describes a human's vehicle. -/
theorem nothing_leaked (hr : TrafficRun d) : d.leaked = [] := by
  have hboth : d.Inv ∧ d.leaked = [] := by
    have hfirst : system.init.Inv := fun gid hgid => absurd hgid (Finset.notMem_empty gid)
    refine hr.invariant (I := fun d => d.Inv ∧ d.leaked = []) ⟨hfirst, rfl⟩ ?_
    rintro d e ⟨hi, hnone⟩ ht
    exact ⟨inv_step hi e, (leaked_step hi ht).trans hnone⟩
  exact hboth.2

/-! ## Another player joins -/

/-- What the game reports of a vehicle at the origin. -/
def parked : Nat → Option Reading := fun _ => some (.of VehicleState.zero)

/-- The user spawns vehicle 3, and is made the authority over the traffic, vehicle 7. -/
def driving : Drive :=
  let login := step ⟨.init, ∅, ∅, []⟩ (.packet (.authenticated (some 1)) none)
  let car := login.step (.game (.spawned 3 []))
  (car.step (.game (.appears 7))).step (.packet .grant none)

theorem run_driving : TrafficRun driving := by
  have hstart : TrafficRun system.init := .init
  have hlogin := hstart.next (.packet (.authenticated (some 1)) none) trivial
  have hcar := hlogin.next (.game (.spawned 3 [])) trivial
  exact (hcar.next (.game (.appears 7)) trivial).next (.packet .grant none) trivial

/-- Vehicle 7 is sent. -/
theorem traffic_sent : ((driving.client.onUpdate true parked).2.1.map (·.gid)) = [7] ∧
    (driving.step (.tick true parked)).leaked = [] :=
  ⟨by decide, nothing_leaked (run_driving.next (.tick true parked) fun _ _ => by decide)⟩

/-- Player 2 spawns a car, which is vehicle 20 here, and it is sent as well. -/
theorem remote_car_leaked : ¬ ∀ d, Run d → d.leaked = [] := by
  intro hall
  have hdriving : Run driving := run_driving.mono fun _ _ _ => trivial
  have hspawned := hdriving.next (.packet (.vehicleSpawn (some 2) (some 0)) (some 20)) trivial
  have hrun : Run ((driving.step (.packet (.vehicleSpawn (some 2) (some 0)) (some 20))).step (.tick true parked)) :=
    hspawned.next (.tick true parked) trivial
  have hnone := congrArg (List.map AiUpdate.gid) (hall _ hrun)
  have hsent : List.map AiUpdate.gid ((driving.step (.packet (.vehicleSpawn (some 2) (some 0)) (some 20))).step
      (.tick true parked)).leaked = [20] := by decide
  rw [hsent] at hnone
  cases hnone

end Drive

end NovaMP.Client
