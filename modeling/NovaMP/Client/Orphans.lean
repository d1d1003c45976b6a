/-
  NovaMP.Client.Orphans — the vehicles that the mod spawns and removes
  (`client/Resources/Client/vehicle_sync.lua`).

  What `be:spawnVehicle` returns is written into `remote_vehicles[p][v]` or
  `ai_vehicles[v]`, and `be:removeVehicleByID` is called for what is found there. So a car
  can be removed only while a table has it. A `Stage` is the client with the ids that were
  spawned and removed; the tables are the slots of a ledger (`held`).

  - `spawn_held`, `update_cases`, `delete_held`, `leave_held`: what a call does to the slots.
  - `balanced_step`: from a balanced state a call leads to one if and only if it is `Tidy`:
    no vehicle is spawned for a player and id that already have one, or without them.
  - `car_orphaned`: the same spawn twice.
-/

import NovaMP.Client.VehicleDeletes
import NovaMP.Lib.Ledger
import NovaMP.Lib.Runs

namespace NovaMP.Client

open Lib StringPack

namespace Extension

/-! ## The slots -/

inductive Slot where
  /-- `remote_vehicles[playerId][vehicleId]` -/
  | remote (playerId vehicleId : Int)
  /-- `ai_vehicles[vehicleId]` -/
  | ai (vehicleId : Int)
  deriving DecidableEq, Repr

def held (x : Extension) : Slot → Option Nat
  | .remote p v => x.vehicle p v
  | .ai v => x.aiVehicles.lookup v

/-- A call of `vehicle_sync.lua`, with what `be:spawnVehicle` returns in it. -/
inductive SyncCall where
  | spawn (spawned : Option Nat) (playerId vehicleId : Option Int)
  | update (spawned : Option Nat) (payload : Bytes)
  | delete (vid : Int)
  | leave (playerId : Int)

namespace SyncCall

def exec (x : Extension) : SyncCall → Extension
  | spawn spawned p v => (x.onRemoteVehicleSpawn spawned p v).1
  | update spawned payload => (x.onRemoteVehicleUpdate spawned payload).1
  | delete vid => x.onRemoteVehicleDelete vid
  | leave p => x.onPlayerLeave p

/-- The vehicles that `be:spawnVehicle` returns. -/
def creates (x : Extension) : SyncCall → List Nat
  | spawn spawned _ _ => spawned.toList
  | update spawned payload =>
    match Client.onRemoteVehicleUpdate (x.game spawned) x.sync payload with
    | .error _ => []
    | .ok (_, orders) => if orders.any fun o => o matches .spawnVehicle _ _ _ then spawned.toList else []
  | delete _ | leave _ => []

/-- The vehicles that `be:removeVehicleByID` is called for. -/
def removes (x : Extension) : SyncCall → List Nat
  | delete vid => x.vehiclesNumbered vid
  | leave p => (x.vehiclesOf p).entries.map (·.2)
  | spawn _ _ _ | update _ _ => []

end SyncCall

/-- They are the vehicles that come to the game and leave it. -/
theorem scene_exec (x : Extension) (c : SyncCall) :
    (c.exec x).scene = (c.creates x ++ x.scene).filter fun gid => gid ∉ c.removes x := by
  have hnone : ∀ gids : List Nat, (gids.filter fun gid => gid ∉ ([] : List Nat)) = gids := fun gids => by simp
  cases c with
  | spawn spawned p v =>
    rw [SyncCall.removes, hnone]
    cases spawned with
    | none => rfl
    | some gid => cases p <;> cases v <;> rfl
  | update spawned payload =>
    rw [SyncCall.removes, hnone, SyncCall.exec, onRemoteVehicleUpdate, SyncCall.creates]
    cases Client.onRemoteVehicleUpdate (x.game spawned) x.sync payload <;> rfl
  | delete vid => rfl
  | leave p =>
    rw [SyncCall.exec, onPlayerLeave, SyncCall.creates, SyncCall.removes, vehiclesOf]
    cases x.remoteVehicles.lookup p with
    | none => exact (hnone x.scene).symm
    | some vids => rfl

variable {x : Extension}

/-! ## What a call does to the slots -/

theorem held_congr {y : Extension} (hr : y.remoteVehicles = x.remoteVehicles) (ha : y.aiVehicles = x.aiVehicles) :
    y.held = x.held := by
  funext s
  cases s <;> simp [held, vehicle, vehiclesOf, hr, ha]

theorem spawn_held (x : Extension) (gid : Nat) (p v : Int) :
    ((SyncCall.spawn (some gid) (some p) (some v)).exec x).held = Function.update x.held (.remote p v) (some gid) := by
  funext s
  rw [Function.update_apply]
  cases s with
  | ai u => rfl
  | remote q u =>
    simp only [SyncCall.exec, onRemoteVehicleSpawn, held, vehicle, Slot.remote.injEq]
    rw [vehiclesOf, Table.lookup_insert']
    by_cases hq : q = p
    · subst hq
      simp [vehiclesOf, Table.lookup_insert']
    · simp [vehiclesOf, hq]

/-- Without one of the ids the assignment raises. -/
theorem spawn_raises (x : Extension) (spawned : Option Nat) {p v : Option Int} (h : p = none ∨ v = none) :
    ((SyncCall.spawn spawned p v).exec x).held = x.held := by
  cases spawned with
  | none => rfl
  | some gid =>
    cases p with
    | none => exact held_congr rfl rfl
    | some p =>
      obtain rfl : v = none := h.resolve_left nofun
      funext s
      cases s with
      | ai u => rfl
      | remote q u =>
        simp only [SyncCall.exec, onRemoteVehicleSpawn, held, vehicle]
        rw [vehiclesOf, Table.lookup_insert']
        by_cases hq : q = p
        · subst hq
          simp [vehiclesOf]
        · simp [vehiclesOf, hq]

/-- What an update spawns is traffic with an id that had none. -/
theorem applyUpdate_spawns (g : Game) (s : SyncState) (vid vflags : Int) (pos : Vec3) (rot : Quat) (vel : Vec3) :
    let r := applyUpdate g s vid vflags pos rot vel
    (r.1.aiVehicles = s.aiVehicles ∧
        (g.spawned = none ∨ (r.2.any fun o => o matches .spawnVehicle _ _ _) = false)) ∨
      ∃ gid, g.spawned = some gid ∧ s.aiVehicles.lookup vid = none ∧
        r.1.aiVehicles = s.aiVehicles.insert vid gid ∧ (r.2.any fun o => o matches .spawnVehicle _ _ _) = true := by
  have hmove : ∀ gid, ((if g.hasVehicle gid then [Order.setPositionRotation gid pos rot, .setVelocity gid vel] else []).any
      fun o => o matches .spawnVehicle _ _ _) = false := by
    intro gid
    split <;> rfl
  intro r
  simp only [r, applyUpdate]
  split
  · cases hai : s.aiVehicles.lookup vid with
    | some gid => exact .inl ⟨rfl, .inr (hmove gid)⟩
    | none =>
      cases hg : g.spawned with
      | none => exact .inl ⟨rfl, .inl rfl⟩
      | some gid => exact .inr ⟨gid, rfl, rfl, rfl, rfl⟩
  · cases findRemote s vid with
    | some gid => exact .inl ⟨rfl, .inr (hmove gid)⟩
    | none => exact .inl ⟨rfl, .inr rfl⟩

/-- An update spawns nothing, or traffic into an empty slot. -/
theorem update_cases (x : Extension) (spawned : Option Nat) (payload : Bytes) :
    let c : SyncCall := .update spawned payload
    ((c.exec x).held = x.held ∧ c.creates x = []) ∨
      ∃ vid gid, spawned = some gid ∧ x.held (.ai vid) = none ∧
        (c.exec x).held = Function.update x.held (.ai vid) (some gid) ∧ c.creates x = [gid] := by
  intro c
  have hexec : c.exec x = (x.onRemoteVehicleUpdate spawned payload).1 := rfl
  rw [hexec, onRemoteVehicleUpdate, SyncCall.creates]
  cases hr : Client.onRemoteVehicleUpdate (x.game spawned) x.sync payload with
  | error e => exact .inl ⟨rfl, rfl⟩
  | ok r =>
    rcases onRemoteVehicleUpdate_ok hr with rfl | ⟨vid, vflags, pos, rot, vel, rfl, -⟩
    · exact .inl ⟨held_congr rfl rfl, rfl⟩
    rcases applyUpdate_spawns (x.game spawned) x.sync vid vflags pos rot vel with
      ⟨hsame, hnone⟩ | ⟨gid, hgid, hempty, hins, hany⟩
    · refine .inl ⟨held_congr rfl hsame, ?_⟩
      rcases hnone with hnone | hnone
      · obtain rfl : spawned = none := hnone
        exact ite_self _
      · exact if_neg (Bool.eq_false_iff.mp hnone)
    · refine .inr ⟨vid, gid, hgid, hempty, ?_, ?_⟩
      · funext s
        rw [Function.update_apply]
        cases s with
        | remote q u => rfl
        | ai u =>
          simp only [held, Slot.ai.injEq]
          rw [hins]
          exact Table.lookup_insert' _ _ _ _
      · obtain rfl : spawned = some gid := hgid
        exact if_pos hany

/-- A delete empties the slots of the id, whoever's they are. -/
def Slot.vid : Slot → Int
  | remote _ v | ai v => v

theorem delete_held (x : Extension) (vid : Int) :
    ((SyncCall.delete vid).exec x).held = fun s => if s.vid = vid then none else x.held s := by
  funext s
  cases s with
  | ai u => exact Table.lookup_erase' _ _ _
  | remote q u =>
    have hremote : ((SyncCall.delete vid).exec x).held (.remote q u) =
        (((x.remoteVehicles.lookup q).map (AList.erase vid)).getD ∅).lookup u := by
      rw [← Table.lookup_mapValues fun _ (vids : Table Int Nat) => vids.erase vid]
      rfl
    have hheld : x.held (.remote q u) = ((x.remoteVehicles.lookup q).getD ∅).lookup u := rfl
    rw [hremote, hheld]
    cases x.remoteVehicles.lookup q with
    | none => exact (ite_self _).symm
    | some vids => exact Table.lookup_erase' _ _ _

theorem mem_delete {vid : Int} {gid : Nat} :
    gid ∈ (SyncCall.delete vid).removes x ↔ ∃ s : Slot, s.vid = vid ∧ x.held s = some gid := by
  rw [SyncCall.removes, mem_vehiclesNumbered]
  constructor
  · intro hin
    rcases hin with ⟨q, vids, hq, hgid⟩ | hgid
    · exact ⟨.remote q vid, rfl, vehicle_eq_some.mpr ⟨vids, hq, hgid⟩⟩
    · exact ⟨.ai vid, rfl, hgid⟩
  · intro hslot
    obtain ⟨s, rfl, hgid⟩ := hslot
    cases s with
    | remote q u =>
      obtain ⟨vids, hq, hgid⟩ := vehicle_eq_some.mp hgid
      exact .inl ⟨q, vids, hq, hgid⟩
    | ai u => exact .inr hgid

/-- The slots of a player's vehicles. -/
def Slot.of (p : Int) : Slot → Prop
  | remote q _ => q = p
  | ai _ => False

instance (p : Int) : DecidablePred (Slot.of p)
  | .remote q _ => inferInstanceAs (Decidable (q = p))
  | .ai _ => inferInstanceAs (Decidable False)

theorem leave_held (x : Extension) (p : Int) :
    ((SyncCall.leave p).exec x).held = fun s => if s.of p then none else x.held s := by
  have hexec : (SyncCall.leave p).exec x = x.onPlayerLeave p := rfl
  funext s
  rw [hexec, onPlayerLeave]
  cases s with
  | ai u =>
    rw [if_neg (fun h => h : ¬ (Slot.ai u).of p)]
    cases x.remoteVehicles.lookup p <;> rfl
  | remote q u =>
    have hheld : x.held (.remote q u) = ((x.remoteVehicles.lookup q).getD ∅).lookup u := rfl
    by_cases hq : (Slot.remote q u).of p
    · rw [if_pos hq]
      obtain rfl : q = p := hq
      cases hvids : x.remoteVehicles.lookup q with
      | none =>
        dsimp only
        rw [hheld, hvids]
        rfl
      | some vids =>
        show (((x.remoteVehicles.erase q).lookup q).getD ∅).lookup u = none
        rw [AList.lookup_erase]
        rfl
    · rw [if_neg hq]
      cases x.remoteVehicles.lookup p with
      | none => rfl
      | some vids =>
        show (((x.remoteVehicles.erase p).lookup q).getD ∅).lookup u = _
        rw [AList.lookup_erase_ne hq, hheld]

theorem mem_leave {p : Int} {gid : Nat} :
    gid ∈ (SyncCall.leave p).removes x ↔ ∃ s : Slot, s.of p ∧ x.held s = some gid := by
  rw [SyncCall.removes, List.mem_map]
  constructor
  · intro hin
    obtain ⟨e, he, rfl⟩ := hin
    exact ⟨.remote p e.1, rfl, Table.lookup_iff_mem.mpr he⟩
  · intro hslot
    obtain ⟨s, hs, hgid⟩ := hslot
    cases s with
    | remote q u =>
      obtain rfl : q = p := hs
      exact ⟨⟨u, gid⟩, Table.lookup_iff_mem.mp hgid, rfl⟩
    | ai u => exact hs.elim

/-! ## Removals -/

/-- Where each car is held once, a call removes none twice. -/
theorem nodup_removes (hone : ∀ s s' gid, x.held s = some gid → x.held s' = some gid → s = s') (c : SyncCall) :
    (c.removes x).Nodup := by
  have hremote : ∀ {q q' : Int} {vids vids' : Table Int Nat} {u u' : Int} {gid : Nat},
      x.remoteVehicles.lookup q = some vids → x.remoteVehicles.lookup q' = some vids' → vids.lookup u = some gid →
      vids'.lookup u' = some gid → Slot.remote q u = .remote q' u' := fun hq hq' hgid hgid' =>
    hone _ _ _ (vehicle_eq_some.mpr ⟨_, hq, hgid⟩) (vehicle_eq_some.mpr ⟨_, hq', hgid'⟩)
  cases c with
  | spawn | update => exact List.nodup_nil
  | delete vid =>
    rw [SyncCall.removes, vehiclesNumbered, List.nodup_append]
    refine ⟨?_, by cases x.aiVehicles.lookup vid <;> simp, ?_⟩
    · have hkeys : (x.remoteVehicles.entries.map (·.1)).Nodup := x.remoteVehicles.nodupKeys
      rw [List.Nodup, List.pairwise_map] at hkeys
      rw [List.Nodup, List.pairwise_filterMap]
      refine List.Pairwise.imp_of_mem ?_ hkeys
      rintro a b ha hb hne gid hgid _ hgid' rfl
      have hslot := hremote (Table.lookup_iff_mem.mpr ha) (Table.lookup_iff_mem.mpr hb) hgid hgid'
      injection hslot with hab
      exact hne hab
    · rintro gid hgid _ hai rfl
      obtain ⟨e, he, hlookup⟩ := List.mem_filterMap.mp hgid
      have hslot := hone (.remote e.1 vid) (.ai vid) gid
        (vehicle_eq_some.mpr ⟨e.2, Table.lookup_iff_mem.mpr he, hlookup⟩) (Option.mem_toList.mp hai)
      cases hslot
  | leave p =>
    refine Table.Inj.nodup_values fun u u' gid hgid hgid' => ?_
    have hslot := hone (.remote p u) (.remote p u') gid hgid hgid'
    injection hslot

/-! ## Runs -/

structure Stage where
  client : Extension
  /-- What `be:spawnVehicle` has returned, the latest first. -/
  created : List Nat
  /-- What `be:removeVehicleByID` was called for. -/
  removed : List Nat

namespace Stage

def step (d : Stage) (c : SyncCall) : Stage where
  client := c.exec d.client
  created := c.creates d.client ++ d.created
  removed := d.removed ++ c.removes d.client

def system : System Stage SyncCall := ⟨⟨.init, [], []⟩, step⟩

/-- `be:spawnVehicle` returns an id that is not in use and was not before. -/
def Fresh (d : Stage) (c : SyncCall) : Prop := ∀ gid ∈ c.creates d.client, gid ∉ d.created

/-- A car is spawned into an empty entry. -/
def Tidy (d : Stage) : SyncCall → Prop
  | .spawn (some _) p v => ∃ p' v', p = some p' ∧ v = some v' ∧ d.client.held (.remote p' v') = none
  | .spawn none _ _ | .update _ _ | .delete _ | .leave _ => True

/-- The cars that were spawned and not removed are those in the tables, each once; and
    none was removed twice. -/
def Balanced (d : Stage) : Prop := Lib.Balanced d.client.held d.created d.removed

/-- No id was removed that was not spawned. -/
def Known (d : Stage) : Prop := ∀ gid ∈ d.removed, gid ∈ d.created

abbrev Run : Stage → Prop := system.Run fun d c => Fresh d c ∧ Tidy d c

variable {d : Stage}

theorem balanced_step_def (d : Stage) (c : SyncCall) : Balanced (d.step c) ↔
    Lib.Balanced (c.exec d.client).held (c.creates d.client ++ d.created) (d.removed ++ c.removes d.client) := Iff.rfl

theorem balanced_step (h : Balanced d) (hknown : Known d) {c : SyncCall} (hf : Fresh d c) :
    Balanced (d.step c) ↔ Tidy d c := by
  have hnew : ∀ gid ∈ c.creates d.client, gid ∉ d.created ∧ gid ∉ d.removed := fun gid hgid =>
    ⟨hf _ hgid, fun hgone => hf _ hgid (hknown _ hgone)⟩
  rw [balanced_step_def]
  cases c with
  | spawn spawned p v =>
    rw [SyncCall.removes, List.append_nil]
    cases spawned with
    | none => exact iff_of_true h trivial
    | some gid =>
      obtain ⟨hcreated, hremoved⟩ := hnew gid (List.mem_singleton_self gid)
      by_cases hids : p = none ∨ v = none
      · rw [spawn_raises _ _ hids]
        refine iff_of_false (h.lost hcreated hremoved) ?_
        intro htidy
        obtain ⟨p', v', rfl, rfl, -⟩ := htidy
        exact hids.elim nofun nofun
      · obtain ⟨hp, hv⟩ := not_or.mp hids
        obtain ⟨p', rfl⟩ := Option.ne_none_iff_exists'.mp hp
        obtain ⟨v', rfl⟩ := Option.ne_none_iff_exists'.mp hv
        rw [spawn_held]
        refine (h.take_iff hcreated hremoved).trans ⟨fun hempty => ⟨p', v', rfl, rfl, hempty⟩, ?_⟩
        intro htidy
        obtain ⟨_, _, ⟨⟩, ⟨⟩, hempty⟩ := htidy
        exact hempty
  | update spawned payload =>
    rw [SyncCall.removes, List.append_nil]
    refine iff_of_true ?_ trivial
    rcases update_cases d.client spawned payload with ⟨hheld, hcreates⟩ | ⟨vid, gid, -, hempty, hheld, hcreates⟩
    · rw [hheld, hcreates]
      exact h
    · obtain ⟨hcreated, hremoved⟩ := hnew gid (by rw [hcreates]; exact List.mem_singleton_self gid)
      rw [hheld, hcreates]
      exact (h.take_iff hcreated hremoved).mpr hempty
  | delete vid =>
    refine iff_of_true ?_ trivial
    rw [delete_held]
    exact h.give (fun s => s.vid = vid) (nodup_removes h.one _) fun gid => mem_delete
  | leave p =>
    refine iff_of_true ?_ trivial
    rw [leave_held]
    exact h.give (Slot.of p) (nodup_removes h.one _) fun gid => mem_leave

/-- Only what a table has is removed. -/
theorem removes_held {x : Extension} {c : SyncCall} {gid : Nat} (h : gid ∈ c.removes x) : ∃ s, x.held s = some gid := by
  cases c with
  | spawn | update => cases h
  | delete vid =>
    obtain ⟨s, -, hs⟩ := mem_delete.mp h
    exact ⟨s, hs⟩
  | leave p =>
    obtain ⟨s, -, hs⟩ := mem_leave.mp h
    exact ⟨s, hs⟩

theorem known_step (h : Balanced d) (hknown : Known d) (c : SyncCall) : Known (d.step c) := by
  intro gid hgid
  rcases List.mem_append.mp hgid with hgid | hgid
  · exact List.mem_append_right _ (hknown gid hgid)
  · exact List.mem_append_right _ ((h.held_iff gid).mp (removes_held hgid)).1

theorem run_balanced (hr : Run d) : Balanced d ∧ Known d := by
  refine hr.invariant (I := fun d => Balanced d ∧ Known d) ⟨?_, fun gid hgid => absurd hgid List.not_mem_nil⟩ ?_
  · have hheld : Extension.init.held = fun _ => none := by
      funext s
      cases s <;> rfl
    show Lib.Balanced Extension.init.held [] []
    rw [hheld]
    exact Lib.Balanced.empty
  · rintro d c ⟨hb, hknown⟩ ⟨hf, ht⟩
    exact ⟨(balanced_step hb hknown hf).mpr ht, known_step hb hknown c⟩

/-- In a run in which every car is spawned into an empty entry, no car is orphaned, and the
    next call orphans one if and only if it spawns one into no empty entry. -/
theorem no_orphan_iff (hr : Run d) {c : SyncCall} (hf : Fresh d c) :
    Balanced d ∧ (Balanced (d.step c) ↔ Tidy d c) := by
  obtain ⟨hb, hknown⟩ := run_balanced hr
  exact ⟨hb, balanced_step hb hknown hf⟩

/-- Player 1 has spawned a car, vehicle 10 here. -/
def oneCar : Stage := step ⟨.init, [], []⟩ (.spawn (some 10) (some 1) (some 0))

theorem run_oneCar : Run oneCar := by
  have hstart : Run system.init := .init
  exact hstart.next (.spawn (some 10) (some 1) (some 0)) ⟨fun _ _ => List.not_mem_nil, 1, 0, rfl, rfl, rfl⟩

theorem no_orphan_oneCar :
    Balanced oneCar ∧ (Balanced (oneCar.step (.spawn (some 11) (some 1) (some 1))) ↔
      Tidy oneCar (.spawn (some 11) (some 1) (some 1))) :=
  no_orphan_iff run_oneCar (c := .spawn (some 11) (some 1) (some 1)) (by unfold Fresh; decide)

/-- The server announces it again, and the first car is in no table. -/
theorem car_orphaned : ∃ d, system.Run Fresh d ∧ ¬ Balanced d := by
  have hfresh : Fresh oneCar (.spawn (some 11) (some 1) (some 0)) := by unfold Fresh; decide
  have hone : system.Run Fresh oneCar := run_oneCar.mono fun _ _ h => h.1
  refine ⟨_, hone.next (.spawn (some 11) (some 1) (some 0)) hfresh, fun hb => ?_⟩
  obtain ⟨hbalanced, hknown⟩ := run_balanced run_oneCar
  obtain ⟨p, v, hp, hv, hempty⟩ := (balanced_step hbalanced hknown hfresh).mp hb
  cases hp
  cases hv
  revert hempty
  decide

end Stage

end Extension

end NovaMP.Client
