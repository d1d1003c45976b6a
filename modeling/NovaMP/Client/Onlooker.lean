/-
  NovaMP.Client.Onlooker — the traffic an onlooker shows (`client/Resources/Client/
  ai_authority.lua`, `vehicle_sync.lua`).

  A `Pair` is the client that drives the traffic, its updates that the server has relayed,
  in their order, and one other client. The authority maps a vehicle of its game to a server
  id when it first sends it, forgets it when the game has it no more, and forgets all at
  `deactivate`. The onlooker spawns a vehicle for an id that it does not know. Nothing that
  the authority sends makes it remove one.

  - `covered_of_tidy`: as long as no id is forgotten that the onlooker shows or is going to
    show, whatever it shows is mapped.
  - `vanished_car_stays`: a vehicle of the traffic vanishes.

  Every update that the authority sends may be relayed or not; no other client sends updates
  of the traffic.
-/

import NovaMP.Client.Extension
import NovaMP.Lib.Runs

namespace NovaMP.Client

open Lib Extension

/-! ## The two clients -/

structure Pair where
  authority : Extension
  relayed : List Bytes
  onlooker : Extension

namespace Pair

inductive Event where
  | authority (i : Incoming) (spawned : Option Nat)
  | authorityGame (e : GameEvent)
  /-- `relays` are the updates that the server passes on. -/
  | tick (due : Bool) (read : Nat → Option Reading) (relays : AiUpdate → Bool)
  /-- The onlooker gets the next update; `spawned` is what its game answers. -/
  | relayed (spawned : Option Nat)
  | onlooker (i : Incoming) (spawned : Option Nat)
  | onlookerGame (e : GameEvent)

def step (c : Pair) : Event → Pair
  | .authority i spawned => { c with authority := (c.authority.handle spawned i).1 }
  | .authorityGame e => { c with authority := (c.authority.happens e).1 }
  | .tick due read relays =>
    let (authority, sent, _) := c.authority.onUpdate due read
    { c with authority, relayed := c.relayed ++ (sent.filter relays).map (·.payload) }
  | .relayed spawned =>
    match c.relayed with
    | [] => c
    | payload :: relayed => { c with relayed, onlooker := (c.onlooker.handle spawned (.vehicleUpdate payload)).1 }
  | .onlooker i spawned => { c with onlooker := (c.onlooker.handle spawned i).1 }
  | .onlookerGame e => { c with onlooker := (c.onlooker.happens e).1 }

/-- The onlooker's other packets are no updates of the traffic. -/
def Event.Legal : Event → Prop
  | .onlooker (.vehicleUpdate payload) _ => aiUpdate payload = none
  | _ => True

def system : System Pair Event := ⟨⟨.init, [], .init⟩, step⟩

/-- All runs. -/
abbrev Run : Pair → Prop := system.Run fun _ e => e.Legal

/-- What the onlooker shows is mapped. -/
def Covered (c : Pair) : Prop := ∀ k ∈ c.onlooker.aiVehicles, ∃ gid, c.authority.vidMap.lookup gid = some k

/-- The onlooker shows a vehicle of the id, or a relayed update has it. -/
def Shows (c : Pair) (k : Int) : Prop := k ∈ c.onlooker.aiVehicles ∨ ∃ payload ∈ c.relayed, aiUpdate payload = some k

/-- No id is forgotten that the onlooker shows: neither that of a vehicle that has vanished
    nor all of them at a new start. -/
def Tidy (c : Pair) : Event → Prop
  | .tick true _ _ => c.authority.connected = true → c.authority.active = true →
      ∀ gid k, c.authority.vidMap.lookup gid = some k → gid ∉ c.authority.scene → ¬ c.Shows k
  | .authority .grant _ => c.authority.active = false → ∀ k, ¬ c.Shows k
  | _ => True

/-- The runs whose events are all of this kind. -/
abbrev TidyRun : Pair → Prop := system.Run fun c e => e.Legal ∧ c.Tidy e

/-! ## Each event keeps it -/

def Inv (c : Pair) : Prop := c.authority.active = true → ∀ k, c.Shows k → ∃ gid, c.authority.vidMap.lookup gid = some k

variable {c : Pair} {k : Int}

theorem inv_authority (hi : c.Inv) {i : Incoming} {spawned : Option Nat} (ht : c.Tidy (.authority i spawned)) :
    (c.step (.authority i spawned)).Inv := by
  intro hactive k hk
  rcases (handle_change c.authority spawned i).authority with ⟨hact, hmap⟩ | hoff | ⟨rfl, hwas⟩
  · obtain ⟨gid, hgid⟩ := hi (hact.symm.trans hactive) k hk
    exact ⟨gid, (congrArg (·.lookup gid) hmap).trans hgid⟩
  · exact absurd (hactive.symm.trans hoff) Bool.noConfusion
  · exact absurd hk (ht hwas k)

theorem inv_tick (hi : c.Inv) {due : Bool} {read : Nat → Option Reading} {relays : AiUpdate → Bool}
    (ht : c.Tidy (.tick due read relays)) : (c.step (.tick due read relays)).Inv := by
  by_cases hruns : due = true ∧ c.authority.connected = true ∧ c.authority.active = true
  · obtain ⟨rfl, hconnected, hactive⟩ := hruns
    -- What was shown before belongs to a vehicle that is still there.
    have hold : ∀ k, c.Shows k → ∃ gid, (c.authority.onUpdate true read).1.vidMap.lookup gid = some k := by
      intro k hk
      obtain ⟨gid, hgid⟩ := hi hactive k hk
      have hscene : gid ∈ c.authority.scene := by
        by_contra hscene
        exact ht hconnected hactive gid k hgid hscene hk
      exact ⟨gid, onUpdate_keeps hgid hscene⟩
    intro _ k hk
    rcases hk with hk | ⟨payload, hpayload, hk⟩
    · exact hold k (.inl hk)
    · rcases List.mem_append.mp hpayload with hpayload | hpayload
      · exact hold k (.inr ⟨payload, hpayload, hk⟩)
      · obtain ⟨u, hu, rfl⟩ := List.mem_map.mp hpayload
        obtain ⟨-, -, hlookup, r, hbuild⟩ := onUpdate_sent (List.mem_filter.mp hu).1
        rw [aiUpdate_built hbuild hk]
        exact ⟨u.gid, hlookup⟩
  · have hsame : c.step (.tick due read relays) = c := by
      rw [step, onUpdate_idle hruns]
      simp
    rw [hsame]
    exact hi

/-- A packet shows the onlooker no more than what was relayed. -/
theorem shows_handle {relayed : List Bytes} {spawned : Option Nat} {i : Incoming}
    (hrelayed : ∀ payload ∈ relayed, payload ∈ c.relayed)
    (hi : ∀ payload, i = .vehicleUpdate payload → aiUpdate payload = none ∨ payload ∈ c.relayed)
    (hk : Shows { c with relayed, onlooker := (c.onlooker.handle spawned i).1 } k) : c.Shows k := by
  rcases hk with hk | ⟨payload, hpayload, hk⟩
  · rcases (handle_change c.onlooker spawned i).mem_ai hk with hk | ⟨payload, hup, hk⟩
    · exact .inl hk
    · rcases hi payload hup with hno | hmem
      · rw [hk] at hno
        cases hno
      · exact .inr ⟨payload, hmem, hk⟩
  · exact .inr ⟨payload, hrelayed payload hpayload, hk⟩

theorem inv_step (hi : c.Inv) {e : Event} (hl : e.Legal) (ht : c.Tidy e) : (c.step e).Inv := by
  cases e with
  | authority i spawned => exact inv_authority hi ht
  | authorityGame e =>
    obtain ⟨tcpSeq, scene, playerVids, hframe⟩ := happens_frame c.authority e
    rw [step, hframe]
    exact hi
  | tick due read relays => exact inv_tick hi ht
  | relayed spawned =>
    rw [step]
    split
    · exact hi
    · rename_i payload relayed hrelayed
      intro hactive k hk
      refine hi hactive k (shows_handle ?_ ?_ hk)
      · exact fun payload' hp => hrelayed ▸ List.mem_cons_of_mem _ hp
      · intro payload' heq
        cases heq
        exact .inr (hrelayed ▸ List.mem_cons_self)
  | onlooker i spawned =>
    intro hactive k hk
    refine hi hactive k (shows_handle (fun _ hp => hp) ?_ hk)
    rintro payload rfl
    exact .inl hl
  | onlookerGame e =>
    obtain ⟨tcpSeq, scene, playerVids, hframe⟩ := happens_frame c.onlooker e
    rw [step, hframe]
    exact hi

theorem inv_run (hr : TidyRun c) : c.Inv :=
  hr.invariant (fun h => by cases h) fun _ _ hi ht => inv_step hi ht.1 ht.2

/-- In a run in which no id is forgotten that the onlooker shows, everything that it shows
    is mapped whenever the authority is active. -/
theorem covered_of_tidy (hr : TidyRun c) (hactive : c.authority.active = true) : c.Covered :=
  fun k hk => inv_run hr hactive k (.inl hk)

/-! ## A vehicle of the traffic vanishes -/

/-- What the game reports of a vehicle at the origin. -/
def still : Nat → Option Reading := fun _ => some (.of VehicleState.zero)

/-- The authority's game has a vehicle 7. -/
def granted : Pair :=
  let login := step ⟨.init, [], .init⟩ (.authority (.authenticated (some 1)) none)
  (login.step (.authority .grant none)).step (.authorityGame (.appears 7))

/-- It is sent, and the onlooker spawns it. -/
def driving : Pair := (granted.step (.tick true still fun _ => true)).step (.relayed (some 50))

theorem run_driving : TidyRun driving := by
  have hstart : TidyRun system.init := .init
  have hlogin := hstart.next (.authority (.authenticated (some 1)) none) ⟨trivial, trivial⟩
  have hnone : ∀ k, ¬ (system.init.step (.authority (.authenticated (some 1)) none)).Shows k := by
    rintro k (hk | ⟨_, hpayload, -⟩)
    · exact AList.notMem_empty k hk
    · cases hpayload
  have hgrant := hlogin.next (.authority .grant none) ⟨trivial, fun _ => hnone⟩
  have hgranted := hgrant.next (.authorityGame (.appears 7)) ⟨trivial, trivial⟩
  have hempty : granted.Tidy (.tick true still fun _ => true) := fun _ _ _ _ hlookup => by cases hlookup
  exact (hgranted.next (.tick true still fun _ => true) ⟨trivial, hempty⟩).next (.relayed (some 50)) ⟨trivial, trivial⟩

theorem covered_driving : driving.onlooker.aiVehicles.keys = [200] ∧ driving.Covered :=
  ⟨by decide, covered_of_tidy run_driving (by decide)⟩

/-- At the next tick its id is forgotten; the onlooker keeps it. -/
theorem vanished_car_stays : ¬ ∀ (c : Pair) (due : Bool) (read : Nat → Option Reading) (relays : AiUpdate → Bool),
    Run c → c.authority.connected = true → c.authority.active = true →
      (c.step (.tick due read relays)).Covered := by
  intro hall
  have hdriving : Run driving := run_driving.mono fun _ _ ht => ht.1
  have hrun : Run (driving.step (.authorityGame (.vanishes 7))) := hdriving.next (.authorityGame (.vanishes 7)) trivial
  obtain ⟨gid, hgid⟩ := hall _ true still (fun _ => true) hrun (by decide) (by decide) 200 (by decide)
  have hempty : ((driving.step (.authorityGame (.vanishes 7))).step
      (.tick true still fun _ => true)).authority.vidMap.entries = [] := by decide
  have hmem := Table.lookup_iff_mem.mp hgid
  rw [hempty] at hmem
  cases hmem

end Pair

end NovaMP.Client
