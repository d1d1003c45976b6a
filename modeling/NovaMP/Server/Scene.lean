/-
  NovaMP.Server.Scene — the vehicles a client sees, told by spawns and deletes.

  About a vehicle of a player, from one allocation of the player's id to the next, the
  server should say spawned, deleted, spawned again and so on. `handleVehicleSpawn`
  takes the number of vehicles for the new id, which another vehicle may have after a
  delete, and `handleVehicleDelete` announces whatever id it reads. So this is so in the
  runs that do neither (`InScene`).

  - `turn_scene`: one packet keeps the spawns and deletes of each vehicle in turn.
  - `vehicles_alternate`: so every run of such packets does.
  - `id_spawned_twice`: two vehicles, the first deleted, and a third.
-/

import NovaMP.Server.Announcements
import NovaMP.Server.VehicleStore

namespace NovaMP

open Lib Exec

namespace Announcement

/-! ## Spawns and deletes in turn -/

/-- The spawns and deletes of one vehicle. -/
def scene (pid : UInt16) (vid : UInt8) (as : List Announcement) : List Announcement :=
  as.filter fun a => a == .spawn pid vid || a == .delete pid vid

/-- Spawned and deleted `n` times. -/
def rounds (pid : UInt16) (vid : UInt8) (n : Nat) : List Announcement :=
  (List.replicate n [.spawn pid vid, .delete pid vid]).flatten

/-- The vehicle is spawned, deleted, spawned, deleted and so on. -/
def Alternates (pid : UInt16) (vid : UInt8) (as : List Announcement) : Prop :=
  ∃ n, scene pid vid as <+: rounds pid vid n

/-- The vehicle was spawned once more than it was deleted. -/
def Standing (pid : UInt16) (vid : UInt8) (as : List Announcement) : Prop :=
  ∃ n, scene pid vid as = rounds pid vid n ++ [.spawn pid vid]

/-- The vehicle was deleted as often as it was spawned. -/
def Gone (pid : UInt16) (vid : UInt8) (as : List Announcement) : Prop := ∃ n, scene pid vid as = rounds pid vid n

variable {pid : UInt16} {vid : UInt8} {as : List Announcement}

theorem rounds_succ (n : Nat) : rounds pid vid (n + 1) = rounds pid vid n ++ [.spawn pid vid] ++ [.delete pid vid] := by
  simp [rounds, List.replicate_succ']

theorem Gone.alternates (h : Gone pid vid as) : Alternates pid vid as := by
  obtain ⟨n, h⟩ := h
  exact ⟨n, h ▸ List.prefix_rfl⟩

theorem Standing.alternates (h : Standing pid vid as) : Alternates pid vid as := by
  obtain ⟨n, h⟩ := h
  refine ⟨n + 1, ?_⟩
  rw [h, rounds_succ]
  exact List.prefix_append _ _

theorem Gone.nil : Gone pid vid [] := ⟨0, rfl⟩

theorem scene_append (bs : List Announcement) : scene pid vid (as ++ bs) = scene pid vid as ++ scene pid vid bs :=
  List.filter_append ..

/-- An announcement about something else. -/
theorem scene_other {a : Announcement} (hs : a ≠ .spawn pid vid) (hd : a ≠ .delete pid vid) :
    scene pid vid (as ++ [a]) = scene pid vid as := by
  have hnone : scene pid vid [a] = [] := by simp [scene, hs, hd]
  rw [scene_append, hnone, List.append_nil]

theorem Gone.other (h : Gone pid vid as) {a : Announcement} (hs : a ≠ .spawn pid vid) (hd : a ≠ .delete pid vid) :
    Gone pid vid (as ++ [a]) := by
  obtain ⟨n, h⟩ := h
  exact ⟨n, (scene_other hs hd).trans h⟩

theorem Standing.other (h : Standing pid vid as) {a : Announcement} (hs : a ≠ .spawn pid vid) (hd : a ≠ .delete pid vid) :
    Standing pid vid (as ++ [a]) := by
  obtain ⟨n, h⟩ := h
  exact ⟨n, (scene_other hs hd).trans h⟩

theorem Alternates.other (h : Alternates pid vid as) {a : Announcement} (hs : a ≠ .spawn pid vid)
    (hd : a ≠ .delete pid vid) : Alternates pid vid (as ++ [a]) := by
  obtain ⟨n, h⟩ := h
  exact ⟨n, (scene_other hs hd).symm ▸ h⟩

theorem Gone.spawned (h : Gone pid vid as) : Standing pid vid (as ++ [.spawn pid vid]) := by
  obtain ⟨n, h⟩ := h
  refine ⟨n, ?_⟩
  rw [scene_append, h]
  simp [scene]

theorem Standing.deleted (h : Standing pid vid as) : Gone pid vid (as ++ [.delete pid vid]) := by
  obtain ⟨n, h⟩ := h
  refine ⟨n + 1, ?_⟩
  rw [scene_append, h, rounds_succ]
  simp [scene]

end Announcement

namespace GameServer

open Announcement

/-! ## The vehicles of a record -/

def Has (p : Player) (vid : UInt8) : Prop := ∃ v ∈ p.vehicles, v.vehicleId = vid

theorem has_spawn {p : Player} {v : PlayerVehicle} {vid : UInt8} :
    Has { p with vehicles := p.vehicles ++ [v] } vid ↔ Has p vid ∨ v.vehicleId = vid := by
  simp [Has, or_and_right, exists_or]

theorem has_delete {p : Player} {vid vid' : UInt8} :
    Has { p with vehicles := p.vehicles.filter fun v => !(v.vehicleId == vid') } vid ↔ Has p vid ∧ vid ≠ vid' := by
  constructor
  · intro hex
    obtain ⟨v, hv, rfl⟩ := hex
    obtain ⟨hv, hne⟩ := List.mem_filter.mp hv
    exact ⟨⟨v, hv, rfl⟩, by simpa using hne⟩
  · intro h
    obtain ⟨⟨v, hv, rfl⟩, hne⟩ := h
    exact ⟨v, List.mem_filter.mpr ⟨hv, by simpa using hne⟩, rfl⟩

variable (w : World) (x : Env) (s : Server)

/-- The new vehicle gets an id that no other has, the deleted one is there. -/
def Suits (p : Player) (pl : Bytes) : Option PacketType → Prop
  | some .vehicleSpawn => ¬ Has p (UInt8.ofNat p.vehicles.length)
  | some .vehicleDelete => ∀ vid, readByte pl 0 = .ok vid → Has p vid
  | _ => True

/-- What a call announces of a vehicle suits the vehicles its player has. -/
def InScene (s : Server) (x : Env) : Call → Prop
  | .frame object data =>
    ∀ t hdr p, s.tcp.objects[object]? = some t → isFrame t data → Packet.parseHeader data = .ok hdr →
      playerOf s t.id ≠ 0xFFFF → s.players.lookup (playerOf s t.id) = some p →
      Announced w x s (playerOf s t.id) (Packet.payload data) hdr.payloadLen (PacketType.ofCode hdr.type) →
      Suits p (Packet.payload data) (PacketType.ofCode hdr.type)
  | _ => True

/-! ## One call -/

/-- What has been announced about `pid` since it was given away, against its vehicles. -/
structure Shown (pid : UInt16) (s : Server) (as : List Announcement) : Prop where
  alternates : ∀ vid, Alternates pid vid as
  standing : ∀ p vid, s.players.lookup pid = some p → Has p vid → Standing pid vid as
  gone : ∀ p vid, s.players.lookup pid = some p → ¬ Has p vid → Gone pid vid as

variable {w x s} {pid : UInt16} {as : List Announcement}

theorem Shown.of_lookup (h : Shown pid s as) {s' : Server} (hl : s'.players.lookup pid = s.players.lookup pid) :
    Shown pid s' as :=
  ⟨h.alternates, hl ▸ h.standing, hl ▸ h.gone⟩

/-- The player is gone. -/
theorem Shown.left (h : ∀ vid, Alternates pid vid as) {s' : Server} (hl : s'.players.lookup pid = none) :
    Shown pid s' as := by
  refine ⟨h, ?_, ?_⟩ <;>
    · rw [hl]
      intro p vid hp
      cases hp

theorem Shown.put (h : Shown pid s as) {id : UInt16} {p q : Player} (hp : s.players.lookup id = some p)
    (hq : q.vehicles = p.vehicles) {s' : Server} (hs' : s'.players = s.players.put id q) : Shown pid s' as := by
  by_cases hid : pid = id
  · subst hid
    have hl : s'.players.lookup pid = some q := by rw [hs']; exact Table.lookup_put_self hp q
    have hhas (vid : UInt8) : Has q vid ↔ Has p vid := by rw [Has, Has, hq]
    refine ⟨h.alternates, ?_, ?_⟩
    · rw [hl]
      intro r vid hr hv
      cases hr
      exact h.standing p vid hp ((hhas vid).mp hv)
    · rw [hl]
      intro r vid hr hv
      cases hr
      exact h.gone p vid hp fun hv' => hv ((hhas vid).mpr hv')
  · refine h.of_lookup ?_
    rw [hs']
    exact Table.lookup_put_ne hid q

/-- The two parts of `Shown` that are about the record give the third. -/
theorem Shown.of_record {p : Player} (hl : s.players.lookup pid = some p) (hst : ∀ vid, Has p vid → Standing pid vid as)
    (hgo : ∀ vid, ¬ Has p vid → Gone pid vid as) : Shown pid s as := by
  refine ⟨fun vid => ?_, fun r vid hr hv => ?_, fun r vid hr hv => ?_⟩
  · by_cases hv : Has p vid
    · exact (hst vid hv).alternates
    · exact (hgo vid hv).alternates
  · obtain rfl : p = r := Option.some.inj (hl.symm.trans hr)
    exact hst vid hv
  · obtain rfl : p = r := Option.some.inj (hl.symm.trans hr)
    exact hgo vid hv

theorem Shown.news_other (h : Shown pid s as) {a : Announcement} (hs : ∀ vid, a ≠ .spawn pid vid)
    (hd : ∀ vid, a ≠ .delete pid vid) : Shown pid s (news pid as [a]) := by
  by_cases ha : a.pid = pid
  · rw [news_own ha]
    exact ⟨fun vid => (h.alternates vid).other (hs vid) (hd vid),
      fun p vid hp hv => (h.standing p vid hp hv).other (hs vid) (hd vid),
      fun p vid hp hv => (h.gone p vid hp hv).other (hs vid) (hd vid)⟩
  · rw [GameServer.news_other ha]
    exact h

/-- A vehicle is spawned with an id that no other has. -/
theorem spawn_scene (h : Shown pid s as) {id : UInt16} {p : Player} {v : PlayerVehicle}
    (hp : s.players.lookup id = some p) (hnew : ¬ Has p v.vehicleId) {s' : Server}
    (hs' : s'.players = s.players.put id { p with vehicles := p.vehicles ++ [v] }) :
    Shown pid s' (news pid as [.spawn id v.vehicleId]) := by
  by_cases hid : id = pid
  · subst hid
    rw [news_own (by rfl)]
    refine Shown.of_record (p := { p with vehicles := p.vehicles ++ [v] }) ?_ (fun vid hv => ?_) fun vid hv => ?_
    · rw [hs']
      exact Table.lookup_put_self hp _
    · by_cases hvid : v.vehicleId = vid
      · subst hvid
        exact (h.gone p _ hp hnew).spawned
      · refine (h.standing p vid hp ?_).other (by simp [hvid]) (by simp)
        exact (has_spawn.mp hv).resolve_right hvid
    · rw [has_spawn, not_or] at hv
      exact (h.gone p vid hp hv.1).other (by simp [hv.2]) (by simp)
  · rw [GameServer.news_other (by exact hid)]
    refine h.of_lookup ?_
    rw [hs']
    exact Table.lookup_put_ne (Ne.symm hid) _

/-- A vehicle that is there is deleted. -/
theorem delete_scene (h : Shown pid s as) {id : UInt16} {p : Player} {vid' : UInt8} (hp : s.players.lookup id = some p)
    (hhas : Has p vid') {s' : Server}
    (hs' : s'.players = s.players.put id { p with vehicles := p.vehicles.filter fun v => !(v.vehicleId == vid') }) :
    Shown pid s' (news pid as [.delete id vid']) := by
  by_cases hid : id = pid
  · subst hid
    rw [news_own (by rfl)]
    refine Shown.of_record (p := { p with vehicles := p.vehicles.filter fun v => !(v.vehicleId == vid') }) ?_
      (fun vid hv => ?_) fun vid hv => ?_
    · rw [hs']
      exact Table.lookup_put_self hp _
    · obtain ⟨hv, hne⟩ := has_delete.mp hv
      exact (h.standing p vid hp hv).other (by simp) (by simp [Ne.symm hne])
    · by_cases hvid : vid = vid'
      · subst hvid
        exact (h.standing p vid hp hhas).deleted
      · refine (h.gone p vid hp fun hv' => hv (has_delete.mpr ⟨hv', hvid⟩)).other (by simp) (by simp [Ne.symm hvid])
  · rw [GameServer.news_other (by exact hid)]
    refine h.of_lookup ?_
    rw [hs']
    exact Table.lookup_put_ne (Ne.symm hid) _

/-- The id in a delete that is announced is the one that was read. -/
theorem delete_read {id : UInt16} {pl : Bytes} {len : UInt16} {vid : UInt8}
    (h : aboutPlayers (inGamePosts w x s id pl len (some .vehicleDelete)) = [.delete id vid]) : readByte pl 0 = .ok vid := by
  have hmem : .delete id vid ∈ aboutPlayers (inGamePosts w x s id pl len (some .vehicleDelete)) := by
    rw [h]
    exact List.mem_singleton.mpr rfl
  obtain ⟨post, hpost, hann⟩ := List.mem_filterMap.mp hmem
  rcases mem_inGamePosts hpost with ⟨ht, -⟩ | ⟨-, -, vid', hread, hm⟩ | ⟨ht, -⟩ | ⟨ht, -⟩ | ⟨ht, -⟩
  · cases ht
  · obtain ⟨-, rfl⟩ := mem_deletePosts.mp hm
    cases hann
    exact hread
  · cases ht
  · cases ht
  · cases ht

theorem turn_scene {object : Nat} {data : Bytes} {t : TCPSession} {hdr : PacketHeader} {bs : List Announcement}
    {s' : Server} (ht : s.tcp.objects[object]? = some t) (hf : isFrame t data) (hh : Packet.parseHeader data = .ok hdr)
    (hp : playerOf s t.id ≠ 0xFFFF) (hT : Turn s (playerOf s t.id) (PacketType.ofCode hdr.type) bs s')
    (hbs : announced w x s (.frame object data) = bs) (hin : InScene w s x (.frame object data)) (h : Shown pid s as) :
    Shown pid s' (news pid as bs) := by
  have hsuits := hin t hdr
  have hposts := turn_posts x ht hf hh hp hT hbs
  generalize PacketType.ofCode hdr.type = ty at *
  cases hT with
  | quiet ha =>
    rw [news_nil]
    exact h.of_lookup (by rw [ha.players])
  | @ready p _ hl ha =>
    have hput : Shown pid s' as := h.put hl (q := { p with state := .ready }) rfl ha.players
    exact hput.news_other (fun vid => nofun) fun vid => nofun
  | @spawn p v _ hl hv ha =>
    have hann : Announced w x s (playerOf s t.id) (Packet.payload data) hdr.payloadLen (some .vehicleSpawn) :=
      vehicle_announced w x s (.inl rfl) (by rw [hposts (List.cons_ne_nil _ _)]; exact List.cons_ne_nil _ _)
    have hnew : ¬ Has p (UInt8.ofNat p.vehicles.length) := hsuits p ht hf hh hp hl hann
    exact spawn_scene h hl (hv ▸ hnew) ha.players
  | @delete p vid _ hl ha =>
    have hone := hposts (List.cons_ne_nil _ _)
    have hann : Announced w x s (playerOf s t.id) (Packet.payload data) hdr.payloadLen (some .vehicleDelete) :=
      vehicle_announced w x s (.inr rfl) (by rw [hone]; exact List.cons_ne_nil _ _)
    have hhas : Has p vid := hsuits p ht hf hh hp hl hann vid (delete_read hone)
    exact delete_scene h hl hhas ha.players

/-- The new record of an id that has just been given away has no vehicles. -/
theorem registered_scene {p : Player} (hl : s.players.lookup pid = some p) (hp : p.vehicles = []) : Shown pid s [] := by
  refine Shown.of_record hl (fun vid hv => ?_) fun vid _ => Gone.nil
  obtain ⟨v, hv, -⟩ := hv
  rw [hp] at hv
  exact (List.not_mem_nil hv).elim

theorem change_scene {c : Call} {bs : List Announcement} {s' : Server} (hc : Change w s c bs s')
    (hbs : announced w x s c = bs) (hin : InScene w s x c) (h : Shown pid s as) :
    Shown pid s' (if allocates pid ⟨s, x, c, s'⟩ then news pid [] bs else news pid as bs) := by
  refine change_piece x (P := Shown pid) (fun h hl => h.of_lookup hl) (Shown.left fun vid => Gone.nil.alternates) hc h
    ?banned ?turn ?left ?own
  case banned =>
    intro id p hp hs'
    exact h.put hp (q := { p with isBanned := true }) rfl hs'
  case turn =>
    rintro object data t hdr rfl ht hf hh hp hT
    exact turn_scene ht hf hh hp hT hbs hin h
  case left =>
    intro object t _ _ _ _ hgone
    exact (Shown.left h.alternates hgone).news_other (fun vid => nofun) fun vid => nofun
  case own =>
    intro sid body username role st _ hl
    exact registered_scene hl rfl

/-! ## Every run -/

/-- In every such run the spawns and deletes of each vehicle, from one allocation of its
    player's id to the next, take turns. -/
theorem vehicles_alternate (w : World) {h : List Moment} {s : Server} (hr : Run w (InScene w) h s) (pid : UInt16) :
    ∀ piece ∈ pieces w pid h, ∀ vid, Alternates pid vid piece := by
  obtain ⟨cur, past, hcut, hshown, hpast⟩ := pieces_run (P := Shown pid) (Q := fun as => ∀ vid, Alternates pid vid as)
    (fun s as h => h.alternates) (Shown.left (fun vid => Gone.nil.alternates) (by simp [Server.init]))
    (fun s x c s' as _ hin hc h => change_scene hc rfl hin h) hr
  rw [hcut]
  exact List.forall_mem_cons.mpr ⟨hshown.alternates, hpast⟩

/-! ## A third vehicle after the first is deleted -/

namespace Parade

open Garage

/-- `ann` has the vehicles 0 and 1. -/
def two : Server := after world stocked Env.quiet (.frame 0 spawning)

/-- The vehicle 0 is deleted. -/
def one : Server := after world two Env.quiet (.frame 0 (deleting 0))

/-- The third vehicle is number 1 as well. -/
def twins : Server := after world one Env.quiet (.frame 0 spawning)

def parade : List Moment :=
  [⟨one, Env.quiet, .frame 0 spawning, twins⟩, ⟨two, Env.quiet, .frame 0 (deleting 0), one⟩,
    ⟨stocked, Env.quiet, .frame 0 spawning, two⟩] ++ history

theorem run_twins : Run world anyStep parade twins := by
  have htwo : Step world stocked Env.quiet (.frame 0 spawning) two := step_after world _ _ (by decide)
  have hone : Step world two Env.quiet (.frame 0 (deleting 0)) one := step_after world _ _ (by decide +kernel)
  have htwins : Step world one Env.quiet (.frame 0 spawning) twins := step_after world _ _ (by decide +kernel)
  exact .step (.step (.step (run_stocked trivial trivial trivial) trivial htwo) trivial hone) trivial htwins

theorem spawn_spawn : ¬ Alternates 1 1 [.spawn 1 0, .spawn 1 1, .delete 1 0, .spawn 1 1] := by
  intro h
  obtain ⟨n, h⟩ := h
  have hscene : scene 1 1 [.spawn 1 0, .spawn 1 1, .delete 1 0, .spawn 1 1] = [.spawn 1 1, .spawn 1 1] := by decide
  rw [hscene] at h
  cases n with
  | zero => simp [rounds] at h
  | succ n => simp [rounds, List.replicate_succ] at h

/-- `ann` deletes her vehicle. -/
def none : Server := after world stocked Env.quiet (.frame 0 (deleting 0))

theorem auth_inScene : InScene world connected Env.quiet (.frame 0 (authFrame (userJson "ann"))) := by
  intro t hdr p _ _ hh _ _ ha
  have hhdr : Packet.parseHeader (authFrame (userJson "ann")) = .ok ⟨PacketType.authRequest.code, 0, 0, 18, 0⟩ := rfl
  obtain rfl := Except.ok.inj (hhdr.symm.trans hh)
  cases ha

theorem spawn_inScene : InScene world joined Env.quiet (.frame 0 spawning) := by
  intro t hdr p ht _ hh _ hp _
  have hhdr : Packet.parseHeader spawning = .ok ⟨PacketType.vehicleSpawn.code, 0, 0, 18, 0⟩ := by decide
  obtain rfl := Except.ok.inj (hhdr.symm.trans hh)
  have hobj : joined.tcp.objects[0]? = some ⟨1, "10.0.0.1", true⟩ := by decide
  obtain rfl := Option.some.inj (hobj.symm.trans ht)
  have hrec : joined.players.lookup (playerOf joined 1) = some ⟨1, "ann", "player", "10.0.0.1", .loadingMods, false,
      false, []⟩ := by decide
  obtain rfl := Option.some.inj (hrec.symm.trans hp)
  intro hex
  obtain ⟨v, hv, -⟩ := hex
  exact List.not_mem_nil hv

theorem delete_inScene : InScene world stocked Env.quiet (.frame 0 (deleting 0)) := by
  intro t hdr p ht _ hh _ hp _
  have hhdr : Packet.parseHeader (deleting 0) = .ok ⟨PacketType.vehicleDelete.code, 0, 0, 1, 0⟩ := by decide
  obtain rfl := Except.ok.inj (hhdr.symm.trans hh)
  have hobj : stocked.tcp.objects[0]? = some ⟨1, "10.0.0.1", true⟩ := by decide
  obtain rfl := Option.some.inj (hobj.symm.trans ht)
  have hrec : stocked.players.lookup (playerOf stocked 1) = some ⟨1, "ann", "player", "10.0.0.1", .loadingMods, false,
      false, [⟨0, "pickup", pickup.text, .zero, true⟩]⟩ := by decide
  obtain rfl := Option.some.inj (hrec.symm.trans hp)
  intro vid hvid
  have hread : readByte (Packet.payload (deleting 0)) 0 = .ok 0 := by decide
  obtain rfl := Except.ok.inj (hread.symm.trans hvid)
  exact ⟨_, List.mem_singleton.mpr rfl, rfl⟩

def visit : List Moment := ⟨stocked, Env.quiet, .frame 0 (deleting 0), none⟩ :: history

theorem run_none : Run world (InScene world) visit none := by
  have hnone : Step world stocked Env.quiet (.frame 0 (deleting 0)) none := step_after world _ _ (by decide)
  exact .step (run_stocked trivial auth_inScene spawn_inScene) delete_inScene hnone

end Parade

theorem vehicles_alternate_ann :
    [.spawn 1 0, .delete 1 0] ∈ pieces Garage.world 1 Parade.visit ∧ ∀ vid, Alternates 1 vid [.spawn 1 0, .delete 1 0] := by
  have hpiece : [.spawn 1 0, .delete 1 0] ∈ pieces Garage.world 1 Parade.visit := by
    have hvisit : pieces Garage.world 1 Parade.visit = [[.spawn 1 0, .delete 1 0], []] := by decide
    rw [hvisit]
    exact List.mem_cons_self
  exact ⟨hpiece, vehicles_alternate Garage.world Parade.run_none 1 _ hpiece⟩

theorem id_spawned_twice : ¬ ∀ (w : World) (h : List Moment) (s : Server), Run w anyStep h s →
    ∀ pid, ∀ piece ∈ pieces w pid h, ∀ vid, Alternates pid vid piece := by
  intro hall
  have hparade : pieces Garage.world 1 Parade.parade = [[.spawn 1 0, .spawn 1 1, .delete 1 0, .spawn 1 1], []] := by
    decide +kernel
  have hpiece := hall _ _ _ Parade.run_twins 1 [.spawn 1 0, .spawn 1 1, .delete 1 0, .spawn 1 1]
  rw [hparade] at hpiece
  exact Parade.spawn_spawn (hpiece List.mem_cons_self 1)

end GameServer

end NovaMP
