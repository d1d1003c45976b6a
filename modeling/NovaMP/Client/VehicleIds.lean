/-
  NovaMP.Client.VehicleIds — the ids of a client's own vehicles
  (`onVehicleSpawned` and `onVehicleDestroyed` in `client/Resources/Client/main.lua`,
  `onUpdate` in `vehicle_sync.lua`).

  The mod packs the id that the game has for a vehicle into one byte, in updates and
  deletes. The server numbers a vehicle, as it handles its spawn, by how many its player
  has, and announces that; but the mod takes every `VEHICLE_SPAWN` for one of another
  player and never learns the number of its own.

  A `Duo` is the mod, what it has written to its TCP connection and the server
  (`GameServer.Step`, as in all runs); the game's calls, the server's reads and its other
  calls come in any order. `ν` are the vehicles and `gid` what the game calls them.

  - `Duo.Run.sound`: what is packed for a vehicle is `gid`, and what is assigned is the
    number of vehicles.
  - `same_ids_iff`: so they agree exactly if the game's ids are these numbers.
  - `game_id_1000`: a vehicle whose delete cannot be packed.
-/

import NovaMP.Client.Sending
import NovaMP.Client.VehicleUpdate
import NovaMP.Server.VehicleStore

namespace NovaMP.Client

open Lib StringPack GameServer

/-! ## The mod -/

/-- `string.char`; the error is that the value is out of range. -/
def stringChar (n : Int) : Except PackError Bytes :=
  if 0 ≤ n ∧ n < 256 then .ok [UInt8.ofNat n.toNat] else .error .overflow

/-- The datagram that `udpSend` sends. -/
def udpSend (s : Mod) (ptype : Int) (payload : Bytes) : Except PackError Bytes := do
  let header ← pack headerFormat [.int ptype, .int s.playerId, .int 0, .int payload.length, .int 0]
  pure (header ++ payload)

/-- A packet on the TCP connection, and the vehicle it spawns. -/
structure Parcel (ν : Type) where
  data : Bytes
  spawns : Option ν
  deriving DecidableEq

/-- What the history is asked about. -/
inductive Mark (ν : Type) where
  /-- The id of `v` in an update or delete; `none` if packing it has raised. -/
  | packed (v : ν) (id : Option UInt8)
  /-- The server has handled the spawn of `v`, whose player had `count` vehicles. -/
  | assigned (v : ν) (count : Nat) (id : UInt8)
  deriving DecidableEq

structure Duo (ν : Type) where
  mod : Mod
  connected : Bool
  /-- What the server has not read yet. -/
  wire : List (Parcel ν)
  server : Server
  log : List (Mark ν)

/-- What the game calls, and the packets that matter to the mod's state. -/
inductive Hook (ν : Type) where
  | request (auth : Bytes)
  | authenticated (playerId : Int)
  | kicked
  /-- With the text of the request; the game may have no such vehicle. -/
  | spawned (v : ν) (text : Option Bytes)
  | destroyed (v : ν)
  /-- It is time for an update, and the player is in `v`. -/
  | update (v : ν) (r : Reading)
  | chat (msg : Bytes)

/-- What the game reports can be packed, but for the id. -/
def packable (r : Reading) : Bool := (onUpdate (.int 0) r).isOk

variable {ν : Type}

namespace Duo

def mark (d : Duo ν) (m : Mark ν) : Duo ν := { d with log := d.log ++ [m] }

/-- `tcpSend`, and whether it has sent; the server takes the four length bytes off. -/
def tcpSend (d : Duo ν) (ptype : Int) (payload : Bytes) (spawns : Option ν) : Duo ν × Bool :=
  match Client.tcpSend d.mod ptype (some payload) with
  | (m, .ok bytes) => ({ d with mod := m, wire := d.wire ++ [⟨bytes.drop 4, spawns⟩] }, true)
  | (m, .error _) => ({ d with mod := m }, false)

def onVehicleSpawned (d : Duo ν) (v : ν) (text : Option Bytes) : Duo ν :=
  if !d.connected then d
  else
    match text with
    | none => d
    | some text => (d.tcpSend 0x06 text (some v)).1

def onVehicleDestroyed (gid : ν → Nat) (d : Duo ν) (v : ν) : Duo ν :=
  if !d.connected then d
  else
    match stringChar (gid v) with
    | .ok char =>
      let (d, sent) := d.tcpSend 0x07 char none
      if sent then d.mark (.packed v char.head?) else d
    | .error _ => d.mark (.packed v none)

def onUpdate (gid : ν → Nat) (d : Duo ν) (v : ν) (r : Reading) : Duo ν :=
  if !d.connected then d
  else
    match Client.onUpdate (.int (gid v)) r with
    | .ok payload =>
      match udpSend d.mod 0x08 payload with
      | .ok _ => d.mark (.packed v payload.head?)
      | .error _ => d
    | .error _ => if packable r then d.mark (.packed v none) else d

def hook (gid : ν → Nat) (d : Duo ν) : Hook ν → Duo ν
  | .request auth => (d.tcpSend 0x01 auth none).1
  | .authenticated playerId => { d with mod := { d.mod with playerId := playerId }, connected := true }
  | .kicked => { d with connected := false }
  | .spawned v text => d.onVehicleSpawned v text
  | .destroyed v => d.onVehicleDestroyed gid v
  | .update v r => d.onUpdate gid v r
  | .chat msg => if d.connected then (d.tcpSend 0x0B msg none).1 else d

end Duo

/-! ## The mod and the server -/

def vehicleCount (s : Server) (pid : UInt16) : Nat := ((s.players.lookup pid).map (·.vehicles.length)).getD 0

/-- The id that the server announces for `v` in a call. -/
def assignments (w : World) (x : Env) (s : Server) (c : Call) (v : ν) : List (Mark ν) :=
  (announced w x s.clear c).filterMap fun a =>
    match a with
    | .spawn pid id => some (.assigned v (vehicleCount s pid) id)
    | _ => none

/-- `object` is the session of the mod at the server. -/
inductive Duo.Run (gid : ν → Nat) (w : World) (object : Nat) : Duo ν → Prop
  | init {s : Server} : Reach w anyStep s → Run gid w object ⟨⟨0, 0⟩, false, [], s, []⟩
  | hook {d : Duo ν} (e : Hook ν) : Run gid w object d → Run gid w object (d.hook gid e)
  | serve {d : Duo ν} {p : Parcel ν} {rest : List (Parcel ν)} {x : Env} {s : Server} : Run gid w object d →
      d.wire = p :: rest → Step w d.server x (.frame object p.data) s →
      Run gid w object { d with
        wire := rest
        server := s
        log := d.log ++ p.spawns.toList.flatMap (assignments w x d.server (.frame object p.data)) }
  | elsewhere {d : Duo ν} {x : Env} {c : Call} {s : Server} : Run gid w object d → (∀ data, c ≠ .frame object data) →
      Step w d.server x c s → Run gid w object { d with server := s }

/-- The ids that were packed for a vehicle are those that were assigned to it, and packing
    has raised nowhere. -/
def SameIds (log : List (Mark ν)) : Prop :=
  ∀ v id, .packed v id ∈ log → ∃ b, id = some b ∧ ∀ count id', .assigned v count id' ∈ log → id' = b

/-! ## What is packed -/

/-- The byte for an id. -/
def idByte (g : Nat) : Option UInt8 := if g < 256 then some (UInt8.ofNat g) else none

theorem leBytes_one (g : Nat) : leBytes 1 g = [UInt8.ofNat g] := by simp [leBytes]

/-- The id comes first; the rest does not depend on it. -/
theorem onUpdate_eq (r : Reading) : ∃ rest : Except PackError Bytes, ∀ g : Nat,
    onUpdate (.int g) r = (Opt.unsigned 1).put (.int g) >>= fun b => rest >>= fun bs => pure (b ++ bs) := by
  refine ⟨pack formatOptions.tail (updateValues (.int 0) (.int 0) r noWheels).tail, fun g => ?_⟩
  rw [onUpdate, formatOptions_eq]
  rfl

theorem put_overflow {g : Nat} (hg : ¬ g < 256) : (Opt.unsigned 1).put (.int g) = .error .overflow := by
  have hint : ¬ (g : Int) < 256 := by omega
  simp [Opt.put, Value.checkInteger, hint]

theorem onUpdate_idByte {g : Nat} {r : Reading} {payload : Bytes} (h : onUpdate (.int g) r = .ok payload) :
    payload.head? = idByte g := by
  obtain ⟨rest, hrest⟩ := onUpdate_eq r
  rw [hrest] at h
  by_cases hg : g < 256
  · rw [put_unsigned (by simpa using hg), leBytes_one] at h
    cases rest with
    | error e => cases h
    | ok bs =>
      cases h
      rw [idByte, if_pos hg]
      rfl
  · rw [put_overflow hg] at h
    cases h

theorem onUpdate_raises {g : Nat} {r : Reading} {e : PackError} (h : onUpdate (.int g) r = .error e)
    (hr : packable r = true) : idByte g = none := by
  obtain ⟨rest, hrest⟩ := onUpdate_eq r
  rw [idByte, if_neg]
  intro hg
  have hzero : onUpdate (.int 0) r = _ := hrest 0
  rw [packable, hzero] at hr
  rw [hrest, put_unsigned (by simpa using hg)] at h
  cases rest with
  | error e => cases hr
  | ok bs => cases h

theorem stringChar_eq (g : Nat) : stringChar g = if g < 256 then .ok [UInt8.ofNat g] else .error .overflow := by
  by_cases hg : g < 256
  · rw [stringChar, if_pos (by omega), if_pos hg, Int.toNat_natCast]
  · rw [stringChar, if_neg (by omega), if_neg hg]

/-! ## Runs -/

/-- An id that is packed is that of the game, and one that is assigned is a number of
    vehicles. -/
def Mark.Sound (gid : ν → Nat) : Mark ν → Prop
  | .packed v id => id = idByte (gid v)
  | .assigned _ count id => id = UInt8.ofNat count

variable {gid : ν → Nat} {w : World} {object : Nat} {d : Duo ν}

theorem tcpSend_log (d : Duo ν) (ptype : Int) (payload : Bytes) (spawns : Option ν) :
    (d.tcpSend ptype payload spawns).1.log = d.log := by
  unfold Duo.tcpSend
  split <;> rfl

/-- What a hook adds to the log. -/
theorem hook_log (gid : ν → Nat) (d : Duo ν) (e : Hook ν) : ∃ marks, (d.hook gid e).log = d.log ++ marks ∧ ∀ m ∈ marks, m.Sound gid := by
  have hquiet : ∀ {d' : Duo ν}, d'.log = d.log → ∃ marks, d'.log = d.log ++ marks ∧ ∀ m ∈ marks, m.Sound gid :=
    fun h => ⟨[], by rw [h, List.append_nil], by simp⟩
  have hpacked : ∀ {d' : Duo ν} {v : ν} {id : Option UInt8}, d'.log = d.log → id = idByte (gid v) →
      ∃ marks, (d'.mark (.packed v id)).log = d.log ++ marks ∧ ∀ m ∈ marks, m.Sound gid := by
    intro d' v id hd hid
    refine ⟨[.packed v id], by rw [Duo.mark, hd], fun m hm => ?_⟩
    rw [List.mem_singleton.mp hm]
    exact hid
  cases e with
  | request auth => exact hquiet (tcpSend_log d _ _ _)
  | authenticated _ | kicked => exact hquiet rfl
  | spawned v text =>
    refine hquiet ?_
    unfold Duo.hook Duo.onVehicleSpawned
    dsimp only
    split
    · rfl
    · split
      · rfl
      · exact tcpSend_log d _ _ _
  | destroyed v =>
    unfold Duo.hook Duo.onVehicleDestroyed
    dsimp only
    split
    · exact hquiet rfl
    rw [stringChar_eq]
    by_cases hg : gid v < 256
    · rw [if_pos hg]
      dsimp only
      split
      · refine hpacked (tcpSend_log d _ _ _) ?_
        rw [idByte, if_pos hg]
        rfl
      · exact hquiet (tcpSend_log d _ _ _)
    · rw [if_neg hg]
      refine hpacked rfl ?_
      rw [idByte, if_neg hg]
  | update v r =>
    unfold Duo.hook Duo.onUpdate
    dsimp only
    split
    · exact hquiet rfl
    split
    · rename_i payload hpayload
      split
      · exact hpacked rfl (onUpdate_idByte hpayload)
      · exact hquiet rfl
    · rename_i err herr
      split
      · rename_i hr
        exact hpacked rfl (onUpdate_raises herr hr).symm
      · exact hquiet rfl
  | chat msg =>
    refine hquiet ?_
    unfold Duo.hook
    dsimp only
    split
    · exact tcpSend_log d _ _ _
    · rfl

/-- A packet of a player that spawns a vehicle gives it the number of vehicles. -/
theorem turn_spawn {s s' : Server} {pid pid' : UInt16} {t : Option PacketType} {as : List Announcement} {id : UInt8}
    (ht : Turn s pid t as s') (hm : .spawn pid' id ∈ as) : id = UInt8.ofNat (vehicleCount s pid') := by
  cases ht with
  | quiet _ => cases hm
  | ready _ _ | delete _ _ => cases List.mem_singleton.mp hm
  | spawn hp hv _ =>
    cases List.mem_singleton.mp hm
    rw [vehicleCount, hp]
    exact hv

theorem change_spawn {s s' : Server} {c : Call} {as : List Announcement} {pid : UInt16} {id : UInt8}
    (hc : Change w s c as s') (hm : .spawn pid id ∈ as) : id = UInt8.ofNat (vehicleCount s pid) := by
  cases hc with
  | turn _ _ _ _ ht => exact turn_spawn ht hm
  | left _ _ _ _ => cases List.mem_singleton.mp hm
  | quiet _ | accept _ | banned _ _ | closed _ _ _ | registered _ _ _ | vetoed _ _ _ => cases hm

theorem assignments_sound {x : Env} {s s' : Server} {c : Call} (h : Step w s x c s') (v : ν) :
    ∀ m ∈ assignments w x s c v, m.Sound gid := by
  intro m hm
  obtain ⟨a, ha, he⟩ := List.mem_filterMap.mp hm
  split at he
  · cases he
    exact change_spawn (step_change w x s h) ha
  · cases he

theorem Duo.Run.sound (hr : Duo.Run gid w object d) : ∀ m ∈ d.log, m.Sound gid := by
  induction hr with
  | init _ => simp
  | @hook d e _ ih =>
    obtain ⟨marks, hlog, hmarks⟩ := hook_log gid d e
    rw [hlog]
    exact fun m hm => (List.mem_append.mp hm).elim (ih m) (hmarks m)
  | serve _ _ hs ih =>
    intro m hm
    rcases List.mem_append.mp hm with hm | hm
    · exact ih m hm
    · obtain ⟨v, -, hm⟩ := List.mem_flatMap.mp hm
      exact assignments_sound hs v m hm
  | elsewhere _ _ _ ih => exact ih

theorem ofNat_eq_iff {g count : Nat} (hg : g < 256) : UInt8.ofNat count = UInt8.ofNat g ↔ g = count % 256 := by
  rw [← UInt8.toNat_inj, UInt8.toNat_ofNat', UInt8.toNat_ofNat', Nat.mod_eq_of_lt hg]
  exact eq_comm

/-- Mod and server have the same ids exactly if each id of the game that is packed is the
    number of vehicles, in one byte, that the server had when it handled the spawn. -/
theorem same_ids_iff (gid : ν → Nat) (w : World) (object : Nat) {d : Duo ν} (hr : Duo.Run gid w object d) :
    SameIds d.log ↔ ∀ v id, .packed v id ∈ d.log →
      gid v < 256 ∧ ∀ count id', .assigned v count id' ∈ d.log → gid v = count % 256 := by
  have hpacked : ∀ {v id}, .packed v id ∈ d.log → id = idByte (gid v) := fun hm => hr.sound _ hm
  have hassigned : ∀ {v count id}, .assigned v count id ∈ d.log → id = UInt8.ofNat count := fun hm => hr.sound _ hm
  constructor
  · intro hsame v id hm
    obtain ⟨b, hb, hall⟩ := hsame v id hm
    have hid := hb.symm.trans (hpacked hm)
    have hg : gid v < 256 := by
      by_contra hg
      rw [idByte, if_neg hg] at hid
      cases hid
    rw [idByte, if_pos hg] at hid
    refine ⟨hg, fun count id' hm' => (ofNat_eq_iff hg).mp ?_⟩
    rw [← hassigned hm', hall count id' hm']
    exact Option.some.inj hid
  · intro hcond v id hm
    obtain ⟨hg, hall⟩ := hcond v id hm
    refine ⟨UInt8.ofNat (gid v), ?_, fun count id' hm' => ?_⟩
    · rw [hpacked hm, idByte, if_pos hg]
    · rw [hassigned hm']
      exact (ofNat_eq_iff hg).mpr (hall count id' hm')

/-! ## A vehicle is spawned and destroyed -/

namespace Drive

open Garage

/-- The game calls the vehicle `g`. -/
def named (g : Nat) : Unit → Nat := fun _ => g

/-- `ann` has spawned a vehicle. -/
def spawned : Duo Unit := (⟨⟨1, 0⟩, true, [], joined, []⟩ : Duo Unit).onVehicleSpawned () (some (utf8 pickup.text))

def announcing : Bytes := Packet.buildStr .vehicleSpawn 1 1 (utf8 pickup.text)

/-- The server has handled that. -/
def served : Duo Unit :=
  { spawned with wire := [], server := after world joined Env.quiet (.frame 0 announcing), log := [.assigned () 0 0] }

/-- The vehicle is destroyed. -/
def destroyed (g : Nat) : Duo Unit := served.onVehicleDestroyed (named g) ()

theorem run_destroyed (g : Nat) : Duo.Run (named g) world 0 (destroyed g) := by
  have hreach : Reach world anyStep joined := .step (.step .init trivial step_connected) trivial step_joined
  have hspawned : Duo.Run (named g) world 0 spawned :=
    .hook (.spawned () (some (utf8 pickup.text))) (.hook (.authenticated 1) (.init hreach))
  have hwire : spawned.wire = [⟨announcing, some ()⟩] := by decide
  have hstep : Step world spawned.server Env.quiet (.frame 0 announcing) served.server := step_after world _ _ (by decide)
  have hassigned : assignments world Env.quiet joined (.frame 0 announcing) () = [.assigned () 0 0] := by decide
  have hserved := Duo.Run.serve hspawned hwire hstep
  have hlog : spawned.log ++ (some ()).toList.flatMap (assignments world Env.quiet spawned.server (.frame 0 announcing)) =
      [.assigned () 0 0] := by
    show [] ++ (assignments world Env.quiet joined (.frame 0 announcing) () ++ []) = _
    rw [hassigned]
    rfl
  rw [hlog] at hserved
  exact .hook (.destroyed ()) hserved

end Drive

/-- A game that calls its first vehicle 0. -/
theorem same_ids_zero : SameIds (Drive.destroyed 0).log := by
  refine (same_ids_iff (Drive.named 0) Garage.world 0 (Drive.run_destroyed 0)).mpr ?_
  have hlog : (Drive.destroyed 0).log = [.assigned () 0 0, .packed () (some 0)] := by decide
  rw [hlog]
  intro v id _
  refine ⟨Nat.zero_lt_succ _, fun count id' hm => ?_⟩
  obtain ⟨rfl, rfl⟩ : count = 0 ∧ id' = 0 := by simpa using hm
  rfl

/-- `string.char(1000)` raises. -/
theorem game_id_1000 : ¬ ∀ (ν : Type) (gid : ν → Nat) (w : World) (object : Nat) (d : Duo ν), Duo.Run gid w object d →
    SameIds d.log := by
  intro hall
  have hsame := hall Unit (Drive.named 1000) Garage.world 0 (Drive.destroyed 1000) (Drive.run_destroyed 1000)
  have hlog : (Drive.destroyed 1000).log = [.assigned () 0 0, .packed () none] := by decide
  rw [hlog] at hsame
  obtain ⟨b, hb, -⟩ := hsame () none (List.mem_cons_of_mem _ (List.mem_singleton_self _))
  cases hb

end NovaMP.Client
