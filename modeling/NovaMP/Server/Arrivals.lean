/-
  NovaMP.Server.Arrivals — the updates of one vehicle in the order they come in.

  UDP may reorder, repeat and lose datagrams. The header numbers them, but
  `onUDPPacket` looks at the number of a `PING` only, and `VehicleSync` keeps the state
  it was given last. So the order in which updates come in counts, not the order in
  which they were sent.

  - `receive_updates`: after some updates of one vehicle the store holds the state of
    the one that came in last.
  - `last_received_sent`: the next round sends that state, and once.
  - `late_update_stored`: an update overtaken by the next one.
-/

import NovaMP.Server.VehicleStore
import NovaMP.Server.Relay

namespace NovaMP.GameServer

open Lib Exec

/-! ## Updates -/

/-- A `VEHICLE_UPDATE` that holds the state it announces. -/
structure Update where
  data : Bytes
  header : PacketHeader
  parsed : Packet.parseHeader data = .ok header
  type : PacketType.ofCode header.type = some .vehicleUpdate
  announced : 66 ≤ header.payloadLen.toNat
  whole : 10 + header.payloadLen.toNat ≤ data.length

namespace Update

def sequence (u : Update) : UInt32 := u.header.sequence

def state (u : Update) : VehicleState := unpack ((Packet.payload u.data).take 66)

/-- The flags `onUDPPacket` looks at are those of the state. -/
theorem vflags (u : Update) : (Packet.payload u.data)[1]? = some u.state.vflags := by
  have hlen : ((Packet.payload u.data).take 66).length = 66 := by
    have hann := u.announced
    have hwhole := u.whole
    rw [List.length_take, Packet.payload_length]
    omega
  have hget : ((Packet.payload u.data).take 66)[1]? = (Packet.payload u.data)[1]? := by simp
  have hcode : VehicleState.codec.encode u.state = (Packet.payload u.data).take 66 :=
    VehicleState.codec.encode_decode _ (by rw [hlen]; rfl)
  rw [← hget, ← hcode]
  rfl

def build (p : UInt16) (seq : UInt32) (vs : VehicleState) : Update where
  data := Packet.buildVehicleUpdate p seq vs
  header := ⟨PacketType.vehicleUpdate.code, p, seq, 66, 0⟩
  parsed := by
    have hh := Packet.parseHeader_build .vehicleUpdate p seq (VehicleState.codec.encode vs) 66 0 []
    rw [List.append_nil] at hh
    exact hh
  type := rfl
  announced := Nat.le_refl 66
  whole := by
    have hlen : (VehicleState.codec.encode vs).length = 66 := by simp
    have hp := Packet.payload_length (Packet.buildVehicleUpdate p seq vs)
    rw [Packet.payload_buildVehicleUpdate, hlen] at hp
    show 10 + 66 ≤ _
    omega

theorem state_build (p : UInt16) (seq : UInt32) (vs : VehicleState) : (build p seq vs).state = vs := by
  have hpl : Packet.payload (build p seq vs).data = VehicleState.codec.encode vs :=
    Packet.payload_buildVehicleUpdate p seq vs
  rw [state, hpl, List.take_of_length_le (by simp), unpack, Codec.decode_encode]

end Update

/-- An update that comes in, and what `AIAuthority` says then. -/
structure Arrived where
  env : Env
  update : Update

variable (w : World)

/-- The updates come in from `source`, one after the other. -/
def receive (source : UDPEndpoint) (as : List Arrived) : ServerM Unit :=
  each (fun a => onUDPPacket w a.env source a.update.data) as

/-- However often and in whatever order the updates `sent` come in, the store has the
    state of the one with the largest sequence number among those that did. -/
def NewestStored (s : Server) (source : UDPEndpoint) (p : UInt16) (v : UInt8) (sent : List Update) : Prop :=
  ∀ as : List Arrived, (∀ a ∈ as, a.update ∈ sent) → ∀ newest ∈ as,
    (∀ a ∈ as, a.update.sequence ≤ newest.update.sequence) →
      ∃ s', receive w source as [] s = (.ok (), s') ∧ stateOf s' p v = some newest.update.state

/-- The update is sent on as it is: an AI update of the AI authority. -/
def Arrived.SentOn (p : UInt16) (a : Arrived) : Prop :=
  w.cfg.aiEnabled = true ∧ a.env.isAuthority p = true ∧ a.update.state.vflags &&& vfIsAi ≠ 0

variable {w} {s : Server} {source : UDPEndpoint} {p : UInt16} {v : UInt8}

/-! ## One update -/

theorem onUDPPacket_update {a : Arrived} (hmap : s.udp.epToPlayer.lookup source = some p) (hp : p ≠ 0xFFFF)
    (hai : ¬ a.SentOn w p) :
    onUDPPacket w a.env source a.update.data [] s = (.ok (), updated s p a.update.state) := by
  have hat : playerAt s source = p := by rw [playerAt, hmap]; rfl
  have hping : ¬ PacketType.ofCode a.update.header.type = some .ping := by
    rw [a.update.type]
    intro h
    cases h
  have hknown : ¬ (playerAt s source = 0xFFFF ∨ PacketType.ofCode a.update.header.type ≠ some .vehicleUpdate) := by
    rw [hat, a.update.type]
    simp [hp]
  have hup : updateOutcome s p (Packet.payload a.update.data) a.update.header.payloadLen =
      (.ok (), updated s p a.update.state) := by
    rw [updateOutcome_wellFormed a.update.whole, if_pos a.update.announced]
    rfl
  rw [onUDPPacket_eq, a.update.parsed]
  dsimp only [datagramOutcome]
  rw [if_neg hping, if_neg hknown, hat, hup]
  split
  · rename_i hauth
    have hflags : readByte (Packet.payload a.update.data) 1 = .ok a.update.state.vflags := by
      rw [readByte, a.update.vflags]
    rw [hflags]
    dsimp only
    rw [if_neg (fun hflag => hai ⟨hauth.1, hauth.2.1, hflag⟩)]
  · rfl

/-! ## Updates one after the other -/

/-- How often the vehicle was sent since its entry was made. -/
def sentOf (s : Server) (p : UInt16) (v : UInt8) : UInt32 := ((VehicleSync.abs s.vsync (p, v)).map (·.seq)).getD 0

theorem abs_updated {vs : VehicleState} (hv : vs.vehicleId = v) :
    VehicleSync.abs (updated s p vs).vsync (p, v) = some ⟨vs, sentOf s p v, true⟩ := by
  subst hv
  show VehicleSync.abs (s.vsync.onVehicleUpdate p vs) (p, vs.vehicleId) = _
  rw [VehicleSync.abs_onVehicleUpdate, VehicleSync.KeyedMap.update, if_pos rfl]
  rfl

/-- The updates are handled, and the last of them stays. -/
theorem receive_updates (hmap : s.udp.epToPlayer.lookup source = some p) (hp : p ≠ 0xFFFF) (as : List Arrived)
    (a : Arrived) (hv : ∀ b ∈ as ++ [a], b.update.state.vehicleId = v) (hai : ∀ b ∈ as ++ [a], ¬ b.SentOn w p) :
    ∃ s', receive w source (as ++ [a]) [] s = (.ok (), s') ∧
      VehicleSync.abs s'.vsync (p, v) = some ⟨a.update.state, sentOf s p v, true⟩ ∧
      (VehicleSync.Keyed s.vsync → VehicleSync.Keyed s'.vsync) := by
  induction as generalizing s with
  | nil =>
    have hva := hv a (List.mem_singleton.mpr rfl)
    refine ⟨updated s p a.update.state, ?_, abs_updated hva, fun hk => VehicleSync.keyed_onVehicleUpdate hk p _⟩
    rw [List.nil_append, receive, each, run_bind, onUDPPacket_update hmap hp (hai a (List.mem_singleton.mpr rfl))]
    rfl
  | cons b as ih =>
    obtain ⟨hvb, hvs⟩ := List.forall_mem_cons.mp hv
    obtain ⟨haib, hais⟩ := List.forall_mem_cons.mp hai
    obtain ⟨s', hs', habs, hkeyed⟩ := ih (s := updated s p b.update.state) hmap hvs hais
    have hseq : sentOf (updated s p b.update.state) p v = sentOf s p v := by
      rw [sentOf, abs_updated hvb]
      rfl
    refine ⟨s', ?_, hseq ▸ habs, fun hk => hkeyed (VehicleSync.keyed_onVehicleUpdate hk p _)⟩
    rw [List.cons_append, receive, each, run_bind, onUDPPacket_update hmap hp haib]
    exact hs'

/-! ## The round after them -/

/-- What a round sends of a vehicle. -/
def sentFor (p : UInt16) (v : UInt8) (bs : List Broadcast) : List Broadcast :=
  bs.filter fun b => (claimOf b.pkt).any fun f => f.sender == p && f.vehicleId == v

theorem sentFor_cons (k : VehicleSync.Key) (c : VehicleSync.Cell) (hk : c.state.vehicleId = k.2) (bs : List Broadcast) :
    sentFor p v (VehicleSync.callOf k c :: bs) =
      if k = (p, v) then VehicleSync.callOf k c :: sentFor p v bs else sentFor p v bs := by
  have hclaim : claimOf (VehicleSync.callOf k c).pkt = some ⟨k.1, k.2, c.state.vflags⟩ := by
    rw [VehicleSync.callOf, claimOf_buildVehicleUpdate, hk]
  rw [sentFor, List.filter_cons, hclaim]
  simp [Prod.ext_iff, sentFor]

theorem sentFor_none {es : VehicleSync} (h : VehicleSync.abs es (p, v) = none) : sentFor p v es.broadcastAll.1 = [] := by
  rw [VehicleSync.broadcastAll_calls]
  induction es with
  | nil => rfl
  | cons e es ih =>
    rw [VehicleSync.abs] at h
    split at h
    · cases h
    · rename_i hk
      rw [VehicleSync.dirtyCells, List.filter_cons]
      split
      · rw [List.map_cons, List.map_cons, sentFor_cons _ _ (by rfl), if_neg hk]
        exact ih h
      · exact ih h

/-- A round sends the state that waits for a vehicle, and once. -/
theorem sentFor_round {es : VehicleSync} (hkeyed : VehicleSync.Keyed es) {st : VehicleState} {seq : UInt32}
    (h : VehicleSync.abs es (p, v) = some ⟨st, seq, true⟩) :
    sentFor p v es.broadcastAll.1 = [⟨Packet.buildVehicleUpdate p (seq + 1) st, p⟩] := by
  rw [VehicleSync.broadcastAll_calls]
  induction es with
  | nil => cases h
  | cons e es ih =>
    obtain ⟨hnot, hkeyed⟩ := List.nodup_cons.mp hkeyed
    rw [VehicleSync.abs] at h
    split at h
    · rename_i hk
      have hcell : VehicleSync.cell e = ⟨st, seq, true⟩ := Option.some.inj h
      have hdirty : e.dirty = true := congrArg VehicleSync.Cell.dirty hcell
      have hrest : VehicleSync.abs es (p, v) = none := VehicleSync.abs_eq_none.mpr (hk ▸ hnot)
      rw [VehicleSync.dirtyCells, List.filter_cons, if_pos hdirty, List.map_cons, List.map_cons,
        sentFor_cons _ _ (by rfl), if_pos hk, hcell, hk]
      have hnone := sentFor_none hrest
      rw [VehicleSync.broadcastAll_calls] at hnone
      exact congrArg (_ :: ·) hnone
    · rename_i hk
      rw [VehicleSync.dirtyCells, List.filter_cons]
      split
      · rw [List.map_cons, List.map_cons, sentFor_cons _ _ (by rfl), if_neg hk]
        exact ih hkeyed h
      · exact ih hkeyed h

/-- In a state that some run reaches, whatever the endpoint maps hold: after updates of
    one vehicle from its player's endpoint, none an AI update of the AI authority, the
    store has the state that came in last, and the next round sends it, once. If the
    updates came in in the order of their numbers, it is the one with the largest. -/
theorem last_received_sent (w : World) {h : List Moment} {s : Server} (hr : MappedRun w anyStep h s)
    (source : UDPEndpoint) (p : UInt16) (v : UInt8) (hmap : s.udp.epToPlayer.lookup source = some p) (hp : p ≠ 0xFFFF)
    (as : List Arrived) (last : Arrived) (hv : ∀ a ∈ as ++ [last], a.update.state.vehicleId = v)
    (hai : ∀ a ∈ as ++ [last], ¬ a.SentOn w p) :
    ∃ s', receive w source (as ++ [last]) [] s = (.ok (), s') ∧ stateOf s' p v = some last.update.state ∧
      sentFor p v s'.vsync.broadcastAll.1 = [⟨Packet.buildVehicleUpdate p (sentOf s p v + 1) last.update.state, p⟩] ∧
      ((as ++ [last]).Pairwise (fun a b => a.update.sequence ≤ b.update.sequence) →
        ∀ a ∈ as ++ [last], a.update.sequence ≤ last.update.sequence) := by
  obtain ⟨s', hs', habs, hkeyed⟩ := receive_updates hmap hp as last hv hai
  have hk : VehicleSync.Keyed s.vsync := by
    rw [vsync_run hr]
    exact VehicleSync.keyed_run _
  refine ⟨s', hs', by rw [stateOf, habs]; rfl, sentFor_round (hkeyed hk) habs, ?_⟩
  intro hsorted a ha
  rcases List.mem_append.mp ha with ha | ha
  · exact (List.pairwise_append.mp hsorted).2.2 a ha last (List.mem_singleton.mpr rfl)
  · rw [List.mem_singleton.mp ha]
    exact UInt32.le_refl _

/-! ## An update overtaken by the next one -/

namespace Overtaken

def located : Server := { Garage.stocked with udp := (mapped 1).udp }

/-- The vehicle has moved on to `x = 1` (the bits of a `float`). -/
def moved : VehicleState := { VehicleState.zero with pos := ⟨0x3F800000, 0, 0⟩ }

def first : Update := .build 1 1 .zero

def second : Update := .build 1 2 moved

theorem run_located : MappedRun Garage.world anyStep Garage.history located :=
  .endpoints _ (Garage.run_stocked trivial trivial trivial).mapped

end Overtaken

/-- The two updates of `ann` come in the wrong way round. -/
theorem last_received_sent_ann : MappedRun Garage.world anyStep Garage.history Overtaken.located ∧
    ∃ s', receive Garage.world epA [⟨Env.quiet, Overtaken.second⟩, ⟨Env.quiet, Overtaken.first⟩] [] Overtaken.located =
        (.ok (), s') ∧ stateOf s' 1 0 = some .zero := by
  refine ⟨Overtaken.run_located, ?_⟩
  have hno (a : Arrived) : ¬ a.SentOn Garage.world 1 := fun ha => by cases ha.1
  obtain ⟨s', hs', hst, -⟩ := last_received_sent Garage.world Overtaken.run_located epA 1 0 (by decide) (by decide)
    [⟨Env.quiet, Overtaken.second⟩] ⟨Env.quiet, Overtaken.first⟩
    (by simp [Overtaken.second, Overtaken.first, Update.state_build, Overtaken.moved, VehicleState.zero])
    (fun a _ => hno a)
  exact ⟨s', hs', by rw [hst, Overtaken.first, Update.state_build]⟩

theorem late_update_stored : ¬ ∀ (w : World) (h : List Moment) (s : Server) (source : UDPEndpoint) (p : UInt16) (v : UInt8)
    (sent : List Update), MappedRun w anyStep h s → s.udp.epToPlayer.lookup source = some p → p ≠ 0xFFFF →
      (∀ u ∈ sent, u.state.vehicleId = v) → sent.Pairwise (fun a b => a.sequence < b.sequence) →
        NewestStored w s source p v sent := by
  intro hall
  have hmem (a : Arrived) (ha : a ∈ [⟨Env.quiet, Overtaken.second⟩, ⟨Env.quiet, Overtaken.first⟩]) :
      a = ⟨Env.quiet, Overtaken.second⟩ ∨ a = ⟨Env.quiet, Overtaken.first⟩ := by simpa using ha
  obtain ⟨s', hs', hst⟩ := hall Garage.world _ _ epA 1 0 [Overtaken.first, Overtaken.second] Overtaken.run_located
    (by decide) (by decide)
    (by simp [Overtaken.second, Overtaken.first, Update.state_build, Overtaken.moved, VehicleState.zero])
    (by simp [Overtaken.second, Overtaken.first, Update.build, Update.sequence])
    [⟨Env.quiet, Overtaken.second⟩, ⟨Env.quiet, Overtaken.first⟩]
    (by intro a ha; rcases hmem a ha with rfl | rfl <;> simp) ⟨Env.quiet, Overtaken.second⟩ List.mem_cons_self
    (by intro a ha; rcases hmem a ha with rfl | rfl <;> decide)
  have hlate : stateOf (receive Garage.world epA [⟨Env.quiet, Overtaken.second⟩, ⟨Env.quiet, Overtaken.first⟩] []
      Overtaken.located).2 1 0 = some .zero := by decide
  rw [hs', hst, Overtaken.second, Update.state_build] at hlate
  cases hlate

end NovaMP.GameServer
