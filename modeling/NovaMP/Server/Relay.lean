/-
  NovaMP.Server.Relay — vehicle updates from one mapped endpoint to the others.

  Datagrams that announce no more than they hold (`WellFormed`) are handled one after
  the other, then one round of `vehicleSyncLoop` runs. With the two endpoint maps
  inverse to each other, no update waiting and no AI authority among the senders:
  - `datagrams_pending`: what waits for a pair (player, vehicle) is the last update that
    came from the player's endpoint, whatever sender the header claims.
  - `relay_faithful`: the round sends each waiting update once to each other player's
    endpoint, under the real sender's id, and nothing else.

  `0xFFFF` is what `playerFromEndpoint` returns for an unknown endpoint, so a player
  with that id would not be heard (`sentinel_player_dropped`); `allocPlayerID` never
  returns it.
-/

import Mathlib.Data.List.Induction
import NovaMP.Server.Runs

namespace NovaMP.GameServer

open Lib Exec

/-! ## Datagrams -/

structure Datagram where
  env : Env
  source : UDPEndpoint
  data : Bytes

/-- The payload that is announced is there. -/
def WellFormed (data : Bytes) : Prop :=
  ∃ hdr, Packet.parseHeader data = .ok hdr ∧ 10 + hdr.payloadLen.toNat ≤ data.length

/-- The packed state in a `VEHICLE_UPDATE` that announces one. -/
def updateBytes (data : Bytes) : Option Bytes :=
  match Packet.parseHeader data with
  | .ok hdr =>
    if PacketType.ofCode hdr.type = some .vehicleUpdate ∧ 66 ≤ hdr.payloadLen.toNat then
      some ((Packet.payload data).take 66)
    else none
  | .error _ => none

/-- The state the datagram brings from the endpoint of `p`, if it is for vehicle `v`. -/
def bringsFor (udp : UDPServer) (p : UInt16) (v : UInt8) (d : Datagram) : Option Bytes :=
  if udp.epToPlayer.lookup d.source = some p then (updateBytes d.data).filter (·.head? == some v) else none

/-- The last such state in a list of datagrams. -/
def lastFor (udp : UDPServer) (ds : List Datagram) (p : UInt16) (v : UInt8) : Option Bytes :=
  ds.reverse.findSome? (bringsFor udp p v)

/-- No datagram comes from the AI authority. -/
def NoAuthority (w : World) (udp : UDPServer) (ds : List Datagram) : Prop :=
  ∀ d ∈ ds, ∀ p, udp.epToPlayer.lookup d.source = some p → ¬ (w.cfg.aiEnabled = true ∧ d.env.isAuthority p = true)

theorem updateBytes_length {data b : Bytes} (hw : WellFormed data) (h : updateBytes data = some b) : b.length = 66 := by
  obtain ⟨hdr, hh, hlen⟩ := hw
  simp only [updateBytes, hh] at h
  split at h
  · rename_i hc
    cases h
    rw [List.length_take, Packet.payload_length]
    omega
  · cases h

theorem head?_encode (vs : VehicleState) : (VehicleState.codec.encode vs).head? = some vs.vehicleId := rfl

/-! ## One datagram -/

/-- The state packed in 66 bytes. -/
def unpack (b : Bytes) : VehicleState := VehicleState.codec.decode b

theorem head?_unpack {b : Bytes} (h : b.length = 66) : b.head? = some (unpack b).vehicleId := by
  rw [← head?_encode, unpack, VehicleState.codec.encode_decode b (by rw [h]; rfl)]

/-- The vehicle map after a datagram. -/
def heard (udp : UDPServer) (vsync : VehicleSync) (d : Datagram) : VehicleSync :=
  match udp.epToPlayer.lookup d.source, updateBytes d.data with
  | some p, some b => if p = 0xFFFF then vsync else vsync.onVehicleUpdate p (unpack b)
  | _, _ => vsync

theorem updateOutcome_wellFormed {s : Server} {pid : UInt16} {data : Bytes} {hdr : PacketHeader}
    (hlen : 10 + hdr.payloadLen.toNat ≤ data.length) :
    updateOutcome s pid (Packet.payload data) hdr.payloadLen =
      (.ok (), if 66 ≤ hdr.payloadLen.toNat then updated s pid (unpack ((Packet.payload data).take 66)) else s) := by
  unfold updateOutcome
  by_cases h : hdr.payloadLen.toNat < 66
  · rw [if_pos h, if_neg (by omega)]
  · have hpl : 66 ≤ (Packet.payload data).length := by rw [Packet.payload_length]; omega
    have hvs : Packet.parseVehicleState (Packet.payload data) hdr.payloadLen =
        .ok (unpack ((Packet.payload data).take 66)) := by
      unfold Packet.parseVehicleState
      rw [VehicleState.codec_size, if_neg h, readBytes_of_le hpl]
      rfl
    rw [if_neg h, if_pos (by omega), hvs]

/-- A well-formed datagram is handled; it changes nothing but the vehicle map. -/
theorem datagram_heard (w : World) {s : Server} {d : Datagram} (hw : WellFormed d.data)
    (ha : NoAuthority w s.udp [d]) :
    ∃ es, onUDPPacket w d.env d.source d.data [] s =
      (.ok (), ({ s with vsync := heard s.udp s.vsync d } : Server).log es) := by
  obtain ⟨hdr, hh, hlen⟩ := hw
  rw [onUDPPacket_eq, hh]
  show ∃ es, datagramOutcome w d.env s d.source d.data hdr = _
  unfold datagramOutcome heard updateBytes
  rw [hh]
  dsimp only
  by_cases hping : PacketType.ofCode hdr.type = some .ping
  · have hno : ¬ (PacketType.ofCode hdr.type = some .vehicleUpdate ∧ 66 ≤ hdr.payloadLen.toNat) := by
      rw [hping]
      exact fun h => nomatch h.1
    rw [if_pos hping, if_neg hno]
    refine ⟨[.udp d.source (pongPacket hdr.sequence)], ?_⟩
    cases s.udp.epToPlayer.lookup d.source <;> rfl
  rw [if_neg hping]
  cases hl : s.udp.epToPlayer.lookup d.source with
  | none =>
    have hp : playerAt s d.source = 0xFFFF := by rw [playerAt, hl]; rfl
    rw [if_pos (.inl hp)]
    exact ⟨[], (congrArg _ (Server.log_nil s)).symm⟩
  | some p =>
    have hp : playerAt s d.source = p := by rw [playerAt, hl]; rfl
    have hna := ha d (List.mem_singleton.mpr rfl) p hl
    rw [hp]
    by_cases hs : p = 0xFFFF
    · rw [if_pos (.inl hs)]
      refine ⟨[], ?_⟩
      rw [Server.log_nil]
      split
      · rename_i hpq _
        cases hpq
        rw [if_pos hs]
      · rfl
    by_cases ht : PacketType.ofCode hdr.type = some .vehicleUpdate
    · rw [if_neg (not_or.mpr ⟨hs, not_not.mpr ht⟩), if_neg (fun h => hna ⟨h.1, h.2.1⟩), updateOutcome_wellFormed hlen]
      refine ⟨[], ?_⟩
      rw [Server.log_nil]
      by_cases h66 : 66 ≤ hdr.payloadLen.toNat
      · rw [if_pos h66, if_pos ⟨ht, h66⟩]
        dsimp only
        rw [if_neg hs]
        rfl
      · rw [if_neg h66, if_neg (fun h => h66 h.2)]
    · rw [if_pos (.inr ht), if_neg (fun h => ht h.1)]
      exact ⟨[], (congrArg _ (Server.log_nil s)).symm⟩

/-! ## A list of datagrams -/

theorem datagrams_heard (w : World) (ds : List Datagram) (s : Server) (hw : ∀ d ∈ ds, WellFormed d.data)
    (ha : NoAuthority w s.udp ds) : ∃ es, each (fun d => onUDPPacket w d.env d.source d.data) ds [] s =
      (.ok (), ({ s with vsync := ds.foldl (heard s.udp) s.vsync } : Server).log es) := by
  induction ds generalizing s with
  | nil => exact ⟨[], (congrArg _ (Server.log_nil s)).symm⟩
  | cons d ds ih =>
    have ha1 : NoAuthority w s.udp [d] := fun d' hd' => ha d' (List.mem_singleton.mp hd' ▸ List.mem_cons_self)
    obtain ⟨es, he⟩ := datagram_heard w (hw d List.mem_cons_self) ha1
    obtain ⟨es', he'⟩ := ih (({ s with vsync := heard s.udp s.vsync d } : Server).log es)
      (fun d' hd' => hw d' (List.mem_cons_of_mem _ hd')) (fun d' hd' => ha d' (List.mem_cons_of_mem _ hd'))
    refine ⟨es ++ es', ?_⟩
    rw [each, run_bind, he]
    refine he'.trans ?_
    simp [Server.log, List.append_assoc]

/-- The pair has the state `vs` waiting to be sent. -/
def Waiting (vsync : VehicleSync) (p : UInt16) (v : UInt8) (vs : VehicleState) : Prop :=
  ∃ seq, VehicleSync.abs vsync (p, v) = some ⟨vs, seq, true⟩

theorem lastFor_snoc (udp : UDPServer) (ds : List Datagram) (d : Datagram) (p : UInt16) (v : UInt8) :
    lastFor udp (ds ++ [d]) p v = (bringsFor udp p v d).or (lastFor udp ds p v) := by
  rw [lastFor, List.reverse_append, List.reverse_singleton, List.singleton_append, List.findSome?_cons]
  cases bringsFor udp p v d <;> rfl

theorem waiting_update (vsync : VehicleSync) (p p' : UInt16) (v : UInt8) (vs st : VehicleState) :
    Waiting (vsync.onVehicleUpdate p' st) p v vs ↔
      if (p, v) = (p', st.vehicleId) then vs = st else Waiting vsync p v vs := by
  unfold Waiting
  rw [VehicleSync.abs_onVehicleUpdate, VehicleSync.KeyedMap.update]
  by_cases hk : (p, v) = (p', st.vehicleId)
  · rw [if_pos hk, if_pos hk]
    constructor
    · intro hex
      obtain ⟨seq, h⟩ := hex
      cases h
      rfl
    · intro heq
      subst heq
      exact ⟨_, rfl⟩
  · rw [if_neg hk, if_neg hk]

theorem bringsFor_eq {udp : UDPServer} {d : Datagram} {p' : UInt16} {b : Bytes} (hw : WellFormed d.data)
    (hl : udp.epToPlayer.lookup d.source = some p') (hb : updateBytes d.data = some b) (p : UInt16) (v : UInt8) :
    bringsFor udp p v d = if (p, v) = (p', (unpack b).vehicleId) then some b else none := by
  have hhead := head?_unpack (updateBytes_length hw hb)
  unfold bringsFor
  rw [hl, hb]
  by_cases hp : p' = p
  · subst hp
    rw [if_pos rfl, Option.filter_some, hhead]
    by_cases hv : (unpack b).vehicleId = v
    · simp [hv]
    · simp [hv, Ne.symm hv]
  · rw [if_neg (fun h => hp (Option.some.inj h)), if_neg (fun h => hp (congrArg Prod.fst h).symm)]

/-- What waits for a pair is the last update that came from its player's endpoint. -/
theorem datagrams_pending {udp : UDPServer} {vsync : VehicleSync} (hclean : ∀ e ∈ vsync, e.dirty = false)
    (ds : List Datagram) (hw : ∀ d ∈ ds, WellFormed d.data) (p : UInt16) (v : UInt8) (vs : VehicleState) :
    Waiting (ds.foldl (heard udp) vsync) p v vs ↔
      p ≠ 0xFFFF ∧ lastFor udp ds p v = some (VehicleState.codec.encode vs) := by
  induction ds using List.reverseRecOn with
  | nil =>
    refine iff_of_false ?_ (fun h => nomatch h.2)
    intro hex
    obtain ⟨seq, h⟩ := hex
    have hfirst := VehicleSync.dirtyFirst_of_clean hclean
    have hmem := (VehicleSync.mem_dirtyCells hfirst _ _).mpr ⟨h, rfl⟩
    obtain ⟨e, he, -⟩ := List.mem_map.mp hmem
    obtain ⟨hin, hd⟩ := List.mem_filter.mp he
    rw [hclean e hin] at hd
    cases hd
  | append_singleton ds d ih =>
    have ih := ih fun d' hd' => hw d' (List.mem_append_left _ hd')
    have hwd := hw d (List.mem_append_right _ (List.mem_singleton.mpr rfl))
    rw [List.foldl_append, List.foldl_cons, List.foldl_nil, lastFor_snoc, heard]
    cases hl : udp.epToPlayer.lookup d.source with
    | none =>
      have hno : bringsFor udp p v d = none := if_neg (by rw [hl]; exact fun h => nomatch h)
      rw [hno]
      exact ih
    | some p' =>
      cases hb : updateBytes d.data with
      | none =>
        have hno : bringsFor udp p v d = none := by rw [bringsFor, hb]; split <;> rfl
        rw [hno]
        exact ih
      | some b =>
        rw [bringsFor_eq hwd hl hb]
        dsimp only
        by_cases hs : p' = 0xFFFF
        · rw [if_pos hs]
          refine ih.trans (and_congr_right fun hp => ?_)
          rw [if_neg (fun h => hp ((congrArg Prod.fst h).trans hs)), Option.none_or]
        rw [if_neg hs]
        refine (waiting_update _ p p' v vs (unpack b)).trans ?_
        by_cases hk : (p, v) = (p', (unpack b).vehicleId)
        · rw [if_pos hk, if_pos hk]
          have hlen := updateBytes_length hwd hb
          have hp : p ≠ 0xFFFF := fun e => hs ((congrArg Prod.fst hk).symm.trans e)
          constructor
          · intro heq
            subst heq
            exact ⟨hp, congrArg some (VehicleState.codec.encode_decode b hlen).symm⟩
          · intro h
            have : b = VehicleState.codec.encode vs := Option.some.inj h.2
            rw [this, unpack, Codec.decode_encode]
        · rw [if_neg hk, if_neg hk]
          exact ih

/-! ## The round that sends -/

/-- Where a `VEHICLE_UPDATE` goes, and which player's vehicle it claims to be about. -/
def updateKey : Sent → Option (UDPEndpoint × UInt16 × UInt8)
  | .udp ep pkt =>
    match Packet.parseHeader pkt, (Packet.payload pkt).head? with
    | .ok hdr, some v =>
      if PacketType.ofCode hdr.type = some .vehicleUpdate then some (ep, hdr.senderId, v) else none
    | _, _ => none
  | .tcp .. => none

theorem updateKey_build (ep : UDPEndpoint) (p : UInt16) (seq : UInt32) (vs : VehicleState) :
    updateKey (.udp ep (Packet.buildVehicleUpdate p seq vs)) = some (ep, p, vs.vehicleId) := by
  have hh : Packet.parseHeader (Packet.buildVehicleUpdate p seq vs) =
      .ok ⟨PacketType.vehicleUpdate.code, p, seq, 66, 0⟩ := by
    have := Packet.parseHeader_build .vehicleUpdate p seq (VehicleState.codec.encode vs) 66 0 []
    rwa [List.append_nil] at this
  have hv : (Packet.payload (Packet.buildVehicleUpdate p seq vs)).head? = some vs.vehicleId := rfl
  simp only [updateKey, hh, hv, PacketType.ofCode_code, if_true]

theorem relayed_eq (s : Server) : relayed s = (VehicleSync.dirtyCells s.vsync).flatMap fun x =>
    s.toEndpoints (Packet.buildVehicleUpdate x.1.1 (x.2.seq + 1) x.2.state) x.1.1 := by
  rw [relayed, VehicleSync.broadcastAll_calls, List.flatMap_map]
  rfl

theorem mem_toEndpoints {s : Server} {pkt : Bytes} {exclude : UInt16} {e : Sent} :
    e ∈ s.toEndpoints pkt exclude ↔
      ∃ q ep, s.udp.playerToEp.lookup q = some ep ∧ q ≠ exclude ∧ e = .udp ep pkt := by
  unfold Server.toEndpoints
  rw [List.mem_map]
  constructor
  · intro hex
    obtain ⟨⟨q, ep⟩, hm, rfl⟩ := hex
    obtain ⟨hin, hne⟩ := List.mem_filter.mp hm
    exact ⟨q, ep, Table.lookup_iff_mem.mpr hin, by simpa using hne, rfl⟩
  · intro hex
    obtain ⟨q, ep, hl, hne, rfl⟩ := hex
    exact ⟨⟨q, ep⟩, List.mem_filter.mpr ⟨Table.lookup_iff_mem.mp hl, by simpa using hne⟩, rfl⟩

theorem mem_relayed {s : Server} (hfirst : VehicleSync.DirtyFirst s.vsync) {e : Sent} :
    e ∈ relayed s ↔ ∃ p v vs seq q ep, VehicleSync.abs s.vsync (p, v) = some ⟨vs, seq, true⟩ ∧
      s.udp.playerToEp.lookup q = some ep ∧ q ≠ p ∧ e = .udp ep (Packet.buildVehicleUpdate p (seq + 1) vs) := by
  rw [relayed_eq, List.mem_flatMap]
  constructor
  · intro hex
    obtain ⟨⟨⟨p, v⟩, ⟨vs, seq, dirty⟩⟩, hm, he⟩ := hex
    obtain ⟨habs, hd⟩ := (VehicleSync.mem_dirtyCells hfirst _ _).mp hm
    obtain rfl : dirty = true := hd
    obtain ⟨q, ep, hl, hne, rfl⟩ := mem_toEndpoints.mp he
    exact ⟨p, v, vs, seq, q, ep, habs, hl, hne, rfl⟩
  · intro hex
    obtain ⟨p, v, vs, seq, q, ep, habs, hl, hne, rfl⟩ := hex
    exact ⟨((p, v), ⟨vs, seq, true⟩), (VehicleSync.mem_dirtyCells hfirst _ _).mpr ⟨habs, rfl⟩,
      mem_toEndpoints.mpr ⟨q, ep, hl, hne, rfl⟩⟩

theorem dirtyCells_vehicle {vsync : VehicleSync} {x : VehicleSync.Key × VehicleSync.Cell}
    (h : x ∈ VehicleSync.dirtyCells vsync) : x.2.state.vehicleId = x.1.2 := by
  obtain ⟨e, -, rfl⟩ := List.mem_map.mp h
  rfl

/-- No endpoint gets two updates about one vehicle of one player. -/
theorem nodup_relayed {s : Server} (hfirst : VehicleSync.DirtyFirst s.vsync) (hinj : s.udp.playerToEp.Inj) :
    ((relayed s).map updateKey).Nodup := by
  have hkeys (x : VehicleSync.Key × VehicleSync.Cell) :
      (s.toEndpoints (Packet.buildVehicleUpdate x.1.1 (x.2.seq + 1) x.2.state) x.1.1).map updateKey =
        (s.udp.playerToEp.entries.filter fun e => e.1 ≠ x.1.1).map fun e => some (e.2, x.1.1, x.2.state.vehicleId) := by
    rw [Server.toEndpoints, List.map_map]
    exact List.map_congr_left fun e _ => updateKey_build e.2 _ _ _
  rw [relayed_eq, List.map_flatMap, List.nodup_flatMap]
  constructor
  · intro x _
    rw [hkeys, List.Nodup, List.pairwise_map]
    refine List.Pairwise.imp ?_ ((List.pairwise_map.mp hinj.nodup_values).filter _)
    intro a b hne he
    exact hne (Prod.mk.inj (Option.some.inj he)).1
  · refine List.Pairwise.imp_of_mem ?_ (List.pairwise_map.mp (VehicleSync.nodup_dirtyCells hfirst))
    intro x y hx hy hne
    show List.Disjoint ((s.toEndpoints _ _).map updateKey) ((s.toEndpoints _ _).map updateKey)
    rw [hkeys, hkeys]
    intro k hkx hky
    obtain ⟨a, -, rfl⟩ := List.mem_map.mp hkx
    obtain ⟨b, -, heq⟩ := List.mem_map.mp hky
    have h := Prod.mk.inj (Prod.mk.inj (Option.some.inj heq)).2
    rw [dirtyCells_vehicle hx, dirtyCells_vehicle hy] at h
    exact hne (Prod.ext h.1.symm h.2.symm)

/-! ## The relay -/

/-- The datagrams, then one round, send to each mapped player's endpoint one update for
    each vehicle of another player (one of those that `counts`) that an update came in
    for, with that player's id and the last state that came from that player's endpoint;
    and nothing else. -/
def Relays (counts : UInt16 → Prop) (w : World) (s : Server) (ds : List Datagram) : Prop :=
  ∃ t u sent, each (fun d => onUDPPacket w d.env d.source d.data) ds [] s = (.ok (), t) ∧
    broadcastAll [] t = (.ok (), u) ∧ u.sent = t.sent ++ sent ∧
    (∀ q ep p v b, s.udp.playerToEp.lookup q = some ep → counts p → p ≠ q → lastFor s.udp ds p v = some b →
      ∃ seq, (sent.filter fun e => updateKey e = some (ep, p, v)) =
        [.udp ep (Packet.build .vehicleUpdate p seq b 66 0)]) ∧
    (∀ e ∈ sent, ∃ q ep p v b seq, s.udp.playerToEp.lookup q = some ep ∧ counts p ∧ p ≠ q ∧
      lastFor s.udp ds p v = some b ∧ e = .udp ep (Packet.build .vehicleUpdate p seq b 66 0))

theorem dirtyFirst_heard {udp : UDPServer} {vsync : VehicleSync} (h : VehicleSync.DirtyFirst vsync)
    (ds : List Datagram) : VehicleSync.DirtyFirst (ds.foldl (heard udp) vsync) := by
  induction ds generalizing vsync with
  | nil => exact h
  | cons d ds ih =>
    refine ih ?_
    unfold heard
    split
    · split
      · exact h
      · exact VehicleSync.dirtyFirst_onVehicleUpdate h _ _
    · exact h

theorem lastFor_length {udp : UDPServer} {ds : List Datagram} (hw : ∀ d ∈ ds, WellFormed d.data) {p : UInt16}
    {v : UInt8} {b : Bytes} (h : lastFor udp ds p v = some b) : b.length = 66 := by
  obtain ⟨d, hd, hb⟩ := List.exists_of_findSome?_eq_some h
  unfold bringsFor at hb
  split at hb
  · obtain ⟨hu, -⟩ := Option.filter_eq_some_iff.mp hb
    exact updateBytes_length (hw d (List.mem_reverse.mp hd)) hu
  · cases hb

theorem relay_faithful (w : World) (s : Server) (ds : List Datagram)
    (hinv : Table.Inverse s.udp.playerToEp s.udp.epToPlayer) (hclean : ∀ e ∈ s.vsync, e.dirty = false)
    (hw : ∀ d ∈ ds, WellFormed d.data) (ha : NoAuthority w s.udp ds) : Relays (· ≠ 0xFFFF) w s ds := by
  obtain ⟨es, hds⟩ := datagrams_heard w ds s hw ha
  have hfirst : VehicleSync.DirtyFirst (ds.foldl (heard s.udp) s.vsync) :=
    dirtyFirst_heard (VehicleSync.dirtyFirst_of_clean hclean) ds
  have hpend (p : UInt16) (v : UInt8) (vs : VehicleState) : Waiting (ds.foldl (heard s.udp) s.vsync) p v vs ↔
      p ≠ 0xFFFF ∧ lastFor s.udp ds p v = some (VehicleState.codec.encode vs) := datagrams_pending hclean ds hw p v vs
  let t : Server := ({ s with vsync := ds.foldl (heard s.udp) s.vsync } : Server).log es
  refine ⟨t, _, relayed t, hds, broadcastAll_eq t, rfl, ?_, ?_⟩
  · intro q ep p v b hq hp hne hb
    have hlen := lastFor_length hw hb
    have henc : VehicleState.codec.encode (unpack b) = b := VehicleState.codec.encode_decode b hlen
    obtain ⟨seq, habs⟩ := (hpend p v (unpack b)).mpr ⟨hp, by rw [henc]; exact hb⟩
    have hv : (unpack b).vehicleId = v := by
      have hcell := (VehicleSync.mem_dirtyCells hfirst _ _).mpr ⟨habs, rfl⟩
      exact dirtyCells_vehicle hcell
    have hmem := (mem_relayed (s := t) hfirst).mpr ⟨p, v, unpack b, seq, q, ep, habs, hq, Ne.symm hne, rfl⟩
    have hkey := updateKey_build ep p (seq + 1) (unpack b)
    rw [hv] at hkey
    refine ⟨seq + 1, ?_⟩
    have hone := Table.filter_key updateKey (nodup_relayed (s := t) hfirst hinv.inj) hmem
    rw [hkey] at hone
    rw [Packet.buildVehicleUpdate, henc] at hone
    exact hone
  · intro e he
    obtain ⟨p, v, vs, seq, q, ep, habs, hq, hne, rfl⟩ := (mem_relayed (s := t) hfirst).mp he
    obtain ⟨hp, hlast⟩ := (hpend p v vs).mp ⟨seq, habs⟩
    exact ⟨q, ep, p, v, _, seq + 1, hq, hp, Ne.symm hne, hlast, rfl⟩

def epA : UDPEndpoint := ⟨"10.0.0.1", 4000⟩

def epB : UDPEndpoint := ⟨"10.0.0.2", 4000⟩

/-- A server where `p` has the endpoint `epA` and player 2 the endpoint `epB`. -/
def mapped (p : UInt16) : Server :=
  { Server.init with udp := ⟨((∅ : Table UInt16 UDPEndpoint).insert p epA).insert 2 epB,
      ((∅ : Table UDPEndpoint UInt16).insert epA p).insert epB 2⟩ }

theorem mapped_inverse {p : UInt16} (h : p ≠ 2) : Table.Inverse (mapped p).udp.playerToEp (mapped p).udp.epToPlayer := by
  have hep : epB ≠ epA := by decide
  refine (Table.inverse_empty.insert (AList.notMem_empty p) (AList.notMem_empty epA)).insert ?_ ?_
  · rw [AList.mem_insert, not_or]
    exact ⟨Ne.symm h, AList.notMem_empty 2⟩
  · rw [AList.mem_insert, not_or]
    exact ⟨hep, AList.notMem_empty epB⟩

/-- An update from `epA` whose header claims player 7 as its sender. -/
def spoofed : Datagram := ⟨Env.quiet, epA, Packet.buildVehicleUpdate 7 0 .zero⟩

theorem spoofed_wellFormed : ∀ d ∈ [spoofed], WellFormed d.data := by
  intro d hd
  rw [List.mem_singleton.mp hd]
  refine ⟨⟨PacketType.vehicleUpdate.code, 7, 0, 66, 0⟩, ?_, ?_⟩
  · have := Packet.parseHeader_build .vehicleUpdate 7 0 (VehicleState.codec.encode .zero) 66 0 []
    rwa [List.append_nil] at this
  · decide

theorem spoofed_noAuthority (udp : UDPServer) : NoAuthority Sample.world udp [spoofed] := by
  intro d hd p _ h
  rw [List.mem_singleton.mp hd] at h
  cases h.2

theorem relay_spoofed : Relays (· ≠ 0xFFFF) Sample.world (mapped 1) [spoofed] :=
  relay_faithful Sample.world (mapped 1) [spoofed] (mapped_inverse (by decide)) (fun _ h => nomatch h)
    spoofed_wellFormed (spoofed_noAuthority _)

theorem sentinel_player_dropped : ¬ ∀ (w : World) (s : Server) (ds : List Datagram),
    Table.Inverse s.udp.playerToEp s.udp.epToPlayer → (∀ e ∈ s.vsync, e.dirty = false) →
      (∀ d ∈ ds, WellFormed d.data) → NoAuthority w s.udp ds → Relays (fun _ => True) w s ds := by
  intro h
  obtain ⟨t, u, sent, hds, hb, hsent, hall, -⟩ := h Sample.world (mapped 0xFFFF) [spoofed] (mapped_inverse (by decide))
    (fun _ h => nomatch h) spoofed_wellFormed (spoofed_noAuthority _)
  obtain rfl := congrArg Prod.snd hds
  obtain rfl := congrArg Prod.snd hb
  have hnone : (broadcastAll [] (each (fun d : Datagram => onUDPPacket Sample.world d.env d.source d.data) [spoofed] []
      (mapped 0xFFFF)).2).2.sent = [] := by decide
  rw [hnone] at hsent
  obtain ⟨-, rfl⟩ := List.append_eq_nil_iff.mp hsent.symm
  obtain ⟨seq, hseq⟩ := hall 2 epB 0xFFFF 0 (VehicleState.codec.encode .zero) (by decide) trivial (by decide)
    (by decide)
  cases hseq

end NovaMP.GameServer
