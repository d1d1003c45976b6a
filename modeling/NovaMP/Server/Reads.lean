/-
  NovaMP.Server.Reads — which bytes of a received packet the handlers read.

  No guard compares the header's `payload_len` with the bytes that were received, so a
  handler that reads the announced payload may run past the packet. `tcpReads` and
  `udpReads` are the payload bytes the handlers need for a header in a state; a packet
  is read within its bounds exactly when it holds that many (`reads_inside_iff`).

  `announced_payload_read_outside`: a 10-byte `AUTH_REQUEST` announcing 65535 bytes.
-/

import NovaMP.Server.Runs

namespace NovaMP.GameServer

open Lib Exec

/-! ## What the handlers need -/

/-- Payload bytes that a TCP packet of session `sid` makes the handlers read. -/
def tcpReads (s : Server) (sid : UInt16) (hdr : PacketHeader) : Nat :=
  match PacketType.ofCode hdr.type with
  | some .authRequest => hdr.payloadLen.toNat
  | some .vehicleSpawn | some .chatMessage => if playerOf s sid = 0xFFFF then 0 else hdr.payloadLen.toNat
  | some .vehicleDelete => if playerOf s sid = 0xFFFF then 0 else min hdr.payloadLen.toNat 1
  | _ => 0

/-- Payload bytes of a vehicle update: the packed struct, when it is announced. -/
def stateReads (len : UInt16) : Nat := if len.toNat < 66 then 0 else 66

/-- Payload bytes that a datagram from `source` makes the handlers read. -/
def udpReads (w : World) (x : Env) (s : Server) (source : UDPEndpoint) (data : Bytes) (hdr : PacketHeader) : Nat :=
  if playerAt s source = 0xFFFF ∨ PacketType.ofCode hdr.type ≠ some .vehicleUpdate then 0
  else if w.cfg.aiEnabled ∧ x.isAuthority (playerAt s source) ∧ 2 ≤ hdr.payloadLen then
    -- The flag byte is read first; it may not be there.
    if (data[11]?.getD 0) &&& vfIsAi ≠ 0 then hdr.payloadLen.toNat else max 2 (stateReads hdr.payloadLen)
  else stateReads hdr.payloadLen

/-! ## The handlers -/

abbrev Outside (r : Except (Stop Mutex Fault) Unit × Server) : Prop := r.1 = .error (.fault .outOfRange)

theorem ok_inside (s : Server) : ¬ Outside (.ok (), s) := fun h => nomatch h

theorem value_error {j : Json} {key dflt : String} {e : Fault} (h : j.value key dflt = .error e) :
    ∃ id, e = .typeError id := by
  unfold Json.value at h
  split at h
  · split at h
    · cases h
    · cases h
    · cases h; exact ⟨302, rfl⟩
  · cases h; exact ⟨306, rfl⟩

theorem ofBytes_error {b : Bytes} {e : Fault} (h : Json.ofBytes b = .error e) : e = .typeError 316 := by
  unfold Json.ofBytes at h
  split at h
  · cases h
  · cases h; rfl

theorem authBranch_error {w : World} {s : Server} {body : Bytes} {e : Fault}
    (h : authBranch w s body = .throws e ∨ authBranch w s body = .badRole e) : ∃ id, e = .typeError id := by
  unfold authBranch at h
  split at h
  · rcases h with h | h <;> cases h
  split at h
  · rename_i he
    rcases h with h | h <;> cases h
    exact value_error he
  split at h
  · rename_i he
    rcases h with h | h <;> cases h
    exact value_error he
  split at h
  · split at h <;> rcases h with h | h <;> cases h
  split at h
  · rcases h with h | h <;> cases h
  split at h
  · rcases h with h | h <;> cases h
  split at h
  · rcases h with h | h <;> cases h
  split at h
  · rename_i he
    rcases h with h | h <;> cases h
    exact value_error he
  · rcases h with h | h <;> cases h

/-! Past the reads of the packet, only `nlohmann::json` throws. -/

theorem dropped_fault {s : Server} {sid : UInt16} {e : Fault} : (dropped s sid).1 ≠ .error (.fault e) := by
  unfold dropped
  split <;> exact fun h => nomatch h

theorem authOutcome_fault {w : World} {x : Env} {s : Server} {sid : UInt16} {body : Bytes} {e : Fault}
    (h : (authOutcome w x s sid (authBranch w s body)).1 = .error (.fault e)) : ∃ id, e = .typeError id := by
  cases hb : authBranch w s body with
  | throws e' =>
    rw [hb] at h
    cases h
    exact authBranch_error (.inl hb)
  | refused error drop =>
    rw [hb] at h
    cases drop with
    | false => cases h
    | true => exact absurd h dropped_fault
  | bridge => rw [hb] at h; cases h
  | badRole e' =>
    rw [hb] at h
    cases h
    exact authBranch_error (.inr hb)
  | player username role =>
    rw [hb] at h
    simp only [authOutcome] at h
    split at h
    · split at h
      · rename_i he
        cases h
        exact ⟨316, ofBytes_error he⟩
      · exact absurd h dropped_fault
    · cases h

theorem spawnOutcome_fault {w : World} {s : Server} {pid : UInt16} {body : Bytes} {e : Fault}
    (h : (spawnOutcome w s pid body).1 = .error (.fault e)) : ∃ id, e = .typeError id := by
  unfold spawnOutcome at h
  split at h
  · split at h
    · cases h
    · split at h
      · rename_i he
        cases h
        exact value_error he
      · cases h
  · cases h

theorem authOutcome_inside (w : World) (x : Env) (s : Server) (sid : UInt16) (body : Bytes) :
    ¬ Outside (authOutcome w x s sid (authBranch w s body)) := by
  intro h
  obtain ⟨id, he⟩ := authOutcome_fault h
  cases he

theorem spawnOutcome_inside (w : World) (s : Server) (pid : UInt16) (body : Bytes) :
    ¬ Outside (spawnOutcome w s pid body) := by
  intro h
  obtain ⟨id, he⟩ := spawnOutcome_fault h
  cases he

theorem readBytes_error {p : Bytes} {n : Nat} {e : Fault} (h : readBytes p n = .error e) : e = .outOfRange := by
  unfold readBytes at h
  split at h
  · cases h
  · cases h; rfl

theorem readByte_error {p : Bytes} {i : Nat} {e : Fault} (h : readByte p i = .error e) : e = .outOfRange := by
  unfold readByte at h
  split at h
  · cases h
  · cases h; rfl

theorem inGame_fault {w : World} {x : Env} {s : Server} {pid : UInt16} {pl : Bytes} {len : UInt16}
    {t : Option PacketType} {e : Fault} (h : (inGame w x s pid pl len t).1 = .error (.fault e)) :
    e = .outOfRange ∨ ∃ id, e = .typeError id := by
  unfold inGame at h
  split at h
  · split at h
    · rename_i he
      cases h
      exact .inl (readBytes_error he)
    · exact .inr (spawnOutcome_fault h)
  · split at h
    · cases h
    · split at h
      · rename_i he
        cases h
        exact .inl (readByte_error he)
      · cases h
  · split at h
    · rename_i he
      cases h
      exact .inl (readBytes_error he)
    · cases h
  · cases h
  · cases h
  · cases h

theorem dispatch_fault {w : World} {x : Env} {s : Server} {sid : UInt16} {pl : Bytes} {hdr : PacketHeader} {e : Fault}
    (h : (dispatch w x s sid pl hdr).1 = .error (.fault e)) : e = .outOfRange ∨ ∃ id, e = .typeError id := by
  unfold dispatch at h
  split at h
  · split at h
    · rename_i he
      cases h
      exact .inl (readBytes_error he)
    · exact .inr (authOutcome_fault h)
  · split at h
    · cases h
    · exact inGame_fault h

/-- Reading the announced payload stays inside exactly when the packet holds it. -/
theorem readBytes_outside_iff {p : Bytes} {n : Nat} {s : Server}
    {f : Bytes → Except (Stop Mutex Fault) Unit × Server} (hf : ∀ b, ¬ Outside (f b)) :
    Outside (match readBytes p n with | .error e => (.error (.fault e), s) | .ok b => f b) ↔ p.length < n := by
  by_cases h : n ≤ p.length
  · rw [readBytes_of_le h]
    exact ⟨fun ho => absurd ho (hf _), fun _ => by omega⟩
  · rw [readBytes_of_lt (by omega)]
    exact iff_of_true rfl (by omega)

theorem readByte_outside_iff {p : Bytes} {i : Nat} {s : Server}
    {f : UInt8 → Except (Stop Mutex Fault) Unit × Server} (hf : ∀ b, ¬ Outside (f b)) :
    Outside (match readByte p i with | .error e => (.error (.fault e), s) | .ok b => f b) ↔ p.length ≤ i := by
  by_cases h : i < p.length
  · rw [readByte_of_lt h]
    exact ⟨fun ho => absurd ho (hf _), fun _ => by omega⟩
  · rw [readByte_of_le (by omega)]
    exact iff_of_true rfl (by omega)

theorem inGame_outside_iff (w : World) (x : Env) (s : Server) (pid : UInt16) (pl : Bytes) (len : UInt16)
    (t : Option PacketType) :
    Outside (inGame w x s pid pl len t) ↔ pl.length < match t with
      | some .vehicleSpawn | some .chatMessage => len.toNat
      | some .vehicleDelete => min len.toNat 1
      | _ => 0 := by
  unfold inGame
  split
  · exact readBytes_outside_iff (spawnOutcome_inside w s pid)
  · by_cases hl : len < 1
    · have : len.toNat < 1 := UInt16.lt_iff_toNat_lt.mp hl
      rw [if_pos hl]
      exact iff_of_false (ok_inside _) (show ¬ pl.length < min len.toNat 1 by omega)
    · have : ¬ len.toNat < 1 := fun h => hl (UInt16.lt_iff_toNat_lt.mpr h)
      rw [if_neg hl]
      refine (readByte_outside_iff fun _ => ok_inside _).trans ?_
      show pl.length ≤ 0 ↔ pl.length < min len.toNat 1
      omega
  · exact readBytes_outside_iff fun _ => ok_inside _
  · exact iff_of_false (ok_inside _) (Nat.not_lt_zero _)
  · exact iff_of_false (ok_inside _) (Nat.not_lt_zero _)
  · rename_i hspawn hdelete hchat hready hclaim
    split
    · exact absurd rfl hspawn
    · exact absurd rfl hchat
    · exact absurd rfl hdelete
    · exact iff_of_false (ok_inside _) (Nat.not_lt_zero _)

theorem dispatch_outside_iff (w : World) (x : Env) (s : Server) (sid : UInt16) (pl : Bytes) (hdr : PacketHeader) :
    Outside (dispatch w x s sid pl hdr) ↔ pl.length < tcpReads s sid hdr := by
  unfold dispatch tcpReads
  by_cases ha : PacketType.ofCode hdr.type = some .authRequest
  · rw [if_pos ha, ha]
    exact readBytes_outside_iff (authOutcome_inside w x s sid)
  rw [if_neg ha]
  by_cases hp : playerOf s sid = 0xFFFF
  · rw [if_pos hp]
    refine iff_of_false (ok_inside _) ?_
    cases ht : PacketType.ofCode hdr.type with
    | none => exact Nat.not_lt_zero _
    | some t =>
      cases t with
      | authRequest => exact absurd ht ha
      | _ => simp [hp]
  · rw [if_neg hp, inGame_outside_iff]
    cases ht : PacketType.ofCode hdr.type with
    | none => exact Iff.rfl
    | some t =>
      cases t with
      | authRequest => exact absurd ht ha
      | _ => simp [hp]

theorem updateOutcome_outside_iff (s : Server) (pid : UInt16) (pl : Bytes) (len : UInt16) :
    Outside (updateOutcome s pid pl len) ↔ pl.length < stateReads len := by
  unfold updateOutcome stateReads
  by_cases hl : len.toNat < 66
  · rw [if_pos hl, if_pos hl]
    exact iff_of_false (ok_inside _) (Nat.not_lt_zero _)
  rw [if_neg hl, if_neg hl]
  by_cases hp : 66 ≤ pl.length
  · obtain ⟨vs, hvs, -⟩ := Packet.parseVehicleState_eq (show 66 ≤ len.toNat by omega) hp
    rw [hvs]
    exact iff_of_false (ok_inside _) (by omega)
  · have hbad : Packet.parseVehicleState pl len = .error .outOfRange := by
      unfold Packet.parseVehicleState
      rw [VehicleState.codec_size, if_neg hl, readBytes_of_lt (by omega)]
      rfl
    rw [hbad]
    exact iff_of_true rfl (by omega)

theorem datagramOutcome_outside_iff (w : World) (x : Env) (s : Server) (source : UDPEndpoint) {data : Bytes}
    (hd : 10 ≤ data.length) (hdr : PacketHeader) :
    Outside (datagramOutcome w x s source data hdr) ↔ data.length < 10 + udpReads w x s source data hdr := by
  have hpl := Packet.payload_length data
  unfold datagramOutcome udpReads
  by_cases hping : PacketType.ofCode hdr.type = some .ping
  · rw [if_pos hping, if_pos (.inr (by rw [hping]; decide))]
    exact iff_of_false (ok_inside _) (by omega)
  rw [if_neg hping]
  by_cases hout : playerAt s source = 0xFFFF ∨ PacketType.ofCode hdr.type ≠ some .vehicleUpdate
  · rw [if_pos hout, if_pos hout]
    exact iff_of_false (ok_inside _) (by omega)
  rw [if_neg hout, if_neg hout]
  by_cases ha : w.cfg.aiEnabled ∧ x.isAuthority (playerAt s source) ∧ 2 ≤ hdr.payloadLen
  · rw [if_pos ha, if_pos ha]
    have hflag : (Packet.payload data)[1]? = data[11]? := by simp [Packet.payload]
    by_cases hb : 1 < (Packet.payload data).length
    · rw [readByte_of_lt hb]
      have hget : data[11]?.getD 0 = (Packet.payload data)[1] := by
        rw [← hflag, List.getElem?_eq_getElem hb, Option.getD_some]
      rw [hget]
      by_cases hai : (Packet.payload data)[1] &&& vfIsAi ≠ 0
      · simp only [if_pos hai]
        refine (readBytes_outside_iff fun _ => ok_inside _).trans ?_
        omega
      · simp only [if_neg hai]
        rw [updateOutcome_outside_iff]
        omega
    · rw [readByte_of_le (by omega)]
      have hnone : data[11]? = none := List.getElem?_eq_none (by omega)
      have hz : ¬ (0 : UInt8) &&& vfIsAi ≠ 0 := by decide
      rw [hnone, Option.getD_none, if_neg hz]
      exact iff_of_true rfl (by omega)
  · rw [if_neg ha, if_neg ha, updateOutcome_outside_iff]
    omega

/-! ## Packets -/

/-- Where the handler of a header reads `reads` bytes of the payload, the packet is read
    within its bounds exactly when it holds them. -/
theorem parsed_inside_iff {data : Bytes} {s : Server} {reads : PacketHeader → Nat}
    {handle : PacketHeader → Except (Stop Mutex Fault) Unit × Server}
    (h : 10 ≤ data.length → ∀ hdr, Outside (handle hdr) ↔ data.length < 10 + reads hdr) :
    ¬ Outside (match Packet.parseHeader data with
      | .error e => (.error (.fault e), s)
      | .ok hdr => handle hdr) ↔
      ∀ hdr, Packet.parseHeader data = .ok hdr → 10 + reads hdr ≤ data.length := by
  by_cases hd : data.length < 10
  · rw [Packet.parseHeader_of_lt hd]
    exact iff_of_true (fun h => nomatch h) (fun _ h => nomatch h)
  · rw [Packet.parseHeader_of_le (by omega)]
    have hiff := h (by omega) (PacketHeader.codec.decode (data.take 10))
    constructor
    · intro hin hdr heq
      cases heq
      by_contra hlt
      exact hin (hiff.mpr (by omega))
    · intro hin ho
      have := hin _ rfl
      have := hiff.mp ho
      omega

/-- A packet is read within its bounds exactly when it holds the payload bytes the
    handlers need for the header it starts with. -/
theorem reads_inside_iff (w : World) (x : Env) (s : Server) :
    (∀ (sid : UInt16) (data : Bytes),
      (onTCPPacket w x sid data [] s).1 ≠ .error (.fault .outOfRange) ↔
        ∀ hdr, Packet.parseHeader data = .ok hdr → 10 + tcpReads s sid hdr ≤ data.length) ∧
    (∀ (source : UDPEndpoint) (data : Bytes),
      (onUDPPacket w x source data [] s).1 ≠ .error (.fault .outOfRange) ↔
        ∀ hdr, Packet.parseHeader data = .ok hdr → 10 + udpReads w x s source data hdr ≤ data.length) := by
  constructor
  · intro sid data
    rw [onTCPPacket_eq]
    refine parsed_inside_iff fun hd hdr => ?_
    rw [dispatch_outside_iff, Packet.payload_length]
    omega
  · intro source data
    rw [onUDPPacket_eq]
    exact parsed_inside_iff fun hd hdr => datagramOutcome_outside_iff w x s source hd hdr

/-- A header that announces 65535 bytes, and nothing after it. -/
def bareAuthRequest : Bytes := Packet.build .authRequest 0 0 [] 65535 0

theorem announced_payload_read_outside :
    ¬ ∀ (w : World) (x : Env) (s : Server),
      (∀ sid data, 1 ≤ data.length → data.length ≤ maxFrame →
        (onTCPPacket w x sid data [] s).1 ≠ .error (.fault .outOfRange)) ∧
      (∀ source data, 10 ≤ data.length → data.length ≤ maxDatagram →
        (onUDPPacket w x source data [] s).1 ≠ .error (.fault .outOfRange)) := by
  intro h
  refine (h Sample.world Env.quiet Sample.connected).1 1 bareAuthRequest (by decide) (by decide) ?_
  decide

end NovaMP.GameServer
