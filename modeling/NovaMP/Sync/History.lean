/-
  NovaMP.Sync.History — `VehicleSync` over whole runs.

  A history is the list of calls made so far, newest first. `pending`, `live` and
  `broadcasts` say from the history alone what a pair's cell holds: the update not yet
  broadcast, whether it has an entry, and how often it was broadcast since that entry
  was created. `cell_after` ties them to the vector through `KeyedMap`, so the
  broadcast after any history is told by the history (`broadcast_refines_history`).
  The vector has one entry for each pair in every run (`keyed_run`).
-/

import NovaMP.Sync.VehicleSync

namespace NovaMP

namespace VehicleSync

/-! ## Runs -/

inductive Call where
  | onVehicleUpdate (playerId : UInt16) (state : VehicleState)
  | onVehicleDelete (playerId : UInt16) (vehicleId : UInt8)
  | onPlayerDisconnect (playerId : UInt16)
  | broadcastAll
  deriving DecidableEq, Repr

def call (es : VehicleSync) : Call → VehicleSync
  | .onVehicleUpdate p st => onVehicleUpdate es p st
  | .onVehicleDelete p v => onVehicleDelete es p v
  | .onPlayerDisconnect p => onPlayerDisconnect es p
  | .broadcastAll => (broadcastAll es).2

/-- The vector after a history. -/
def run : List Call → VehicleSync
  | [] => []
  | c :: h => call (run h) c

/-! ## The representation -/

/-- One entry for each pair. -/
def Keyed (es : VehicleSync) : Prop := (es.map key).Nodup

theorem keyed_onVehicleUpdate {es : VehicleSync} (h : Keyed es) (p : UInt16) (st : VehicleState) :
    Keyed (onVehicleUpdate es p st) := by
  induction es with
  | nil => simp [Keyed]
  | cons e es ih =>
    obtain ⟨he, hes⟩ := List.nodup_cons.mp h
    rw [onVehicleUpdate_cons]
    split
    · rename_i hk
      refine List.nodup_cons.mpr ⟨?_, hes⟩
      rw [key_overwrite hk, ← hk]
      exact he
    · rename_i hk
      refine List.nodup_cons.mpr ⟨fun hm => ?_, ih hes⟩
      obtain ⟨e', he', hk'⟩ := List.mem_map.mp hm
      rcases mem_onVehicleUpdate he' with h' | h'
      · exact hk (hk'.symm.trans h')
      · exact he (List.mem_map.mpr ⟨e', h', hk'⟩)

theorem keyed_filter {es : VehicleSync} (h : Keyed es) (f : SyncEntry → Bool) : Keyed (es.filter f) :=
  h.sublist (List.filter_sublist.map key)

theorem keyed_call {es : VehicleSync} (h : Keyed es) (c : Call) : Keyed (call es c) := by
  cases c with
  | onVehicleUpdate p st => exact keyed_onVehicleUpdate h p st
  | onVehicleDelete p v => exact keyed_filter h _
  | onPlayerDisconnect p => exact keyed_filter h _
  | broadcastAll =>
    show ((broadcastAll es).2.map key).Nodup
    rw [map_key_broadcastAll]
    exact h

theorem keyed_run (h : List Call) : Keyed (run h) := by
  induction h with
  | nil => exact List.nodup_nil
  | cons c h ih => exact keyed_call ih c

theorem keyed_dirtyFirst {es : VehicleSync} (h : Keyed es) : DirtyFirst es := by
  refine List.Pairwise.imp ?_ (List.pairwise_map.mp h)
  intro e e' hne _
  exact hne

/-! ## What the history says of a pair -/

/-- The state of the last update of `k` that was neither broadcast nor dropped since. -/
def pending : List Call → Key → Option VehicleState
  | [], _ => none
  | .onVehicleUpdate p st :: h, k => if k = (p, st.vehicleId) then some st else pending h k
  | .onVehicleDelete p v :: h, k => if k = (p, v) then none else pending h k
  | .onPlayerDisconnect p :: h, k => if k.1 = p then none else pending h k
  | .broadcastAll :: _, _ => none

/-- `k` was updated, and neither deleted nor its owner disconnected since. -/
def live : List Call → Key → Bool
  | [], _ => false
  | .onVehicleUpdate p st :: h, k => k == (p, st.vehicleId) || live h k
  | .onVehicleDelete p v :: h, k => !(k == (p, v)) && live h k
  | .onPlayerDisconnect p :: h, k => !(k.1 == p) && live h k
  | .broadcastAll :: h, k => live h k

/-- How often `k` was broadcast since the update that created its entry. -/
def broadcasts : List Call → Key → Nat
  | [], _ => 0
  | .onVehicleUpdate p st :: h, k => if k = (p, st.vehicleId) ∧ live h k = false then 0 else broadcasts h k
  | .onVehicleDelete _ _ :: h, k => broadcasts h k
  | .onPlayerDisconnect _ :: h, k => broadcasts h k
  | .broadcastAll :: h, k => broadcasts h k + if (pending h k).isSome then 1 else 0

/-- What a cell says of its pair's history. -/
def Tells (h : List Call) (k : Key) : Option Cell → Prop
  | none => live h k = false ∧ pending h k = none
  | some c => live h k = true ∧ c.seq = UInt32.ofNat (broadcasts h k) ∧
      pending h k = if c.dirty then some c.state else none

theorem ofNat_succ (n : Nat) : UInt32.ofNat (n + 1) = UInt32.ofNat n + 1 := by
  apply UInt32.toNat_inj.mp
  simp

/-- The vector after a history holds what the history says. -/
theorem cell_after (h : List Call) (k : Key) : Tells h k (abs (run h) k) := by
  induction h with
  | nil => exact ⟨rfl, rfl⟩
  | cons c h ih =>
    cases c with
    | onVehicleUpdate p st =>
      rw [run, call, abs_onVehicleUpdate, KeyedMap.update]
      by_cases hk : k = (p, st.vehicleId)
      · rw [if_pos hk]
        cases hc : abs (run h) k with
        | none =>
          rw [hc] at ih
          simp [Tells, live, pending, broadcasts, ← hk, ih.1]
        | some c =>
          rw [hc] at ih
          simp [Tells, live, pending, broadcasts, ← hk, ih.1, ih.2.1]
      · have hk' : (k == (p, st.vehicleId)) = false := beq_eq_false_iff_ne.mpr hk
        rw [if_neg hk]
        cases hc : abs (run h) k with
        | none =>
          rw [hc] at ih
          simpa [Tells, live, pending, hk, hk'] using ih
        | some c =>
          rw [hc] at ih
          simpa [Tells, live, pending, broadcasts, hk, hk'] using ih
    | onVehicleDelete p v =>
      rw [run, call, onVehicleDelete, abs_remove, KeyedMap.delete]
      by_cases hk : k = (p, v)
      · rw [if_pos hk]
        simp [Tells, live, pending, hk]
      · have hk' : (k == (p, v)) = false := beq_eq_false_iff_ne.mpr hk
        rw [if_neg hk]
        cases hc : abs (run h) k <;> rw [hc] at ih <;> simpa [Tells, live, pending, broadcasts, hk, hk'] using ih
    | onPlayerDisconnect p =>
      rw [run, call, abs_onPlayerDisconnect, KeyedMap.disconnect]
      by_cases hk : k.1 = p
      · rw [if_pos hk]
        simp [Tells, live, pending, hk]
      · have hk' : (k.1 == p) = false := beq_eq_false_iff_ne.mpr hk
        rw [if_neg hk]
        cases hc : abs (run h) k <;> rw [hc] at ih <;> simpa [Tells, live, pending, broadcasts, hk, hk'] using ih
    | broadcastAll =>
      rw [run, call, abs_broadcastAll, KeyedMap.broadcast]
      cases hc : abs (run h) k with
      | none =>
        rw [hc] at ih
        exact ⟨ih.1, rfl⟩
      | some c =>
        rw [hc] at ih
        obtain ⟨hlive, hseq, hpend⟩ := ih
        cases hd : c.dirty with
        | true =>
          have hsome : (pending h k).isSome = true := by simp [hpend, hd]
          refine ⟨hlive, ?_, ?_⟩ <;> simp [KeyedMap.sent, hd, hseq, broadcasts, hsome, ofNat_succ, pending]
        | false =>
          have hnone : (pending h k).isSome = false := by simp [hpend, hd]
          refine ⟨hlive, ?_, ?_⟩ <;> simp [KeyedMap.sent, hd, hseq, broadcasts, hnone, pending]

/-- A cell is dirty exactly when its pair has an update to send. -/
theorem pending_iff (h : List Call) (k : Key) (st : VehicleState) :
    pending h k = some st ↔
      ∃ c, abs (run h) k = some c ∧ c.dirty = true ∧ c.state = st ∧ c.seq = UInt32.ofNat (broadcasts h k) := by
  have ht := cell_after h k
  cases hc : abs (run h) k with
  | none =>
    rw [hc] at ht
    simp [ht.2]
  | some c =>
    rw [hc] at ht
    obtain ⟨-, hseq, hpend⟩ := ht
    cases hd : c.dirty <;> simp [hpend, hd, hseq]

/-- The broadcast after any history makes one call for each pair with a pending update,
    and no other: the owner as sender and as the one excluded, the pair's next sequence
    number, and the last state given for the pair. -/
theorem broadcast_refines_history (h : List Call) :
    ∃ L : List (Key × VehicleState), (L.map Prod.fst).Nodup ∧
      (∀ k st, (k, st) ∈ L ↔ pending h k = some st) ∧
      (broadcastAll (run h)).1 = L.map fun x =>
        ⟨Packet.buildVehicleUpdate x.1.1 (UInt32.ofNat (1 + broadcasts h x.1)) x.2, x.1.1⟩ := by
  have hfirst : DirtyFirst (run h) := keyed_dirtyFirst (keyed_run h)
  refine ⟨(dirtyCells (run h)).map fun x => (x.1, x.2.state), ?_, fun k st => ?_, ?_⟩
  · rw [List.map_map]
    exact nodup_dirtyCells hfirst
  · rw [pending_iff, List.mem_map]
    constructor
    · intro hex
      obtain ⟨⟨k', c⟩, hm, heq⟩ := hex
      obtain ⟨rfl, rfl⟩ := Prod.mk.injEq .. ▸ heq
      obtain ⟨habs, hd⟩ := (mem_dirtyCells hfirst k' c).mp hm
      have ht := cell_after h k'
      rw [habs] at ht
      exact ⟨c, habs, hd, rfl, ht.2.1⟩
    · intro hex
      obtain ⟨c, habs, hd, rfl, -⟩ := hex
      exact ⟨(k, c), (mem_dirtyCells hfirst k c).mpr ⟨habs, hd⟩, rfl⟩
  · rw [broadcastAll_calls, List.map_map]
    refine List.map_congr_left fun x hx => ?_
    obtain ⟨habs, -⟩ := (mem_dirtyCells hfirst x.1 x.2).mp hx
    have ht := cell_after h x.1
    rw [habs] at ht
    simp only [callOf, Function.comp, ht.2.1, Nat.add_comm 1, ofNat_succ]

/-- Two vehicles and one overwritten update: each pair is sent once, the second state of
    the first vehicle wins, and its sequence counts the earlier broadcast. -/
example :
    let a : VehicleState := { VehicleState.zero with vehicleId := 1 }
    let h : List Call := [.onVehicleUpdate 7 { a with health := 9 }, .onVehicleUpdate 7 a, .onVehicleUpdate 7 .zero,
      .broadcastAll, .onVehicleUpdate 7 a]
    (broadcastAll (run h)).1 =
      [⟨Packet.buildVehicleUpdate 7 2 { a with health := 9 }, 7⟩, ⟨Packet.buildVehicleUpdate 7 1 .zero, 7⟩] := by
  decide

end VehicleSync

end NovaMP
