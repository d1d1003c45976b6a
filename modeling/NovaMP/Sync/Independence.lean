/-
  NovaMP.Sync.Independence — the vehicles of one owner do not depend on the others'.

  All owners share one vector: a search passes over the others' entries, an update may
  append behind them, a delete or a disconnect moves entries forward. `own p` keeps the
  entries of `p`, and `concerns p` the calls of a history that are `p`'s or a round.

  - `own_call`: a call that concerns `p` does to `p`'s entries what it does to the whole
    vector; any other call leaves them alone.
  - `own_run`: so `p`'s entries are what the vector would be without the other owners.
  - `emitted_independent`: and so is what is sent for `p`.
-/

import NovaMP.Sync.History

namespace NovaMP

namespace VehicleSync

/-! ## What a run sends -/

/-- What each round of a history sends, the latest round first. -/
def rounds : List Call → List (List Broadcast)
  | [] => []
  | .broadcastAll :: h => (broadcastAll (run h)).1 :: rounds h
  | .onVehicleUpdate _ _ :: h | .onVehicleDelete _ _ :: h | .onPlayerDisconnect _ :: h => rounds h

/-- All that a history sends, in the order it is sent. -/
def emitted (h : List Call) : List Broadcast := (rounds h).reverse.flatten

def headerOf (b : Broadcast) : Option PacketHeader := (Packet.parseHeader b.pkt).toOption

/-- The broadcasts with the sender id `p`. -/
def sentBy (p : UInt16) (bs : List Broadcast) : List Broadcast :=
  bs.filter fun b => (headerOf b).map (·.senderId) == some p

theorem headerOf_callOf (k : Key) (c : Cell) :
    headerOf (callOf k c) = some ⟨PacketType.vehicleUpdate.code, k.1, c.seq + 1, 66, 0⟩ := by
  have hparse := Packet.parseHeader_build .vehicleUpdate k.1 (c.seq + 1) (VehicleState.codec.encode c.state) 66 0 []
  rw [List.append_nil] at hparse
  exact congrArg Except.toOption hparse

theorem sentBy_calls (p : UInt16) (cs : List (Key × Cell)) :
    sentBy p (cs.map fun x => callOf x.1 x.2) = (cs.filter fun x => x.1.1 == p).map fun x => callOf x.1 x.2 := by
  rw [sentBy, List.filter_map]
  congr 1
  refine List.filter_congr fun x _ => ?_
  simp [headerOf_callOf]

theorem sentBy_flatten (p : UInt16) (bss : List (List Broadcast)) :
    sentBy p bss.flatten = (bss.map (sentBy p)).flatten := List.filter_flatten

/-! ## The entries of one owner -/

/-- The entries of `p`, in their order. -/
def own (p : UInt16) (es : VehicleSync) : VehicleSync := es.filter fun e => e.ownerId == p

/-- The call is one of `p`'s, or a round. -/
def concerns (p : UInt16) : Call → Bool
  | .onVehicleUpdate q _ | .onVehicleDelete q _ | .onPlayerDisconnect q => q == p
  | .broadcastAll => true

variable (p : UInt16)

theorem own_cons (e : SyncEntry) (es : VehicleSync) :
    own p (e :: es) = if e.ownerId = p then e :: own p es else own p es := by
  by_cases h : e.ownerId = p <;> simp [own, h]

theorem own_onVehicleUpdate (es : VehicleSync) (q : UInt16) (st : VehicleState) :
    own p (onVehicleUpdate es q st) = if q = p then onVehicleUpdate (own p es) q st else own p es := by
  induction es with
  | nil => exact own_cons p _ []
  | cons e es ih =>
    rw [onVehicleUpdate_cons]
    by_cases hk : key e = (q, st.vehicleId)
    · have hq : e.ownerId = q := congrArg Prod.fst hk
      rw [if_pos hk, own_cons, own_cons, hq]
      by_cases hp : q = p
      · rw [if_pos hp, if_pos hp, if_pos hp, onVehicleUpdate_cons, if_pos hk, ← hq]
      · rw [if_neg hp, if_neg hp, if_neg hp]
    · rw [if_neg hk, own_cons, own_cons, ih]
      by_cases hp : q = p
      · rw [if_pos hp, if_pos hp]
        split
        · rw [onVehicleUpdate_cons, if_neg hk]
        · rfl
      · rw [if_neg hp, if_neg hp]

/-- A test that only entries of `q` fail. -/
theorem own_filter {f : SyncEntry → Bool} {q : UInt16} (h : ∀ e, e.ownerId ≠ q → f e = true) (es : VehicleSync) :
    own p (es.filter f) = if q = p then (own p es).filter f else own p es := by
  split
  · exact List.filter_comm _ _ _
  · rename_i hq
    rw [own, List.filter_filter]
    refine List.filter_congr fun e _ => ?_
    by_cases he : e.ownerId = p
    · simp [he, h e (by rw [he]; exact Ne.symm hq)]
    · simp [he]

theorem own_onVehicleDelete (es : VehicleSync) (q : UInt16) (v : UInt8) :
    own p (onVehicleDelete es q v) = if q = p then onVehicleDelete (own p es) q v else own p es :=
  own_filter p (fun e he => by simp [he]) es

theorem own_onPlayerDisconnect (es : VehicleSync) (q : UInt16) :
    own p (onPlayerDisconnect es q) = if q = p then onPlayerDisconnect (own p es) q else own p es :=
  own_filter p (fun e he => by simp [he]) es

theorem own_broadcastAll (es : VehicleSync) : own p (broadcastAll es).2 = (broadcastAll (own p es)).2 := by
  induction es with
  | nil => rfl
  | cons e es ih =>
    rw [own_cons]
    simp only [broadcastAll]
    by_cases hp : e.ownerId = p
    · rw [if_pos hp, broadcastAll]
      split <;> simp [own_cons, hp, ih]
    · rw [if_neg hp]
      split <;> simp [own_cons, hp, ih]

/-- What a round sends for `p` it sends of `p`'s entries. -/
theorem sentBy_broadcastAll (es : VehicleSync) : sentBy p (broadcastAll es).1 = (broadcastAll (own p es)).1 := by
  rw [broadcastAll_calls, broadcastAll_calls, sentBy_calls]
  congr 1
  rw [dirtyCells, dirtyCells, own, List.filter_map, List.filter_comm]
  rfl

/-! ## Runs -/

/-- A call as `p`'s entries see it. -/
theorem own_call (es : VehicleSync) (c : Call) :
    own p (call es c) = if concerns p c then call (own p es) c else own p es := by
  cases c with
  | onVehicleUpdate q st => simpa [concerns, call] using own_onVehicleUpdate p es q st
  | onVehicleDelete q v => simpa [concerns, call] using own_onVehicleDelete p es q v
  | onPlayerDisconnect q => simpa [concerns, call] using own_onPlayerDisconnect p es q
  | broadcastAll => simpa [concerns, call] using own_broadcastAll p es

theorem own_run (h : List Call) : own p (run h) = run (h.filter (concerns p)) := by
  induction h with
  | nil => rfl
  | cons c h ih =>
    rw [run, own_call, ih, List.filter_cons]
    split <;> rfl

theorem rounds_own (h : List Call) : (rounds h).map (sentBy p) = rounds (h.filter (concerns p)) := by
  induction h with
  | nil => rfl
  | cons c h ih =>
    rw [List.filter_cons]
    cases c with
    | broadcastAll =>
      have hround : concerns p .broadcastAll = true := rfl
      rw [if_pos hround, rounds, rounds, List.map_cons, ih, sentBy_broadcastAll, own_run]
    | onVehicleUpdate q st =>
      rw [rounds, ih]
      split <;> rfl
    | onVehicleDelete q v =>
      rw [rounds, ih]
      split <;> rfl
    | onPlayerDisconnect q =>
      rw [rounds, ih]
      split <;> rfl

/-- Without the other owners' calls everything is sent for `p`. -/
theorem sentBy_emitted (h : List Call) : sentBy p (emitted h) = emitted (h.filter (concerns p)) := by
  rw [emitted, sentBy_flatten, List.map_reverse, rounds_own]
  rfl

/-- What is sent for an owner, its content, sequence numbers and order, is what would be
    sent for it had the other owners' updates, deletes and disconnects not happened. -/
theorem emitted_independent (h : List Call) (p : UInt16) :
    sentBy p (emitted h) = sentBy p (emitted (h.filter (concerns p))) := by
  rw [sentBy_emitted, sentBy_emitted, List.filter_filter]
  simp only [Bool.and_self]

/-- Another owner drives and leaves between the updates of owner 7. -/
example :
    let st : VehicleState := { VehicleState.zero with vehicleId := 3 }
    let h : List Call := [.broadcastAll, .onPlayerDisconnect 8, .onVehicleUpdate 7 st, .broadcastAll,
      .onVehicleUpdate 7 .zero, .onVehicleUpdate 8 .zero]
    sentBy 7 (emitted h) = [⟨Packet.buildVehicleUpdate 7 1 .zero, 7⟩, ⟨Packet.buildVehicleUpdate 7 1 st, 7⟩] := by
  decide

end VehicleSync

end NovaMP
