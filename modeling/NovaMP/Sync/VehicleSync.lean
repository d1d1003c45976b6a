/-
  NovaMP.Sync.VehicleSync — the store of vehicle states between two broadcasts
  (`servers/src/sync/vehicle_sync.cpp`).

  `entries` is a vector that `findOrCreate` searches from the front; an update
  overwrites the entry it finds or appends one. `KeyedMap` is what the store is for:
  one cell for each (owner, vehicle), overwritten by an update, forgotten by a delete
  or a disconnect, sent and marked clean by a broadcast.

  - `abs_onVehicleUpdate`, `abs_broadcastAll`, `abs_remove`, `abs_onPlayerDisconnect`:
    each operation on the vector is the operation on the map (the first entry of a key
    is the map's cell).
  - `DirtyFirst`: a dirty entry is the first of its key. Every operation keeps it, and
    under it a broadcast sends each dirty cell once (`mem_dirtyCells`) and leaves none
    (`broadcastAll_clean`).
-/

import NovaMP.Network.Packet

namespace NovaMP

open Lib

structure SyncEntry where
  ownerId : UInt16
  state : VehicleState
  seq : UInt32
  dirty : Bool
  deriving DecidableEq, Repr

/-- One `m_broadcast(pkt, exclude)` call. -/
structure Broadcast where
  pkt : Bytes
  exclude : UInt16
  deriving DecidableEq, Repr

/-- `m_entries` -/
abbrev VehicleSync := List SyncEntry

namespace VehicleSync

/-- The vector with an entry for the pair, and where it is. -/
def findOrCreate (entries : VehicleSync) (owner : UInt16) (vehicleId : UInt8) : VehicleSync × Nat :=
  let i := entries.findIdx fun e => e.ownerId == owner && e.state.vehicleId == vehicleId
  if i < entries.length then (entries, i)
  else (entries ++ [⟨owner, { VehicleState.zero with vehicleId := vehicleId }, 0, false⟩], i)

def onVehicleUpdate (entries : VehicleSync) (playerId : UInt16) (state : VehicleState) : VehicleSync :=
  let (entries, i) := findOrCreate entries playerId state.vehicleId
  entries.modify i fun e => { e with state := state, dirty := true }

def broadcastAll : VehicleSync → List Broadcast × VehicleSync
  | [] => ([], [])
  | e :: es =>
    let (calls, es') := broadcastAll es
    if !e.dirty then (calls, e :: es')
    else
      let seq := e.seq + 1
      (⟨Packet.buildVehicleUpdate e.ownerId seq e.state, e.ownerId⟩ :: calls, { e with seq := seq, dirty := false } :: es')

def onPlayerDisconnect (entries : VehicleSync) (playerId : UInt16) : VehicleSync :=
  entries.filter fun e => !(e.ownerId == playerId)

def remove (entries : VehicleSync) (owner : UInt16) (vehicleId : UInt8) : VehicleSync :=
  entries.filter fun e => !(e.ownerId == owner && e.state.vehicleId == vehicleId)

def onVehicleDelete (entries : VehicleSync) (playerId : UInt16) (vehicleId : UInt8) : VehicleSync :=
  remove entries playerId vehicleId

/-! ## The keyed map -/

abbrev Key := UInt16 × UInt8

structure Cell where
  state : VehicleState
  seq : UInt32
  dirty : Bool
  deriving DecidableEq

def KeyedMap := Key → Option Cell

namespace KeyedMap

def update (m : KeyedMap) (p : UInt16) (st : VehicleState) : KeyedMap := fun k =>
  if k = (p, st.vehicleId) then some ⟨st, ((m k).map (·.seq)).getD 0, true⟩ else m k

def sent (c : Cell) : Cell := if c.dirty then { c with seq := c.seq + 1, dirty := false } else c

def broadcast (m : KeyedMap) : KeyedMap := fun k => (m k).map sent

def delete (m : KeyedMap) (k' : Key) : KeyedMap := fun k => if k = k' then none else m k

def disconnect (m : KeyedMap) (p : UInt16) : KeyedMap := fun k => if k.1 = p then none else m k

end KeyedMap

def key (e : SyncEntry) : Key := (e.ownerId, e.state.vehicleId)

def cell (e : SyncEntry) : Cell := ⟨e.state, e.seq, e.dirty⟩

/-- The map a vector stands for. -/
def abs : VehicleSync → KeyedMap
  | [], _ => none
  | e :: es, k => if key e = k then some (cell e) else abs es k

theorem abs_eq_none {es : VehicleSync} {k : Key} : abs es k = none ↔ k ∉ es.map key := by
  induction es with
  | nil => simp [abs]
  | cons e es ih =>
    rw [abs, List.map_cons, List.mem_cons]
    by_cases hk : key e = k
    · simp [hk]
    · simp [hk, Ne.symm hk, ih]

theorem test_iff (e : SyncEntry) (owner : UInt16) (v : UInt8) :
    (e.ownerId == owner && e.state.vehicleId == v) = true ↔ key e = (owner, v) := by
  simp [key]

/-! ## Updates -/

@[simp] theorem onVehicleUpdate_nil (p : UInt16) (st : VehicleState) :
    onVehicleUpdate [] p st = [⟨p, st, 0, true⟩] := rfl

theorem onVehicleUpdate_cons (e : SyncEntry) (es : VehicleSync) (p : UInt16) (st : VehicleState) :
    onVehicleUpdate (e :: es) p st =
      if key e = (p, st.vehicleId) then { e with state := st, dirty := true } :: es
      else e :: onVehicleUpdate es p st := by
  by_cases h : key e = (p, st.vehicleId)
  · have ht := (test_iff e p st.vehicleId).mpr h
    simp only [onVehicleUpdate, findOrCreate, List.findIdx_cons, ht, cond_true, if_pos h]
    rfl
  · have ht : (e.ownerId == p && e.state.vehicleId == st.vehicleId) = false :=
      Bool.eq_false_iff.mpr fun h' => h ((test_iff e p st.vehicleId).mp h')
    simp only [onVehicleUpdate, findOrCreate, List.findIdx_cons, ht, cond_false, if_neg h, List.length_cons,
      Nat.add_lt_add_iff_right]
    split <;> rfl

/-- Overwriting the entry of a pair leaves it the entry of that pair. -/
theorem key_overwrite {e : SyncEntry} {p : UInt16} {st : VehicleState} (h : key e = (p, st.vehicleId)) :
    key { e with state := st, dirty := true } = (p, st.vehicleId) := by
  have hown : e.ownerId = p := congrArg Prod.fst h
  rw [key, hown]

/-- An entry after an update is the updated one or was there before. -/
theorem mem_onVehicleUpdate {es : VehicleSync} {p : UInt16} {st : VehicleState} {e : SyncEntry}
    (h : e ∈ onVehicleUpdate es p st) : key e = (p, st.vehicleId) ∨ e ∈ es := by
  induction es with
  | nil =>
    rw [onVehicleUpdate_nil, List.mem_singleton] at h
    subst h
    exact .inl rfl
  | cons x es ih =>
    rw [onVehicleUpdate_cons] at h
    split at h
    · rename_i hk
      rcases List.mem_cons.mp h with rfl | h
      · exact .inl (key_overwrite hk)
      · exact .inr (List.mem_cons_of_mem _ h)
    · rcases List.mem_cons.mp h with rfl | h
      · exact .inr (List.mem_cons_self ..)
      · exact (ih h).imp_right (List.mem_cons_of_mem _)

theorem abs_onVehicleUpdate (es : VehicleSync) (p : UInt16) (st : VehicleState) :
    abs (onVehicleUpdate es p st) = (abs es).update p st := by
  funext k
  induction es with
  | nil =>
    by_cases hk : k = (p, st.vehicleId)
    · subst hk
      simp [abs, KeyedMap.update, key, cell]
    · have hk' : ¬ (p, st.vehicleId) = k := fun h => hk h.symm
      simp [abs, KeyedMap.update, key, hk, hk']
  | cons e es ih =>
    rw [onVehicleUpdate_cons]
    simp only [KeyedMap.update] at ih ⊢
    by_cases he : key e = (p, st.vehicleId)
    · rw [if_pos he, abs, abs, key_overwrite he, he]
      by_cases hk : k = (p, st.vehicleId)
      · subst hk
        simp [cell]
      · have hk' : ¬ (p, st.vehicleId) = k := fun h => hk h.symm
        simp [hk, hk']
    · rw [if_neg he, abs, ih]
      by_cases hk : k = (p, st.vehicleId)
      · subst hk
        simp [abs, he]
      · simp [abs, hk]

/-! ## Removal and broadcast -/

theorem abs_filter (es : VehicleSync) (f : Key → Bool) (k : Key) :
    abs (es.filter fun e => f (key e)) k = if f k then abs es k else none := by
  induction es with
  | nil => simp [abs]
  | cons e es ih =>
    by_cases hf : f (key e) = true
    · rw [List.filter_cons_of_pos (by simpa using hf), abs, abs, ih]
      by_cases hk : key e = k
      · subst hk
        simp [hf]
      · simp [hk]
    · rw [List.filter_cons_of_neg (by simpa using hf), ih, abs]
      by_cases hk : key e = k
      · subst hk
        simp [hf]
      · simp [hk]

theorem abs_onPlayerDisconnect (es : VehicleSync) (p : UInt16) :
    abs (onPlayerDisconnect es p) = (abs es).disconnect p := by
  funext k
  have := abs_filter es (fun k => !(k.1 == p)) k
  simpa [onPlayerDisconnect, KeyedMap.disconnect, key] using this

theorem abs_remove (es : VehicleSync) (owner : UInt16) (v : UInt8) :
    abs (remove es owner v) = (abs es).delete (owner, v) := by
  funext k
  have hf := abs_filter es (fun k => !(k == (owner, v))) k
  have hrem : remove es owner v = es.filter fun e => !(key e == (owner, v)) := rfl
  rw [hrem, hf]
  by_cases hk : k = (owner, v) <;> simp [KeyedMap.delete, hk]

/-- A broadcast changes no key. -/
theorem map_key_broadcastAll (es : VehicleSync) : (broadcastAll es).2.map key = es.map key := by
  induction es with
  | nil => rfl
  | cons e es ih =>
    simp only [broadcastAll]
    split <;> simp [ih, key]

theorem abs_broadcastAll (es : VehicleSync) : abs (broadcastAll es).2 = (abs es).broadcast := by
  funext k
  induction es with
  | nil => rfl
  | cons e es ih =>
    simp only [KeyedMap.broadcast] at ih
    simp only [broadcastAll, KeyedMap.broadcast]
    by_cases hd : e.dirty = true
    · by_cases hk : key e = k
      · have hk' : key { e with seq := e.seq + 1, dirty := false } = k := hk
        simp only [hd, Bool.not_true, Bool.false_eq_true, if_false, abs, if_pos hk, if_pos hk', Option.map_some]
        simp [KeyedMap.sent, cell, hd]
      · have hk' : ¬ key { e with seq := e.seq + 1, dirty := false } = k := hk
        simp only [hd, Bool.not_true, Bool.false_eq_true, if_false, abs, if_neg hk, if_neg hk', ih]
    · by_cases hk : key e = k
      · simp [hd, abs, hk, cell, KeyedMap.sent]
      · simp [hd, abs, hk, ih]

theorem broadcastAll_clean (es : VehicleSync) : ∀ e ∈ (broadcastAll es).2, e.dirty = false := by
  induction es with
  | nil => intro e h; cases h
  | cons x es ih =>
    intro e h
    simp only [broadcastAll] at h
    split at h
    · rename_i hd
      rcases List.mem_cons.mp h with rfl | h
      · simpa using hd
      · exact ih e h
    · rcases List.mem_cons.mp h with rfl | h
      · rfl
      · exact ih e h

/-! ## What a broadcast sends -/

/-- The pairs a broadcast sends, with their cells, in the order it sends them. -/
def dirtyCells (es : VehicleSync) : List (Key × Cell) := (es.filter (·.dirty)).map fun e => (key e, cell e)

def callOf (k : Key) (c : Cell) : Broadcast := ⟨Packet.buildVehicleUpdate k.1 (c.seq + 1) c.state, k.1⟩

theorem broadcastAll_calls (es : VehicleSync) :
    (broadcastAll es).1 = (dirtyCells es).map fun x => callOf x.1 x.2 := by
  induction es with
  | nil => rfl
  | cons e es ih =>
    simp only [broadcastAll]
    by_cases hd : e.dirty = true
    · simp [hd, ih, dirtyCells, callOf, key, cell]
    · simp [hd, ih, dirtyCells]

/-- A dirty entry is the first of its key. -/
def DirtyFirst (es : VehicleSync) : Prop := es.Pairwise fun e e' => e'.dirty = true → key e ≠ key e'

theorem dirtyFirst_of_clean {es : VehicleSync} (h : ∀ e ∈ es, e.dirty = false) : DirtyFirst es := by
  refine List.Pairwise.imp_of_mem (R := fun _ _ => True) ?_ (List.pairwise_of_forall fun _ _ => trivial)
  intro e e' _ he' _ hd
  rw [h e' he'] at hd
  cases hd

theorem dirtyFirst_onVehicleUpdate {es : VehicleSync} (h : DirtyFirst es) (p : UInt16) (st : VehicleState) :
    DirtyFirst (onVehicleUpdate es p st) := by
  induction es with
  | nil => exact List.pairwise_singleton _ _
  | cons e es ih =>
    obtain ⟨he, hes⟩ := List.pairwise_cons.mp h
    rw [onVehicleUpdate_cons]
    split
    · rename_i hk
      refine List.pairwise_cons.mpr ⟨fun e' he' hd => ?_, hes⟩
      rw [key_overwrite hk, ← hk]
      exact he e' he' hd
    · rename_i hk
      refine List.pairwise_cons.mpr ⟨fun e' he' hd => ?_, ih hes⟩
      rcases mem_onVehicleUpdate he' with h' | h'
      · rw [h']
        exact hk
      · exact he e' h' hd

/-- Under `DirtyFirst` the pairs sent are the dirty cells of the map. -/
theorem mem_dirtyCells {es : VehicleSync} (h : DirtyFirst es) (k : Key) (c : Cell) :
    (k, c) ∈ dirtyCells es ↔ abs es k = some c ∧ c.dirty = true := by
  induction es with
  | nil => simp [dirtyCells, abs]
  | cons e es ih =>
    obtain ⟨he, hes⟩ := List.pairwise_cons.mp h
    have ih := ih hes
    have hcons : (k, c) ∈ dirtyCells (e :: es) ↔
        (e.dirty = true ∧ k = key e ∧ c = cell e) ∨ (k, c) ∈ dirtyCells es := by
      by_cases hd : e.dirty = true <;> simp [dirtyCells, hd]
    rw [hcons]
    by_cases hk : key e = k
    · have hnot : (k, c) ∉ dirtyCells es := by
        intro hm
        simp only [dirtyCells, List.mem_map, List.mem_filter, Prod.mk.injEq] at hm
        obtain ⟨e', ⟨hm', hd'⟩, hk', -⟩ := hm
        exact he e' hm' hd' (by rw [hk, hk'])
      simp only [hnot, or_false, abs, if_pos hk, Option.some.injEq]
      constructor
      · intro hex
        obtain ⟨hd, -, rfl⟩ := hex
        exact ⟨rfl, hd⟩
      · intro hex
        obtain ⟨rfl, hd⟩ := hex
        exact ⟨hd, hk.symm, rfl⟩
    · have hne : ¬ k = key e := fun h' => hk h'.symm
      simp [abs, hk, hne, ih]

theorem nodup_dirtyCells {es : VehicleSync} (h : DirtyFirst es) : ((dirtyCells es).map Prod.fst).Nodup := by
  have hmap : (dirtyCells es).map Prod.fst = (es.filter (·.dirty)).map key := by simp [dirtyCells]
  rw [hmap, List.Nodup, List.pairwise_map]
  refine List.Pairwise.imp_of_mem ?_ (h.filter (·.dirty))
  intro e e' _ he' hp
  exact hp (List.mem_filter.mp he').2

end VehicleSync

end NovaMP
