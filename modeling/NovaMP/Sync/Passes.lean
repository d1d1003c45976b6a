/-
  NovaMP.Sync.Passes — updates that arrive while a broadcast is under way
  (`servers/src/sync/vehicle_sync.cpp`, `GameServer::vehicleSyncLoop`).

  Nothing locks `m_entries`: the sync thread walks it in `broadcastAll` while the io
  thread calls `onVehicleUpdate`. Here an update is one step and an iteration of the loop
  is four: test the flag, build the packet, send it, clear the flag. An entry appended
  during a pass lies behind the end the loop took; that `push_back` may move the vector to
  a larger buffer under the loop is left out. A delete or a disconnect erases under the
  loop, which leaves it no position, so these come between passes only.

  - `pass_eq_broadcastAll`: a pass that no update interrupts is `broadcastAll`.
  - `Inv`: each pair has one entry; a packet that is built and not yet cleared for is one
    of its entry's; and `Kept`.
  - `kept_step`: `Kept` is lost in the step that clears the flag of an entry that was
    updated after its packet was built, and in no other.
-/

import NovaMP.Sync.History
import NovaMP.Lib.Runs
import Mathlib.Logic.Function.Iterate

namespace NovaMP

open Lib

namespace VehicleSync

/-! ## The two threads -/

/-- What the loop does next with the entry it is at. -/
inductive Phase where
  | test
  | build
  | send (b : Broadcast)
  | clear (b : Broadcast)
  deriving DecidableEq, Repr

/-- A `broadcastAll` under way: the index of its entry and the end of the range. -/
structure Pass where
  idx : Nat
  last : Nat
  phase : Phase
  deriving DecidableEq, Repr

structure Passes where
  entries : VehicleSync
  pass : Option Pass
  /-- The `m_broadcast` calls made, the latest first. -/
  log : List Broadcast
  deriving DecidableEq, Repr

namespace Passes

/-- The next step of the sync thread. -/
def sync (c : Passes) : Passes :=
  match c.pass with
  | none => { c with pass := some ⟨0, c.entries.length, .test⟩ }
  | some ⟨i, n, phase⟩ =>
    match if i < n then c.entries[i]? else none with
    | none => { c with pass := none }
    | some e =>
      match phase with
      | .test => { c with pass := some (if e.dirty then ⟨i, n, .build⟩ else ⟨i + 1, n, .test⟩) }
      | .build =>
        let seq := e.seq + 1
        { c with
          entries := c.entries.set i { e with seq := seq }
          pass := some ⟨i, n, .send ⟨Packet.buildVehicleUpdate e.ownerId seq e.state, e.ownerId⟩⟩ }
      | .send b => { c with pass := some ⟨i, n, .clear b⟩, log := b :: c.log }
      | .clear _ =>
        { c with
          entries := c.entries.set i { e with dirty := false }
          pass := some ⟨i + 1, n, .test⟩ }

inductive Event where
  | onVehicleUpdate (playerId : UInt16) (state : VehicleState)
  | onVehicleDelete (playerId : UInt16) (vehicleId : UInt8)
  | onPlayerDisconnect (playerId : UInt16)
  | sync
  deriving DecidableEq, Repr

def step (c : Passes) : Event → Passes
  | .onVehicleUpdate p st => { c with entries := VehicleSync.onVehicleUpdate c.entries p st }
  | .onVehicleDelete p v => { c with entries := VehicleSync.onVehicleDelete c.entries p v }
  | .onPlayerDisconnect p => { c with entries := VehicleSync.onPlayerDisconnect c.entries p }
  | .sync => c.sync

def system : System Passes Event := ⟨⟨[], none, []⟩, step⟩

/-- Nothing is erased from the vector a pass walks. -/
def Legal (c : Passes) : Event → Prop
  | .onVehicleDelete _ _ | .onPlayerDisconnect _ => c.pass = none
  | .onVehicleUpdate _ _ | .sync => True

/-! ## The steps of an iteration -/

section
variable {es : VehicleSync} {i n : Nat} {log : List Broadcast} {e : SyncEntry} (hi : i < n) (he : es[i]? = some e)
include hi he

theorem sync_dirty (hd : e.dirty = true) :
    sync ⟨es, some ⟨i, n, .test⟩, log⟩ = ⟨es, some ⟨i, n, .build⟩, log⟩ := by
  simp [sync, hi, he, hd]

theorem sync_clean (hd : e.dirty = false) :
    sync ⟨es, some ⟨i, n, .test⟩, log⟩ = ⟨es, some ⟨i + 1, n, .test⟩, log⟩ := by
  simp [sync, hi, he, hd]

theorem sync_build :
    sync ⟨es, some ⟨i, n, .build⟩, log⟩ = ⟨es.set i { e with seq := e.seq + 1 },
      some ⟨i, n, .send ⟨Packet.buildVehicleUpdate e.ownerId (e.seq + 1) e.state, e.ownerId⟩⟩, log⟩ := by
  simp [sync, hi, he]

theorem sync_send (b : Broadcast) :
    sync ⟨es, some ⟨i, n, .send b⟩, log⟩ = ⟨es, some ⟨i, n, .clear b⟩, b :: log⟩ := by
  simp [sync, hi, he]

theorem sync_clear (b : Broadcast) :
    sync ⟨es, some ⟨i, n, .clear b⟩, log⟩ = ⟨es.set i { e with dirty := false }, some ⟨i + 1, n, .test⟩, log⟩ := by
  simp [sync, hi, he]

end

/-- Past the last entry of the range the pass ends. -/
theorem sync_end {es : VehicleSync} {i n : Nat} (h : n ≤ i ∨ es[i]? = none) (phase : Phase) (log : List Broadcast) :
    sync ⟨es, some ⟨i, n, phase⟩, log⟩ = ⟨es, none, log⟩ := by
  rcases h with h | h
  · simp [sync, Nat.not_lt.mpr h]
  · simp [sync, h]

/-! ## A pass without updates -/

/-- From any entry on, the steps of a pass are `broadcastAll` of the entries left. -/
theorem pass_from (done es : VehicleSync) (log : List Broadcast) :
    ∃ k, sync^[k] ⟨done ++ es, some ⟨done.length, (done ++ es).length, .test⟩, log⟩ =
      ⟨done ++ (broadcastAll es).2, none, (broadcastAll es).1.reverse ++ log⟩ := by
  induction es generalizing done log with
  | nil => exact ⟨1, by rw [Function.iterate_one, sync_end (.inl (by simp))]; rfl⟩
  | cons e es ih =>
    have hget : (done ++ e :: es)[done.length]? = some e := by simp
    have hlt : done.length < (done ++ e :: es).length := by simp
    cases hd : e.dirty with
    | true =>
      let sent : Broadcast := ⟨Packet.buildVehicleUpdate e.ownerId (e.seq + 1) e.state, e.ownerId⟩
      have hset (x : SyncEntry) : ((done ++ e :: es).set done.length x)[done.length]? = some x := by simp
      obtain ⟨k, hk⟩ := ih (done ++ [{ e with seq := e.seq + 1, dirty := false }]) (sent :: log)
      refine ⟨k + 4, ?_⟩
      rw [Function.iterate_add_apply, Function.iterate_succ_apply, sync_dirty hlt hget hd,
        Function.iterate_succ_apply, sync_build hlt hget, Function.iterate_succ_apply, sync_send hlt (hset _),
        Function.iterate_one, sync_clear hlt (hset _)]
      simpa [broadcastAll, hd, sent] using hk
    | false =>
      obtain ⟨k, hk⟩ := ih (done ++ [e]) log
      refine ⟨k + 1, ?_⟩
      rw [Function.iterate_add_apply, Function.iterate_one, sync_clean hlt hget hd]
      simpa [broadcastAll, hd] using hk

/-- A pass that no update interrupts is `broadcastAll`. -/
theorem pass_eq_broadcastAll (es : VehicleSync) (log : List Broadcast) :
    ∃ k, sync^[k] ⟨es, none, log⟩ = ⟨(broadcastAll es).2, none, (broadcastAll es).1.reverse ++ log⟩ := by
  obtain ⟨k, hk⟩ := pass_from [] es log
  exact ⟨k + 1, hk⟩

/-! ## What was sent -/

/-- The pair and the state a client reads in a packet. -/
def carries (b : Broadcast) : Option (Key × VehicleState) := do
  let h ← (Packet.parseHeader b.pkt).toOption
  let st ← (Packet.parseVehicleState (Packet.payload b.pkt) h.payloadLen).toOption
  pure ((h.senderId, st.vehicleId), st)

/-- The state last sent for a pair. -/
def lastSent (log : List Broadcast) (k : Key) : Option VehicleState :=
  ((log.filterMap carries).find? (·.1 == k)).map (·.2)

theorem carries_built (e : SyncEntry) (seq : UInt32) (exclude : UInt16) :
    carries ⟨Packet.buildVehicleUpdate e.ownerId seq e.state, exclude⟩ = some (key e, e.state) := by
  have hparse := Packet.parseHeader_build .vehicleUpdate e.ownerId seq (VehicleState.codec.encode e.state) 66 0 []
  rw [List.append_nil, ← Packet.buildVehicleUpdate] at hparse
  simp [carries, hparse, Packet.parseVehicleState_build, Except.toOption, key]

theorem lastSent_cons {b : Broadcast} {k : Key} {st : VehicleState} (h : carries b = some (k, st))
    (log : List Broadcast) (k' : Key) :
    lastSent (b :: log) k' = if k = k' then some st else lastSent log k' := by
  rw [lastSent, List.filterMap_cons_some h]
  by_cases hk : k = k'
  · simp [hk]
  · simp [hk, lastSent]

/-- The loop is between the build and the clear of the entry at `i`. -/
def Busy (c : Passes) (i : Nat) : Prop :=
  ∃ n b, c.pass = some ⟨i, n, .send b⟩ ∨ c.pass = some ⟨i, n, .clear b⟩

/-- An entry whose state is not the one last sent for it is dirty. -/
def Kept (c : Passes) : Prop :=
  ∀ i e, c.entries[i]? = some e → lastSent c.log (key e) ≠ some e.state → ¬ c.Busy i → e.dirty = true

/-- When a flag is cleared, the entry has the state its packet was built from. -/
def Settled (c : Passes) : Event → Prop
  | .sync => ∀ i n b e, c.pass = some ⟨i, n, .clear b⟩ → c.entries[i]? = some e → carries b = some (key e, e.state)
  | .onVehicleUpdate _ _ | .onVehicleDelete _ _ | .onPlayerDisconnect _ => True

/-! ## The invariant -/

structure Inv (c : Passes) : Prop where
  keyed : Keyed c.entries
  /-- The packet in flight is one of the entry the loop is at. -/
  built : ∀ i n b, c.pass = some ⟨i, n, .send b⟩ ∨ c.pass = some ⟨i, n, .clear b⟩ →
    i < n ∧ ∃ e st, c.entries[i]? = some e ∧ carries b = some (key e, st)
  sent : ∀ i n b, c.pass = some ⟨i, n, .clear b⟩ → ∃ log, c.log = b :: log
  kept : Kept c

theorem keyed_get {es : VehicleSync} (h : Keyed es) {i j : Nat} {e e' : SyncEntry} (he : es[i]? = some e)
    (he' : es[j]? = some e') (hk : key e = key e') : i = j := by
  obtain ⟨hi, -⟩ := List.getElem?_eq_some_iff.mp he
  refine (List.getElem?_inj (by simpa using hi) h).mp ?_
  rw [List.getElem?_map, List.getElem?_map, he, he', Option.map_some, Option.map_some, hk]

/-- An update leaves each entry where it is, with its pair. -/
theorem onVehicleUpdate_get {es : VehicleSync} {i : Nat} {e : SyncEntry} (h : es[i]? = some e) (p : UInt16)
    (st : VehicleState) : ∃ e', (onVehicleUpdate es p st)[i]? = some e' ∧ key e' = key e := by
  induction es generalizing i with
  | nil => simp at h
  | cons x es ih =>
    rw [onVehicleUpdate_cons]
    cases i with
    | zero =>
      obtain rfl : x = e := by simpa using h
      split
      · rename_i hk
        exact ⟨_, rfl, (key_overwrite hk).trans hk.symm⟩
      · exact ⟨x, rfl, rfl⟩
    | succ i =>
      split
      · exact ⟨e, h, rfl⟩
      · exact ih h

/-- What an update wrote is dirty. -/
theorem get_onVehicleUpdate {es : VehicleSync} {p : UInt16} {st : VehicleState} {i : Nat} {e : SyncEntry}
    (h : (onVehicleUpdate es p st)[i]? = some e) : e.dirty = true ∨ es[i]? = some e := by
  induction es generalizing i with
  | nil =>
    obtain rfl := List.mem_singleton.mp (List.mem_of_getElem? h)
    exact .inl rfl
  | cons x es ih =>
    rw [onVehicleUpdate_cons] at h
    split at h
    · cases i with
      | zero =>
        obtain rfl := Option.some.inj h
        exact .inl rfl
      | succ i => exact .inr h
    · cases i with
      | zero => exact .inr h
      | succ i => exact ih h

/-- Rewriting an entry under its pair leaves the pairs as they are. -/
theorem keyed_set {es : VehicleSync} (h : Keyed es) {i : Nat} {e x : SyncEntry} (he : es[i]? = some e)
    (hk : key x = key e) : Keyed (es.set i x) := by
  obtain ⟨hi, rfl⟩ := List.getElem?_eq_some_iff.mp he
  rw [Keyed, List.map_set, hk, ← List.getElem_map key (h := by simpa using hi), List.set_getElem_self]
  exact h

theorem get_set {es : VehicleSync} {i : Nat} {e : SyncEntry} (he : es[i]? = some e) (x : SyncEntry) :
    (es.set i x)[i]? = some x := by
  obtain ⟨hi, -⟩ := List.getElem?_eq_some_iff.mp he
  exact List.getElem?_set_self hi

/-- Where the loop is neither sending nor clearing, it is busy with no entry. -/
theorem not_busy {c : Passes} (h : ∀ i n b, c.pass ≠ some ⟨i, n, .send b⟩ ∧ c.pass ≠ some ⟨i, n, .clear b⟩) (i : Nat) :
    ¬ c.Busy i := by
  intro hbusy
  rcases hbusy with ⟨n, b, hb | hb⟩
  · exact (h i n b).1 hb
  · exact (h i n b).2 hb

theorem inv_onVehicleUpdate {c : Passes} (h : Inv c) (p : UInt16) (st : VehicleState) :
    Inv (c.step (.onVehicleUpdate p st)) where
  keyed := keyed_onVehicleUpdate h.keyed p st
  built i n b hb := by
    obtain ⟨hi, e, st', he, hc⟩ := h.built i n b hb
    obtain ⟨e', he', hk⟩ := onVehicleUpdate_get he p st
    exact ⟨hi, e', st', he', by rw [hk]; exact hc⟩
  sent := h.sent
  kept i e he hlast hbusy := by
    rcases get_onVehicleUpdate he with hd | hold
    · exact hd
    · exact h.kept i e hold hlast hbusy

/-- Between passes an erasure leaves a part of the entries. -/
theorem inv_filter {c : Passes} (h : Inv c) (hp : c.pass = none) (f : SyncEntry → Bool) :
    Inv { c with entries := c.entries.filter f } where
  keyed := keyed_filter h.keyed f
  built i n b hb := by simp [hp] at hb
  sent i n b hb := by simp [hp] at hb
  kept i e he hlast _ := by
    obtain ⟨j, hj⟩ := List.mem_iff_getElem?.mp (List.mem_filter.mp (List.mem_of_getElem? he)).1
    exact h.kept j e hj hlast (not_busy (fun _ _ _ => by simp [hp]) j)

/-- Steps of the loop that neither write nor send. -/
theorem inv_moved {c : Passes} (h : Inv c) (hb : ∀ i, ¬ c.Busy i) {pass : Option Pass}
    (hp : ∀ i n b, pass ≠ some ⟨i, n, .send b⟩ ∧ pass ≠ some ⟨i, n, .clear b⟩) : Inv { c with pass := pass } where
  keyed := h.keyed
  built i n b hb := absurd hb (not_or.mpr (hp i n b))
  sent i n b hb := absurd hb (hp i n b).2
  kept i e he hlast _ := h.kept i e he hlast (hb i)

theorem inv_build {es : VehicleSync} {i n : Nat} {log : List Broadcast} {e : SyncEntry}
    (h : Inv ⟨es, some ⟨i, n, .build⟩, log⟩) (hi : i < n) (he : es[i]? = some e) :
    Inv (sync ⟨es, some ⟨i, n, .build⟩, log⟩) := by
  rw [sync_build hi he]
  have hget := get_set he { e with seq := e.seq + 1 }
  refine ⟨?_, ?_, ?_, ?_⟩
  · exact keyed_set h.keyed he rfl
  · rintro j m b (hb | hb) <;> cases hb
    exact ⟨hi, _, _, hget, carries_built e _ _⟩
  · intro j m b hb
    cases hb
  · intro j x hx hlast hbusy
    have hne : i ≠ j := by
      rintro rfl
      exact hbusy ⟨n, _, .inl rfl⟩
    rw [List.getElem?_set_ne hne] at hx
    exact h.kept j x hx hlast (not_busy (fun _ _ _ => by simp) j)

theorem inv_send {es : VehicleSync} {i n : Nat} {b : Broadcast} {log : List Broadcast}
    (h : Inv ⟨es, some ⟨i, n, .send b⟩, log⟩) : Inv (sync ⟨es, some ⟨i, n, .send b⟩, log⟩) := by
  obtain ⟨hi, e, st, he, hc⟩ := h.built i n b (.inl rfl)
  rw [sync_send hi he]
  refine ⟨h.keyed, ?_, ?_, ?_⟩
  · rintro j m b' (hb | hb) <;> cases hb
    exact ⟨hi, e, st, he, hc⟩
  · intro j m b' hb
    cases hb
    exact ⟨log, rfl⟩
  · intro j x hx hlast hbusy
    have hne : j ≠ i := by
      rintro rfl
      exact hbusy ⟨n, b, .inr rfl⟩
    have hk : key e ≠ key x := fun hk => hne (keyed_get h.keyed hx he hk.symm)
    refine h.kept j x hx ?_ ?_
    · rw [lastSent_cons hc, if_neg hk] at hlast
      exact hlast
    · rintro ⟨m, b', hb | hb⟩ <;> cases hb
      exact hne rfl

/-- What the clear of a flag makes of the entry: it is as the log says if and only if it
    was not updated since the build. -/
theorem inv_clear {es : VehicleSync} {i n : Nat} {b : Broadcast} {log : List Broadcast}
    (h : Inv ⟨es, some ⟨i, n, .clear b⟩, log⟩) (hs : Settled ⟨es, some ⟨i, n, .clear b⟩, log⟩ .sync) :
    Inv (sync ⟨es, some ⟨i, n, .clear b⟩, log⟩) := by
  obtain ⟨hi, e, st, he, -⟩ := h.built i n b (.inr rfl)
  obtain ⟨log', rfl⟩ : ∃ log', log = b :: log' := h.sent i n b rfl
  have hc := hs i n b e rfl he
  have hget := get_set he { e with dirty := false }
  rw [sync_clear hi he]
  refine ⟨?_, ?_, ?_, ?_⟩
  · exact keyed_set h.keyed he rfl
  · rintro j m b' (hb | hb) <;> cases hb
  · intro j m b' hb
    cases hb
  · intro j x hx hlast _
    by_cases hne : i = j
    · subst hne
      obtain rfl := Option.some.inj (hget.symm.trans hx)
      rw [lastSent_cons hc] at hlast
      exact absurd (if_pos rfl) hlast
    · rw [List.getElem?_set_ne hne] at hx
      refine h.kept j x hx hlast ?_
      rintro ⟨m, b', hb | hb⟩ <;> cases hb
      exact hne rfl

/-- The pass is over, or the loop is at an entry. -/
theorem range_cases (es : VehicleSync) (i n : Nat) :
    (n ≤ i ∨ es[i]? = none) ∨ ∃ e, i < n ∧ es[i]? = some e := by
  cases he : es[i]? with
  | none => exact .inl (.inr rfl)
  | some e =>
    rcases Nat.lt_or_ge i n with hi | hi
    · exact .inr ⟨e, hi, rfl⟩
    · exact .inl (.inl hi)

theorem inv_sync {c : Passes} (h : Inv c) (hs : Settled c .sync) : Inv c.sync := by
  obtain ⟨es, pass, log⟩ := c
  cases pass with
  | none => exact inv_moved h (not_busy fun _ _ _ => by simp) (by simp)
  | some pass =>
    obtain ⟨i, n, phase⟩ := pass
    cases phase with
    | send b => exact inv_send h
    | clear b => exact inv_clear h hs
    | test =>
      have hidle := not_busy (c := ⟨es, some ⟨i, n, .test⟩, log⟩) fun _ _ _ => by simp
      rcases range_cases es i n with hend | ⟨e, hi, he⟩
      · rw [sync_end hend]
        exact inv_moved h hidle (by simp)
      · cases hd : e.dirty with
        | true =>
          rw [sync_dirty hi he hd]
          exact inv_moved h hidle (by simp)
        | false =>
          rw [sync_clean hi he hd]
          exact inv_moved h hidle (by simp)
    | build =>
      rcases range_cases es i n with hend | ⟨e, hi, he⟩
      · rw [sync_end hend]
        exact inv_moved h (not_busy fun _ _ _ => by simp) (by simp)
      · exact inv_build h hi he

theorem inv_step {c : Passes} {e : Event} (h : Inv c) (hl : Legal c e) (hs : Settled c e) : Inv (c.step e) := by
  cases e with
  | onVehicleUpdate p st => exact inv_onVehicleUpdate h p st
  | onVehicleDelete p v => exact inv_filter h hl _
  | onPlayerDisconnect p => exact inv_filter h hl _
  | sync => exact inv_sync h hs

/-- A run in which each flag is cleared of an entry that was not updated since the build. -/
abbrev Run (c : Passes) : Prop := system.Run (fun c e => Legal c e ∧ Settled c e) c

theorem inv_run {c : Passes} (hr : Run c) : Inv c := by
  refine System.Run.invariant (I := Inv) ⟨?_, ?_, ?_, ?_⟩ (fun c e h hok => inv_step h hok.1 hok.2) hr
  · exact List.nodup_nil (α := Key)
  · rintro i n b (hb | hb) <;> cases hb
  · intro i n b hb
    cases hb
  · intro i e he
    cases he

/-! ## The update that is lost -/

/-- Clearing the flag of an entry updated since the build leaves it clean and unsent. -/
theorem settled_of_kept {c : Passes} (h : Inv c) {e : Event} (hk : Kept (c.step e)) : Settled c e := by
  cases e with
  | onVehicleUpdate | onVehicleDelete | onPlayerDisconnect => exact trivial
  | sync =>
    rintro i n b e hp he
    obtain ⟨es, pass, log⟩ := c
    cases hp
    obtain ⟨hi, e', st, he', hc⟩ := h.built i n b (.inr rfl)
    obtain ⟨log', rfl⟩ : ∃ log', log = b :: log' := h.sent i n b rfl
    obtain rfl : e' = e := Option.some.inj (he'.symm.trans he)
    rw [step, sync_clear hi he] at hk
    have hlast : lastSent (b :: log') (key e') = some st := by rw [lastSent_cons hc, if_pos rfl]
    -- a clean entry is as it was last sent, and last sent is the packet
    by_contra hne
    have hdirty := hk i { e' with dirty := false } (get_set he _) ?_ (not_busy (fun _ _ _ => by simp) i)
    · cases hdirty
    · show lastSent (b :: log') (key e') ≠ some e'.state
      rw [hlast]
      rintro ⟨rfl⟩
      exact hne hc

/-- No update is lost in a run in which no entry is updated with another state between the
    build of its packet and the clear of its flag; one that is, is lost in that clear. -/
theorem kept_step {c : Passes} (hr : Run c) {e : Event} (hl : Legal c e) :
    Kept c ∧ (Kept (c.step e) ↔ Settled c e) := by
  have hinv := inv_run hr
  exact ⟨hinv.kept, fun hk => settled_of_kept hinv hk, fun hs => (inv_step hinv hl hs).kept⟩

/-- Player 7 has moved, and the loop is about to build its packet. -/
def moved : Passes := ((step system.init (.onVehicleUpdate 7 .zero)).step .sync).step .sync

theorem kept_step_moved : Kept moved ∧ (Kept (moved.step .sync) ↔ Settled moved .sync) := by
  have hstart : Run system.init := .init
  have hmoved : Run moved := by
    refine ((hstart.next (.onVehicleUpdate 7 .zero) ⟨trivial, trivial⟩).next .sync ?_).next .sync ?_
    · exact ⟨trivial, fun _ _ _ _ hp => by cases hp⟩
    · exact ⟨trivial, fun _ _ _ _ hp => by cases hp⟩
  exact kept_step hmoved trivial

/-- It moves on once the packet is built, and stops there: nobody is told. -/
theorem last_move_lost : ∃ c, system.Run Legal c ∧ ¬ Kept c := by
  let st : VehicleState := { VehicleState.zero with gear := 1 }
  let c := (((moved.step .sync).step (.onVehicleUpdate 7 st)).step .sync).step .sync
  have hstart : system.Run Legal system.init := .init
  have hmoved : system.Run Legal moved :=
    ((hstart.next (.onVehicleUpdate 7 .zero) trivial).next .sync trivial).next .sync trivial
  have hrun : system.Run Legal c :=
    (((hmoved.next .sync trivial).next (.onVehicleUpdate 7 st) trivial).next .sync trivial).next .sync trivial
  refine ⟨c, hrun, fun hk => ?_⟩
  have hpass : c.pass = some ⟨1, 1, .test⟩ := by decide
  have hdirty := hk 0 ⟨7, st, 1, false⟩ (by decide) (by decide) (not_busy (fun _ _ _ => by simp [hpass]) 0)
  cases hdirty

end Passes

end VehicleSync

end NovaMP
