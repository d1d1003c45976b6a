/-
  NovaMP.Server.PlayerIds — the ids of players (`GameServer::allocPlayerID`).

  The counter goes from 1 to `0xFFFE` and starts again at 1, so the `n`-th id is told by `n`
  alone (`nthId`), and an id comes again after 65534 others. Nothing looks whether it is in
  use then.

  - `ids_cycle`: the ids of any number of calls.
  - `counter_run`: in a run, the next id is told by the number of ids taken.
  - `present_bounds`: so no player has the id 0 or `0xFFFF`.
  - `new_id_iff`: the next id is in use exactly if the player who got an id 65534 ids ago is
    still there.
  - `old_player_replaced`: `ann`, after 65533 logins of a bridge.
-/

import NovaMP.Server.Gate
import NovaMP.Server.Slots
import NovaMP.Server.VehicleStore

namespace NovaMP.GameServer

open Lib Exec

/-! ## The counter -/

/-- The ids before they come again. -/
def cycle : Nat := 65534

/-- The id that is given out after `n` others. -/
def nthId (n : Nat) : UInt16 := UInt16.ofNat (n % cycle + 1)

theorem toNat_nthId (n : Nat) : (nthId n).toNat = n % cycle + 1 := by
  rw [nthId, UInt16.toNat_ofNat', cycle]
  omega

theorem nthId_inj {i j : Nat} : nthId i = nthId j ↔ i % cycle = j % cycle := by
  rw [← UInt16.toNat_inj, toNat_nthId, toNat_nthId]
  omega

/-- The counter after an id was taken. -/
theorem freshId_next {s t : Server} {n : Nat} (hs : freshId s = nthId n) (ht : t.nextPlayerId = freshId s + 1) :
    freshId t = nthId (n + 1) := by
  have hnext : t.nextPlayerId.toNat = n % cycle + 2 := by
    rw [ht, hs, UInt16.toNat_add, toNat_nthId, cycle]
    simp only [UInt16.toNat_one]
    omega
  rw [← UInt16.toNat_inj, toNat_nthId, freshId]
  by_cases hlast : t.nextPlayerId = 0xFFFF
  · rw [if_pos hlast]
    rw [hlast] at hnext
    rw [cycle] at hnext ⊢
    have h16 : (0xFFFF : UInt16).toNat = 65535 := rfl
    have h1 : (1 : UInt16).toNat = 1 := rfl
    omega
  · rw [if_neg hlast, hnext]
    have hne : t.nextPlayerId.toNat ≠ 65535 := fun h => hlast (UInt16.toNat_inj.mp h)
    rw [cycle] at hnext ⊢
    omega

/-! ## Calls of `allocPlayerID` -/

/-- `n` calls, with what they return. -/
def allocPlayerIDs : Nat → ServerM (List UInt16)
  | 0 => pure []
  | n + 1 => do
    let id ← allocPlayerID
    let ids ← allocPlayerIDs n
    pure (id :: ids)

theorem allocPlayerIDs_eq {s : Server} {k : Nat} (hs : freshId s = nthId k) (H : List Mutex) (n : Nat) :
    ∃ t, allocPlayerIDs n H s = (.ok ((List.range n).map fun i => nthId (k + i)), t) := by
  induction n generalizing s k with
  | zero => exact ⟨s, rfl⟩
  | succ n ih =>
    obtain ⟨t, ht⟩ := ih (freshId_next hs (t := { s with nextPlayerId := freshId s + 1 }) rfl)
    refine ⟨t, ?_⟩
    rw [allocPlayerIDs, run_bind, allocPlayerID_eq]
    dsimp only
    rw [run_bind, ht, List.range_succ_eq_map, List.map_cons, List.map_map, hs]
    simp only [run_pure, Function.comp_def, Nat.add_zero]
    refine Prod.ext (congrArg Except.ok (congrArg (List.cons (nthId k)) ?_)) rfl
    exact List.map_congr_left fun i _ => by rw [Nat.add_assoc, Nat.add_comm 1 i]

/-- All ids of a window of the cycle's length, each one once. -/
theorem window_ids (k : Nat) :
    ((List.range cycle).map fun i => nthId (k + i)).Nodup ∧
      ∀ id : UInt16, 1 ≤ id.toNat → id.toNat ≤ 0xFFFE →
        ((List.range cycle).map fun i => nthId (k + i)).count id = 1 := by
  have hnodup : ((List.range cycle).map fun i => nthId (k + i)).Nodup := by
    refine List.nodup_range.map_on fun i hi j hj he => ?_
    rw [List.mem_range, cycle] at hi hj
    rw [nthId_inj, cycle] at he
    omega
  refine ⟨hnodup, fun id hlow hhigh => List.count_eq_one_of_mem hnodup ?_⟩
  refine List.mem_map.mpr ⟨(id.toNat - 1 + cycle - k % cycle) % cycle, ?_, ?_⟩
  · exact List.mem_range.mpr (Nat.mod_lt _ (by decide))
  · rw [← UInt16.toNat_inj, toNat_nthId, cycle]
    omega

/-- However often `allocPlayerID` was called since the start, it has returned ids from 1 to
    `0xFFFE` only, and each of them once in any 65534 calls in a row. -/
theorem ids_cycle (n : Nat) : ∃ ids t, allocPlayerIDs n [] Server.init = (.ok ids, t) ∧ ids.length = n ∧
    (∀ id ∈ ids, 1 ≤ id.toNat ∧ id.toNat ≤ 0xFFFE) ∧
    ∀ k, k + 65534 ≤ n → ((ids.drop k).take 65534).Nodup ∧
      ∀ id : UInt16, 1 ≤ id.toNat → id.toNat ≤ 0xFFFE → ((ids.drop k).take 65534).count id = 1 := by
  obtain ⟨t, ht⟩ := allocPlayerIDs_eq (s := Server.init) (k := 0) rfl [] n
  refine ⟨_, t, ht, by simp, fun id hid => ?_, fun k hk => ?_⟩
  · obtain ⟨i, -, rfl⟩ := List.mem_map.mp hid
    rw [toNat_nthId, cycle]
    omega
  · have hwindow : ((((List.range n).map fun i => nthId (0 + i)).drop k).take 65534) =
        (List.range cycle).map fun i => nthId (k + i) := by
      refine List.ext_getElem (by simp [cycle]; omega) fun i _ _ => ?_
      simp
    rw [hwindow]
    exact window_ids k

/-! ## Runs -/

/-- The call takes an id. -/
def Allocates (m : Moment) : Prop := m.after.nextPlayerId = freshId m.before + 1

instance (m : Moment) : Decidable (Allocates m) := inferInstanceAs (Decidable (_ = _))

/-- How many ids were taken. -/
def allocations (h : List Moment) : Nat := h.countP fun m => Allocates m

variable {w : World} {x : Env} {s s' : Server} {c : Call} {as : List Announcement} {h : List Moment}
  {ok : Server → Env → Call → Prop}

theorem allocations_cons (m : Moment) (h : List Moment) :
    allocations (m :: h) = allocations h + if Allocates m then 1 else 0 := by
  rw [allocations, List.countP_cons]
  simp only [decide_eq_true_eq]
  rfl

theorem allocations_append (l h : List Moment) : allocations (l ++ h) = allocations l + allocations h :=
  List.countP_append

theorem mem_of_put {id id' : UInt16} {p : Player} (hp : s'.players = s.players.put id p) (hid : id' ∈ s'.players) :
    id' ∈ s.players := by
  rw [hp, AList.mem_keys, Table.keys_put] at hid
  exact AList.mem_keys.mpr hid

theorem turn_ids {pid : UInt16} {t : Option PacketType} (ht : Turn s pid t as s') : ∀ id ∈ s'.players, id ∈ s.players := by
  cases ht with
  | quiet ha => exact fun id hid => ha.players ▸ hid
  | ready _ ha | delete _ ha => exact fun id hid => mem_of_put ha.players hid
  | spawn _ _ ha => exact fun id hid => mem_of_put ha.players hid

/-- A call takes the next id and registers nobody else, or takes none and registers nobody. -/
theorem change_ids (hc : Change w s c as s') :
    (s'.nextPlayerId = freshId s + 1 ∧ ∀ id ∈ s'.players, id = freshId s ∨ id ∈ s.players) ∨
      (s'.nextPlayerId = s.nextPlayerId ∧ ∀ id ∈ s'.players, id ∈ s.players) := by
  cases hc with
  | quiet ha | accept ha => exact .inr ⟨ha.nextPlayerId, fun id hid => ha.players ▸ hid⟩
  | turn _ _ _ _ ht => exact .inr ⟨(turn_alike ht).nextPlayerId, turn_ids ht⟩
  | banned _ ha => exact .inr ⟨ha.nextPlayerId, fun id hid => mem_of_put ha.players hid⟩
  | closed _ _ ha => exact .inr ⟨ha.nextPlayerId, fun id hid => ha.players ▸ hid⟩
  | left _ _ _ ha =>
    refine .inr ⟨ha.nextPlayerId, fun id hid => ?_⟩
    rw [ha.players] at hid
    exact (AList.mem_erase.mp hid).2
  | registered _ _ ha =>
    refine .inl ⟨ha.nextPlayerId, fun id hid => ?_⟩
    rw [ha.players] at hid
    exact (AList.mem_insert _).mp hid
  | vetoed _ _ ha =>
    refine .inl ⟨ha.nextPlayerId, fun id hid => ?_⟩
    rw [ha.players] at hid
    exact (AList.mem_insert _).mp (AList.mem_erase.mp hid).2

/-- The next id is told by the number of ids taken. -/
theorem counter_run (hr : MappedRun w ok h s) : freshId s = nthId (allocations h) := by
  induction hr with
  | init => rfl
  | endpoints _ _ ih => exact ih
  | @step h s s' x c _ _ hs ih =>
    rw [allocations_cons]
    rcases change_ids (step_change w x s hs) with ⟨hnext, -⟩ | ⟨hsame, -⟩
    · have htakes : Allocates ⟨s, x, c, s'⟩ := hnext
      rw [if_pos htakes]
      exact freshId_next ih hnext
    · have hnone : ¬ Allocates ⟨s, x, c, s'⟩ := fun ha => freshId_advances s (hsame.symm.trans ha)
      rw [if_neg hnone, Nat.add_zero, ← ih, freshId, freshId, hsame]

/-- The call took `id`. -/
def Takes (id : UInt16) (m : Moment) : Prop := Allocates m ∧ freshId m.before = id

/-- Since then there has been a player `id`. -/
def StaysFrom (id : UInt16) (m : Moment) (later : List Moment) : Prop :=
  id ∈ m.after.players ∧ ∀ m' ∈ later, id ∈ m'.after.players

/-- A player who is there has been there since his id was taken last. -/
theorem taken_run (hr : MappedRun w ok h s) {id : UInt16} (hid : id ∈ s.players) :
    ∃ later m earlier, h = later ++ m :: earlier ∧ Takes id m ∧ StaysFrom id m later ∧ ∀ m' ∈ later, ¬ Takes id m' := by
  induction hr with
  | init => exact absurd hid (AList.notMem_empty id)
  | endpoints _ _ ih => exact ih hid
  | @step h s s' x c _ _ hs ih =>
    by_cases htakes : Takes id ⟨s, x, c, s'⟩
    · exact ⟨[], _, h, rfl, htakes, ⟨hid, fun m' hm' => nomatch hm'⟩, fun m' hm' => nomatch hm'⟩
    · have hbefore : id ∈ s.players := by
        rcases change_ids (step_change w x s hs) with ⟨hnext, hnew⟩ | ⟨-, hold⟩
        · exact (hnew id hid).resolve_left fun he => htakes ⟨hnext, he.symm⟩
        · exact hold id hid
      obtain ⟨later, m, earlier, rfl, hm, hstays, hno⟩ := ih hbefore
      refine ⟨_ :: later, m, earlier, rfl, hm, ⟨hstays.1, ?_⟩, ?_⟩
      · exact List.forall_mem_cons.mpr ⟨hid, hstays.2⟩
      · exact List.forall_mem_cons.mpr ⟨htakes, hno⟩

/-- The id is a player's, or a session's. -/
def Present (s : Server) (pid : UInt16) : Prop := pid ∈ s.players ∨ ∃ sid, s.sessionToPlayer.lookup sid = some pid

/-- Whoever is there got an id from the counter. -/
theorem present_given (hr : Run w ok h s) {pid : UInt16} (hp : Present s pid) :
    ∃ later m earlier, h = later ++ m :: earlier ∧ freshId m.before = pid := by
  rcases hp with hmem | ⟨sid, hl⟩
  · obtain ⟨later, m, earlier, hh, htakes, -, -⟩ := taken_run hr.mapped hmem
    exact ⟨later, m, earlier, hh, htakes.2⟩
  · obtain ⟨later, m, earlier, hh, hlogin, -⟩ := login_of_mapped hr hl
    exact ⟨later, m, earlier, hh, hlogin.fresh.symm⟩

theorem present_bounds (hr : Reach w ok s) {pid : UInt16} (hp : Present s pid) :
    1 ≤ pid.toNat ∧ pid.toNat ≤ 0xFFFE := by
  obtain ⟨h, hrun⟩ := hr.run
  obtain ⟨later, m, earlier, rfl, rfl⟩ := present_given hrun hp
  rw [counter_run hrun.mapped.split.1, toNat_nthId, cycle]
  omega

/-- The call before which `n` ids were taken, in a history with more. -/
theorem exists_allocation {n : Nat} (hn : n < allocations h) :
    ∃ later m earlier, h = later ++ m :: earlier ∧ Allocates m ∧ allocations earlier = n := by
  induction h with
  | nil => exact absurd hn (Nat.not_lt_zero n)
  | cons m h ih =>
    by_cases hlt : n < allocations h
    · obtain ⟨later, m', earlier, rfl, hm'⟩ := ih hlt
      exact ⟨m :: later, m', earlier, rfl, hm'⟩
    · rw [allocations_cons] at hn
      have hm : Allocates m := by
        by_contra hm
        rw [if_neg hm] at hn
        omega
      rw [if_pos hm] at hn
      exact ⟨[], m, h, rfl, hm, by omega⟩

theorem players_last {m : Moment} (hr : MappedRun w ok (m :: h) s) : s.players = m.after.players := by
  generalize hl : m :: h = l at hr
  induction hr with
  | init => cases hl
  | endpoints _ _ ih => exact ih hl
  | step _ _ _ _ =>
    cases hl
    rfl

/-- The player who got an id 65534 ids ago is still there. -/
def Outstays (h : List Moment) : Prop :=
  ∃ later m earlier, h = later ++ m :: earlier ∧ Allocates m ∧ allocations later + 1 = cycle ∧
    StaysFrom (freshId m.before) m later

theorem freshId_mem_iff (hr : MappedRun w ok h s) : freshId s ∈ s.players ↔ Outstays h := by
  have hcounter := counter_run hr
  constructor
  · intro hid
    obtain ⟨later, m, earlier, rfl, htakes, hstays, hlast⟩ := taken_run hr hid
    have hm := counter_run hr.split.1
    rw [htakes.2, hcounter, allocations_append, allocations_cons, if_pos htakes.1, nthId_inj] at hm
    refine ⟨later, m, earlier, rfl, htakes.1, ?_, htakes.2 ▸ hstays⟩
    -- With more ids in between, one of them would have been the same.
    by_contra hne
    have hmore : cycle - 1 < allocations later := by
      rw [cycle] at hm hne ⊢
      omega
    obtain ⟨later', m', between, rfl, hm', hbetween⟩ := exists_allocation hmore
    rw [List.append_assoc, List.cons_append] at hr hcounter
    have hsame := counter_run hr.split.1
    refine hlast m' (List.mem_append_right later' List.mem_cons_self) ⟨hm', ?_⟩
    have hfirst := counter_run (MappedRun.split hr.split.1).1
    rw [hsame, ← htakes.2, hfirst, allocations_append, allocations_cons, if_pos htakes.1, hbetween, nthId_inj, cycle]
    omega
  · intro hstayed
    obtain ⟨later, m, earlier, rfl, hm, hcount, hstays⟩ := hstayed
    have hid : freshId s = freshId m.before := by
      rw [hcounter, counter_run hr.split.1, allocations_append, allocations_cons, if_pos hm, nthId_inj]
      rw [cycle] at hcount ⊢
      omega
    rw [hid]
    cases later with
    | nil => exact absurd hcount (by decide)
    | cons m' later =>
      rw [players_last hr]
      exact hstays.2 m' List.mem_cons_self

/-- The id that `handleAuth` gets is no key of `m_players`, so that the new record replaces
    none. -/
def IdIsNew (s : Server) : Prop :=
  ∀ id t, allocPlayerID [] s = (.ok id, t) → id ∉ t.players ∧
    ∀ p q r, t.players.lookup q = some r → (t.players.insert id p).lookup q = some r

theorem idIsNew_iff (s : Server) : IdIsNew s ↔ freshId s ∉ s.players := by
  constructor
  · intro hnew
    exact (hnew _ _ (allocPlayerID_eq [] s)).1
  · intro hfresh id t ht
    rw [allocPlayerID_eq] at ht
    cases ht
    refine ⟨hfresh, fun p q r hq => ?_⟩
    have hne : q ≠ freshId s := by
      rintro rfl
      exact hfresh (Table.mem_of_lookup hq)
    exact (AList.lookup_insert_ne hne).trans hq

/-- In every run, a new player's id is in use exactly if the player who got an id 65534 ids
    ago is still there. -/
theorem new_id_iff (w : World) {h : List Moment} {s : Server} (hr : Run w anyStep h s) :
    IdIsNew s ↔ ¬ Outstays h :=
  (idIsNew_iff s).trans (not_congr (freshId_mem_iff hr.mapped))

theorem new_id_second : IdIsNew Crowded.bridged := by
  obtain ⟨h, hr, hshort⟩ : ∃ h, Run Crowded.world anyStep h Crowded.bridged ∧ h.length ≤ 3 :=
    ⟨_, .step (.step (.step .init trivial (step_ends Crowded.world _ _ rfl)) trivial
      (step_ends Crowded.world _ _ rfl)) trivial (step_after Crowded.world _ _ (by decide)), Nat.le_refl 3⟩
  refine (new_id_iff Crowded.world hr).mpr ?_
  intro hstayed
  obtain ⟨later, m, earlier, rfl, -, hcount, -⟩ := hstayed
  have hle : allocations later ≤ later.length := List.countP_le_length
  rw [List.length_append] at hshort
  rw [cycle] at hcount
  omega

/-! ## A player who stays -/

namespace Wrapped

/-- `ann` is on the first connection; the second is the bridge's. -/
def joined : Server := after Crowded.world Crowded.connected Env.quiet (.frame 0 (authFrame (userJson "ann")))

theorem reach_joined : Reach Crowded.world anyStep joined :=
  .step (.step (.step .init trivial (step_ends Crowded.world _ _ rfl)) trivial (step_ends Crowded.world _ _ rfl))
    trivial (step_after Crowded.world _ _ (by decide))

/-- The bridge can log in whatever has happened, also again. -/
theorem bridge_again {s : Server} (htcp : s.tcp = Crowded.connected.tcp) :
    ∃ t, Step Crowded.world s Env.quiet (.frame 1 (authFrame Crowded.bridge)) t ∧ t.tcp = Crowded.connected.tcp ∧
      t.nextPlayerId = freshId s + 1 ∧ ∀ id ∈ s.players, id ∈ t.players := by
  have htext : authText Crowded.connected 1 (authFrame Crowded.bridge) = some (2, utf8 Crowded.bridge.text) := by decide
  have hauth : authText s.clear 1 (authFrame Crowded.bridge) = some (2, utf8 Crowded.bridge.text) := by
    rw [← htext, authText, authText, ← htcp]
    rfl
  have hbranch : authBranch Crowded.world s.clear (utf8 Crowded.bridge.text) = .bridge := by
    have hparse : Crowded.world.parse (utf8 Crowded.bridge.text) = some Crowded.bridge := rfl
    have huser : Crowded.bridge.value "username" "" = .ok aiBridge := by decide
    have hpass : Crowded.bridge.value "server_password" "" = .ok "tok" := by decide
    simp only [authBranch, hparse, huser, hpass]
    rfl
  refine ⟨(authOutcome Crowded.world Env.quiet s.clear 2 .bridge).2, ?_, htcp, rfl, fun id hid => ?_⟩
  · rw [Step, exec_eq, outcome_auth _ _ _ hauth, hbranch]
    rfl
  · exact (AList.mem_insert _).mpr (.inr hid)

theorem logins (n : Nat) : ∃ s, Reach Crowded.world anyStep s ∧ s.tcp = Crowded.connected.tcp ∧
    freshId s = nthId (n + 1) ∧ 1 ∈ s.players := by
  induction n with
  | zero => exact ⟨joined, reach_joined, rfl, by decide, by decide⟩
  | succ n ih =>
    obtain ⟨s, hreach, htcp, hfresh, hann⟩ := ih
    obtain ⟨t, hstep, htcp', hnext, hkeep⟩ := bridge_again htcp
    exact ⟨t, .step hreach trivial hstep, htcp', freshId_next hfresh hnext, hkeep 1 hann⟩

end Wrapped

/-- After 65533 logins of the bridge, `ann` is still there and her id is the next one. -/
theorem old_player_replaced : ¬ ∀ (w : World) (h : List Moment) (s : Server), Run w anyStep h s → IdIsNew s := by
  intro hall
  obtain ⟨s, hreach, -, hfresh, hann⟩ := Wrapped.logins 65533
  obtain ⟨h, hr⟩ := hreach.run
  have hone : nthId (65533 + 1) = 1 := by decide
  have hnew := (idIsNew_iff s).mp (hall _ h s hr)
  rw [hfresh, hone] at hnew
  exact hnew hann

end NovaMP.GameServer
