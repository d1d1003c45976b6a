/-
  NovaMP.Server.VehicleNumbers — the ids in a player's `vehicles`
  (`handleVehicleSpawn` and `handleVehicleDelete` in `servers/src/game_server.cpp`).

  A new vehicle gets the number of vehicles, cut to one byte, as its id; a delete takes
  out whatever has its id. The protocol gives players the ids 0 to 199. After a delete
  the number of vehicles may be the id of one that is left, and a limit above 200 lets
  the number leave that range.

  - `step_vehicles`: a completed call adds one vehicle to one player, on his accepted
    request (`SpawnAccepted`), or adds none.
  - `ids_identify_iff`: so the ids are distinct and in range in all states of a run exactly
    if every accepted request comes at a number below 200 that is not taken (`Vacant`).
  - `same_id_again`: two vehicles, the first deleted, and a third one.
-/

import NovaMP.Server.Scene

namespace NovaMP.GameServer

open Lib

/-! ## Ids and requests -/

/-- The range of ids that the protocol reserves for players. -/
def playerIds : Nat := 200

/-- The ids of the vehicles are distinct and a player's. -/
structure Numbered (vs : List PlayerVehicle) : Prop where
  distinct : (vs.map (·.vehicleId)).Nodup
  range : ∀ v ∈ vs, v.vehicleId.toNat < playerIds

/-- Every player's vehicles have such ids. -/
def AllNumbered (s : Server) : Prop := ∀ pid p, s.players.lookup pid = some p → Numbered p.vehicles

/-- The call is a `VEHICLE_SPAWN` of the player `pid`, with the record `p`, that passes the
    checks. -/
structure SpawnAccepted (w : World) (s : Server) (c : Call) (pid : UInt16) (p : Player) : Prop where
  request : ∃ object data t hdr body j, c = .frame object data ∧ s.tcp.objects[object]? = some t ∧ isFrame t data ∧
    Packet.parseHeader data = .ok hdr ∧ PacketType.ofCode hdr.type = some .vehicleSpawn ∧
    readBytes (Packet.payload data) hdr.payloadLen.toNat = .ok body ∧ w.parse body = some j ∧ playerOf s t.id = pid
  player : s.players.lookup pid = some p
  sentinel : pid ≠ 0xFFFF
  limit : (p.vehicles.length : Int) < w.cfg.vehicleLimitPerPlayer

/-- The number of vehicles is a player's id, and no vehicle has it. -/
structure Vacant (vs : List PlayerVehicle) : Prop where
  range : vs.length < playerIds
  free : ∀ v ∈ vs, v.vehicleId.toNat ≠ vs.length

/-! ## One call -/

/-- No player has gained a vehicle. -/
def NoneAdded (s s' : Server) : Prop :=
  ∀ pid p', s'.players.lookup pid = some p' →
    p'.vehicles = [] ∨ ∃ p, s.players.lookup pid = some p ∧ p'.vehicles.Sublist p.vehicles

variable {w : World} {x : Env} {s s' : Server} {c : Call}

theorem NoneAdded.of_players (h : s'.players = s.players) : NoneAdded s s' := by
  intro pid p' hp'
  rw [h] at hp'
  exact .inr ⟨p', hp', List.Sublist.refl _⟩

theorem NoneAdded.put {id : UInt16} {p q : Player} (hp : s.players.lookup id = some p)
    (h : s'.players = s.players.put id q) (hq : q.vehicles.Sublist p.vehicles) : NoneAdded s s' := by
  intro pid p' hp'
  rw [h] at hp'
  by_cases hid : pid = id
  · subst hid
    rw [Table.lookup_put_self hp] at hp'
    cases hp'
    exact .inr ⟨p, hp, hq⟩
  · rw [Table.lookup_put_ne hid] at hp'
    exact .inr ⟨p', hp', List.Sublist.refl _⟩

theorem NoneAdded.erase {id : UInt16} (h : s'.players = s.players.erase id) : NoneAdded s s' := by
  intro pid p' hp'
  rw [h, Table.lookup_erase'] at hp'
  split at hp'
  · cases hp'
  · exact .inr ⟨p', hp', List.Sublist.refl _⟩

theorem NoneAdded.insert {id : UInt16} {q : Player} (h : s'.players = s.players.insert id q) (hq : q.vehicles = []) :
    NoneAdded s s' := by
  intro pid p' hp'
  rw [h, Table.lookup_insert'] at hp'
  split at hp'
  · cases hp'
    exact .inl hq
  · exact .inr ⟨p', hp', List.Sublist.refl _⟩

theorem NoneAdded.trans {s'' : Server} (h : NoneAdded s s') (h' : NoneAdded s' s'') : NoneAdded s s'' := by
  intro pid p'' hp''
  rcases h' pid p'' hp'' with hnil | ⟨p', hp', hsub⟩
  · exact .inl hnil
  · rcases h pid p' hp' with hnil | ⟨p, hp, hsub'⟩
    · rw [hnil] at hsub
      exact .inl (List.sublist_nil.mp hsub)
    · exact .inr ⟨p, hp, hsub.trans hsub'⟩

/-- A turn that spawns nothing. -/
theorem turn_noneAdded {pid : UInt16} {t : Option PacketType} {as : List Announcement} (ht : Turn s pid t as s')
    (hspawn : t ≠ some .vehicleSpawn) : NoneAdded s s' := by
  cases ht with
  | quiet ha => exact .of_players ha.players
  | ready hp ha => exact .put hp ha.players (List.Sublist.refl _)
  | spawn _ _ _ => exact absurd rfl hspawn
  | delete hp ha => exact .put hp ha.players List.filter_sublist

/-- What a spawn request does. -/
theorem spawnOutcome_vehicles {pid : UInt16} {body : Bytes} (h : spawnOutcome w s pid body = (.ok (), s')) :
    (∃ j p v, w.parse body = some j ∧ s.players.lookup pid = some p ∧
      (p.vehicles.length : Int) < w.cfg.vehicleLimitPerPlayer ∧ v.vehicleId = UInt8.ofNat p.vehicles.length ∧
      s'.players = s.players.put pid { p with vehicles := p.vehicles ++ [v] }) ∨
    ((∀ j p, w.parse body = some j → s.players.lookup pid = some p →
      ¬ (p.vehicles.length : Int) < w.cfg.vehicleLimitPerPlayer) ∧ s'.players = s.players) := by
  unfold spawnOutcome at h
  cases hj : w.parse body with
  | none =>
    rw [hj] at h
    cases h
    exact .inr ⟨(fun j p hj' => nomatch hj'), rfl⟩
  | some j =>
    cases hp : s.players.lookup pid with
    | none =>
      rw [hj, hp] at h
      cases h
      exact .inr ⟨(fun j p _ hp' => nomatch hp'), rfl⟩
    | some p =>
      rw [hj, hp] at h
      dsimp only at h
      by_cases hlim : w.cfg.vehicleLimitPerPlayer ≤ (p.vehicles.length : Int)
      · rw [if_pos hlim] at h
        cases h
        refine .inr ⟨fun j' p' _ hp' => ?_, rfl⟩
        cases hp'
        exact not_lt.mpr hlim
      rw [if_neg hlim] at h
      cases hm : j.value "model" "etk800" with
      | error e => rw [hm] at h; cases h
      | ok model =>
        rw [hm] at h
        cases h
        exact .inl ⟨j, p, newVehicle w p j model, rfl, rfl, not_le.mp hlim, rfl, rfl⟩

/-- The call is a packet of the player `pid` that asks for a vehicle. -/
def Asks (s : Server) (c : Call) (pid : UInt16) (pl : Bytes) (len : UInt16) : Prop :=
  ∃ object data t hdr, c = .frame object data ∧ s.tcp.objects[object]? = some t ∧ isFrame t data ∧
    Packet.parseHeader data = .ok hdr ∧ PacketType.ofCode hdr.type = some .vehicleSpawn ∧ playerOf s t.id = pid ∧
    pid ≠ 0xFFFF ∧ Packet.payload data = pl ∧ hdr.payloadLen = len

theorem SpawnAccepted.asks {pid : UInt16} {p : Player} (h : SpawnAccepted w s c pid p) :
    ∃ pl len body j, Asks s c pid pl len ∧ readBytes pl len.toNat = .ok body ∧ w.parse body = some j := by
  obtain ⟨object, data, t, hdr, body, j, hc, ht, hf, hh, htype, hb, hj, hpid⟩ := h.request
  exact ⟨_, _, body, j, ⟨object, data, t, hdr, hc, ht, hf, hh, htype, hpid, h.sentinel, rfl, rfl⟩, hb, hj⟩

/-- A packet is of one player and has one text. -/
theorem Asks.unique {pid pid' : UInt16} {pl pl' : Bytes} {len len' : UInt16} (h : Asks s c pid pl len)
    (h' : Asks s c pid' pl' len') : pid' = pid ∧ pl' = pl ∧ len' = len := by
  obtain ⟨object, data, t, hdr, rfl, ht, -, hh, -, rfl, -, rfl, rfl⟩ := h
  obtain ⟨object', data', t', hdr', hc', ht', -, hh', -, rfl, -, rfl, rfl⟩ := h'
  cases hc'
  obtain rfl := Option.some.inj (ht.symm.trans ht')
  obtain rfl := Except.ok.inj (hh.symm.trans hh')
  exact ⟨rfl, rfl, rfl⟩

theorem Asks.outcome {pid : UInt16} {pl : Bytes} {len : UInt16} (h : Asks s c pid pl len) (hs : Step w s x c s') :
    ∃ body, readBytes pl len.toNat = .ok body ∧ spawnOutcome w s.clear pid body = (.ok (), s') := by
  obtain ⟨object, data, t, hdr, rfl, ht, hf, hh, htype, rfl, hpid, rfl, rfl⟩ := h
  have ho := step_outcome hs
  have hauth : ¬ PacketType.ofCode hdr.type = some .authRequest := by
    rw [htype]
    decide
  have hplayer : playerOf s.clear t.id = playerOf s t.id := rfl
  rw [outcome_frame w x s.clear ht, if_pos hf, hh] at ho
  dsimp only [dispatch] at ho
  rw [if_neg hauth, hplayer, if_neg hpid, htype] at ho
  dsimp only [inGame] at ho
  cases hb : readBytes (Packet.payload data) hdr.payloadLen.toNat with
  | error e => rw [hb] at ho; cases ho
  | ok body =>
    rw [hb] at ho
    exact ⟨body, rfl, ho⟩

/-- A completed call that asks for no vehicle. -/
theorem step_noneAdded (h : Step w s x c s') (hask : ∀ pid pl len, ¬ Asks s c pid pl len) : NoneAdded s s' := by
  have hc := step_change w x s h
  generalize announced w x s.clear c = as at hc
  cases hc with
  | quiet ha => exact .of_players ha.players
  | accept ha => exact .of_players ha.players
  | turn ht hf hh hp hturn =>
    refine turn_noneAdded hturn fun htype => ?_
    exact hask _ _ _ ⟨_, _, _, _, rfl, ht, hf, hh, htype, rfl, hp, rfl, rfl⟩
  | banned hp ha => exact .put hp ha.players (List.Sublist.refl _)
  | closed _ _ ha => exact .of_players ha.players
  | left _ _ _ ha => exact .erase ha.players
  | registered _ _ ha => exact .insert ha.players rfl
  | vetoed _ _ ha => exact NoneAdded.trans (.insert rfl rfl) (.erase ha.players)

/-- A completed call adds a vehicle to one player, on his accepted request, or none. -/
theorem step_vehicles (h : Step w s x c s') :
    (∃ pid p v, SpawnAccepted w s c pid p ∧ v.vehicleId = UInt8.ofNat p.vehicles.length ∧
      s'.players = s.players.put pid { p with vehicles := p.vehicles ++ [v] }) ∨
    ((∀ pid p, ¬ SpawnAccepted w s c pid p) ∧ NoneAdded s s') := by
  by_cases hask : ∃ pid pl len, Asks s c pid pl len
  · obtain ⟨pid, pl, len, hask⟩ := hask
    obtain ⟨body, hb, hout⟩ := hask.outcome h
    rcases spawnOutcome_vehicles hout with ⟨j, p, v, hj, hp, hlim, hv, hput⟩ | ⟨hno, hsame⟩
    · obtain ⟨object, data, t, hdr, hc, ht, hf, hh, htype, hpid, hsent, rfl, rfl⟩ := hask
      exact .inl ⟨pid, p, v, ⟨⟨object, data, t, hdr, body, j, hc, ht, hf, hh, htype, hb, hj, hpid⟩, hp, hsent, hlim⟩, hv, hput⟩
    · refine .inr ⟨fun pid' p' hacc => ?_, .of_players hsame⟩
      obtain ⟨pl', len', body', j', hask', hb', hj'⟩ := hacc.asks
      obtain ⟨rfl, rfl, rfl⟩ := hask.unique hask'
      obtain rfl := Except.ok.inj (hb.symm.trans hb')
      exact hno j' p' hj' hacc.player hacc.limit
  · refine .inr ⟨fun pid p hacc => ?_, step_noneAdded h fun pid pl len hask' => hask ⟨pid, pl, len, hask'⟩⟩
    obtain ⟨pl, len, -, -, hask', -⟩ := hacc.asks
    exact hask ⟨pid, pl, len, hask'⟩

/-! ## The ids -/

/-- Fewer vehicles have fewer ids. -/
theorem Numbered.sublist {vs vs' : List PlayerVehicle} (h : Numbered vs) (hsub : vs'.Sublist vs) : Numbered vs' :=
  ⟨h.distinct.sublist (hsub.map _), fun v hv => h.range v (hsub.subset hv)⟩

theorem Numbered.nil : Numbered [] := ⟨List.nodup_nil, fun _ hv => nomatch hv⟩

/-- There are as many ids as vehicles. -/
theorem Numbered.length_le {vs : List PlayerVehicle} (h : Numbered vs) : vs.length ≤ playerIds := by
  have hnodup : (vs.map (·.vehicleId.toNat)).Nodup := by
    have hinj := h.distinct.map (f := UInt8.toNat) fun a b hab => UInt8.toNat_inj.mp hab
    rwa [List.map_map] at hinj
  have hsub : vs.map (·.vehicleId.toNat) ⊆ List.range playerIds := by
    intro n hn
    obtain ⟨v, hv, rfl⟩ := List.mem_map.mp hn
    exact List.mem_range.mpr (h.range v hv)
  have hlen := hnodup.length_le_of_subset hsub
  rwa [List.length_map, List.length_range] at hlen

/-- A vehicle more, with their number as its id. -/
theorem numbered_append_iff {vs : List PlayerVehicle} {v : PlayerVehicle} (h : Numbered vs)
    (hv : v.vehicleId = UInt8.ofNat vs.length) : Numbered (vs ++ [v]) ↔ Vacant vs := by
  have hbyte : vs.length < playerIds → v.vehicleId.toNat = vs.length := by
    intro hlt
    have hmod : vs.length < 256 := lt_trans hlt (by decide)
    rw [hv, UInt8.toNat_ofNat', Nat.mod_eq_of_lt hmod]
  constructor
  · intro hid
    have hlt : vs.length < playerIds := by
      have hle := hid.length_le
      rw [List.length_append, List.length_singleton] at hle
      omega
    refine ⟨hlt, fun u hu heq => ?_⟩
    have hdisj := hid.distinct
    rw [List.map_append, List.nodup_append] at hdisj
    refine hdisj.2.2 u.vehicleId (List.mem_map_of_mem hu) v.vehicleId (List.mem_singleton_self _) ?_
    rw [← UInt8.toNat_inj, heq, hbyte hlt]
  · intro hvac
    constructor
    · rw [List.map_append, List.nodup_append]
      refine ⟨h.distinct, List.nodup_singleton _, fun a ha b hb hab => ?_⟩
      obtain ⟨u, hu, rfl⟩ := List.mem_map.mp ha
      obtain rfl := List.mem_singleton.mp hb
      refine hvac.free u hu ?_
      rw [hab, hbyte hvac.range]
    · intro u hu
      rcases List.mem_append.mp hu with hu | hu
      · exact h.range u hu
      · rw [List.mem_singleton.mp hu, hbyte hvac.range]
        exact hvac.range

/-- A call keeps the ids in order exactly if what it accepts finds a vacant number. -/
theorem step_numbered_iff (h : Step w s x c s') (hs : AllNumbered s) :
    AllNumbered s' ↔ ∀ pid p, SpawnAccepted w s c pid p → Vacant p.vehicles := by
  rcases step_vehicles h with ⟨pid, p, v, hacc, hv, hput⟩ | ⟨hno, hnone⟩
  · have hp := hacc.player
    have happend := numbered_append_iff (hs pid p hp) hv
    constructor
    · intro hall pid' p' hacc'
      obtain ⟨pl, len, -, -, hask, -⟩ := hacc.asks
      obtain ⟨pl', len', -, -, hask', -⟩ := hacc'.asks
      obtain ⟨rfl, -⟩ := hask.unique hask'
      obtain rfl := Option.some.inj (hp.symm.trans hacc'.player)
      refine happend.mp (hall pid' { p with vehicles := p.vehicles ++ [v] } ?_)
      rw [hput]
      exact Table.lookup_put_self hp _
    · intro hall pid' p' hp'
      rw [hput] at hp'
      by_cases hid : pid' = pid
      · subst hid
        rw [Table.lookup_put_self hp] at hp'
        cases hp'
        exact happend.mpr (hall pid' p hacc)
      · rw [Table.lookup_put_ne hid] at hp'
        exact hs pid' p' hp'
  · refine iff_of_true (fun pid p' hp' => ?_) fun pid p hacc => absurd hacc (hno pid p)
    rcases hnone pid p' hp' with hnil | ⟨p, hp, hsub⟩
    · rw [hnil]
      exact .nil
    · exact (hs pid p hp).sublist hsub

/-! ## Runs -/

theorem allNumbered_init : AllNumbered Server.init := by
  intro pid p hp
  simp [Server.init] at hp

/-- In every run each player's vehicles have distinct ids of players in all states exactly
    if every accepted request comes at a number of vehicles that is such an id and that no
    vehicle has. -/
theorem ids_identify_iff (w : World) {h : List Moment} {s : Server} (hr : Run w anyStep h s) :
    (∀ m ∈ h, AllNumbered m.after) ↔ ∀ m ∈ h, ∀ pid p, SpawnAccepted w m.before m.call pid p → Vacant p.vehicles :=
  hr.forall_iff allNumbered_init fun _ hs hbefore => step_numbered_iff hs hbefore

/-! ## Two vehicles with one id -/

theorem vacant_nil : Vacant [] := ⟨by decide, fun _ hv => nomatch hv⟩

/-- `ann` asks for her first vehicle. -/
theorem ids_identify_first : Garage.history.length = 3 ∧ ∀ m ∈ Garage.history, AllNumbered m.after := by
  refine ⟨rfl, ?_⟩
  refine (ids_identify_iff Garage.world (Garage.run_stocked trivial trivial trivial)).mpr fun m hm pid p hacc => ?_
  have hnone : ∀ m ∈ Garage.history, ∀ e ∈ m.before.players.entries, e.2.vehicles = [] := by decide
  have hp := hnone m hm _ (Table.lookup_iff_mem.mp hacc.player)
  rw [hp]
  exact vacant_nil

/-- The third vehicle gets the id of the second. -/
theorem same_id_again : ¬ ∀ (w : World) (h : List Moment) (s : Server), Run w anyStep h s →
    ∀ m ∈ h, AllNumbered m.after := by
  intro hall
  have hids : (Parade.twins.players.lookup 1).map (fun p => p.vehicles.map (·.vehicleId)) = some [1, 1] := by decide +kernel
  obtain ⟨p, hp, hsame⟩ := Option.map_eq_some_iff.mp hids
  have hdistinct := (hall _ _ _ Parade.run_twins _ List.mem_cons_self 1 p hp).distinct
  rw [hsame] at hdistinct
  exact absurd hdistinct (by decide)

end NovaMP.GameServer
