/-
  NovaMP.Client.WrittenIds — the ids that BeamMP messages name
  (`parseTransform` in `client/src/compat/beammp_protocol.cpp`, `handlePacket` in
  `beammp_client.cpp`).

  An id is read with `stoi` as an `int` and cast to 16 or 8 bits without a check, in all
  messages that have ids. `stoi` takes signs, white space in front and any text behind.

  - `delivers_iff`: a message with all else it needs delivers the ids written in it, cast.
  - `ids_kept_iff`: these are the written ones exactly if they are in range, or no `int`s,
    in which case the message is dropped.
  - `aliased`: `65543-258` and `7-2` are one vehicle.
-/

import NovaMP.Client.TextFormats

namespace NovaMP.BeamMP

open Lib

/-! ## Ids in a text and ids delivered -/

structure Ids where
  player : Int
  /-- A login has none. -/
  vehicle : Option Int
  deriving DecidableEq

/-- What the casts leave. -/
def Ids.narrow (i : Ids) : Ids :=
  ⟨(UInt16.ofInt i.player).toNat, i.vehicle.map fun n => ((UInt8.ofInt n).toNat : Int)⟩

def Ids.InRange (i : Ids) : Prop :=
  (0 ≤ i.player ∧ i.player < 2 ^ 16) ∧ ∀ n ∈ i.vehicle, 0 ≤ n ∧ n < 2 ^ 8

/-- All are `int`s. -/
def Ids.Ints (i : Ids) : Prop :=
  (-2 ^ 31 ≤ i.player ∧ i.player < 2 ^ 31) ∧ ∀ n ∈ i.vehicle, -2 ^ 31 ≤ n ∧ n < 2 ^ 31

/-- The text is two integers with a dash between. -/
def WritesIds (text : Bytes) (i : Ids) : Prop :=
  ∃ first second m n, text = first ++ 45 :: second ∧ 45 ∉ first ∧ Writes first m ∧ Writes second n ∧ i = ⟨m, some n⟩

/-- The messages that have ids. -/
inductive Kind where
  | transform | spawn | delete | auth
  deriving DecidableEq

/-- The integers written in a message. -/
def Written : Kind → Bytes → Ids → Prop
  | .transform, data, i | .spawn, data, i => ∃ idPart rest, cutAt 58 data = some (idPart, rest) ∧ WritesIds idPart i
  | .delete, data, i => WritesIds data i
  | .auth, data, i => ∃ n, Writes data n ∧ i = ⟨n, none⟩

variable (h : Host) (cb : Callbacks) (key : Bytes)

/-- What `parseTransform` returns, a callback is given or `m_player_id` is set to. -/
def Delivers : Kind → Bytes → Ids → Prop
  | .transform, data, ids =>
    ∃ t, parseTransform h data = some t ∧ ids = ⟨t.playerId.toNat, some (t.vehicleId.toNat : Int)⟩
  | .spawn, data, ids => ∃ as pid vid m, handlePacket h cb key ⟨Code.vehicleSpawn.byte, data⟩ = .ok as ∧
      .call (.spawn pid vid m) ∈ as ∧ ids = ⟨pid.toNat, some (vid.toNat : Int)⟩
  | .delete, data, ids => ∃ as pid vid, handlePacket h cb key ⟨Code.vehicleDel.byte, data⟩ = .ok as ∧
      .call (.delete pid vid) ∈ as ∧ ids = ⟨pid.toNat, some (vid.toNat : Int)⟩
  | .auth, data, ids => ∃ as id, handlePacket h cb key ⟨Code.authPlayer.byte, data⟩ = .ok as ∧
      .setPlayerId id ∈ as ∧ ids = ⟨id.toNat, none⟩

/-- The message has all else it needs, and the callback is set. -/
def Complete : Kind → Bytes → Prop
  | .transform, data => 14 ≤ (getlines 58 data).length ∧
      (∀ token ∈ ((getlines 58 data).drop 1).take 13, ∃ v, h.stof token = some v) ∧
      ∀ token ∈ (getlines 58 data)[14]?, ∃ v, h.stod token = some v
  | .spawn, _ => cb.spawn = true
  | .delete, _ => cb.delete = true
  | .auth, data => startsWithDigit data = true

/-- The ids in the message are in range, if it is complete and they are `int`s. -/
def Fits (k : Kind) (data : Bytes) : Prop := Complete h cb k data → ∀ i, Written k data i → i.Ints → i.InRange

variable {h cb key}

theorem Ids.narrow_eq_self_iff {i : Ids} : i.narrow = i ↔ i.InRange := by
  obtain ⟨player, vehicle⟩ := i
  rw [narrow, InRange, Ids.mk.injEq]
  dsimp only
  rw [ofInt16_eq_iff]
  cases vehicle with
  | none => simp
  | some n =>
    rw [Option.map_some, Option.some.injEq, ofInt8_eq_iff]
    simp

theorem cutAt_unique {sep : UInt8} {text before after before' after' : Bytes}
    (hcut : text = before ++ sep :: after ∧ sep ∉ before) (hcut' : text = before' ++ sep :: after' ∧ sep ∉ before') :
    before = before' ∧ after = after' := by
  have heq := (cutAt_eq_some_iff.mpr hcut).symm.trans (cutAt_eq_some_iff.mpr hcut')
  simpa using heq

theorem WritesIds.unique {text : Bytes} {i j : Ids} (hi : WritesIds text i) (hj : WritesIds text j) : i = j := by
  obtain ⟨first, second, m, n, hcut, hno, hm, hn, rfl⟩ := hi
  obtain ⟨first', second', m', n', hcut', hno', hm', hn', rfl⟩ := hj
  obtain ⟨rfl, rfl⟩ := cutAt_unique ⟨hcut, hno⟩ ⟨hcut', hno'⟩
  rw [hm.unique hm', hn.unique hn']

theorem Written.unique {k : Kind} {data : Bytes} {i j : Ids} (hi : Written k data i) (hj : Written k data j) : i = j := by
  cases k with
  | transform | spawn =>
    obtain ⟨idPart, rest, hcut, hi⟩ := hi
    obtain ⟨idPart', rest', hcut', hj⟩ := hj
    cases hcut.symm.trans hcut'
    exact hi.unique hj
  | delete => exact WritesIds.unique hi hj
  | auth =>
    obtain ⟨m, hm, rfl⟩ := hi
    obtain ⟨n, hn, rfl⟩ := hj
    rw [hm.unique hn]

/-! ## What is delivered -/

/-- `parseIds` gives the integers in the text, cast, if they are `int`s. -/
theorem parseIds_iff {text : Bytes} {ids : Ids} :
    (∃ pid vid, parseIds text = some (pid, vid) ∧ ids = ⟨pid.toNat, some (vid.toNat : Int)⟩) ↔
      ∃ i, WritesIds text i ∧ i.Ints ∧ ids = i.narrow := by
  constructor
  · rintro ⟨pid, vid, hids, rfl⟩
    obtain ⟨first, second, m, n, htext, hno, hm, hn, rfl, rfl⟩ := parseIds_eq_some_iff.mp hids
    obtain ⟨hm, hmint⟩ := stoi_eq_some_iff.mp hm
    obtain ⟨hn, hnint⟩ := stoi_eq_some_iff.mp hn
    refine ⟨⟨m, some n⟩, ⟨first, second, m, n, htext, hno, hm, hn, rfl⟩, ⟨hmint, ?_⟩, rfl⟩
    intro _ heq
    cases heq
    exact hnint
  · rintro ⟨_, ⟨first, second, m, n, htext, hno, hm, hn, rfl⟩, ⟨hmint, hnint⟩, rfl⟩
    exact ⟨.ofInt m, .ofInt n, parseIds_eq_some_iff.mpr ⟨first, second, m, n, htext, hno, stoi_eq_some_iff.mpr ⟨hm, hmint⟩,
      stoi_eq_some_iff.mpr ⟨hn, hnint n rfl⟩, rfl, rfl⟩, rfl⟩

/-- The first piece is what stands before the first separator. -/
theorem getlines_head {sep : UInt8} {text : Bytes} (hlen : 2 ≤ (getlines sep text).length) :
    ∃ before after, cutAt sep text = some (before, after) ∧ (getlines sep text)[0]? = some before := by
  by_cases hmem : sep ∈ text
  · obtain ⟨before, after, rfl, hno⟩ := List.eq_append_cons_of_mem hmem
    refine ⟨before, after, cutAt_eq_some_iff.mpr ⟨rfl, hno⟩, ?_⟩
    have hne := List.splitOn_ne_nil sep after
    rw [getlines, List.splitOn_append_cons_self_of_not_mem hno]
    split
    · rw [List.dropLast_cons_of_ne_nil hne]
      rfl
    · rfl
  · rw [getlines, List.splitOn_eq_singleton hmem] at hlen
    split at hlen <;> simp at hlen

theorem mem_callIf_iff {c : Callback} {a : Action} : a ∈ callIf cb c ↔ cb.has c = true ∧ a = .call c := by
  rw [callIf]
  split <;> simp_all

theorem delivers_transform {data : Bytes} {ids : Ids} : Delivers h cb key .transform data ids ↔
    Complete h cb .transform data ∧ ∃ idPart rest pid vid, cutAt 58 data = some (idPart, rest) ∧
      parseIds idPart = some (pid, vid) ∧ ids = ⟨pid.toNat, some (vid.toNat : Int)⟩ := by
  constructor
  · rintro ⟨t, ht, rfl⟩
    obtain ⟨hlen, hids, hfloats, htime⟩ := parseTransform_eq_some_iff.mp ht
    obtain ⟨idPart, rest, hcut, hhead⟩ := getlines_head (show 2 ≤ (getlines 58 data).length by omega)
    rw [hhead] at hids
    refine ⟨⟨hlen, (exists_map_some_iff h.stof _).mp ⟨_, hfloats⟩, ?_⟩, idPart, rest, _, _, hcut, hids, rfl⟩
    intro token htoken
    rw [Option.mem_def.mp htoken] at htime
    exact ⟨_, htime⟩
  · rintro ⟨⟨hlen, hfloats, htime⟩, idPart, rest, pid, vid, hcut, hids, rfl⟩
    obtain ⟨idPart', rest', hcut', hhead⟩ := getlines_head (show 2 ≤ (getlines 58 data).length by omega)
    cases hcut.symm.trans hcut'
    obtain ⟨vs, hvs⟩ := (exists_map_some_iff h.stof _).mpr hfloats
    have hlen13 : vs.length = 13 := by
      have hl := congrArg List.length hvs
      simp only [List.length_map, List.length_take, List.length_drop] at hl
      omega
    have htime' : ∃ time, (getlines 58 data)[14]?.elim (some 0) h.stod = some time := by
      cases hlast : (getlines 58 data)[14]? with
      | none => exact ⟨0, rfl⟩
      | some token => exact htime token hlast
    obtain ⟨time, htime'⟩ := htime'
    obtain ⟨t, rfl, rfl⟩ := exists_floats hlen13 time
    refine ⟨{ t with playerId := pid, vehicleId := vid }, parseTransform_eq_some_iff.mpr ⟨hlen, ?_, hvs, htime'⟩, rfl⟩
    rw [hhead]
    exact hids

theorem delivers_spawn {data : Bytes} {ids : Ids} : Delivers h cb key .spawn data ids ↔
    Complete h cb .spawn data ∧ ∃ idPart rest pid vid, cutAt 58 data = some (idPart, rest) ∧
      parseIds idPart = some (pid, vid) ∧ ids = ⟨pid.toNat, some (vid.toNat : Int)⟩ := by
  constructor
  · rintro ⟨as, pid, vid, m, has, hcall, rfl⟩
    rw [handlePacket_spawn] at has
    cases has
    cases hcut : cutAt 58 data with
    | none => simp [hcut] at hcall
    | some c =>
      cases hids : parseIds c.1 with
      | none => simp [hcut, hids] at hcall
      | some p =>
        simp only [hcut, hids, Option.elim] at hcall
        obtain ⟨hcb, heq⟩ := mem_callIf_iff.mp hcall
        cases heq
        exact ⟨hcb, c.1, c.2, _, _, rfl, hids, rfl⟩
  · rintro ⟨hcb, idPart, rest, pid, vid, hcut, hids, rfl⟩
    refine ⟨_, pid, vid, rest, handlePacket_spawn, ?_, rfl⟩
    simp only [hcut, hids, Option.elim]
    exact mem_callIf_iff.mpr ⟨hcb, rfl⟩

theorem delivers_delete {data : Bytes} {ids : Ids} : Delivers h cb key .delete data ids ↔
    Complete h cb .delete data ∧ ∃ pid vid, parseIds data = some (pid, vid) ∧
      ids = ⟨pid.toNat, some (vid.toNat : Int)⟩ := by
  constructor
  · rintro ⟨as, pid, vid, has, hcall, rfl⟩
    rw [handlePacket_delete] at has
    cases has
    cases hids : parseIds data with
    | none => simp [hids] at hcall
    | some p =>
      simp only [hids, Option.elim] at hcall
      obtain ⟨hcb, heq⟩ := mem_callIf_iff.mp hcall
      cases heq
      exact ⟨hcb, _, _, rfl, rfl⟩
  · rintro ⟨hcb, pid, vid, hids, rfl⟩
    refine ⟨_, pid, vid, handlePacket_delete, ?_, rfl⟩
    simp only [hids, Option.elim]
    exact mem_callIf_iff.mpr ⟨hcb, rfl⟩

theorem delivers_auth {data : Bytes} {ids : Ids} : Delivers h cb key .auth data ids ↔
    Complete h cb .auth data ∧ ∃ n, stoi data = some n ∧ ids = ⟨(UInt16.ofInt n).toNat, none⟩ := by
  have hpacket : handlePacket h cb key ⟨Code.authPlayer.byte, data⟩ =
      if startsWithDigit data then
        (stoi data).elim (.ok []) fun n =>
          .ok ([.setPlayerId (.ofInt n), .send .ready []] ++ callIf cb (.connect true []))
      else .ok (callIf cb (.connect false data)) := by
    unfold handlePacket
    dsimp only
    cases stoi data <;> rfl
  constructor
  · rintro ⟨as, id, has, hset, rfl⟩
    rw [hpacket] at has
    by_cases hdigit : startsWithDigit data = true
    · rw [if_pos hdigit] at has
      cases hn : stoi data with
      | none =>
        rw [hn] at has
        cases has
        cases hset
      | some n =>
        rw [hn] at has
        cases has
        refine ⟨hdigit, n, rfl, ?_⟩
        simp only [List.cons_append, List.nil_append, List.mem_cons, Action.setPlayerId.injEq, reduceCtorEq, false_or] at hset
        rcases hset with rfl | hset
        · rfl
        · cases mem_callIf hset
    · rw [if_neg hdigit] at has
      cases has
      cases mem_callIf hset
  · rintro ⟨hdigit, n, hn, rfl⟩
    refine ⟨[.setPlayerId (.ofInt n), .send .ready []] ++ callIf cb (.connect true []), .ofInt n, ?_, by simp, rfl⟩
    rw [hpacket, if_pos (show startsWithDigit data = true from hdigit), hn, Option.elim_some]

/-- A complete message delivers the ids that are written in it, cast, if they are `int`s. -/
theorem delivers_iff {k : Kind} {data : Bytes} {ids : Ids} : Delivers h cb key k data ids ↔
    Complete h cb k data ∧ ∃ i, Written k data i ∧ i.Ints ∧ ids = i.narrow := by
  have hcut : (∃ idPart rest pid vid, cutAt 58 data = some (idPart, rest) ∧ parseIds idPart = some (pid, vid) ∧
      ids = ⟨pid.toNat, some (vid.toNat : Int)⟩) ↔
      ∃ i, (∃ idPart rest, cutAt 58 data = some (idPart, rest) ∧ WritesIds idPart i) ∧ i.Ints ∧ ids = i.narrow := by
    constructor
    · rintro ⟨idPart, rest, pid, vid, hcut, hids⟩
      obtain ⟨i, hi, hints, heq⟩ := parseIds_iff.mp ⟨pid, vid, hids⟩
      exact ⟨i, ⟨idPart, rest, hcut, hi⟩, hints, heq⟩
    · rintro ⟨i, ⟨idPart, rest, hcut, hi⟩, hints, heq⟩
      obtain ⟨pid, vid, hids⟩ := parseIds_iff.mpr ⟨i, hi, hints, heq⟩
      exact ⟨idPart, rest, pid, vid, hcut, hids⟩
  cases k with
  | transform =>
    rw [delivers_transform, hcut]
    rfl
  | spawn =>
    rw [delivers_spawn, hcut]
    rfl
  | delete =>
    rw [delivers_delete, parseIds_iff]
    rfl
  | auth =>
    rw [delivers_auth]
    refine and_congr_right fun _ => ?_
    constructor
    · rintro ⟨n, hn, rfl⟩
      obtain ⟨hn, hint⟩ := stoi_eq_some_iff.mp hn
      exact ⟨⟨n, none⟩, ⟨n, hn, rfl⟩, ⟨hint, nofun⟩, rfl⟩
    · rintro ⟨_, ⟨n, hn, rfl⟩, ⟨hint, -⟩, rfl⟩
      exact ⟨n, stoi_eq_some_iff.mpr ⟨hn, hint⟩, rfl⟩

/-! ## Printed ids -/

theorem writesIds_idsText (pid : UInt16) (vid : UInt8) : WritesIds (idsText pid vid) ⟨pid.toNat, some (vid.toNat : Int)⟩ := by
  obtain ⟨i, hi, -, heq⟩ := parseIds_iff.mp ⟨pid, vid, parseIds_idsText pid vid, rfl⟩
  obtain ⟨first, second, m, n, htext, hno, hm, hn, rfl⟩ := hi
  obtain ⟨rfl, rfl⟩ := cutAt_unique ⟨htext, hno⟩ ⟨rfl, notMem_natText (by decide) _⟩
  have hends : DigitsEnd [] := fun b hb => nomatch hb
  have hread := fun (k : Nat) (hk : k < 2 ^ 31) => (stoi_eq_some_iff.mp (stoi_natText hk hends)).1
  have hpid := hread pid.toNat (Nat.lt_trans pid.toNat_lt (by decide))
  have hvid := hread vid.toNat (Nat.lt_trans vid.toNat_lt (by decide))
  rw [List.append_nil] at hpid hvid
  exact ⟨_, _, _, _, rfl, hno, hpid, hvid, rfl⟩

/-- The ids of a vehicle, printed, are in range. -/
theorem fits_idsText (pid : UInt16) (vid : UInt8) : Fits h cb .delete (idsText pid vid) := by
  intro _ i hi _
  obtain rfl := (writesIds_idsText pid vid).unique hi
  have hpid : pid.toNat < 2 ^ 16 := pid.toNat_lt
  have hvid : vid.toNat < 2 ^ 8 := vid.toNat_lt
  have hplayer : (pid.toNat : Int) < 2 ^ 16 := by
    omega
  refine ⟨⟨Int.natCast_nonneg _, hplayer⟩, fun n hn => ?_⟩
  cases hn
  omega

/-! ## The written ids -/

/-- The ids delivered are the written ones exactly if those are in range, or the message is
    dropped; and then different ids in two messages stay different. -/
theorem ids_kept_iff (h : Host) (cb : Callbacks) (key : Bytes) :
    (∀ k data, (∀ ids, Delivers h cb key k data ids → Written k data ids) ↔ Fits h cb k data) ∧
    ∀ k k' data data' ids ids', Fits h cb k data → Fits h cb k' data' → Delivers h cb key k data ids →
      Delivers h cb key k' data' ids' → (∀ i i', Written k data i → Written k' data' i' → i ≠ i') → ids ≠ ids' := by
  have hiff : ∀ k data, (∀ ids, Delivers h cb key k data ids → Written k data ids) ↔ Fits h cb k data := by
    intro k data
    constructor
    · intro hkept hcomplete i hi hints
      have hnarrow := hkept i.narrow (delivers_iff.mpr ⟨hcomplete, i, hi, hints, rfl⟩)
      exact Ids.narrow_eq_self_iff.mp (hnarrow.unique hi)
    · intro hfits ids hd
      obtain ⟨hcomplete, i, hi, hints, rfl⟩ := delivers_iff.mp hd
      rw [Ids.narrow_eq_self_iff.mpr (hfits hcomplete i hi hints)]
      exact hi
  refine ⟨hiff, ?_⟩
  intro k k' data data' ids ids' hfits hfits' hd hd' hne
  exact hne ids ids' ((hiff k data).mpr hfits ids hd) ((hiff k' data').mpr hfits' ids' hd')

/-- `7-2` and `8-2` are different vehicles. -/
theorem ids_kept_two :
    Delivers Sample.host Sample.callbacks [] .delete (idsText 7 2) ⟨7, some 2⟩ ∧
      Delivers Sample.host Sample.callbacks [] .delete (idsText 8 2) ⟨8, some 2⟩ ∧
      ∀ ids ids', Delivers Sample.host Sample.callbacks [] .delete (idsText 7 2) ids →
        Delivers Sample.host Sample.callbacks [] .delete (idsText 8 2) ids' → ids ≠ ids' := by
  refine ⟨⟨[.call (.delete 7 2)], 7, 2, by decide, by decide, rfl⟩, ⟨[.call (.delete 8 2)], 8, 2, by decide, by decide, rfl⟩,
    fun ids ids' hd hd' => ?_⟩
  refine (ids_kept_iff Sample.host Sample.callbacks []).2 .delete .delete (idsText 7 2) (idsText 8 2) ids ids' (fits_idsText 7 2)
    (fits_idsText 8 2) hd hd' fun _ _ hi hi' heq => ?_
  cases ((writesIds_idsText 7 2).unique hi).trans (heq.trans ((writesIds_idsText 8 2).unique hi').symm)

/-- `65543-258` and `7-2` are the same vehicle. -/
theorem aliased : ¬ ∀ (h : Host) (cb : Callbacks) (key : Bytes) (k : Kind) (data : Bytes) (ids : Ids),
    Delivers h cb key k data ids → Written k data ids := by
  intro hall
  have hd : Delivers Sample.host Sample.callbacks [] .delete (utf8 "65543-258") ⟨7, some 2⟩ :=
    ⟨[.call (.delete 7 2)], 7, 2, by decide, by decide, rfl⟩
  have hw : WritesIds (utf8 "65543-258") ⟨65543, some 258⟩ :=
    ⟨utf8 "65543", utf8 "258", 65543, 258, by decide, by decide, integer_eq_some_iff.mp (by decide),
      integer_eq_some_iff.mp (by decide), rfl⟩
  exact absurd ((hall _ _ _ _ _ _ hd).unique hw) (by decide)

end NovaMP.BeamMP
