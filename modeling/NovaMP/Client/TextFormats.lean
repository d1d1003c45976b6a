/-
  NovaMP.Client.TextFormats — the text formats of the BeamMP protocol
  (`client/src/compat/beammp_protocol.cpp`, `handlePacket` in `beammp_client.cpp`).

  A vehicle is `<pid>-<vid>`, a transform that and 13 or 14 numbers, all separated by
  colons, a spawn that, a colon and any text.

  - `parseTransform_eq_some_iff`: what `parseTransform` makes of any text, from its pieces.
  - `handlePacket_spawn`, `handlePacket_delete`: what the packets with these texts do.
  - `text_formats_parse_back`: the three formats are parsed back.
-/

import NovaMP.Client.BeamMP
import NovaMP.Network.Decimal

namespace NovaMP.BeamMP

open Lib

/-! ## The formats -/

/-- `"<pid>-<vid>"` -/
def idsText (pid : UInt16) (vid : UInt8) : Bytes := natText pid.toNat ++ 45 :: natText vid.toNat

/-- `"<pid>-<vid>:"` and the tokens, joined with colons. -/
def transformText (pid : UInt16) (vid : UInt8) (tokens : List Bytes) : Bytes :=
  idsText pid vid ++ 58 :: List.intercalate [58] tokens

/-- `"<pid>-<vid>:<jbeam_data_json>"` -/
def spawnText (pid : UInt16) (vid : UInt8) (modelData : Bytes) : Bytes := idsText pid vid ++ 58 :: modelData

/-- The floats in the order they are written. -/
def Transform.floats (t : Transform) : List UInt32 :=
  [t.pos.a0, t.pos.a1, t.pos.a2, t.rot.a0, t.rot.a1, t.rot.a2, t.rot.a3, t.vel.a0, t.vel.a1, t.vel.a2,
    t.angVel.a0, t.angVel.a1, t.angVel.a2]

/-! ## Splitting -/

/-- `cutAt` cuts at the first separator. -/
theorem cutAt_eq_some_iff {sep : UInt8} {text before after : Bytes} :
    cutAt sep text = some (before, after) ↔ text = before ++ sep :: after ∧ sep ∉ before := by
  induction text generalizing before with
  | nil => simp [cutAt]
  | cons b text ih =>
    by_cases hb : b = sep
    · subst hb
      have hcut : cutAt b (b :: text) = some ([], text) := by
        simp [cutAt, List.idxOf?_cons]
      rw [hcut]
      constructor
      · intro heq
        cases heq
        exact ⟨rfl, List.not_mem_nil⟩
      · rintro ⟨heq, hno⟩
        cases before with
        | nil => cases heq; rfl
        | cons c before =>
          cases heq
          exact absurd List.mem_cons_self hno
    · have hcut : cutAt sep (b :: text) = (cutAt sep text).map fun c => (b :: c.1, c.2) := by
        simp [cutAt, List.idxOf?_cons, hb, Function.comp_def]
      rw [hcut]
      constructor
      · intro heq
        obtain ⟨⟨before', after'⟩, hc, heq⟩ := Option.map_eq_some_iff.mp heq
        cases heq
        obtain ⟨rfl, hno⟩ := ih.mp hc
        exact ⟨rfl, by simp [Ne.symm hb, hno]⟩
      · rintro ⟨heq, hno⟩
        cases before with
        | nil => cases heq; exact absurd rfl hb
        | cons c before =>
          cases heq
          rw [ih.mpr ⟨rfl, fun hmem => hno (List.mem_cons_of_mem _ hmem)⟩]
          rfl

theorem notMem_natText {b : UInt8} (hb : isDigit b = false) (n : Nat) : b ∉ natText n := by
  intro hmem
  rw [isDigit_of_mem_natText hmem] at hb
  cases hb

theorem parseTransform_eq_some_iff {h : Host} {data : Bytes} {t : Transform} :
    parseTransform h data = some t ↔ 14 ≤ (getlines 58 data).length ∧
      ((getlines 58 data)[0]?).bind parseIds = some (t.playerId, t.vehicleId) ∧
      (((getlines 58 data).drop 1).take 13).map h.stof = t.floats.map some ∧
      ((getlines 58 data)[14]?).elim (some 0) h.stod = some t.timestamp := by
  unfold parseTransform
  generalize getlines 58 data = parts
  by_cases hlen : parts.length < 14
  · rw [if_pos hlen]
    exact iff_of_false nofun fun hall => absurd hall.1 (not_le.mpr hlen)
  rw [if_neg hlen]
  rcases parts with _ | ⟨p0, _ | ⟨p1, _ | ⟨p2, _ | ⟨p3, _ | ⟨p4, _ | ⟨p5, _ | ⟨p6, _ | ⟨p7, _ | ⟨p8, _ | ⟨p9, _ |
    ⟨p10, _ | ⟨p11, _ | ⟨p12, _ | ⟨p13, rest⟩⟩⟩⟩⟩⟩⟩⟩⟩⟩⟩⟩⟩⟩
  case cons.cons.cons.cons.cons.cons.cons.cons.cons.cons.cons.cons.cons.cons =>
    have hlast : (p0 :: p1 :: p2 :: p3 :: p4 :: p5 :: p6 :: p7 :: p8 :: p9 :: p10 :: p11 :: p12 :: p13 :: rest)[14]? =
      rest[0]? := rfl
    rw [hlast]
    simp only [List.getElem?_cons_zero, List.getElem?_cons_succ, Option.bind_some]
    obtain ⟨pid, vid, ⟨x, y, z⟩, ⟨qx, qy, qz, qw⟩, ⟨vx, vy, vz⟩, ⟨wx, wy, wz⟩, time⟩ := t
    -- Once for a text that ends with the floats, once for one with a time.
    cases rest[0]?
    all_goals
      constructor
      · intro hparse
        obtain ⟨ids, hids, hparse⟩ := Option.bind_eq_some_iff.mp hparse
        obtain ⟨x', hx, hparse⟩ := Option.bind_eq_some_iff.mp hparse
        obtain ⟨y', hy, hparse⟩ := Option.bind_eq_some_iff.mp hparse
        obtain ⟨z', hz, hparse⟩ := Option.bind_eq_some_iff.mp hparse
        obtain ⟨qx', hqx, hparse⟩ := Option.bind_eq_some_iff.mp hparse
        obtain ⟨qy', hqy, hparse⟩ := Option.bind_eq_some_iff.mp hparse
        obtain ⟨qz', hqz, hparse⟩ := Option.bind_eq_some_iff.mp hparse
        obtain ⟨qw', hqw, hparse⟩ := Option.bind_eq_some_iff.mp hparse
        obtain ⟨vx', hvx, hparse⟩ := Option.bind_eq_some_iff.mp hparse
        obtain ⟨vy', hvy, hparse⟩ := Option.bind_eq_some_iff.mp hparse
        obtain ⟨vz', hvz, hparse⟩ := Option.bind_eq_some_iff.mp hparse
        obtain ⟨wx', hwx, hparse⟩ := Option.bind_eq_some_iff.mp hparse
        obtain ⟨wy', hwy, hparse⟩ := Option.bind_eq_some_iff.mp hparse
        obtain ⟨wz', hwz, hparse⟩ := Option.bind_eq_some_iff.mp hparse
        obtain ⟨time', ht, hparse⟩ := Option.bind_eq_some_iff.mp hparse
        cases hparse
        refine ⟨by simp, hids, ?_, ht⟩
        simp only [List.drop_succ_cons, List.drop_zero, List.take_succ_cons, List.take_zero, List.map_cons, List.map_nil,
          Transform.floats, hx, hy, hz, hqx, hqy, hqz, hqw, hvx, hvy, hvz, hwx, hwy, hwz]
      · rintro ⟨-, hids, hfloats, ht⟩
        simp only [List.drop_succ_cons, List.drop_zero, List.take_succ_cons, List.take_zero, List.map_cons, List.map_nil,
          Transform.floats, List.cons.injEq] at hfloats
        obtain ⟨hx, hy, hz, hqx, hqy, hqz, hqw, hvx, hvy, hvz, hwx, hwy, hwz, -⟩ := hfloats
        rw [hids, hx, hy, hz, hqx, hqy, hqz, hqw, hvx, hvy, hvz, hwx, hwy, hwz]
        exact congrArg (Option.bind · fun time' =>
          some (Transform.mk pid vid ⟨x, y, z⟩ ⟨qx, qy, qz, qw⟩ ⟨vx, vy, vz⟩ ⟨wx, wy, wz⟩ time')) ht
  all_goals
    simp at hlen

/-! ## The ids -/

theorem parseIds_eq_some_iff {text : Bytes} {pid : UInt16} {vid : UInt8} :
    parseIds text = some (pid, vid) ↔ ∃ first second m n, text = first ++ 45 :: second ∧ 45 ∉ first ∧
      stoi first = some m ∧ stoi second = some n ∧ pid = .ofInt m ∧ vid = .ofInt n := by
  simp only [parseIds, Option.bind_eq_bind, Option.bind_eq_some_iff, Option.pure_def, Option.some.injEq, Prod.mk.injEq]
  constructor
  · rintro ⟨⟨first, second⟩, hcut, m, hm, n, hn, rfl, rfl⟩
    obtain ⟨rfl, hno⟩ := cutAt_eq_some_iff.mp hcut
    exact ⟨first, second, m, n, rfl, hno, hm, hn, rfl, rfl⟩
  · rintro ⟨first, second, m, n, rfl, hno, hm, hn, rfl, rfl⟩
    exact ⟨(first, second), cutAt_eq_some_iff.mpr ⟨rfl, hno⟩, m, hm, n, hn, rfl, rfl⟩

theorem parseIds_idsText (pid : UInt16) (vid : UInt8) : parseIds (idsText pid vid) = some (pid, vid) := by
  have hpid : pid.toNat < 2 ^ 16 := pid.toNat_lt
  have hvid : vid.toNat < 2 ^ 8 := vid.toNat_lt
  have hends : DigitsEnd [] := fun b hb => nomatch hb
  have hfirst := stoi_natText (n := pid.toNat) (by omega) hends
  have hsecond := stoi_natText (n := vid.toNat) (by omega) hends
  rw [List.append_nil] at hfirst hsecond
  refine parseIds_eq_some_iff.mpr ⟨_, _, _, _, rfl, notMem_natText (by decide) _, hfirst, hsecond,
    (ofInt16_toNat pid).symm, (ofInt8_toNat vid).symm⟩

theorem notMem_idsText (pid : UInt16) (vid : UInt8) : 58 ∉ idsText pid vid := by
  simp [idsText, notMem_natText (b := 58) (by decide)]

/-! ## The packets -/

variable {h : Host} {cb : Callbacks} {key : Bytes} {data : Bytes}

theorem handlePacket_spawn : handlePacket h cb key ⟨Code.vehicleSpawn.byte, data⟩ =
    .ok ((cutAt 58 data).elim [] fun c => (parseIds c.1).elim [] fun ids => callIf cb (.spawn ids.1 ids.2 c.2)) := by
  unfold handlePacket
  dsimp only
  cases cutAt 58 data with
  | none => rfl
  | some c =>
    dsimp only [Option.elim]
    cases parseIds c.1 <;> rfl

theorem handlePacket_delete : handlePacket h cb key ⟨Code.vehicleDel.byte, data⟩ =
    .ok ((parseIds data).elim [] fun ids => callIf cb (.delete ids.1 ids.2)) := by
  unfold handlePacket
  dsimp only
  cases parseIds data <;> rfl

/-! ## The formats are parsed back -/

/-- The pieces of a transform are the ids and the tokens. -/
theorem splitOn_transformText {pid : UInt16} {vid : UInt8} {tokens : List Bytes} (hne : tokens ≠ [])
    (htokens : ∀ token ∈ tokens, 58 ∉ token) : (transformText pid vid tokens).splitOn 58 = idsText pid vid :: tokens := by
  have htext : transformText pid vid tokens = List.intercalate [58] (idsText pid vid :: tokens) := by
    obtain ⟨token, rest, rfl⟩ := List.exists_cons_of_ne_nil hne
    rw [transformText, List.intercalate_cons_cons, List.append_assoc]
    rfl
  rw [htext, List.splitOn_intercalate 58 _ (List.cons_ne_nil _ _)]
  intro part hpart
  rcases List.mem_cons.mp hpart with rfl | hpart
  · exact notMem_idsText pid vid
  · exact htokens part hpart

theorem getlines_transformText {pid : UInt16} {vid : UInt8} {tokens : List Bytes} (hne : tokens ≠ [])
    (htokens : ∀ token ∈ tokens, token ≠ [] ∧ 58 ∉ token) :
    getlines 58 (transformText pid vid tokens) = idsText pid vid :: tokens := by
  rw [getlines, splitOn_transformText hne fun token htoken => (htokens token htoken).2, if_neg]
  rw [List.getLast?_cons_of_ne_nil hne, List.getLast?_eq_some_getLast hne, Option.some.injEq]
  exact (htokens _ (List.getLast_mem hne)).1

/-- The tokens are the numbers of a transform, in order; without a 14th the time is 0. -/
def Reads (h : Host) (tokens : List Bytes) (t : Transform) : Prop :=
  (tokens.take 13).map h.stof = t.floats.map some ∧ tokens[13]?.elim (some 0) h.stod = some t.timestamp

theorem parseTransform_transformText {pid : UInt16} {vid : UInt8} {tokens : List Bytes} {t : Transform}
    (hlen : 13 ≤ tokens.length) (htokens : ∀ token ∈ tokens, token ≠ [] ∧ 58 ∉ token) :
    parseTransform h (transformText pid vid tokens) = some t ↔
      pid = t.playerId ∧ vid = t.vehicleId ∧ Reads h tokens t := by
  have hne : tokens ≠ [] := by
    rintro rfl
    simp at hlen
  have hids : ((idsText pid vid :: tokens)[0]?).bind parseIds = some (pid, vid) := parseIds_idsText pid vid
  rw [parseTransform_eq_some_iff, getlines_transformText hne htokens, hids]
  simp [Reads, hlen, and_assoc]

theorem exists_map_some_iff {α β : Type} (f : α → Option β) (l : List α) :
    (∃ vs : List β, l.map f = vs.map some) ↔ ∀ a ∈ l, ∃ v, f a = some v := by
  induction l with
  | nil => simp
  | cons a l ih =>
    rw [List.forall_mem_cons, ← ih]
    constructor
    · rintro ⟨vs, hvs⟩
      cases vs with
      | nil => cases hvs
      | cons v vs =>
        obtain ⟨hv, hvs⟩ := List.cons.inj hvs
        exact ⟨⟨v, hv⟩, vs, hvs⟩
    · rintro ⟨⟨v, hv⟩, vs, hvs⟩
      exact ⟨v :: vs, by rw [List.map_cons, hv, hvs, List.map_cons]⟩

/-- Any 13 floats are those of a transform. -/
theorem exists_floats {vs : List UInt32} (hvs : vs.length = 13) (time : UInt64) :
    ∃ t : Transform, t.floats = vs ∧ t.timestamp = time := by
  rcases vs with _ | ⟨a, _ | ⟨b, _ | ⟨c, _ | ⟨d, _ | ⟨e, _ | ⟨f, _ | ⟨g, _ | ⟨i, _ | ⟨j, _ | ⟨k, _ | ⟨l, _ | ⟨m, _ |
    ⟨n, _ | ⟨o, rest⟩⟩⟩⟩⟩⟩⟩⟩⟩⟩⟩⟩⟩⟩
  case cons.cons.cons.cons.cons.cons.cons.cons.cons.cons.cons.cons.cons.nil =>
    exact ⟨⟨0, 0, ⟨a, b, c⟩, ⟨d, e, f, g⟩, ⟨i, j, k⟩, ⟨l, m, n⟩, time⟩, rfl, rfl⟩
  all_goals
    simp at hvs

theorem exists_reads_iff {tokens : List Bytes} (hlen : tokens.length = 13 ∨ tokens.length = 14) :
    (∃ t : Transform, Reads h tokens t) ↔
      (∀ token ∈ tokens.take 13, ∃ v, h.stof token = some v) ∧ ∀ token ∈ tokens.drop 13, ∃ v, h.stod token = some v := by
  have htime : (∃ v, tokens[13]?.elim (some 0) h.stod = some v) ↔ ∀ token ∈ tokens.drop 13, ∃ v, h.stod token = some v := by
    rcases hlen with hlen | hlen
    · rw [List.getElem?_eq_none (by omega), List.drop_of_length_le (by omega)]
      simp
    · rw [List.drop_eq_getElem_cons (by omega), List.drop_of_length_le (by omega), List.getElem?_eq_getElem (by omega)]
      simp
  rw [← exists_map_some_iff, ← htime]
  constructor
  · rintro ⟨t, hfloats, ht⟩
    exact ⟨⟨_, hfloats⟩, _, ht⟩
  · rintro ⟨⟨vs, hvs⟩, time, ht⟩
    have hlen13 : vs.length = 13 := by
      have hl := congrArg List.length hvs
      simp only [List.length_map, List.length_take] at hl
      omega
    obtain ⟨t, rfl, rfl⟩ := exists_floats hlen13 time
    exact ⟨t, hvs, ht⟩

/-- A transform, a spawn and a delete as they are documented are parsed back. -/
theorem text_formats_parse_back (h : Host) (cb : Callbacks) (key : Bytes) (pid : UInt16) (vid : UInt8) :
    (∀ tokens : List Bytes, tokens.length = 13 ∨ tokens.length = 14 → (∀ token ∈ tokens, token ≠ [] ∧ 58 ∉ token) →
      ((∃ t, parseTransform h (transformText pid vid tokens) = some t) ↔
        (∀ token ∈ tokens.take 13, ∃ v, h.stof token = some v) ∧ ∀ token ∈ tokens.drop 13, ∃ v, h.stod token = some v) ∧
      ∀ t, parseTransform h (transformText pid vid tokens) = some t →
        t.playerId = pid ∧ t.vehicleId = vid ∧ Reads h tokens t) ∧
    (∀ m, handlePacket h cb key ⟨Code.vehicleSpawn.byte, spawnText pid vid m⟩ = .ok (callIf cb (.spawn pid vid m))) ∧
    handlePacket h cb key ⟨Code.vehicleDel.byte, idsText pid vid⟩ = .ok (callIf cb (.delete pid vid)) := by
  refine ⟨fun tokens hlen htokens => ?_, fun m => ?_, ?_⟩
  · have hparse : ∀ t, parseTransform h (transformText pid vid tokens) = some t ↔
        pid = t.playerId ∧ vid = t.vehicleId ∧ Reads h tokens t :=
      fun t => parseTransform_transformText (by omega) htokens
    refine ⟨?_, fun t ht => ?_⟩
    · rw [← exists_reads_iff hlen]
      constructor
      · rintro ⟨t, ht⟩
        exact ⟨t, ((hparse t).mp ht).2.2⟩
      · rintro ⟨t, ht⟩
        exact ⟨{ t with playerId := pid, vehicleId := vid }, (hparse _).mpr ⟨rfl, rfl, ht⟩⟩
    · obtain ⟨hpid, hvid, hreads⟩ := (hparse t).mp ht
      exact ⟨hpid.symm, hvid.symm, hreads⟩
  · rw [handlePacket_spawn, spawnText, cutAt_eq_some_iff.mpr ⟨rfl, notMem_idsText pid vid⟩]
    dsimp only [Option.elim]
    rw [parseIds_idsText]
  · rw [handlePacket_delete, parseIds_idsText]
    rfl

namespace Sample

/-- A host that reads `0` and nothing else. -/
def zeroHost : Host := { host with stof := fun text => if text = [48] then some 0 else none }

end Sample

theorem text_formats_parse_back_zeros :
    ∃ t, parseTransform Sample.zeroHost (transformText 7 2 (List.replicate 13 [48])) = some t :=
  ((text_formats_parse_back Sample.zeroHost Sample.callbacks [] 7 2).1 (List.replicate 13 [48]) (by decide)
    (by decide)).1.mpr ⟨by simp [Sample.zeroHost], by simp⟩

end NovaMP.BeamMP
