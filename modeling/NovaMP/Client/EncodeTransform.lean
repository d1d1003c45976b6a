/-
  NovaMP.Client.EncodeTransform — a transform written and read back
  (`encodeTransform` and `parseTransform` in `client/src/compat/beammp_protocol.cpp`).

  `snprintf` has 511 bytes of `buf` for the text and drops the rest. Thirteen floats of
  up to 47 characters need more. What is left is parsed as long as it reaches into the
  last float.

  - `parse_encode`: what is parsed has the last float as far as it was kept.
  - `read_back_iff`: the transform comes back exactly if that much of the last float is
    read as all of it (`Room`).
  - `room_of_small`: so it does for floats below `10 ^ 29`.
  - `large_lost`: not for thirteen times the largest.
-/

import Mathlib.Algebra.Order.BigOperators.Group.List
import Mathlib.Data.List.Induction
import NovaMP.Client.TextFormats
import NovaMP.Network.FloatText

namespace NovaMP.BeamMP

open Lib

/-! ## Writing -/

/-- `snprintf` into `char buf[size]`. -/
def snprintf (size : Nat) (text : Bytes) : Bytes := text.take (size - 1)

/-- The floats in the order they are written. -/
def components (pos : Arr3 UInt32) (rot : Arr4 UInt32) (vel angVel : Arr3 UInt32) : List UInt32 :=
  [pos.a0, pos.a1, pos.a2, rot.a0, rot.a1, rot.a2, rot.a3, vel.a0, vel.a1, vel.a2, angVel.a0, angVel.a1, angVel.a2]

/-- The text that is printed, all of it. -/
def printedText (pid : UInt16) (vid : UInt8) (floats : List UInt32) : Bytes :=
  transformText pid vid (floats.map fixedText ++ [utf8 "0"])

def encodeTransform (pid : UInt16) (vid : UInt8) (pos : Arr3 UInt32) (rot : Arr4 UInt32) (vel angVel : Arr3 UInt32) :
    Bytes :=
  snprintf 512 (printedText pid vid (components pos rot vel angVel))

/-! ## Pieces of a text -/

theorem length_splitOn (sep : UInt8) (text : Bytes) : (text.splitOn sep).length = text.count sep + 1 := by
  induction text with
  | nil => simp
  | cons b text ih =>
    rw [List.splitOn_cons_eq_if_modifyHead, List.count_cons]
    split
    · rw [List.length_cons, ih]
    · rw [List.length_modifyHead, ih]

theorem getlines_length_le (sep : UInt8) (text : Bytes) : (getlines sep text).length ≤ text.count sep + 1 := by
  rw [← length_splitOn, getlines]
  split
  · rw [List.length_dropLast]
    omega
  · exact le_rfl

/-- A separator at the end adds no piece. -/
theorem getlines_concat (sep : UInt8) (text : Bytes) : getlines sep (text ++ [sep]) = text.splitOn sep := by
  have hsplit : (text ++ [sep]).splitOn sep = text.splitOn sep ++ [[]] := by
    rw [List.splitOn_append_cons_self, List.splitOn_nil]
  rw [getlines, hsplit]
  simp

theorem transformText_concat {pid : UInt16} {vid : UInt8} {tokens : List Bytes} (hne : tokens ≠ []) (token : Bytes) :
    transformText pid vid (tokens ++ [token]) = transformText pid vid tokens ++ 58 :: token := by
  have hjoin : List.intercalate [58] (tokens ++ [token]) = List.intercalate [58] tokens ++ 58 :: token := by
    induction tokens with
    | nil => exact absurd rfl hne
    | cons a tokens ih =>
      cases tokens with
      | nil => simp
      | cons b tokens =>
        rw [List.cons_append, List.cons_append, List.intercalate_cons_cons, ← List.cons_append, ih (by simp),
          List.intercalate_cons_cons]
        simp
  rw [transformText, hjoin, transformText, List.append_assoc]
  rfl

theorem parseTransform_congr {h : Host} {a b : Bytes} (hpieces : getlines 58 a = getlines 58 b) :
    parseTransform h a = parseTransform h b := by
  rw [parseTransform, hpieces]
  rfl

theorem parseTransform_short {h : Host} {data : Bytes} (hlen : (getlines 58 data).length < 14) :
    parseTransform h data = none := by
  rw [parseTransform, if_pos hlen]

/-! ## What is left of the text -/

section Kept

variable {pid : UInt16} {vid : UInt8} {front : List Bytes} {last : Bytes}

/-- A text with room for a part of the last token is parsed with that part, and the time
    if there is room for it. -/
theorem parse_kept {h : Host} (hne : front ≠ []) (hfront : ∀ token ∈ front, token ≠ [] ∧ 58 ∉ token)
    (hlast : last ≠ [] ∧ 58 ∉ last) (hroom : (transformText pid vid front).length < 510) :
    ∃ time, (time = [] ∨ time = [utf8 "0"]) ∧
      parseTransform h ((transformText pid vid (front ++ [last] ++ [utf8 "0"])).take 511) =
        parseTransform h (transformText pid vid (front ++ last.take (510 - (transformText pid vid front).length) :: time)) := by
  have htext : transformText pid vid (front ++ [last] ++ [utf8 "0"]) =
      transformText pid vid front ++ 58 :: (last ++ 58 :: utf8 "0") := by
    rw [transformText_concat (by simp), transformText_concat hne, List.append_assoc]
    rfl
  generalize hk : 510 - (transformText pid vid front).length = k
  have htake : (transformText pid vid (front ++ [last] ++ [utf8 "0"])).take 511 =
      transformText pid vid front ++ 58 :: (last ++ 58 :: utf8 "0").take k := by
    rw [htext, List.take_append, List.take_of_length_le (by omega)]
    have hcount : 511 - (transformText pid vid front).length = k + 1 := by
      omega
    rw [hcount, List.take_succ_cons]
  rw [htake]
  rcases Nat.lt_trichotomy k (last.length + 1) with hlt | heq | hgt
  · refine ⟨[], .inl rfl, ?_⟩
    rw [List.take_append_of_le_length (by omega), ← transformText_concat hne]
  · refine ⟨[], .inl rfl, parseTransform_congr ?_⟩
    have hcolon : (last ++ 58 :: utf8 "0").take k = last ++ [58] := by
      rw [heq, List.take_append, List.take_of_length_le (by omega)]
      simp
    have hpieces : ∀ token ∈ front ++ [last], token ≠ [] ∧ 58 ∉ token := by
      intro token htoken
      rcases List.mem_append.mp htoken with htoken | htoken
      · exact hfront token htoken
      · obtain rfl := List.mem_singleton.mp htoken
        exact hlast
    rw [hcolon, ← List.cons_append, ← List.append_assoc, ← transformText_concat hne, getlines_concat,
      List.take_of_length_le (show last.length ≤ k by omega), getlines_transformText (by simp) hpieces,
      splitOn_transformText (by simp) fun token htoken => (hpieces token htoken).2]
  · refine ⟨[utf8 "0"], .inr rfl, ?_⟩
    have hall : (last ++ 58 :: utf8 "0").take k = last ++ 58 :: utf8 "0" := by
      have hlen : (utf8 "0").length = 1 := by decide
      exact List.take_of_length_le (by rw [List.length_append, List.length_cons, hlen]; omega)
    rw [hall, ← htext, List.take_of_length_le (show last.length ≤ k by omega), List.append_assoc]
    rfl

/-- Without, the text has too few pieces. -/
theorem parse_short {h : Host} (hne : front ≠ []) (hlen : front.length = 12) (hfront : ∀ token ∈ front, 58 ∉ token)
    (hroom : 510 ≤ (transformText pid vid front).length) :
    parseTransform h ((transformText pid vid (front ++ [last] ++ [utf8 "0"])).take 511) = none := by
  have hcount : (transformText pid vid front).count 58 = 12 := by
    have hpieces := length_splitOn 58 (transformText pid vid front)
    rw [splitOn_transformText hne hfront, List.length_cons] at hpieces
    omega
  have htext : transformText pid vid (front ++ [last] ++ [utf8 "0"]) =
      transformText pid vid front ++ [58] ++ (last ++ 58 :: utf8 "0") := by
    rw [transformText_concat (by simp), transformText_concat hne]
    simp
  apply parseTransform_short
  rcases Nat.lt_or_eq_of_le hroom with hlong | hexact
  · rw [htext, List.append_assoc, List.take_append_of_le_length (by omega)]
    have hle := getlines_length_le 58 ((transformText pid vid front).take 511)
    have hsub := ((transformText pid vid front).take_sublist 511).count_le 58
    omega
  · have htake : (transformText pid vid front ++ [58] ++ (last ++ 58 :: utf8 "0")).take 511 =
        transformText pid vid front ++ [58] := by
      rw [List.take_append_of_le_length (by simp [← hexact]), List.take_of_length_le (by simp [← hexact])]
    rw [htext, htake, getlines_concat, length_splitOn, hcount]
    decide

end Kept

/-! ## Transforms that come back -/

variable (h : Host) (pid : UInt16) (vid : UInt8) (pos : Arr3 UInt32) (rot : Arr4 UInt32) (vel angVel : Arr3 UInt32)

/-- The transform is parsed back: the ids, and each float as its printed decimal is read. -/
def ReadBack : Prop :=
  ∃ t, parseTransform h (encodeTransform pid vid pos rot vel angVel) = some t ∧ t.playerId = pid ∧ t.vehicleId = vid ∧
    t.floats.map some = (components pos rot vel angVel).map fun v => h.stof (fixedText v)

/-- The printed floats before the last one. -/
def front : List Bytes := (components pos rot vel angVel).dropLast.map fixedText

/-- The text before the last float, without the colon between. -/
def beforeLast : Bytes := transformText pid vid (front pos rot vel angVel)

/-- What the buffer keeps of the last float is not empty and is read as all of it. -/
def Room : Prop :=
  (beforeLast pid vid pos rot vel angVel).length < 510 ∧
    h.stof ((fixedText angVel.a2).take (510 - (beforeLast pid vid pos rot vel angVel).length)) =
      h.stof (fixedText angVel.a2)

variable {h pid vid pos rot vel angVel}

theorem encodeTransform_eq : encodeTransform pid vid pos rot vel angVel =
    (transformText pid vid (front pos rot vel angVel ++ [fixedText angVel.a2] ++ [utf8 "0"])).take 511 := rfl

theorem front_length : (front pos rot vel angVel).length = 12 := rfl

theorem front_ne_nil : front pos rot vel angVel ≠ [] := List.ne_nil_of_length_eq_add_one front_length

theorem front_tokens : ∀ token ∈ front pos rot vel angVel, token ≠ [] ∧ 58 ∉ token := by
  intro token htoken
  obtain ⟨v, -, rfl⟩ := List.mem_map.mp htoken
  exact fixedText_token v

/-- The tokens of a text whose last float may be cut. -/
theorem reads_iff {kept : Bytes} {time : List Bytes} {t : Transform} :
    Reads h (front pos rot vel angVel ++ kept :: time) t ↔
      (front pos rot vel angVel).map h.stof ++ [h.stof kept] = t.floats.map some ∧
        time[0]?.elim (some 0) h.stod = some t.timestamp := by
  have htake : (front pos rot vel angVel ++ kept :: time).take 13 = front pos rot vel angVel ++ [kept] := rfl
  have hlast : (front pos rot vel angVel ++ kept :: time)[13]? = time[0]? := rfl
  rw [Reads, htake, hlast, List.map_append]
  rfl

theorem ReadBack.room (hs : ReadBack h pid vid pos rot vel angVel) :
    (beforeLast pid vid pos rot vel angVel).length < 510 := by
  obtain ⟨t, ht, -⟩ := hs
  by_contra hlong
  rw [encodeTransform_eq, parse_short front_ne_nil front_length (fun token htoken => (front_tokens token htoken).2)
    (not_lt.mp hlong)] at ht
  cases ht

/-- With room for a part of the last float, the tokens are the floats, the last of them as
    far as it was kept. -/
theorem parse_encode (hroom : (beforeLast pid vid pos rot vel angVel).length < 510) :
    ∃ time, (time = [] ∨ time = [utf8 "0"]) ∧
      ∀ t, parseTransform h (encodeTransform pid vid pos rot vel angVel) = some t ↔
        pid = t.playerId ∧ vid = t.vehicleId ∧ Reads h (front pos rot vel angVel ++
          (fixedText angVel.a2).take (510 - (beforeLast pid vid pos rot vel angVel).length) :: time) t := by
  obtain ⟨hne, hcolon⟩ := fixedText_token angVel.a2
  have hfront : ∀ token ∈ front pos rot vel angVel, token ≠ [] ∧ 58 ∉ token := front_tokens
  have hlast : fixedText angVel.a2 ≠ [] ∧ 58 ∉ fixedText angVel.a2 := ⟨hne, hcolon⟩
  obtain ⟨time, htime, hparse⟩ := parse_kept (h := h) front_ne_nil hfront hlast hroom
  refine ⟨time, htime, fun t => ?_⟩
  rw [encodeTransform_eq, hparse]
  refine parseTransform_transformText ?_ fun token htoken => ?_
  · rw [List.length_append, List.length_cons, front_length]
    omega
  rcases List.mem_append.mp htoken with htoken | htoken
  · exact front_tokens token htoken
  rcases List.mem_cons.mp htoken with rfl | htoken
  · have hpos : 0 < 510 - (transformText pid vid (front pos rot vel angVel)).length := Nat.sub_pos_of_lt hroom
    refine ⟨fun hnil => ?_, fun hmem => hcolon (List.mem_of_mem_take hmem)⟩
    rcases List.take_eq_nil_iff.mp hnil with hzero | hnil
    · exact absurd hzero hpos.ne'
    · exact hne hnil
  · rcases htime with rfl | rfl
    · cases htoken
    · obtain rfl := List.mem_singleton.mp htoken
      decide

/-- A transform whose floats can be read comes back exactly if the buffer has room for it,
    or cuts off nothing of the last float that is needed. -/
theorem read_back_iff (h : Host) (pid : UInt16) (vid : UInt8) (pos : Arr3 UInt32) (rot : Arr4 UInt32)
    (vel angVel : Arr3 UInt32) (hstof : ∀ v ∈ components pos rot vel angVel, ∃ x, h.stof (fixedText v) = some x)
    (hstod : ∃ x, h.stod (utf8 "0") = some x) :
    ReadBack h pid vid pos rot vel angVel ↔ Room h pid vid pos rot vel angVel := by
  have hcomponents : (components pos rot vel angVel).map (fun v => h.stof (fixedText v)) =
      (front pos rot vel angVel).map h.stof ++ [h.stof (fixedText angVel.a2)] := rfl
  constructor
  · intro hs
    refine ⟨hs.room, ?_⟩
    obtain ⟨time, -, hparse⟩ := parse_encode (h := h) hs.room
    obtain ⟨t, ht, -, -, hfloats⟩ := hs
    obtain ⟨-, -, hreads⟩ := (hparse t).mp ht
    rw [reads_iff, hfloats, hcomponents] at hreads
    simpa using hreads.1
  · rintro ⟨hroom, hlast⟩
    obtain ⟨time, htime, hparse⟩ := parse_encode (h := h) hroom
    obtain ⟨vs, hvs⟩ := (exists_map_some_iff (fun v => h.stof (fixedText v)) _).mpr hstof
    have hlen : vs.length = 13 := by
      have hl := congrArg List.length hvs
      simp only [List.length_map] at hl
      exact hl.symm
    have htime' : ∃ x, time[0]?.elim (some 0) h.stod = some x := by
      rcases htime with rfl | rfl
      · exact ⟨0, rfl⟩
      · exact hstod
    obtain ⟨x, hx⟩ := htime'
    obtain ⟨t, rfl, rfl⟩ := exists_floats hlen x
    refine ⟨{ t with playerId := pid, vehicleId := vid }, (hparse _).mpr ⟨rfl, rfl, ?_⟩, rfl, rfl, hvs.symm⟩
    rw [reads_iff, hlast, ← hcomponents]
    exact ⟨hvs, hx⟩

/-! ## How long the text is -/

theorem length_transformText {tokens : List Bytes} (hne : tokens ≠ []) : (transformText pid vid tokens).length =
    (idsText pid vid).length + (tokens.map fun token => token.length + 1).sum := by
  induction tokens using List.reverseRecOn with
  | nil => exact absurd rfl hne
  | append_singleton tokens token ih =>
    by_cases hnil : tokens = []
    · subst hnil
      simp [transformText]
    · rw [transformText_concat hnil, List.length_append, ih hnil, List.map_append, List.sum_append, List.length_cons]
      simp only [List.map_cons, List.map_nil, List.sum_cons, List.sum_nil]
      omega

theorem idsText_length_le (pid : UInt16) (vid : UInt8) : (idsText pid vid).length ≤ 9 := by
  have hpid : pid.toNat < 10 ^ 5 := Nat.lt_trans pid.toNat_lt (by decide)
  have hvid : vid.toNat < 10 ^ 3 := Nat.lt_trans vid.toNat_lt (by decide)
  have hfirst := (natText_length_le_iff (by decide)).mpr hpid
  have hsecond := (natText_length_le_iff (by decide)).mpr hvid
  rw [idsText, List.length_append, List.length_cons]
  omega

/-- Finite floats that are printed below `10 ^ 29` leave room for all of them. -/
theorem room_of_small (hfinite : ∀ v ∈ components pos rot vel angVel, Single.exponent v ≠ 255)
    (hsmall : ∀ v ∈ components pos rot vel angVel, |Single.printed v| < 10 ^ 29) : Room h pid vid pos rot vel angVel := by
  have hlen : ∀ v ∈ components pos rot vel angVel, (fixedText v).length ≤ 37 :=
    fun v hv => fixedText_length_le (by decide) (hfinite v hv) (hsmall v hv)
  have hsum : ((front pos rot vel angVel).map fun token => token.length + 1).sum ≤ 12 * 38 := by
    have hle := List.sum_le_card_nsmul ((front pos rot vel angVel).map fun token => token.length + 1) 38 ?_
    · simpa [front_length] using hle
    · intro n hn
      obtain ⟨token, htoken, rfl⟩ := List.mem_map.mp hn
      obtain ⟨v, hv, rfl⟩ := List.mem_map.mp htoken
      have := hlen v (List.dropLast_subset _ hv)
      omega
  have hbefore : (beforeLast pid vid pos rot vel angVel).length ≤ 9 + 12 * 38 := by
    have hids := idsText_length_le pid vid
    rw [beforeLast, length_transformText front_ne_nil]
    omega
  have hlast := hlen angVel.a2 (by simp [components])
  refine ⟨by omega, ?_⟩
  rw [List.take_of_length_le (by omega)]

/-! ## Small and large floats -/

namespace Sample

/-- The largest float. -/
def largest : UInt32 := 0x7F7FFFFF

/-- A host that reads what is printed of `v`, and `0`. -/
def reader (v : UInt32) : Host :=
  { host with
    stof := fun text => if text = fixedText v then some v else none
    stod := fun text => if text = utf8 "0" then some 0 else none }

theorem reader_stod (v : UInt32) : ∃ x, (reader v).stod (utf8 "0") = some x := ⟨0, by simp [reader]⟩

theorem forall_components {p : UInt32 → Prop} {v : UInt32} (hv : p v) :
    ∀ u ∈ components ⟨v, v, v⟩ ⟨v, v, v, v⟩ ⟨v, v, v⟩ ⟨v, v, v⟩, p u := by
  intro u hu
  obtain rfl : u = v := by
    simpa [components] using hu
  exact hv

theorem reader_stof (v : UInt32) : ∀ u ∈ components ⟨v, v, v⟩ ⟨v, v, v, v⟩ ⟨v, v, v⟩ ⟨v, v, v⟩,
    ∃ x, (reader v).stof (fixedText u) = some x :=
  forall_components ⟨v, if_pos rfl⟩

end Sample

theorem read_back_zeros : ReadBack (Sample.reader 0) 7 2 ⟨0, 0, 0⟩ ⟨0, 0, 0, 0⟩ ⟨0, 0, 0⟩ ⟨0, 0, 0⟩ :=
  (read_back_iff (Sample.reader 0) 7 2 ⟨0, 0, 0⟩ ⟨0, 0, 0, 0⟩ ⟨0, 0, 0⟩ ⟨0, 0, 0⟩ (Sample.reader_stof 0)
    (Sample.reader_stod 0)).mpr
    (room_of_small (Sample.forall_components (by decide)) (Sample.forall_components (by decide +kernel)))

/-- Thirteen times the largest float: the text breaks off in the eleventh. -/
theorem large_lost : ¬ ∀ (h : Host) (pid : UInt16) (vid : UInt8) (pos : Arr3 UInt32) (rot : Arr4 UInt32)
    (vel angVel : Arr3 UInt32), (∀ v ∈ components pos rot vel angVel, Single.exponent v ≠ 255) →
    (∀ v ∈ components pos rot vel angVel, ∃ x, h.stof (fixedText v) = some x) → (∃ x, h.stod (utf8 "0") = some x) →
    ReadBack h pid vid pos rot vel angVel := by
  intro hall
  let v := Sample.largest
  have hs := hall (Sample.reader v) 1 0 ⟨v, v, v⟩ ⟨v, v, v, v⟩ ⟨v, v, v⟩ ⟨v, v, v⟩ (Sample.forall_components (by decide))
    (Sample.reader_stof v) (Sample.reader_stod v)
  have hlen : (fixedText v).length = 46 := by decide +kernel
  have hroom := hs.room
  rw [beforeLast, length_transformText front_ne_nil] at hroom
  have hfront : front ⟨v, v, v⟩ ⟨v, v, v, v⟩ ⟨v, v, v⟩ ⟨v, v, v⟩ = List.replicate 12 (fixedText v) := rfl
  rw [hfront, List.map_replicate, List.sum_replicate, hlen] at hroom
  have hids : (idsText 1 0).length = 3 := by decide
  rw [hids] at hroom
  exact absurd hroom (by decide)

end NovaMP.BeamMP
