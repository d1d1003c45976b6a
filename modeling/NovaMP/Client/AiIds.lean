/-
  NovaMP.Client.AiIds — the server ids of the traffic over any calls of `activate`,
  `deactivate` and `onUpdate` (`client/Resources/Client/ai_authority.lua`).

  `allocSVID` looks for the lowest id from 200 to 254 that `vid_map` has not given away; an
  id is free again when a tick finds its vehicle gone, or when the authority ends. Each tick
  has its own vehicles, those of the player, connection and clock (`Tick`).

  - `Numbering`: no two vehicles have one id, and ids are from 200 to 254. Each call of
    `allocSVID` keeps it (`allocSVID_numbering`), so it holds throughout a loop.
  - `allocSVID_eq_none`: there is no id exactly when all 55 are given away.
  - `sent_mapped`: while the authority lasts and the vehicle is there, it is sent under the
    id it has.
  - `ai_ids`: all of this over runs, with the ids as they are in the packets.
-/

import NovaMP.Client.Extension

namespace NovaMP.Client

open Lib StringPack

namespace Extension

/-! ## Giving an id -/

/-- No two vehicles of the game have one id, and each id is a server id of the traffic. -/
structure Numbering (m : Table Nat Int) : Prop where
  inj : Table.Inj m
  range : ∀ gid svid, m.lookup gid = some svid → 200 ≤ svid ∧ svid ≤ 254

theorem mem_svids {svid : Int} : svid ∈ svids ↔ 200 ≤ svid ∧ svid ≤ 254 := by
  simp only [svids, List.pure_def, List.bind_eq_flatMap, List.mem_map, List.mem_flatMap, List.mem_range,
    List.mem_singleton]
  constructor
  · intro hin
    obtain ⟨i, ⟨n, hn, rfl⟩, rfl⟩ := hin
    omega
  · intro hbounds
    obtain ⟨hlow, hhigh⟩ := hbounds
    exact ⟨svid - 200, ⟨(svid - 200).toNat, by omega, by omega⟩, by omega⟩

theorem mem_values {m : Table Nat Int} {svid : Int} : svid ∈ m.entries.map (·.2) ↔ ∃ gid, m.lookup gid = some svid := by
  rw [List.mem_map]
  constructor
  · intro hin
    obtain ⟨e, he, rfl⟩ := hin
    exact ⟨e.1, Table.lookup_iff_mem.mpr he⟩
  · intro hin
    obtain ⟨gid, hgid⟩ := hin
    exact ⟨⟨gid, svid⟩, Table.lookup_iff_mem.mp hgid, rfl⟩

theorem allocSVID_eq_none {m : Table Nat Int} {gid : Nat} :
    allocSVID m gid = none ↔ gid ∉ m ∧ ∀ svid, 200 ≤ svid → svid ≤ 254 → ∃ gid', m.lookup gid' = some svid := by
  unfold allocSVID
  cases hgid : m.lookup gid with
  | some svid => simp [Table.mem_of_lookup hgid]
  | none =>
    have hnot : gid ∉ m := AList.lookup_eq_none.mp hgid
    cases hfree : svids.find? fun svid => svid ∉ m.entries.map (·.2) with
    | some svid =>
      refine iff_of_false nofun fun hall => ?_
      obtain ⟨hlow, hhigh⟩ := mem_svids.mp (List.mem_of_find?_eq_some hfree)
      have hused := mem_values.mpr (hall.2 svid hlow hhigh)
      have hunused : svid ∉ m.entries.map (·.2) := by simpa using List.find?_some hfree
      exact hunused hused
    | none =>
      refine iff_of_true rfl ⟨hnot, fun svid hlow hhigh => mem_values.mp ?_⟩
      simpa using List.find?_eq_none.mp hfree svid (mem_svids.mpr ⟨hlow, hhigh⟩)

theorem allocSVID_numbering {m m' : Table Nat Int} (h : Numbering m) {gid : Nat} {svid : Int}
    (ha : allocSVID m gid = some (svid, m')) : Numbering m' := by
  unfold allocSVID at ha
  split at ha
  · cases ha
    exact h
  split at ha
  · rename_i _ hfree
    cases ha
    have hunused : svid ∉ m.entries.map (·.2) := by simpa using List.find?_some hfree
    refine ⟨h.inj.insert fun gid' _ hgid' => hunused (mem_values.mpr ⟨gid', hgid'⟩), fun gid' k hk => ?_⟩
    rw [Table.lookup_insert'] at hk
    split at hk
    · cases hk
      exact mem_svids.mp (List.mem_of_find?_eq_some hfree)
    · exact h.range gid' k hk
  · cases ha

theorem Numbering.empty : Numbering (∅ : Table Nat Int) := ⟨Table.inj_empty, fun gid svid h => by simp at h⟩

theorem Numbering.filterKeys {m : Table Nat Int} (h : Numbering m) (p : Nat → Bool) : Numbering (m.filterKeys p) := by
  have hsub : ∀ {gid svid}, (m.filterKeys p).lookup gid = some svid → m.lookup gid = some svid := by
    intro gid svid hk
    rw [Table.lookup_filterKeys] at hk
    split at hk
    · exact hk
    · cases hk
  exact ⟨fun gid gid' svid hg hg' => h.inj gid gid' svid (hsub hg) (hsub hg'), fun gid svid hk => h.range gid svid (hsub hk)⟩

variable (mod : Mod) (playerVids : Finset Nat) (read : Nat → Option Reading)

theorem scan_numbering (gids : List Nat) {m : Table Nat Int} (h : Numbering m) :
    Numbering (scan mod playerVids read gids m).1 := by
  fun_induction scan mod playerVids read gids m with
  | case1 m => exact h
  | case2 gid gids m _ ih => exact ih h
  | case3 gid gids m _ _ ih => exact ih h
  | case4 gid gids m _ svid m' halloc _ ih => exact ih (allocSVID_numbering h halloc)
  | case5 gid gids m _ svid m' halloc => exact allocSVID_numbering h halloc
  | case6 gid gids m _ svid m' halloc => exact allocSVID_numbering h halloc
  | case7 gid gids m _ svid m' halloc r _ payload _ _ _ m'' sent raised hrec ih =>
    rw [hrec] at ih
    exact ih (allocSVID_numbering h halloc)

variable {mod playerVids read}

/-- The id comes first in the packet. -/
theorem head_built {svid : Int} {r : Reading} {payload : Bytes}
    (hb : buildVehicleStatePayload (.int svid) r = .ok payload) : payload.head? = some (UInt8.ofNat svid.toNat) := by
  rw [buildVehicleStatePayload, formatOptions_eq] at hb
  obtain ⟨b, rest, hput, -, rfl⟩ := pack_cons_inv hb
  simp only [Opt.put, Value.checkInteger] at hput
  split at hput
  · cases hput
    rw [leBytes_one]
    rfl
  · cases hput

/-! ## Calls -/

/-- What a call of `onUpdate` finds. -/
structure Tick where
  mod : Mod
  connected : Bool
  scene : List Nat
  playerVids : Finset Nat
  due : Bool
  read : Nat → Option Reading

inductive AiCall where
  | activate
  | deactivate
  | onUpdate (t : Tick)

def seeing (x : Extension) (t : Tick) : Extension :=
  { x with mod := t.mod, connected := t.connected, scene := t.scene, playerVids := t.playerVids }

/-- The state after a call, and the updates it sends. -/
def exec (x : Extension) : AiCall → Extension × List AiUpdate
  | .activate => (x.activate, [])
  | .deactivate => (x.deactivate, [])
  | .onUpdate t =>
    let (x, sent, _) := (x.seeing t).onUpdate t.due t.read
    (x, sent)

/-- The state after some calls. -/
def after (x : Extension) (calls : List AiCall) : Extension := calls.foldl (fun x c => (x.exec c).1) x

/-- What some calls send. -/
def sends : Extension → List AiCall → List AiUpdate
  | _, [] => []
  | x, c :: calls => (x.exec c).2 ++ sends (x.exec c).1 calls

/-- The vehicle is there, if the call is a tick, and the authority does not end. -/
def AiCall.Keeps (gid : Nat) : AiCall → Prop
  | .activate => True
  | .deactivate => False
  | .onUpdate t => gid ∈ t.scene

variable {x : Extension} {gid : Nat}

theorem exec_numbering (h : Numbering x.vidMap) (c : AiCall) : Numbering (x.exec c).1.vidMap := by
  cases c with
  | activate =>
    show Numbering x.activate.vidMap
    unfold activate
    split
    · exact h
    · exact .empty
  | deactivate =>
    show Numbering x.deactivate.vidMap
    unfold deactivate
    split
    · exact .empty
    · exact h
  | onUpdate t =>
    have hscan := scan_numbering t.mod t.playerVids t.read t.scene h
    show Numbering ((x.seeing t).onUpdate t.due t.read).1.vidMap
    unfold onUpdate
    split
    · split
      · rename_i m sent e hm
        have hvids : (scan t.mod t.playerVids t.read t.scene x.vidMap).1 = m := congrArg Prod.fst hm
        exact hvids ▸ hscan
      · rename_i m sent hm
        have hvids : (scan t.mod t.playerVids t.read t.scene x.vidMap).1 = m := congrArg Prod.fst hm
        show Numbering (m.filterKeys fun gid => gid ∈ t.scene)
        exact Numbering.filterKeys (hvids ▸ hscan) _
    · exact h

theorem after_numbering (h : Numbering x.vidMap) (calls : List AiCall) : Numbering (x.after calls).vidMap := by
  induction calls generalizing x with
  | nil => exact h
  | cons c calls ih => exact ih (exec_numbering h c)

/-! ## What is sent -/

/-- An update is sent by an authority, under the id that the vehicle has afterwards. -/
theorem exec_sent {c : AiCall} {u : AiUpdate} (hu : u ∈ (x.exec c).2) :
    x.active = true ∧ (x.exec c).1.vidMap.lookup u.gid = some u.svid ∧
      u.payload.head? = some (UInt8.ofNat u.svid.toNat) := by
  cases c with
  | activate => cases hu
  | deactivate => cases hu
  | onUpdate t =>
    obtain ⟨-, -, hlookup, r, hbuilt⟩ := onUpdate_sent (x := x.seeing t) hu
    refine ⟨?_, hlookup, head_built hbuilt⟩
    by_contra hinactive
    have hidle : (x.seeing t).onUpdate t.due t.read = (x.seeing t, [], none) := onUpdate_idle fun h => hinactive h.2.2
    have hsent : u ∈ ((x.seeing t).onUpdate t.due t.read).2.1 := hu
    rw [hidle] at hsent
    cases hsent

/-- A vehicle that is there keeps its id, while the authority lasts. -/
theorem exec_keeps {c : AiCall} (hc : c.Keeps gid) (hactive : x.active = true) {svid : Int}
    (h : x.vidMap.lookup gid = some svid) :
    (x.exec c).1.active = true ∧ (x.exec c).1.vidMap.lookup gid = some svid := by
  cases c with
  | activate =>
    have hsame : x.activate = x := if_pos hactive
    show x.activate.active = true ∧ x.activate.vidMap.lookup gid = some svid
    rw [hsame]
    exact ⟨hactive, h⟩
  | deactivate => exact hc.elim
  | onUpdate t =>
    obtain ⟨vidMap, hframe⟩ := onUpdate_frame (x.seeing t) t.due t.read
    refine ⟨?_, onUpdate_keeps (x := x.seeing t) h hc⟩
    show ((x.seeing t).onUpdate t.due t.read).1.active = true
    rw [hframe]
    exact hactive

/-- So it is sent under that id. -/
theorem sent_mapped {calls : List AiCall} (hkeeps : ∀ c ∈ calls, c.Keeps gid) (hactive : x.active = true) {svid : Int}
    (h : x.vidMap.lookup gid = some svid) : ∀ u ∈ x.sends calls, u.gid = gid → u.svid = svid := by
  induction calls generalizing x with
  | nil => exact fun u hu => nomatch hu
  | cons c calls ih =>
    obtain ⟨hactive', h'⟩ := exec_keeps (hkeeps c (List.mem_cons_self ..)) hactive h
    intro u hu hgid
    rcases List.mem_append.mp hu with hu | hu
    · have hlookup := (exec_sent hu).2.1
      rw [hgid, h'] at hlookup
      exact (Option.some.inj hlookup).symm
    · exact ih (fun c' hc' => hkeeps c' (List.mem_cons_of_mem _ hc')) hactive' h' u hu hgid

theorem active_after_sent {c : AiCall} (hc : c.Keeps gid) {u : AiUpdate} (hu : u ∈ (x.exec c).2) :
    (x.exec c).1.active = true := by
  cases c with
  | activate => cases hu
  | deactivate => cases hu
  | onUpdate t =>
    obtain ⟨vidMap, hframe⟩ := onUpdate_frame (x.seeing t) t.due t.read
    show ((x.seeing t).onUpdate t.due t.read).1.active = true
    rw [hframe]
    exact (exec_sent hu).1

/-- All updates of a vehicle that stays there while the authority lasts are under one id. -/
theorem sends_same {calls : List AiCall} (hkeeps : ∀ c ∈ calls, c.Keeps gid) :
    ∀ u ∈ x.sends calls, ∀ u' ∈ x.sends calls, u.gid = gid → u'.gid = gid → u.svid = u'.svid := by
  induction calls generalizing x with
  | nil => exact fun u hu => nomatch hu
  | cons c calls ih =>
    have hrest : ∀ c' ∈ calls, c'.Keeps gid := fun c' hc' => hkeeps c' (List.mem_cons_of_mem _ hc')
    -- after the first update of the vehicle its id is mapped
    have hlater : ∀ {u : AiUpdate}, u ∈ (x.exec c).2 → u.gid = gid → ∀ u' ∈ (x.exec c).1.sends calls, u'.gid = gid →
        u'.svid = u.svid := by
      intro u hu hgid
      have hlookup := (exec_sent hu).2.1
      rw [hgid] at hlookup
      exact sent_mapped hrest (active_after_sent (hkeeps c (List.mem_cons_self ..)) hu) hlookup
    intro u hu u' hu' hgid hgid'
    rcases List.mem_append.mp hu with hu | hu <;> rcases List.mem_append.mp hu' with hu' | hu'
    · have hlookup := (exec_sent hu).2.1
      have hlookup' := (exec_sent hu').2.1
      rw [hgid] at hlookup
      rw [hgid', hlookup] at hlookup'
      exact Option.some.inj hlookup'
    · exact (hlater hu hgid u' hu' hgid').symm
    · exact hlater hu' hgid' u hu hgid
    · exact ih hrest u hu u' hu' hgid hgid'

theorem sends_head {calls : List AiCall} {u : AiUpdate} (hu : u ∈ x.sends calls) :
    u.payload.head? = some (UInt8.ofNat u.svid.toNat) := by
  induction calls generalizing x with
  | nil => cases hu
  | cons c calls ih =>
    rcases List.mem_append.mp hu with hu | hu
    · exact (exec_sent hu).2.2
    · exact ih hu

theorem byte_inj {j k : Int} (hj : 200 ≤ j ∧ j ≤ 254) (hk : 200 ≤ k ∧ k ≤ 254)
    (h : UInt8.ofNat j.toNat = UInt8.ofNat k.toNat) : j = k := by
  have hnat := congrArg UInt8.toNat h
  rw [UInt8.toNat_ofNat', UInt8.toNat_ofNat', Nat.mod_eq_of_lt (by omega), Nat.mod_eq_of_lt (by omega)] at hnat
  omega

/-- After any calls, and in the midst of a loop, no two vehicles have one id; a vehicle that
    stays is sent under one id, other vehicles at that tick under others; and there is no id
    for a vehicle only when all 55 are given away. -/
theorem ai_ids (calls : List AiCall) :
    let x := init.after calls
    Numbering x.vidMap ∧
    (∀ (t : Tick) (n : Nat), Numbering (scan t.mod t.playerVids t.read (t.scene.take n) x.vidMap).1) ∧
    (∀ (gid : Nat) (later : List AiCall), (∀ c ∈ later, c.Keeps gid) → ∀ u ∈ x.sends later, ∀ u' ∈ x.sends later,
      u.gid = gid → u'.gid = gid → u.payload.head? = u'.payload.head?) ∧
    (∀ t : Tick, ∀ u ∈ (x.exec (.onUpdate t)).2, ∀ u' ∈ (x.exec (.onUpdate t)).2,
      u.payload.head? = u'.payload.head? → u.gid = u'.gid) ∧
    ∀ (m : Table Nat Int) (gid : Nat), allocSVID m gid = none →
      ∀ svid, 200 ≤ svid → svid ≤ 254 → ∃ gid', m.lookup gid' = some svid := by
  intro x
  have hx : Numbering x.vidMap := after_numbering .empty calls
  refine ⟨hx, fun t n => scan_numbering _ _ _ _ hx, ?_, ?_, fun m gid h => (allocSVID_eq_none.mp h).2⟩
  · intro gid later hkeeps u hu u' hu' hgid hgid'
    rw [sends_head hu, sends_head hu', sends_same hkeeps u hu u' hu' hgid hgid']
  · intro t u hu u' hu' hhead
    obtain ⟨-, hlookup, hbyte⟩ := exec_sent hu
    obtain ⟨-, hlookup', hbyte'⟩ := exec_sent hu'
    have hnew := exec_numbering hx (.onUpdate t)
    rw [hbyte, hbyte'] at hhead
    have hsvid := byte_inj (hnew.range _ _ hlookup) (hnew.range _ _ hlookup') (Option.some.inj hhead)
    rw [← hsvid] at hlookup'
    exact hnew.inj _ _ _ hlookup hlookup'

end Extension

end NovaMP.Client
