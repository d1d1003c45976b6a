/-
  NovaMP.Sync.Sequences — the sequence numbers of the vehicle updates that are sent.

  A packet's sequence number counts the broadcasts of its entry, so a second entry of
  the same owner, another vehicle or the same one created again, starts at 1 again. The
  numbers of one sender increase exactly in the histories that broadcast one entry of
  that sender only (`OneEntry`).

  - `sequences_round`: the numbers a round sends for one owner, told by the history.
  - `Steady`, `steady_of_oneEntry`: while one entry is broadcast, its counter is the
    number of packets sent for its owner.
  - `sequences_increase_iff`: the equivalence, for every history and owner.
-/

import Mathlib.Data.List.Nodup
import NovaMP.Sync.Independence

namespace NovaMP

namespace VehicleSync

/-! ## The numbers of one sender -/

/-- The sequence numbers of the packets sent for `p`, in the order they are sent. -/
def sequences (p : UInt16) (h : List Call) : List UInt32 :=
  (sentBy p (emitted h)).filterMap fun b => (headerOf b).map (·.sequence)

def Increasing (p : UInt16) (h : List Call) : Prop := (sequences p h).Pairwise (· < ·)

/-- `k` has an update to send. -/
def Waits (h : List Call) (k : Key) : Prop := (pending h k).isSome = true

/-- No update of `p` has ever been broadcast. -/
def Quiet (p : UInt16) : List Call → Prop
  | [] => True
  | .broadcastAll :: h => Quiet p h ∧ ∀ v, ¬ Waits h (p, v)
  | .onVehicleUpdate _ _ :: h | .onVehicleDelete _ _ :: h | .onPlayerDisconnect _ :: h => Quiet p h

/-- All broadcasts for `p` are of one entry: when an entry is broadcast for the first
    time, no other one of `p` was before, and no other one is in the same round. -/
def OneEntry (p : UInt16) : List Call → Prop
  | [] => True
  | .broadcastAll :: h => OneEntry p h ∧
      ∀ v, Waits h (p, v) → broadcasts h (p, v) = 0 → Quiet p h ∧ ∀ v', Waits h (p, v') → v' = v
  | .onVehicleUpdate _ _ :: h | .onVehicleDelete _ _ :: h | .onPlayerDisconnect _ :: h => OneEntry p h

variable {p : UInt16} {h : List Call}

/-- Only a round sends anything. -/
theorem sequences_cons {c : Call} (hc : c ≠ .broadcastAll) : sequences p (c :: h) = sequences p h := by
  cases c with
  | broadcastAll => exact absurd rfl hc
  | _ => rfl

theorem quiet_cons {c : Call} (hc : c ≠ .broadcastAll) : Quiet p (c :: h) ↔ Quiet p h := by
  cases c with
  | broadcastAll => exact absurd rfl hc
  | _ => rfl

theorem oneEntry_cons {c : Call} (hc : c ≠ .broadcastAll) : OneEntry p (c :: h) ↔ OneEntry p h := by
  cases c with
  | broadcastAll => exact absurd rfl hc
  | _ => rfl

theorem emitted_round (h : List Call) : emitted (.broadcastAll :: h) = emitted h ++ (broadcastAll (run h)).1 := by
  simp [emitted, rounds]

/-- A round sends one packet for each waiting vehicle of `p`, under the next number of
    its entry. -/
theorem sequences_round (p : UInt16) (h : List Call) : ∃ L : List UInt8, L.Nodup ∧ (∀ v, v ∈ L ↔ Waits h (p, v)) ∧
    sequences p (.broadcastAll :: h) = sequences p h ++ L.map fun v => UInt32.ofNat (broadcasts h (p, v) + 1) := by
  have hfirst : DirtyFirst (run h) := keyed_dirtyFirst (keyed_run h)
  have hcell {x : Key × Cell} (hx : x ∈ dirtyCells (run h)) :
      pending h x.1 = some x.2.state ∧ x.2.seq = UInt32.ofNat (broadcasts h x.1) := by
    obtain ⟨habs, hd⟩ := (mem_dirtyCells hfirst _ _).mp hx
    have ht := cell_after h x.1
    rw [habs] at ht
    exact ⟨(pending_iff h x.1 _).mpr ⟨x.2, habs, hd, rfl, ht.2.1⟩, ht.2.1⟩
  refine ⟨((dirtyCells (run h)).filter fun x => x.1.1 == p).map fun x => x.1.2, ?_, fun v => ?_, ?_⟩
  · have hkeys : ((dirtyCells (run h)).filter fun x => x.1.1 == p).map Prod.fst |>.Nodup :=
      (nodup_dirtyCells hfirst).sublist (List.filter_sublist.map _)
    refine List.Nodup.of_map (fun v => (p, v)) ?_
    rw [List.map_map]
    refine (List.map_congr_left fun x hx => ?_) ▸ hkeys
    obtain ⟨-, hp⟩ := List.mem_filter.mp hx
    exact Prod.ext (by simpa using hp) rfl
  · rw [Waits, List.mem_map]
    constructor
    · intro hex
      obtain ⟨x, hx, rfl⟩ := hex
      obtain ⟨hin, hp⟩ := List.mem_filter.mp hx
      obtain rfl : x.1.1 = p := by simpa using hp
      rw [(hcell hin).1]
      rfl
    · intro hw
      obtain ⟨st, hst⟩ := Option.isSome_iff_exists.mp hw
      obtain ⟨c, habs, hd, -, -⟩ := (pending_iff h _ st).mp hst
      exact ⟨((p, v), c), List.mem_filter.mpr ⟨(mem_dirtyCells hfirst _ _).mpr ⟨habs, hd⟩, by simp⟩, rfl⟩
  · have happ : sentBy p (emitted (.broadcastAll :: h)) = sentBy p (emitted h) ++ sentBy p (broadcastAll (run h)).1 := by
      rw [emitted_round, sentBy, List.filter_append]
      rfl
    rw [sequences, happ, List.filterMap_append]
    refine congrArg (sequences p h ++ ·) ?_
    rw [broadcastAll_calls, sentBy_calls, List.filterMap_map, List.map_map, ← List.filterMap_eq_map]
    refine List.filterMap_congr fun x hx => ?_
    obtain ⟨hin, hp⟩ := List.mem_filter.mp hx
    obtain rfl : x.1.1 = p := by simpa using hp
    simp [headerOf_callOf, (hcell hin).2, ofNat_succ]

/-! ## Counting -/

theorem waits_live {k : Key} (hw : Waits h k) : live h k = true := by
  obtain ⟨st, hst⟩ := Option.isSome_iff_exists.mp hw
  obtain ⟨c, habs, -⟩ := (pending_iff h k st).mp hst
  have ht := cell_after h k
  rw [habs] at ht
  exact ht.1

theorem broadcasts_waits {k : Key} (hw : Waits h k) : broadcasts (.broadcastAll :: h) k = broadcasts h k + 1 :=
  congrArg (broadcasts h k + ·) (if_pos hw)

theorem broadcasts_rests {k : Key} (hw : ¬ Waits h k) : broadcasts (.broadcastAll :: h) k = broadcasts h k :=
  congrArg (broadcasts h k + ·) (if_neg hw)

/-- A call that is no round creates the entry of `k`, with the counter 0, or leaves its
    counter alone. -/
theorem broadcasts_cons {c : Call} (hc : c ≠ .broadcastAll) {k : Key} (hl : live (c :: h) k = true)
    (hb : broadcasts (c :: h) k ≠ 0) : live h k = true ∧ broadcasts (c :: h) k = broadcasts h k := by
  cases c with
  | broadcastAll => exact absurd rfl hc
  | onVehicleUpdate q st =>
    rw [broadcasts] at hb ⊢
    split at hb
    · exact absurd rfl hb
    · rename_i hnew
      rw [if_neg hnew]
      refine ⟨?_, rfl⟩
      by_cases hk : k = (q, st.vehicleId)
      · by_contra hdead
        exact hnew ⟨hk, Bool.eq_false_iff.mpr hdead⟩
      · simpa [live, hk] using hl
  | onVehicleDelete q v =>
    simp only [live, Bool.and_eq_true] at hl
    exact ⟨hl.2, rfl⟩
  | onPlayerDisconnect q =>
    simp only [live, Bool.and_eq_true] at hl
    exact ⟨hl.2, rfl⟩

/-- Each broadcast of an entry was a packet of its owner. -/
theorem broadcasts_le (p : UInt16) (v : UInt8) (h : List Call) : broadcasts h (p, v) ≤ (sequences p h).length := by
  induction h with
  | nil => exact Nat.le_refl 0
  | cons c h ih =>
    cases c with
    | onVehicleUpdate q st =>
      rw [sequences_cons (by simp), broadcasts]
      split <;> omega
    | onVehicleDelete q v' => rwa [sequences_cons (by simp)]
    | onPlayerDisconnect q => rwa [sequences_cons (by simp)]
    | broadcastAll =>
      obtain ⟨L, -, hL, hseq⟩ := sequences_round p h
      rw [hseq, List.length_append, List.length_map]
      by_cases hw : Waits h (p, v)
      · have hpos := List.length_pos_of_mem ((hL v).mpr hw)
        rw [broadcasts_waits hw]
        omega
      · rw [broadcasts_rests hw]
        omega

theorem quiet_iff (p : UInt16) (h : List Call) : Quiet p h ↔ sequences p h = [] := by
  induction h with
  | nil => exact iff_of_true trivial rfl
  | cons c h ih =>
    by_cases hc : c = .broadcastAll
    · subst hc
      obtain ⟨L, -, hL, hseq⟩ := sequences_round p h
      rw [hseq, List.append_eq_nil_iff, List.map_eq_nil_iff, Quiet, ih]
      refine and_congr_right fun _ => ?_
      rw [List.eq_nil_iff_forall_not_mem]
      exact forall_congr' fun v => not_congr (hL v).symm
    · rw [sequences_cons hc, quiet_cons hc]
      exact ih

theorem toNat_ofNat {n : Nat} (hn : n < 2 ^ 32) : (UInt32.ofNat n).toNat = n := UInt32.toNat_ofNat_of_lt' hn

/-- No number is 0 before the counter wraps. -/
theorem sequences_pos (hlen : (sequences p h).length < 2 ^ 32) : ∀ s ∈ sequences p h, 0 < s.toNat := by
  induction h with
  | nil => intro s hs; cases hs
  | cons c h ih =>
    by_cases hc : c = .broadcastAll
    · subst hc
      obtain ⟨L, -, hL, hseq⟩ := sequences_round p h
      rw [hseq, List.length_append, List.length_map] at hlen
      rw [hseq]
      intro s hs
      rcases List.mem_append.mp hs with hs | hs
      · exact ih (by omega) s hs
      · obtain ⟨v, hv, rfl⟩ := List.mem_map.mp hs
        have hle := broadcasts_le p v h
        have hpos := List.length_pos_of_mem hv
        rw [toNat_ofNat (by omega)]
        omega
    · rw [sequences_cons hc] at hlen ⊢
      exact ih hlen

/-! ## One entry at a time -/

/-- The numbers so far increase, and the one entry that was ever broadcast, while it is
    there, was broadcast as often as there are packets. -/
structure Steady (p : UInt16) (h : List Call) : Prop where
  increasing : Increasing p h
  bounded : ∀ s ∈ sequences p h, s.toNat ≤ (sequences p h).length
  current : ∀ v, live h (p, v) = true → broadcasts h (p, v) ≠ 0 → broadcasts h (p, v) = (sequences p h).length
  single : ∀ v v', live h (p, v) = true → broadcasts h (p, v) ≠ 0 → live h (p, v') = true → broadcasts h (p, v') ≠ 0 →
    v = v'

namespace Steady

theorem cons (hs : Steady p h) {c : Call} (hc : c ≠ .broadcastAll) : Steady p (c :: h) := by
  have hseq : sequences p (c :: h) = sequences p h := sequences_cons hc
  refine ⟨by rw [Increasing, hseq]; exact hs.increasing, by rw [hseq]; exact hs.bounded, ?_, ?_⟩
  · intro v hl hb
    obtain ⟨hl', hsame⟩ := broadcasts_cons hc hl hb
    rw [hseq, hsame]
    exact hs.current v hl' (hsame ▸ hb)
  · intro v v' hl hb hl' hb'
    obtain ⟨hlive, hsame⟩ := broadcasts_cons hc hl hb
    obtain ⟨hlive', hsame'⟩ := broadcasts_cons hc hl' hb'
    exact hs.single v v' hlive (hsame ▸ hb) hlive' (hsame' ▸ hb')

/-- In a round at most one vehicle waits, and its next number is the next for `p`. -/
theorem next (hs : Steady p h) (hone : OneEntry p (.broadcastAll :: h)) {v : UInt8} (hw : Waits h (p, v)) :
    broadcasts h (p, v) = (sequences p h).length ∧ ∀ v', Waits h (p, v') → v' = v := by
  by_cases hb : broadcasts h (p, v) = 0
  · obtain ⟨hquiet, hall⟩ := hone.2 v hw hb
    rw [hb, (quiet_iff p h).mp hquiet]
    exact ⟨rfl, hall⟩
  · have hcur := hs.current v (waits_live hw) hb
    refine ⟨hcur, fun v' hw' => ?_⟩
    by_cases hb' : broadcasts h (p, v') = 0
    · -- A second entry would start although packets were sent.
      obtain ⟨hquiet, -⟩ := hone.2 v' hw' hb'
      rw [(quiet_iff p h).mp hquiet] at hcur
      exact absurd hcur hb
    · exact hs.single v' v (waits_live hw') hb' (waits_live hw) hb

theorem round (hs : Steady p h) (hone : OneEntry p (.broadcastAll :: h))
    (hlen : (sequences p (.broadcastAll :: h)).length < 2 ^ 32) : Steady p (.broadcastAll :: h) := by
  obtain ⟨L, hnodup, hL, hseq⟩ := sequences_round p h
  rcases L with _ | ⟨v, L⟩
  · have hrest (v : UInt8) : ¬ Waits h (p, v) := fun hw => by cases (hL v).mpr hw
    rw [List.map_nil, List.append_nil] at hseq
    refine ⟨by rw [Increasing, hseq]; exact hs.increasing, by rw [hseq]; exact hs.bounded, ?_, ?_⟩
    · intro v hl hb
      rw [broadcasts_rests (hrest v)] at hb ⊢
      rw [hseq]
      exact hs.current v hl hb
    · intro v v' hl hb hl' hb'
      rw [broadcasts_rests (hrest _)] at hb hb'
      exact hs.single v v' hl hb hl' hb'
  · have hw : Waits h (p, v) := (hL v).mp List.mem_cons_self
    obtain ⟨hcur, hall⟩ := hs.next hone hw
    obtain rfl : L = [] := by
      refine List.eq_nil_iff_forall_not_mem.mpr fun v' hv' => (List.nodup_cons.mp hnodup).1 ?_
      rwa [← hall v' ((hL v').mp (List.mem_cons_of_mem _ hv'))]
    rw [List.map_singleton, hcur] at hseq
    have hcount : (sequences p (.broadcastAll :: h)).length = (sequences p h).length + 1 := by rw [hseq]; simp
    have hnext : (UInt32.ofNat ((sequences p h).length + 1)).toNat = (sequences p h).length + 1 :=
      toNat_ofNat (by omega)
    have hmain (v' : UInt8) (hl : live h (p, v') = true) (hb : broadcasts (.broadcastAll :: h) (p, v') ≠ 0) : v' = v := by
      by_cases hw' : Waits h (p, v')
      · exact hall v' hw'
      · rw [broadcasts_rests hw'] at hb
        have hcur' := hs.current v' hl hb
        exact hs.single v' v hl hb (waits_live hw) (by omega)
    refine ⟨?_, ?_, ?_, ?_⟩
    · rw [Increasing, hseq, List.pairwise_append]
      refine ⟨hs.increasing, List.pairwise_singleton _ _, fun s hmem s' hmem' => ?_⟩
      rw [List.mem_singleton.mp hmem', UInt32.lt_iff_toNat_lt, hnext]
      have := hs.bounded s hmem
      omega
    · rw [hcount]
      intro s hmem
      rw [hseq] at hmem
      rcases List.mem_append.mp hmem with hmem | hmem
      · have := hs.bounded s hmem
        omega
      · rw [List.mem_singleton.mp hmem, hnext]
    · intro v' hl hb
      obtain rfl := hmain v' hl hb
      rw [broadcasts_waits hw, hcur, hcount]
    · intro v' v'' hl hb hl' hb'
      rw [hmain v' hl hb, hmain v'' hl' hb']

end Steady

theorem steady_of_oneEntry (hone : OneEntry p h) (hlen : (sequences p h).length < 2 ^ 32) : Steady p h := by
  induction h with
  | nil =>
    refine ⟨List.Pairwise.nil, fun s hs => ?_, fun v hl => ?_, fun v v' hl => ?_⟩
    · cases hs
    · cases hl
    · cases hl
  | cons c h ih =>
    by_cases hc : c = .broadcastAll
    · subst hc
      obtain ⟨L, -, -, hseq⟩ := sequences_round p h
      have hshort : (sequences p h).length < 2 ^ 32 := by
        rw [hseq, List.length_append] at hlen
        omega
      exact (ih hone.1 hshort).round hone hlen
    · rw [sequences_cons hc] at hlen
      exact (ih ((oneEntry_cons hc).mp hone) hlen).cons hc

/-! ## And no other runs -/

/-- Two entries of one owner share the number 1. -/
theorem oneEntry_of_increasing (hinc : Increasing p h) (hlen : (sequences p h).length < 2 ^ 32) : OneEntry p h := by
  induction h with
  | nil => trivial
  | cons c h ih =>
    by_cases hc : c = .broadcastAll
    · subst hc
      obtain ⟨L, hnodup, hL, hseq⟩ := sequences_round p h
      rw [hseq, List.length_append, List.length_map] at hlen
      rw [Increasing, hseq, List.pairwise_append] at hinc
      obtain ⟨hold, hround, hcross⟩ := hinc
      refine ⟨ih hold (by omega), fun v hw hb => ?_⟩
      have hv : v ∈ L := (hL v).mpr hw
      have hlen0 := List.length_pos_of_mem hv
      -- Its number is 1, so nothing comes before it.
      have hquiet : sequences p h = [] := by
        refine List.eq_nil_iff_forall_not_mem.mpr fun s hs => ?_
        have hlt := hcross s hs _ (List.mem_map.mpr ⟨v, hv, rfl⟩)
        have hpos := sequences_pos (by omega) s hs
        rw [UInt32.lt_iff_toNat_lt, hb, toNat_ofNat (by omega)] at hlt
        omega
      refine ⟨(quiet_iff p h).mpr hquiet, fun v' hw' => ?_⟩
      have hb' := broadcasts_le p v' h
      rw [hquiet, List.length_nil] at hb'
      have hboth : broadcasts h (p, v') = broadcasts h (p, v) := by omega
      have hdiffer : (L.map fun v => UInt32.ofNat (broadcasts h (p, v) + 1)).Nodup := hround.imp UInt32.ne_of_lt
      exact List.inj_on_of_nodup_map hdiffer ((hL v').mpr hw') hv (by rw [hboth])
    · rw [Increasing, sequences_cons hc] at hinc
      rw [sequences_cons hc] at hlen
      exact (oneEntry_cons hc).mpr (ih hinc hlen)

theorem sequences_length_le (p : UInt16) (h : List Call) : (sequences p h).length ≤ (emitted h).length :=
  le_trans (List.length_filterMap_le _ _) (List.length_filter_le _ _)

/-- In a run of fewer than 2^32 packets the numbers of a sender increase exactly when all
    its broadcasts are of one entry. -/
theorem sequences_increase_iff (h : List Call) (hlen : (emitted h).length < 2 ^ 32) (p : UInt16) :
    Increasing p h ↔ OneEntry p h := by
  have hshort := lt_of_le_of_lt (sequences_length_le p h) hlen
  exact ⟨fun hinc => oneEntry_of_increasing hinc hshort, fun hone => (steady_of_oneEntry hone hshort).increasing⟩

/-- One vehicle, broadcast twice. -/
def oneVehicle : List Call := [.broadcastAll, .onVehicleUpdate 7 .zero, .broadcastAll, .onVehicleUpdate 7 .zero]

theorem waits_oneVehicle {h : List Call} (hrest : ∀ v, v ≠ 0 → ¬ Waits h (7, v)) {v : UInt8}
    (hw : Waits (.onVehicleUpdate 7 .zero :: h) (7, v)) : v = 0 := by
  by_contra hv
  have hk : ¬ ((7, v) : Key) = (7, VehicleState.zero.vehicleId) := fun he => hv (congrArg Prod.snd he)
  rw [Waits, pending, if_neg hk] at hw
  exact hrest v hv hw

theorem oneEntry_oneVehicle : OneEntry 7 oneVehicle := by
  refine ⟨⟨trivial, fun v hw _ => ⟨trivial, fun v' hw' => ?_⟩⟩, fun v hw hb => ?_⟩
  · have hnone (v : UInt8) (_ : v ≠ 0) : ¬ Waits [] (7, v) := Bool.false_ne_true
    rw [waits_oneVehicle hnone hw, waits_oneVehicle hnone hw']
  · have hnone (v : UInt8) (_ : v ≠ 0) : ¬ Waits [.broadcastAll, .onVehicleUpdate 7 .zero] (7, v) := Bool.false_ne_true
    obtain rfl := waits_oneVehicle hnone hw
    cases hb

theorem sequences_increase_one : (emitted oneVehicle).length < 2 ^ 32 ∧ OneEntry 7 oneVehicle ∧ Increasing 7 oneVehicle :=
  ⟨by decide, oneEntry_oneVehicle, (sequences_increase_iff oneVehicle (by decide) 7).mpr oneEntry_oneVehicle⟩

/-- Two vehicles of one owner: both are sent under the number 1. -/
theorem sequences_repeat : ¬ ∀ h : List Call, (emitted h).length < 2 ^ 32 → ∀ p, Increasing p h := by
  intro hall
  have hinc := hall [.broadcastAll, .onVehicleUpdate 7 { VehicleState.zero with vehicleId := 1 }, .onVehicleUpdate 7 .zero]
    (by decide) 7
  have hseq : sequences 7 [.broadcastAll, .onVehicleUpdate 7 { VehicleState.zero with vehicleId := 1 },
      .onVehicleUpdate 7 .zero] = [1, 1] := by decide
  rw [Increasing, hseq] at hinc
  exact absurd hinc (by decide)

end VehicleSync

end NovaMP
