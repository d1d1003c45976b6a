/-
  NovaMP.Lib.Table — finite maps with an order of iteration.

  A `Table κ ν` is a Mathlib `AList`: entries without a repeated key, in the order a
  loop over the map visits them. `put` overwrites a value in place, `mapValues` all of
  them, `filterKeys` keeps some keys, `keyOf` is the first key a loop finds with a given
  value, `countValues` counts the values that meet a test and `sumValues` adds up a
  measure of them. `Inj` says no two keys share a value, `Names t p` that each element of
  the set `p` has exactly one key and no other value occurs, `Inverse t u` that `u` maps
  each value of `t` back to its key.
-/

import Mathlib.Algebra.Ring.Nat
import Mathlib.Data.List.AList
import Mathlib.Data.Set.Insert

namespace NovaMP.Lib

abbrev Table (κ ν : Type) := AList (fun _ : κ => ν)

namespace Table

variable {κ ν : Type} [DecidableEq κ]

def setValue (k : κ) (v : ν) (e : Sigma fun _ : κ => ν) : Sigma fun _ : κ => ν :=
  ⟨e.1, if e.1 = k then v else e.2⟩

theorem keys_map_setValue (l : List (Sigma fun _ : κ => ν)) (k : κ) (v : ν) :
    List.keys (l.map (setValue k v)) = List.keys l := by
  simp [List.keys, setValue, Function.comp_def]

/-- Assignment through a pointer to the value of `k`. -/
def put (t : Table κ ν) (k : κ) (v : ν) : Table κ ν where
  entries := t.entries.map (setValue k v)
  nodupKeys := by
    rw [List.NodupKeys, keys_map_setValue]
    exact t.nodupKeys

theorem lookup_iff_mem {t : Table κ ν} {k : κ} {v : ν} : t.lookup k = some v ↔ (⟨k, v⟩ : Sigma _) ∈ t.entries :=
  AList.mem_lookup_iff

theorem mem_iff {t : Table κ ν} {k : κ} : k ∈ t ↔ ∃ v, t.lookup k = some v := by
  rw [← AList.lookup_isSome, Option.isSome_iff_exists]

theorem mem_of_lookup {t : Table κ ν} {k : κ} {v : ν} (h : t.lookup k = some v) : k ∈ t :=
  mem_iff.mpr ⟨v, h⟩

theorem lookup_insert' (t : Table κ ν) (k k' : κ) (v : ν) :
    (t.insert k v).lookup k' = if k' = k then some v else t.lookup k' := by
  split
  · rename_i h
    subst h
    exact AList.lookup_insert t
  · exact AList.lookup_insert_ne ‹_›

theorem lookup_erase' (t : Table κ ν) (k k' : κ) :
    (t.erase k).lookup k' = if k' = k then none else t.lookup k' := by
  split
  · rename_i h
    subst h
    exact AList.lookup_erase k' t
  · exact AList.lookup_erase_ne ‹_›

theorem lookup_of_erase {t : Table κ ν} {k k' : κ} {v : ν} (h : (t.erase k).lookup k' = some v) : t.lookup k' = some v := by
  rw [lookup_erase'] at h
  split at h
  · cases h
  · exact h

theorem erase_of_notMem {t : Table κ ν} {k : κ} (h : k ∉ t) : t.erase k = t :=
  AList.ext (List.kerase_of_notMem_keys h)

theorem erase_eq_self_iff {t : Table κ ν} {k : κ} : t.erase k = t ↔ k ∉ t := by
  constructor
  · intro h hk
    rw [← h, AList.mem_erase] at hk
    exact hk.1 rfl
  · exact erase_of_notMem

theorem erase_insert_self (t : Table κ ν) (k : κ) (v : ν) : (t.insert k v).erase k = t.erase k :=
  AList.ext (List.kerase_cons_eq rfl)

@[simp] theorem keys_put (t : Table κ ν) (k : κ) (v : ν) : AList.keys (t.put k v) = AList.keys t :=
  keys_map_setValue t.entries k v

theorem lookup_put_ne {t : Table κ ν} {k k' : κ} (h : k' ≠ k) (v : ν) : (t.put k v).lookup k' = t.lookup k' := by
  ext u
  rw [lookup_iff_mem, lookup_iff_mem]
  constructor
  · intro hm
    obtain ⟨e, he, heq⟩ := List.mem_map.mp hm
    cases heq
    rw [if_neg h]
    exact he
  · intro hm
    refine List.mem_map.mpr ⟨_, hm, ?_⟩
    rw [setValue, if_neg h]

theorem lookup_put_self {t : Table κ ν} {k : κ} {u : ν} (h : t.lookup k = some u) (v : ν) :
    (t.put k v).lookup k = some v := by
  rw [lookup_iff_mem] at h ⊢
  refine List.mem_map.mpr ⟨_, h, ?_⟩
  rw [setValue, if_pos rfl]

/-- Writing what is there already. -/
theorem put_lookup {t : Table κ ν} {k : κ} {v : ν} (h : t.lookup k = some v) : t.put k v = t := by
  have hsame : ∀ e ∈ t.entries, setValue k v e = e := by
    intro e he
    by_cases hk : e.1 = k
    · have hu : t.lookup k = some e.2 := by
        rw [← hk]
        exact lookup_iff_mem.mpr he
      rw [setValue, if_pos hk, Option.some.inj (h.symm.trans hu)]
    · rw [setValue, if_neg hk]
  exact AList.ext ((List.map_congr_left hsame).trans (List.map_id' _))

/-- Each value is replaced by one made of it and its key. -/
def mapValues {μ : Type} (f : κ → ν → μ) (t : Table κ ν) : Table κ μ where
  entries := t.entries.map fun e => ⟨e.1, f e.1 e.2⟩
  nodupKeys := by
    have hkeys : List.keys (t.entries.map fun e => (⟨e.1, f e.1 e.2⟩ : Sigma fun _ : κ => μ)) = List.keys t.entries := by
      simp [List.keys, Function.comp_def]
    rw [List.NodupKeys, hkeys]
    exact t.nodupKeys

theorem lookup_mapValues {μ : Type} (f : κ → ν → μ) (t : Table κ ν) (k : κ) :
    (t.mapValues f).lookup k = (t.lookup k).map (f k) := by
  ext u
  rw [lookup_iff_mem, Option.map_eq_some_iff]
  constructor
  · intro hm
    obtain ⟨e, he, heq⟩ := List.mem_map.mp hm
    cases heq
    exact ⟨e.2, lookup_iff_mem.mpr he, rfl⟩
  · rintro ⟨v, hv, rfl⟩
    exact List.mem_map.mpr ⟨_, lookup_iff_mem.mp hv, rfl⟩

theorem mapValues_eq_iff {μ : Type} {f g : κ → ν → μ} {t : Table κ ν} :
    t.mapValues f = t.mapValues g ↔ ∀ k v, t.lookup k = some v → f k v = g k v := by
  constructor
  · intro h k v hv
    have hk := congrArg (fun u => u.lookup k) h
    simp only [lookup_mapValues, hv, Option.map_some, Option.some.injEq] at hk
    exact hk
  · intro h
    refine AList.ext (List.map_congr_left fun e he => ?_)
    rw [h e.1 e.2 (lookup_iff_mem.mpr he)]

/-- The entries whose keys meet a test. -/
def filterKeys (p : κ → Bool) (t : Table κ ν) : Table κ ν where
  entries := t.entries.filter fun e => p e.1
  nodupKeys := t.nodupKeys.sublist List.filter_sublist

theorem lookup_filterKeys (p : κ → Bool) (t : Table κ ν) (k : κ) :
    (t.filterKeys p).lookup k = if p k then t.lookup k else none := by
  ext u
  rw [lookup_iff_mem]
  constructor
  · intro hm
    obtain ⟨he, hp⟩ := List.mem_filter.mp hm
    rw [if_pos hp]
    exact lookup_iff_mem.mpr he
  · intro hu
    split at hu
    · rename_i hp
      exact List.mem_filter.mpr ⟨lookup_iff_mem.mp hu, hp⟩
    · cases hu

/-- Among elements with different keys, one has the key of `a`. -/
theorem filter_key {α : Type} (key : α → κ) {l : List α} (h : (l.map key).Nodup) {a : α} (ha : a ∈ l) :
    (l.filter fun b => key b = key a) = [a] := by
  induction l with
  | nil => cases ha
  | cons b l ih =>
    rw [List.map_cons, List.nodup_cons] at h
    rcases List.mem_cons.mp ha with rfl | ha
    · rw [List.filter_cons_of_pos (by simp), List.filter_eq_nil_iff.mpr]
      intro c hc hk
      exact h.1 (List.mem_map.mpr ⟨c, hc, by simpa using hk⟩)
    · have hb : key b ≠ key a := fun e => h.1 (List.mem_map.mpr ⟨a, ha, e.symm⟩)
      rw [List.filter_cons_of_neg (by simpa using hb)]
      exact ih h.2 ha

/-! ## Counting values -/

def countValues (p : ν → Bool) (t : Table κ ν) : Nat := t.entries.countP fun e => p e.2

theorem countValues_erase (p : ν → Bool) (t : Table κ ν) (k : κ) :
    countValues p (t.erase k) + (if (t.lookup k).any p then 1 else 0) = countValues p t := by
  by_cases hk : k ∈ t
  · obtain ⟨v, before, later, -, hsplit, herase⟩ := List.exists_of_kerase (AList.mem_keys.mp hk)
    have hl : t.lookup k = some v := by
      rw [lookup_iff_mem, hsplit]
      exact List.mem_append_right _ List.mem_cons_self
    have hentries : (t.erase k).entries = before ++ later := herase
    rw [countValues, countValues, hentries, hsplit, hl, List.countP_append, List.countP_append, List.countP_cons,
      Option.any_some]
    dsimp only
    omega
  · rw [erase_of_notMem hk, AList.lookup_eq_none.mpr hk]
    rfl

theorem countValues_insert (p : ν → Bool) (t : Table κ ν) (k : κ) (v : ν) :
    countValues p (t.insert k v) = countValues p (t.erase k) + if p v then 1 else 0 := by
  rw [countValues, AList.entries_insert, List.countP_cons]
  rfl

theorem countValues_erase_le (p : ν → Bool) (t : Table κ ν) (k : κ) : countValues p (t.erase k) ≤ countValues p t := by
  have h := countValues_erase p t k
  omega

theorem countValues_put {p : ν → Bool} {t : Table κ ν} {k : κ} {u v : ν} (h : t.lookup k = some u) (hp : p v = p u) :
    countValues p (t.put k v) = countValues p t := by
  have hput : (t.put k v).entries = t.entries.map (setValue k v) := rfl
  rw [countValues, countValues, hput, List.countP_map]
  refine List.countP_congr fun e he => ?_
  by_cases hk : e.1 = k
  · have hu : t.lookup k = some e.2 := by
      rw [← hk]
      exact lookup_iff_mem.mpr he
    obtain rfl : u = e.2 := Option.some.inj (h.symm.trans hu)
    simp [setValue, hk, hp]
  · simp [setValue, hk]

omit [DecidableEq κ] in
theorem countValues_le (p : ν → Bool) (t : Table κ ν) : countValues p t ≤ t.keys.length := by
  refine List.countP_le_length.trans (le_of_eq ?_)
  exact (List.length_map _).symm

/-! ## Adding up values -/

def sumValues (f : ν → Nat) (t : Table κ ν) : Nat := (t.entries.map fun e => f e.2).sum

theorem sumValues_erase (f : ν → Nat) {t : Table κ ν} {k : κ} {v : ν} (h : t.lookup k = some v) :
    sumValues f (t.erase k) + f v = sumValues f t := by
  obtain ⟨u, before, later, -, hsplit, herase⟩ := List.exists_of_kerase (AList.mem_keys.mp (mem_of_lookup h))
  have hl : t.lookup k = some u := by
    rw [lookup_iff_mem, hsplit]
    exact List.mem_append_right _ List.mem_cons_self
  obtain rfl : v = u := Option.some.inj (h.symm.trans hl)
  have hentries : (t.erase k).entries = before ++ later := herase
  rw [sumValues, sumValues, hentries, hsplit]
  simp only [List.map_append, List.map_cons, List.sum_append, List.sum_cons]
  omega

theorem sumValues_erase_le (f : ν → Nat) (t : Table κ ν) (k : κ) : sumValues f (t.erase k) ≤ sumValues f t := by
  cases hl : t.lookup k with
  | none => rw [erase_of_notMem (AList.lookup_eq_none.mp hl)]
  | some v => exact Nat.le.intro (sumValues_erase f hl)

theorem sumValues_insert (f : ν → Nat) (t : Table κ ν) (k : κ) (v : ν) :
    sumValues f (t.insert k v) = sumValues f (t.erase k) + f v := by
  rw [sumValues, AList.entries_insert, List.map_cons, List.sum_cons, Nat.add_comm]
  rfl

/-- A table whose values count for no more than those of another under the same keys. -/
theorem sumValues_le {f : ν → Nat} {t u : Table κ ν}
    (h : ∀ k v, t.lookup k = some v → f v = 0 ∨ ∃ v', u.lookup k = some v' ∧ f v ≤ f v') :
    sumValues f t ≤ sumValues f u := by
  induction t using AList.insertRec generalizing u with
  | H0 => exact Nat.zero_le _
  | IH k v t hk ih =>
    rw [sumValues_insert, erase_of_notMem hk]
    have hrest : sumValues f t ≤ sumValues f (u.erase k) := by
      refine ih fun k' v' hl => ?_
      have hne : k' ≠ k := by
        rintro rfl
        exact hk (mem_of_lookup hl)
      rcases h k' v' (by rw [AList.lookup_insert_ne hne]; exact hl) with hzero | ⟨v'', hu, hle⟩
      · exact .inl hzero
      · exact .inr ⟨v'', by rw [AList.lookup_erase_ne hne]; exact hu, hle⟩
    rcases h k v (AList.lookup_insert t) with hzero | ⟨v', hu, hle⟩
    · have hless := sumValues_erase_le f u k
      omega
    · have hsum := sumValues_erase f hu
      omega

theorem sumValues_put (f : ν → Nat) {t : Table κ ν} {k : κ} {u : ν} (h : t.lookup k = some u) (v : ν) :
    sumValues f (t.put k v) + f u = sumValues f t + f v := by
  have hrest : sumValues f ((t.put k v).erase k) = sumValues f (t.erase k) := by
    have hlookup : ∀ k', ((t.put k v).erase k).lookup k' = (t.erase k).lookup k' := by
      intro k'
      rw [lookup_erase', lookup_erase']
      split
      · rfl
      · exact lookup_put_ne ‹_› v
    refine Nat.le_antisymm (sumValues_le fun k' v' hl => ?_) (sumValues_le fun k' v' hl => ?_)
    · exact .inr ⟨v', hlookup k' ▸ hl, Nat.le_refl _⟩
    · exact .inr ⟨v', (hlookup k').symm ▸ hl, Nat.le_refl _⟩
  have hput := sumValues_erase f (lookup_put_self h v)
  have hold := sumValues_erase f h
  omega

/-! ## Looking for a value -/

section KeyOf

variable {μ : Type} [DecidableEq ν]

def keyOf (t : Table κ ν) (v : ν) : Option κ := (t.entries.find? fun e => e.2 = v).map (·.1)

theorem lookup_keyOf {t : Table κ ν} {v : ν} {k : κ} (h : keyOf t v = some k) : t.lookup k = some v := by
  simp only [keyOf, Option.map_eq_some_iff] at h
  obtain ⟨e, he, rfl⟩ := h
  have hv : e.2 = v := by simpa using List.find?_some he
  rw [lookup_iff_mem, ← hv]
  exact List.mem_of_find?_eq_some he

theorem keyOf_of_lookup {t : Table κ ν} {v : ν} {k : κ} (h : t.lookup k = some v) : ∃ k', keyOf t v = some k' := by
  have hsome : (t.entries.find? fun e => e.2 = v).isSome := by
    rw [List.find?_isSome]
    exact ⟨⟨k, v⟩, lookup_iff_mem.mp h, by simp⟩
  obtain ⟨e, he⟩ := Option.isSome_iff_exists.mp hsome
  exact ⟨e.1, by rw [keyOf, he]; rfl⟩

end KeyOf

/-! ## Injective tables and inverses -/

/-- No two keys share a value. -/
def Inj (t : Table κ ν) : Prop := ∀ k k' v, t.lookup k = some v → t.lookup k' = some v → k = k'

theorem inj_empty : Inj (∅ : Table κ ν) := fun k _ v h => by simp at h

theorem Inj.nodup_values {t : Table κ ν} (h : Inj t) : (t.entries.map (·.2)).Nodup := by
  have hkeys : (t.entries.map (·.1)).Nodup := t.nodupKeys
  rw [List.Nodup, List.pairwise_map] at hkeys ⊢
  refine List.Pairwise.imp_of_mem ?_ hkeys
  intro a b ha hb hne he
  have hb' : (⟨b.1, a.2⟩ : Sigma fun _ : κ => ν) ∈ t.entries := he ▸ hb
  exact hne (h a.1 b.1 a.2 (lookup_iff_mem.mpr ha) (lookup_iff_mem.mpr hb'))

theorem Inj.insert {t : Table κ ν} (h : Inj t) {k : κ} {v : ν} (hv : ∀ k', k' ≠ k → t.lookup k' ≠ some v) :
    Inj (t.insert k v) := by
  intro a b w ha hb
  rw [lookup_insert'] at ha hb
  by_cases hak : a = k <;> by_cases hbk : b = k
  · rw [hak, hbk]
  · rw [if_pos hak] at ha
    rw [if_neg hbk] at hb
    exact absurd (by rw [hb, ← ha]) (hv b hbk)
  · rw [if_neg hak] at ha
    rw [if_pos hbk] at hb
    exact absurd (by rw [ha, ← hb]) (hv a hak)
  · rw [if_neg hak] at ha
    rw [if_neg hbk] at hb
    exact h a b w ha hb

theorem Inj.erase {t : Table κ ν} (h : Inj t) (k : κ) : Inj (t.erase k) := by
  intro a b w ha hb
  rw [lookup_erase'] at ha hb
  split at ha
  · cases ha
  · split at hb
    · cases hb
    · exact h a b w ha hb

/-- The keys of a table. -/
def keySet (t : Table κ ν) : Set κ := fun k => k ∈ t

omit [DecidableEq κ] in
theorem mem_keySet {t : Table κ ν} {k : κ} : k ∈ keySet t ↔ k ∈ t := Iff.rfl

/-- Each element of `p` is the value of exactly one key, and no other value occurs. -/
structure Names (t : Table κ ν) (p : Set ν) : Prop where
  inj : Inj t
  values : ∀ v, v ∈ p ↔ ∃ k, t.lookup k = some v

namespace Names

variable {t : Table κ ν} {p : Set ν} {k : κ} {v : ν}

theorem empty : Names (∅ : Table κ ν) ∅ := ⟨inj_empty, fun v => by simp⟩

theorem insert (h : Names t p) (hk : k ∉ t) (hv : v ∉ p) : Names (t.insert k v) (insert v p) := by
  refine ⟨h.inj.insert fun k' _ hk' => hv ((h.values v).mpr ⟨k', hk'⟩), fun u => ?_⟩
  rw [Set.mem_insert_iff, h.values]
  constructor
  · intro hor
    rcases hor with rfl | ⟨k', hk'⟩
    · exact ⟨k, by rw [lookup_insert', if_pos rfl]⟩
    · have hne : k' ≠ k := fun e => hk (e ▸ mem_of_lookup hk')
      exact ⟨k', by rw [lookup_insert', if_neg hne, hk']⟩
  · intro hex
    obtain ⟨k', hk'⟩ := hex
    rw [lookup_insert'] at hk'
    split at hk'
    · exact .inl (Option.some.inj hk').symm
    · exact .inr ⟨k', hk'⟩

theorem erase (h : Names t p) (hk : t.lookup k = some v) : Names (t.erase k) (p \ {v}) := by
  refine ⟨h.inj.erase k, fun u => ?_⟩
  rw [Set.mem_sdiff, Set.mem_singleton_iff, h.values]
  constructor
  · intro hex
    obtain ⟨⟨k', hk'⟩, hne⟩ := hex
    have hkk : k' ≠ k := by
      intro heq
      subst heq
      exact hne (Option.some.inj (hk'.symm.trans hk))
    exact ⟨k', by rw [lookup_erase', if_neg hkk, hk']⟩
  · intro hex
    obtain ⟨k', hk'⟩ := hex
    rw [lookup_erase'] at hk'
    split at hk'
    · cases hk'
    · rename_i hkk
      refine ⟨⟨k', hk'⟩, ?_⟩
      intro heq
      subst heq
      exact hkk (h.inj k' k u hk' hk)

end Names

/-- `u` maps each value of `t` back to its key, and the other way round. -/
def Inverse [DecidableEq ν] (t : Table κ ν) (u : Table ν κ) : Prop :=
  ∀ k v, t.lookup k = some v ↔ u.lookup v = some k

theorem Inverse.inj [DecidableEq ν] {t : Table κ ν} {u : Table ν κ} (h : Inverse t u) : Inj t := by
  intro k k' v hk hk'
  have hu := (h k v).mp hk
  rw [(h k' v).mp hk'] at hu
  exact (Option.some.inj hu).symm

theorem inverse_empty [DecidableEq ν] : Inverse (∅ : Table κ ν) (∅ : Table ν κ) := fun k v => by simp

/-- A new pair keeps the tables inverse unless one of its sides stands in another pair. -/
theorem Inverse.insert_iff [DecidableEq ν] {t : Table κ ν} {u : Table ν κ} (h : Inverse t u) {k : κ} {v : ν} :
    Inverse (t.insert k v) (u.insert v k) ↔
      (∀ v', t.lookup k = some v' → v' = v) ∧ ∀ k', u.lookup v = some k' → k' = k := by
  constructor
  · intro hi
    refine ⟨fun v' hv' => ?_, fun k' hk' => ?_⟩
    · by_contra hne
      have hu : (u.insert v k).lookup v' = some k := by rw [lookup_insert', if_neg hne, (h k v').mp hv']
      have ht := (hi k v').mpr hu
      rw [lookup_insert', if_pos rfl] at ht
      exact hne (Option.some.inj ht).symm
    · by_contra hne
      have ht : (t.insert k v).lookup k' = some v := by rw [lookup_insert', if_neg hne, (h k' v).mpr hk']
      have hu := (hi k' v).mp ht
      rw [lookup_insert', if_pos rfl] at hu
      exact hne (Option.some.inj hu).symm
  · rintro ⟨hk, hv⟩ k' v'
    rw [lookup_insert', lookup_insert']
    by_cases hkk : k' = k <;> by_cases hvv : v' = v
    · simp [hkk, hvv]
    · have hnot : u.lookup v' ≠ some k := fun e => hvv (hk v' ((h k v').mpr e))
      simp [hkk, hvv, hnot, Ne.symm hvv]
    · have hnot : t.lookup k' ≠ some v := fun e => hkk (hv k' ((h k' v).mp e))
      simp [hkk, hvv, hnot, Ne.symm hkk]
    · rw [if_neg hkk, if_neg hvv]
      exact h k' v'

theorem Inverse.insert [DecidableEq ν] {t : Table κ ν} {u : Table ν κ} (h : Inverse t u) {k : κ} {v : ν}
    (hk : k ∉ t) (hv : v ∉ u) : Inverse (t.insert k v) (u.insert v k) :=
  h.insert_iff.mpr ⟨fun _ e => absurd (mem_of_lookup e) hk, fun _ e => absurd (mem_of_lookup e) hv⟩

theorem Inverse.erase [DecidableEq ν] {t : Table κ ν} {u : Table ν κ} (h : Inverse t u) {k : κ} {v : ν}
    (hk : t.lookup k = some v) : Inverse (t.erase k) (u.erase v) := by
  intro k' v'
  rw [lookup_erase', lookup_erase']
  by_cases hkk : k' = k <;> by_cases hvv : v' = v
  · simp [hkk, hvv]
  · have hnot : u.lookup v' ≠ some k := fun e => hvv (Option.some.inj (((h k v').mpr e).symm.trans hk))
    simp [hkk, hvv, hnot]
  · have hnot : t.lookup k' ≠ some v := fun e => hkk (h.inj k' k v e hk)
    simp [hkk, hvv, hnot]
  · rw [if_neg hkk, if_neg hvv]
    exact h k' v'

end Table

end NovaMP.Lib
