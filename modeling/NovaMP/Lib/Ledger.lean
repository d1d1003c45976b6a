/-
  NovaMP.Lib.Ledger — things that are taken, held in slots and given back.

  `held` says what is in each slot; `taken` and `returned` are what was ever taken and
  given back. They are `Balanced` if what is held is what was taken and not given back,
  each in one slot, and nothing was given back twice.

  - `Balanced.take_iff`: a new thing may go into an empty slot, and into no other.
  - `Balanced.lost`: a new thing that goes into no slot is lost.
  - `Balanced.give`: some slots are emptied, and what was in them is given back.
-/

import Mathlib.Data.List.Nodup
import Mathlib.Logic.Function.Basic

namespace NovaMP.Lib

variable {κ ν : Type}

structure Balanced (held : κ → Option ν) (taken returned : List ν) : Prop where
  one : ∀ k k' v, held k = some v → held k' = some v → k = k'
  held_iff : ∀ v, (∃ k, held k = some v) ↔ v ∈ taken ∧ v ∉ returned
  once : returned.Nodup

namespace Balanced

variable {held : κ → Option ν} {taken returned : List ν}

theorem empty : Balanced (fun _ : κ => (none : Option ν)) [] [] :=
  ⟨nofun, fun v => by simp, List.nodup_nil⟩

/-- A new thing that goes into no slot is lost. -/
theorem lost (h : Balanced held taken returned) {v : ν} (hv : v ∉ taken) (hr : v ∉ returned) :
    ¬ Balanced held (v :: taken) returned := by
  intro h'
  have hheld := (h'.held_iff v).mpr ⟨List.mem_cons_self .., hr⟩
  exact hv ((h.held_iff v).mp hheld).1

theorem take_iff [DecidableEq κ] (h : Balanced held taken returned) {k : κ} {v : ν} (hv : v ∉ taken)
    (hr : v ∉ returned) : Balanced (Function.update held k (some v)) (v :: taken) returned ↔ held k = none := by
  constructor
  · intro h'
    by_contra hk
    obtain ⟨u, hu⟩ := Option.ne_none_iff_exists'.mp hk
    obtain ⟨htaken, hreturned⟩ := (h.held_iff u).mp ⟨k, hu⟩
    -- the thing that was in the slot is in no other
    obtain ⟨k', hk'⟩ := (h'.held_iff u).mpr ⟨List.mem_cons_of_mem v htaken, hreturned⟩
    rw [Function.update_apply] at hk'
    split at hk'
    · cases hk'
      exact hv htaken
    · rename_i hne
      exact hne (h.one k' k u hk' hu)
  · intro hk
    have hnew : ∀ k', held k' ≠ some v := fun k' hk' => hv ((h.held_iff v).mp ⟨k', hk'⟩).1
    refine ⟨fun a b u ha hb => ?_, fun u => ?_, h.once⟩
    · rw [Function.update_apply] at ha hb
      split at ha <;> split at hb
      · rename_i hak hbk
        rw [hak, hbk]
      · cases ha
        exact absurd hb (hnew b)
      · cases hb
        exact absurd ha (hnew a)
      · exact h.one a b u ha hb
    · rw [List.mem_cons]
      constructor
      · intro hin
        obtain ⟨k', hk'⟩ := hin
        rw [Function.update_apply] at hk'
        split at hk'
        · cases hk'
          exact ⟨.inl rfl, hr⟩
        · obtain ⟨htaken, hreturned⟩ := (h.held_iff u).mp ⟨k', hk'⟩
          exact ⟨.inr htaken, hreturned⟩
      · intro hin
        rcases hin with ⟨rfl | htaken, hreturned⟩
        · exact ⟨k, by rw [Function.update_self]⟩
        · obtain ⟨k', hk'⟩ := (h.held_iff u).mpr ⟨htaken, hreturned⟩
          have hne : k' ≠ k := by
            rintro rfl
            rw [hk] at hk'
            cases hk'
          exact ⟨k', by rw [Function.update_of_ne hne, hk']⟩

/-- Some slots are emptied, and what was in them is given back. -/
theorem give (h : Balanced held taken returned) (gone : κ → Prop) [DecidablePred gone] {vs : List ν} (hvs : vs.Nodup)
    (hmem : ∀ v, v ∈ vs ↔ ∃ k, gone k ∧ held k = some v) :
    Balanced (fun k => if gone k then none else held k) taken (returned ++ vs) := by
  refine ⟨fun a b u ha hb => ?_, fun u => ?_, ?_⟩
  · split at ha
    · cases ha
    · split at hb
      · cases hb
      · exact h.one a b u ha hb
  · rw [List.mem_append, not_or, ← and_assoc, ← h.held_iff]
    constructor
    · intro hin
      obtain ⟨k, hk⟩ := hin
      split at hk
      · cases hk
      · rename_i hgone
        refine ⟨⟨k, hk⟩, fun hu => ?_⟩
        obtain ⟨k', hgone', hk'⟩ := (hmem u).mp hu
        rw [h.one k' k u hk' hk] at hgone'
        exact hgone hgone'
    · intro hin
      obtain ⟨⟨k, hk⟩, hu⟩ := hin
      have hgone : ¬ gone k := fun hgone => hu ((hmem u).mpr ⟨k, hgone, hk⟩)
      exact ⟨k, by rw [if_neg hgone, hk]⟩
  · refine List.nodup_append.mpr ⟨h.once, hvs, ?_⟩
    rintro u hu _ hu' rfl
    obtain ⟨k, -, hk⟩ := (hmem u).mp hu'
    exact ((h.held_iff u).mp ⟨k, hk⟩).2 hu

end Balanced

end NovaMP.Lib
