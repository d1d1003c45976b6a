/-
  NovaMP.Lib.Replica — a copy of a set that is kept up to date by edits.

  The owner of a set announces each change it makes; whoever has heard the changes
  replays them. `touches` are the items an edit decides: whatever the set was before,
  an edit leaves two replicas agreeing on these (`apply_agree`) and changes no others
  (`apply_untouched`).

  - `replay_empty_iff`: a replica that starts from nothing holds the owner's set exactly
    when every item the owner had at the start has been touched since.
-/

import Mathlib.Data.Set.Insert

namespace NovaMP.Lib

/-- A change to a set: one item comes in, or those of a set go. -/
inductive Edit (α : Type) where
  | add (a : α)
  | drop (p : Set α)

namespace Edit

variable {α : Type}

def apply : Edit α → Set α → Set α
  | add a, s => insert a s
  | drop p, s => s \ p

def touches : Edit α → Set α
  | add a => {a}
  | drop p => p

theorem apply_agree {e : Edit α} {a : α} (h : a ∈ e.touches) (s t : Set α) : a ∈ e.apply s ↔ a ∈ e.apply t := by
  cases e with
  | add b =>
    obtain rfl : a = b := h
    exact iff_of_true (Set.mem_insert a s) (Set.mem_insert a t)
  | drop p => exact iff_of_false (fun hs => hs.2 h) (fun ht => ht.2 h)

theorem apply_untouched {e : Edit α} {a : α} (h : a ∉ e.touches) (s : Set α) : a ∈ e.apply s ↔ a ∈ s := by
  cases e with
  | add b =>
    constructor
    · intro ha
      exact ha.resolve_left h
    · exact Set.mem_insert_of_mem b
  | drop p =>
    constructor
    · exact fun ha => ha.1
    · exact fun ha => ⟨ha, h⟩

/-- A set after edits, the first one first. -/
def replay (es : List (Edit α)) (s : Set α) : Set α := es.foldl (fun s e => e.apply s) s

theorem replay_cons (e : Edit α) (es : List (Edit α)) (s : Set α) : replay (e :: es) s = replay es (e.apply s) := rfl

theorem replay_append (es fs : List (Edit α)) (s : Set α) : replay (es ++ fs) s = replay fs (replay es s) :=
  List.foldl_append

theorem replay_untouched {es : List (Edit α)} {a : α} (h : ∀ e ∈ es, a ∉ e.touches) (s : Set α) :
    a ∈ replay es s ↔ a ∈ s := by
  induction es generalizing s with
  | nil => exact Iff.rfl
  | cons e es ih =>
    obtain ⟨he, hes⟩ := List.forall_mem_cons.mp h
    rw [replay_cons, ih hes]
    exact apply_untouched he s

theorem replay_congr (es : List (Edit α)) {a : α} {s t : Set α} (h : a ∈ s ↔ a ∈ t) :
    a ∈ replay es s ↔ a ∈ replay es t := by
  induction es generalizing s t with
  | nil => exact h
  | cons e es ih =>
    rw [replay_cons, replay_cons]
    apply ih
    by_cases he : a ∈ e.touches
    · exact apply_agree he s t
    · rw [apply_untouched he, apply_untouched he]
      exact h

theorem replay_agree {es : List (Edit α)} {a : α} (h : ∃ e ∈ es, a ∈ e.touches) (s t : Set α) :
    a ∈ replay es s ↔ a ∈ replay es t := by
  obtain ⟨e, he, ha⟩ := h
  obtain ⟨before, later, rfl⟩ := List.append_of_mem he
  rw [replay_append, replay_append, replay_cons, replay_cons]
  apply replay_congr later
  exact apply_agree ha _ _

theorem replay_empty_iff (es : List (Edit α)) (s : Set α) :
    replay es ∅ = replay es s ↔ ∀ a ∈ s, ∃ e ∈ es, a ∈ e.touches := by
  constructor
  · intro h a ha
    by_contra hno
    have hun : ∀ e ∈ es, a ∉ e.touches := fun e he hae => hno ⟨e, he, hae⟩
    have hin : a ∈ replay es ∅ := by
      rw [h]
      exact (replay_untouched hun s).mpr ha
    exact (replay_untouched hun ∅).mp hin
  · intro h
    ext a
    by_cases ha : a ∈ s
    · exact replay_agree (h a ha) ∅ s
    · exact replay_congr es (iff_of_false (Set.notMem_empty a) ha)

end Edit

end NovaMP.Lib
