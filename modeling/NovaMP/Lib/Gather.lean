/-
  NovaMP.Lib.Gather — a loop that appends what it reads, until a read throws.

  `gather read keep` reads one item after another and appends what is to be kept. The
  first read that throws ends the loop, and what has been appended stays. `wanted` is
  what an item is worth by itself.

  - `gather_readable`, `gather_stopped`: the loop over items that can be read, and up to
    the first that cannot.
  - `gather_complete_iff`: it appends all that is wanted exactly if nothing wanted comes
    after an item that cannot be read.
  - `gather_unchanged_iff`, `gather_all_iff`: for a loop that keeps all it reads, when it
    throws it has appended nothing exactly if it throws at the first item.
-/

import Mathlib.Data.List.Basic

namespace NovaMP.Lib

variable {α β ε : Type} (read : α → Except ε β) (keep : β → Bool)

def gather : List α → List β → List β × Option ε
  | [], out => (out, none)
  | a :: as, out =>
    match read a with
    | .error e => (out, some e)
    | .ok b => gather as (if keep b then out ++ [b] else out)

def Readable (a : α) : Prop := ∃ b, read a = .ok b

def wanted (a : α) : Option β :=
  match read a with
  | .ok b => if keep b then some b else none
  | .error _ => none

variable {read keep}

theorem wanted_eq_some_iff {a : α} {b : β} : wanted read keep a = some b ↔ read a = .ok b ∧ keep b = true := by
  unfold wanted
  cases hr : read a with
  | error e => simp
  | ok c =>
    by_cases hk : keep c = true
    · simp only [if_pos hk, Option.some.injEq, Except.ok.injEq]
      exact ⟨fun heq => ⟨heq, heq ▸ hk⟩, fun heq => heq.1⟩
    · simp only [if_neg hk, Except.ok.injEq]
      exact iff_of_false nofun fun heq => hk (heq.1 ▸ heq.2)

theorem wanted_of_not_readable {a : α} (h : ¬ Readable read a) : wanted read keep a = none := by
  refine Option.eq_none_iff_forall_ne_some.mpr fun b hb => ?_
  exact h ⟨b, (wanted_eq_some_iff.mp hb).1⟩

/-- Items that can be read are appended if they are wanted, and the loop goes on. -/
theorem gather_append {pre rest : List α} (hpre : ∀ a ∈ pre, Readable read a) (out : List β) :
    gather read keep (pre ++ rest) out = gather read keep rest (out ++ pre.filterMap (wanted read keep)) := by
  induction pre generalizing out with
  | nil => simp
  | cons a pre ih =>
    obtain ⟨⟨b, hb⟩, hpre⟩ := List.forall_mem_cons.mp hpre
    rw [List.cons_append, gather, hb, List.filterMap_cons, wanted, hb]
    dsimp only
    rw [ih hpre]
    by_cases hk : keep b = true
    · rw [if_pos hk, if_pos hk, List.append_assoc]
      rfl
    · rw [if_neg hk, if_neg hk]

theorem gather_readable {as : List α} (h : ∀ a ∈ as, Readable read a) (out : List β) :
    gather read keep as out = (out ++ as.filterMap (wanted read keep), none) := by
  have hnil : gather read keep (as ++ []) out = gather read keep [] (out ++ as.filterMap (wanted read keep)) :=
    gather_append h out
  rwa [List.append_nil] at hnil

theorem gather_stopped {pre post : List α} {bad : α} (hpre : ∀ a ∈ pre, Readable read a) (hbad : ¬ Readable read bad)
    (out : List β) : ∃ e, gather read keep (pre ++ bad :: post) out = (out ++ pre.filterMap (wanted read keep), some e) := by
  rw [gather_append hpre, gather]
  cases hr : read bad with
  | ok b => exact absurd ⟨b, hr⟩ hbad
  | error e => exact ⟨e, rfl⟩

variable (read) in
/-- All items can be read, or there is a first that cannot. -/
theorem readable_or_split (as : List α) : (∀ a ∈ as, Readable read a) ∨
    ∃ pre bad post, as = pre ++ bad :: post ∧ (∀ a ∈ pre, Readable read a) ∧ ¬ Readable read bad := by
  induction as with
  | nil => exact .inl (by simp)
  | cons a as ih =>
    by_cases ha : Readable read a
    · rcases ih with hall | ⟨pre, bad, post, rfl, hpre, hbad⟩
      · exact .inl (List.forall_mem_cons.mpr ⟨ha, hall⟩)
      · exact .inr ⟨a :: pre, bad, post, rfl, List.forall_mem_cons.mpr ⟨ha, hpre⟩, hbad⟩
    · exact .inr ⟨[], a, as, rfl, by simp, ha⟩

/-- What is missing is what is wanted behind an item that cannot be read. -/
theorem gather_complete_iff (as : List α) (out : List β) :
    (gather read keep as out).1 = out ++ as.filterMap (wanted read keep) ↔
      as.Pairwise fun bad a => ¬ Readable read bad → wanted read keep a = none := by
  induction as generalizing out with
  | nil => simp [gather]
  | cons a as ih =>
    rw [List.pairwise_cons, gather]
    cases hr : read a with
    | error e =>
      have hbad : ¬ Readable read a := fun ⟨b, hb⟩ => nomatch hr.symm.trans hb
      rw [List.filterMap_cons_none (wanted_of_not_readable hbad)]
      dsimp only
      rw [List.self_eq_append_right, List.filterMap_eq_nil_iff]
      constructor
      · intro hnone
        exact ⟨fun b hb _ => hnone b hb, List.pairwise_of_forall_mem_list fun _ _ b hb _ => hnone b hb⟩
      · exact fun hall b hb => hall.1 b hb hbad
    | ok b =>
      have hgood : Readable read a := ⟨b, hr⟩
      have hfirst : ∀ c ∈ as, ¬ Readable read a → wanted read keep c = none := fun c _ hbad => absurd hgood hbad
      rw [and_iff_right hfirst, List.filterMap_cons, wanted, hr]
      dsimp only
      by_cases hk : keep b = true
      · rw [if_pos hk, if_pos hk, ← ih (out ++ [b]), List.append_assoc]
        rfl
      · rw [if_neg hk, if_neg hk, ih]

/-! ## A loop that appends all it reads -/

theorem wanted_all {a : α} {b : β} (h : read a = .ok b) : wanted read (fun _ => true) a = some b :=
  wanted_eq_some_iff.mpr ⟨h, rfl⟩

theorem filterMap_all_length {as : List α} (h : ∀ a ∈ as, Readable read a) :
    (as.filterMap (wanted read fun _ => true)).length = as.length := by
  induction as with
  | nil => rfl
  | cons a as ih =>
    obtain ⟨⟨b, hb⟩, has⟩ := List.forall_mem_cons.mp h
    rw [List.filterMap_cons_some (wanted_all hb), List.length_cons, List.length_cons, ih has]

/-- It appends what is wanted and no more if all that can be read is wanted. -/
theorem filterMap_all_iff {as : List α} (h : ∀ a ∈ as, Readable read a) :
    as.filterMap (wanted read fun _ => true) = as.filterMap (wanted read keep) ↔
      ∀ a ∈ as, ∃ b, wanted read keep a = some b := by
  induction as with
  | nil => simp
  | cons a as ih =>
    obtain ⟨⟨b, hb⟩, has⟩ := List.forall_mem_cons.mp h
    rw [List.filterMap_cons_some (wanted_all hb), List.forall_mem_cons]
    cases hw : wanted read keep a with
    | none =>
      rw [List.filterMap_cons_none hw]
      refine iff_of_false (fun heq => ?_) nofun
      have hlen := congrArg List.length heq
      rw [List.length_cons, filterMap_all_length has] at hlen
      have hle := List.length_filterMap_le (wanted read keep) as
      omega
    | some c =>
      obtain rfl : b = c := Except.ok.inj (hb.symm.trans (wanted_eq_some_iff.mp hw).1)
      rw [List.filterMap_cons_some hw, List.cons.injEq, ih has]
      exact and_congr_left' (iff_of_true rfl ⟨b, rfl⟩)

/-- A loop that throws has appended nothing exactly if it throws at the first item. -/
theorem gather_unchanged_iff (as : List α) (out : List β) :
    ((gather read (fun _ => true) as out).2 ≠ none → (gather read (fun _ => true) as out).1 = out) ↔
      (∀ a ∈ as, Readable read a) ∨ ∃ bad rest, as = bad :: rest ∧ ¬ Readable read bad := by
  rcases readable_or_split read as with hall | ⟨pre, bad, post, rfl, hpre, hbad⟩
  · rw [gather_readable hall]
    exact iff_of_true (fun hthrown => absurd rfl hthrown) (.inl hall)
  · obtain ⟨e, he⟩ : ∃ e, gather read (fun _ => true) (pre ++ bad :: post) out = (_, some e) :=
      gather_stopped hpre hbad out
    rw [he]
    dsimp only
    rw [List.append_right_eq_self, ← List.length_eq_zero_iff, filterMap_all_length hpre, List.length_eq_zero_iff]
    constructor
    · intro hnil
      obtain rfl := hnil (Option.some_ne_none e)
      exact .inr ⟨bad, post, rfl, hbad⟩
    · rintro (hall | ⟨bad', rest, heq, hbad'⟩) -
      · exact absurd (hall bad (by simp)) hbad
      · cases pre with
        | nil => rfl
        | cons a pre =>
          cases heq
          exact absurd (hpre _ List.mem_cons_self) hbad'

/-- Besides, it has appended just what is wanted. -/
theorem gather_all_iff (as : List α) (out : List β) :
    ((gather read (fun _ => true) as out).1 = out ++ as.filterMap (wanted read keep) ∧
        ((gather read (fun _ => true) as out).2 ≠ none → (gather read (fun _ => true) as out).1 = out)) ↔
      (∀ a ∈ as, ∃ b, wanted read keep a = some b) ∨
        ∃ bad rest, as = bad :: rest ∧ ¬ Readable read bad ∧ ∀ a ∈ rest, wanted read keep a = none := by
  rw [gather_unchanged_iff]
  by_cases hall : ∀ a ∈ as, Readable read a
  · rw [gather_readable hall, and_iff_left (.inl hall), List.append_cancel_left_eq, filterMap_all_iff hall]
    refine (or_iff_left ?_).symm
    rintro ⟨bad, rest, rfl, hbad, -⟩
    exact hbad (hall bad List.mem_cons_self)
  · have hnot : ¬ ∀ a ∈ as, ∃ b, wanted read keep a = some b := by
      refine fun hwanted => hall fun a ha => ?_
      obtain ⟨b, hb⟩ := hwanted a ha
      exact ⟨b, (wanted_eq_some_iff.mp hb).1⟩
    rw [or_iff_right hall, or_iff_right hnot]
    have hfirst : ∀ bad rest, ¬ Readable read bad →
        ((gather read (fun _ => true) (bad :: rest) out).1 = out ++ (bad :: rest).filterMap (wanted read keep) ↔
          ∀ a ∈ rest, wanted read keep a = none) := by
      intro bad rest hbad
      obtain ⟨e, he⟩ : ∃ e, gather read (fun _ => true) ([] ++ bad :: rest) out = (_, some e) :=
        gather_stopped (by simp) hbad out
      rw [List.nil_append] at he
      rw [he, List.filterMap_cons_none (wanted_of_not_readable hbad)]
      simp
    constructor
    · rintro ⟨hadded, bad, rest, rfl, hbad⟩
      exact ⟨bad, rest, rfl, hbad, (hfirst bad rest hbad).mp hadded⟩
    · rintro ⟨bad, rest, rfl, hbad, hrest⟩
      exact ⟨(hfirst bad rest hbad).mpr hrest, bad, rest, rfl, hbad⟩

end NovaMP.Lib
