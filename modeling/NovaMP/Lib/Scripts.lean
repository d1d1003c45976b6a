/-
  NovaMP.Lib.Scripts — threads that go through instructions one at a time.

  A `Crew` is a shared state and, for each thread, what it still has to do: its script.
  A turn takes the first instruction of one script; the instruction changes the state
  and may put others before the rest (a call, or the next pass of a loop), or it has to
  wait. A thread with an empty script may start on a request. Events say which thread
  comes next, so a list of events is an interleaving, and every list is one: the turn of
  a thread that has to wait changes nothing.

  - `run_keeps`: what each start and each turn keeps holds after every list of events;
    `run_keeps_of`, after every list whose events meet a condition.
  - `effects_le`: each event pays for what it does, so a run does what has been paid for.
  - `run_guarded`: where each script takes a lock before the instructions that need it
    and frees it after them, these are run by the lock's holder only.
  - `InBlocks.not_both`: a log written in blocks, one for each label, has the labels in
    one order.
-/

import Mathlib.Data.List.Induction
import Mathlib.Logic.Function.Basic

namespace NovaMP.Lib

structure Crew (κ ι σ : Type) where
  state : σ
  script : κ → List ι

/-- `ρ` are the requests that a thread may start on, `χ` what the environment chooses as
    an instruction is run (the outcome of a system call, say). `none` is to wait, or a
    request that may not be started. -/
structure Rules (κ ρ ι χ σ : Type) where
  start : κ → ρ → σ → Option (List ι × σ)
  act : κ → ι → χ → σ → Option (List ι × σ)

namespace Crew

variable {κ ρ ι χ σ : Type} [DecidableEq κ]

def put (q : Crew κ ι σ) (k : κ) (is : List ι) (s : σ) : Crew κ ι σ := ⟨s, Function.update q.script k is⟩

@[simp] theorem put_state (q : Crew κ ι σ) (k : κ) (is : List ι) (s : σ) : (q.put k is s).state = s := rfl

@[simp] theorem put_self (q : Crew κ ι σ) (k : κ) (is : List ι) (s : σ) : (q.put k is s).script k = is := by
  show Function.update q.script k is k = is
  rw [Function.update_self]

theorem put_ne (q : Crew κ ι σ) {k k' : κ} (h : k' ≠ k) (is : List ι) (s : σ) : (q.put k is s).script k' = q.script k' := by
  show Function.update q.script k is k' = q.script k'
  rw [Function.update_of_ne h]

inductive Event (κ ρ χ : Type) where
  | start (k : κ) (r : ρ)
  | turn (k : κ) (c : χ)
  deriving DecidableEq

def Event.thread : Event κ ρ χ → κ
  | .start k _ | .turn k _ => k

variable (R : Rules κ ρ ι χ σ)

/-- What is left of the script after the event, and the state, if there is something to do. -/
def outcome (q : Crew κ ι σ) : Event κ ρ χ → Option (κ × List ι × σ)
  | .start k r =>
    match q.script k with
    | [] => (R.start k r q.state).map fun p => (k, p.1, p.2)
    | _ :: _ => none
  | .turn k c =>
    match q.script k with
    | [] => none
    | i :: is => (R.act k i c q.state).map fun p => (k, p.1 ++ is, p.2)

def next (q : Crew κ ι σ) (e : Event κ ρ χ) : Crew κ ι σ :=
  match outcome R q e with
  | some (k, is, s) => q.put k is s
  | none => q

def run (q : Crew κ ι σ) (es : List (Event κ ρ χ)) : Crew κ ι σ := es.foldl (next R) q

@[simp] theorem run_nil (q : Crew κ ι σ) : run R q [] = q := rfl

theorem run_concat (q : Crew κ ι σ) (es : List (Event κ ρ χ)) (e : Event κ ρ χ) :
    run R q (es ++ [e]) = next R (run R q es) e := by
  rw [run, List.foldl_append]
  rfl

/-! ## Steps -/

variable {R}

theorem next_cases (q : Crew κ ι σ) (e : Event κ ρ χ) :
    outcome R q e = none ∧ next R q e = q ∨
    (∃ k r is s, e = .start k r ∧ q.script k = [] ∧ R.start k r q.state = some (is, s) ∧ next R q e = q.put k is s) ∨
    ∃ k c i is push s, e = .turn k c ∧ q.script k = i :: is ∧ R.act k i c q.state = some (push, s) ∧
      next R q e = q.put k (push ++ is) s := by
  cases e with
  | start k r =>
    cases hk : q.script k with
    | cons i is => exact .inl ⟨by simp [outcome, hk], by simp [next, outcome, hk]⟩
    | nil =>
      cases hr : R.start k r q.state with
      | none => exact .inl ⟨by simp [outcome, hk, hr], by simp [next, outcome, hk, hr]⟩
      | some p => exact .inr (.inl ⟨k, r, p.1, p.2, rfl, hk, hr, by simp [next, outcome, hk, hr]⟩)
  | turn k c =>
    cases hk : q.script k with
    | nil => exact .inl ⟨by simp [outcome, hk], by simp [next, outcome, hk]⟩
    | cons i is =>
      cases hr : R.act k i c q.state with
      | none => exact .inl ⟨by simp [outcome, hk, hr], by simp [next, outcome, hk, hr]⟩
      | some p => exact .inr (.inr ⟨k, c, i, is, p.1, p.2, rfl, hk, hr, by simp [next, outcome, hk, hr]⟩)

theorem next_turn {q : Crew κ ι σ} {k : κ} {c : χ} {i : ι} {is push : List ι} {s : σ} (hk : q.script k = i :: is)
    (hr : R.act k i c q.state = some (push, s)) : next R q (.turn k c) = q.put k (push ++ is) s := by
  simp [next, outcome, hk, hr]

/-- What holds at first and is kept by each event holds after every list of events. `I`
    may look at the events so far. -/
theorem run_keeps {init : Crew κ ι σ} {I : List (Event κ ρ χ) → Crew κ ι σ → Prop} (h0 : I [] init)
    (hwait : ∀ es e q, run R init es = q → I es q → I (es ++ [e]) q)
    (hstart : ∀ es q k r is s, run R init es = q → I es q → q.script k = [] → R.start k r q.state = some (is, s) →
      I (es ++ [.start k r]) (q.put k is s))
    (hturn : ∀ es q k c i is push s, run R init es = q → I es q → q.script k = i :: is →
      R.act k i c q.state = some (push, s) → I (es ++ [.turn k c]) (q.put k (push ++ is) s))
    (es : List (Event κ ρ χ)) : I es (run R init es) := by
  induction es using List.reverseRecOn with
  | nil => exact h0
  | append_singleton es e ih =>
    rw [run_concat]
    obtain ⟨-, hsame⟩ | ⟨k, r, is, s, rfl, hk, hr, hnext⟩ | ⟨k, c, i, is, push, s, rfl, hk, hr, hnext⟩ :=
      next_cases (run R init es) e
    · rw [hsame]
      exact hwait es e _ rfl ih
    · rw [hnext]
      exact hstart es _ k r is s rfl ih hk hr
    · rw [hnext]
      exact hturn es _ k c i is push s rfl ih hk hr

/-- What holds at first and is kept by each event that meets `C` holds after every list of
    such events. -/
theorem run_keeps_of {init : Crew κ ι σ} {I : Crew κ ι σ → Prop} {C : Crew κ ι σ → Event κ ρ χ → Prop} (h0 : I init)
    (hstart : ∀ q k r is s, I q → C q (.start k r) → q.script k = [] → R.start k r q.state = some (is, s) → I (q.put k is s))
    (hturn : ∀ q k c i is push s, I q → C q (.turn k c) → q.script k = i :: is → R.act k i c q.state = some (push, s) →
      I (q.put k (push ++ is) s))
    {es : List (Event κ ρ χ)} (hes : ∀ es₁ e, es₁ ++ [e] <+: es → C (run R init es₁) e) : I (run R init es) := by
  have hearlier : ∀ {es e}, (∀ es₁ e₁, es₁ ++ [e₁] <+: es ++ [e] → C (run R init es₁) e₁) →
      ∀ es₁ e₁, es₁ ++ [e₁] <+: es → C (run R init es₁) e₁ :=
    fun hes es₁ e₁ hle => hes es₁ e₁ (hle.trans (List.prefix_append _ _))
  refine run_keeps (I := fun es q => (∀ es₁ e, es₁ ++ [e] <+: es → C (run R init es₁) e) → I q) (fun _ => h0) ?_ ?_ ?_ es hes
  · intro es e q _ hq hes
    exact hq (hearlier hes)
  · rintro es q k r is s rfl hq hk hr hes
    exact hstart _ k r is s (hq (hearlier hes)) (hes es _ (List.prefix_refl _)) hk hr
  · rintro es q k c i is push s rfl hq hk hr hes
    exact hturn _ k c i is push s (hq (hearlier hes)) (hes es _ (List.prefix_refl _)) hk hr

/-- A thread that has had no turn has done nothing. -/
theorem run_other {k : κ} {es : List (Event κ ρ χ)} (hes : ∀ e ∈ es, e.thread ≠ k) (q : Crew κ ι σ) :
    (run R q es).script k = q.script k := by
  induction es using List.reverseRecOn with
  | nil => rfl
  | append_singleton es e ih =>
    have hrest := ih fun e' he' => hes e' (List.mem_append_left _ he')
    have hne := hes e (List.mem_append_right _ (List.mem_singleton_self e))
    rw [run_concat]
    obtain ⟨-, hsame⟩ | ⟨k', r, is, s, rfl, -, -, hnext⟩ | ⟨k', c, i, is, push, s, rfl, -, -, hnext⟩ :=
      next_cases (run R q es) e
    · rw [hsame, hrest]
    · have hk : k ≠ k' := Ne.symm hne
      rw [hnext, put_ne _ hk, hrest]
    · have hk : k ≠ k' := Ne.symm hne
      rw [hnext, put_ne _ hk, hrest]

/-- A part of the state that no start and no turn takes anything from. -/
theorem run_grows {α : Type} {f : σ → List α}
    (hstart : ∀ k r s is s', R.start k r s = some (is, s') → f s <+: f s')
    (hact : ∀ k i c s push s', R.act k i c s = some (push, s') → f s <+: f s') {es₁ es : List (Event κ ρ χ)} (hes : es₁ <+: es)
    (q : Crew κ ι σ) : f (run R q es₁).state <+: f (run R q es).state := by
  obtain ⟨more, rfl⟩ := hes
  induction more using List.reverseRecOn with
  | nil => simp
  | append_singleton more e ih =>
    rw [← List.append_assoc, run_concat]
    refine ih.trans ?_
    obtain ⟨-, hsame⟩ | ⟨k, r, is, s, -, -, hr, hnext⟩ | ⟨k, c, i, is, push, s, -, -, hr, hnext⟩ :=
      next_cases (run R q (es₁ ++ more)) e
    · exact ⟨[], by rw [hsame, List.append_nil]⟩
    · rw [hnext]
      exact hstart k r _ is s hr
    · rw [hnext]
      exact hact k i c _ push s hr

/-- Something of each event of a list and the events before it, one event at a time. -/
theorem forall_prefix_cons {α : Type} {P : List α → α → Prop} {a : α} {l : List α} (hfirst : P [] a)
    (hrest : ∀ l₁ b, l₁ ++ [b] <+: l → P (a :: l₁) b) : ∀ l₁ b, l₁ ++ [b] <+: a :: l → P l₁ b := by
  intro l₁ b hle
  cases l₁ with
  | nil =>
    cases (List.cons_prefix_cons.mp hle).1
    exact hfirst
  | cons c l₁ =>
    obtain ⟨rfl, hle'⟩ := List.cons_prefix_cons.mp hle
    exact hrest l₁ b hle'

/-! ## A budget -/

/-- How many of the events that meet `p` something comes of. -/
def effects (R : Rules κ ρ ι χ σ) (p : Event κ ρ χ → Bool) : Crew κ ι σ → List (Event κ ρ χ) → Nat
  | _, [] => 0
  | q, e :: es => (if p e ∧ outcome R q e ≠ none then 1 else 0) + effects R p (next R q e) es

/-- Where what an event does is paid for from `f`, to which an event that meets `g` may add
    `m`, a run does no more than `f` and all such events pay for. -/
theorem effects_le {I : Crew κ ι σ → Prop} {p g : Event κ ρ χ → Bool} {f : Crew κ ι σ → Nat} {m : Nat}
    (hkeep : ∀ q e, I q → I (next R q e))
    (hpay : ∀ q e, I q → (if p e ∧ outcome R q e ≠ none then 1 else 0) + f (next R q e) ≤ f q + if g e then m else 0)
    {q : Crew κ ι σ} (hq : I q) (es : List (Event κ ρ χ)) : effects R p q es ≤ f q + m * es.countP g := by
  induction es generalizing q with
  | nil => exact Nat.zero_le _
  | cons e es ih =>
    have hfirst := hpay q e hq
    have hrest := ih (hkeep q e hq)
    have hcount : m * (e :: es).countP g = m * es.countP g + if g e then m else 0 := by
      cases he : g e <;> simp [he, Nat.mul_add]
    rw [effects, hcount]
    omega

end Crew

/-! ## A lock -/

/-- What an instruction has to do with the lock. -/
inductive Use where
  | takes
  | frees
  | inside
  | outside
  deriving DecidableEq, Repr

section Lock

variable {κ ρ ι χ σ : Type} [DecidableEq κ] (use : ι → Use)

/-- The rest of a script takes and frees the lock in turn, and needs it in between only.
    A thread that takes a lock it holds waits for ever, so what comes then is no matter. -/
def Guarded : Bool → List ι → Prop
  | held, [] => held = false
  | held, i :: is =>
    match use i with
    | .takes => held = true ∨ Guarded true is
    | .frees => held = true ∧ Guarded false is
    | .inside => held = true ∧ Guarded true is
    | .outside => Guarded held is

/-- The rules do with the lock what `use` says. -/
structure Locks (R : Rules κ ρ ι χ σ) (holder : σ → Option κ) : Prop where
  start : ∀ k r s is s', R.start k r s = some (is, s') → Guarded use false is ∧ holder s' = holder s
  takes : ∀ k i c s push s', use i = .takes → R.act k i c s = some (push, s') →
    push = [] ∧ holder s = none ∧ holder s' = some k
  frees : ∀ k i c s push s', use i = .frees → R.act k i c s = some (push, s') → push = [] ∧ holder s' = none
  inside : ∀ k i c s push s', use i = .inside → R.act k i c s = some (push, s') →
    holder s' = holder s ∧ ∀ is, Guarded use true is → Guarded use true (push ++ is)
  outside : ∀ k i c s push s', use i = .outside → R.act k i c s = some (push, s') →
    holder s' = holder s ∧ ∀ held is, Guarded use held is → Guarded use held (push ++ is)

variable {use} {R : Rules κ ρ ι χ σ} {holder : σ → Option κ}

/-- Every script is guarded, for its thread as it holds the lock or does not. -/
def AllGuarded (use : ι → Use) (holder : σ → Option κ) (q : Crew κ ι σ) : Prop :=
  ∀ k, Guarded use (decide (holder q.state = some k)) (q.script k)

/-- Of two threads one does not have the lock. -/
theorem AllGuarded.put {q : Crew κ ι σ} (hq : AllGuarded use holder q) {k : κ} {is : List ι} {s : σ}
    (hk : Guarded use (decide (holder s = some k)) is)
    (hother : ∀ k', k' ≠ k → (holder s = some k' ↔ holder q.state = some k')) : AllGuarded use holder (q.put k is s) := by
  intro k'
  by_cases he : k' = k
  · subst he
    rw [Crew.put_self, Crew.put_state]
    exact hk
  · have hdec : decide (holder s = some k') = decide (holder q.state = some k') := decide_eq_decide.mpr (hother k' he)
    rw [Crew.put_ne q he, Crew.put_state, hdec]
    exact hq k'

/-- An instruction that needs the lock is run by its holder. -/
theorem AllGuarded.holder_of_inside {q : Crew κ ι σ} (hq : AllGuarded use holder q) {k : κ} {i : ι} {is : List ι}
    (hk : q.script k = i :: is) (hi : use i = .inside ∨ use i = .frees) : holder q.state = some k := by
  have hg := hq k
  rw [hk, Guarded] at hg
  rcases hi with hi | hi <;> rw [hi] at hg <;> exact of_decide_eq_true hg.1

theorem AllGuarded.turn (L : Locks use R holder) {q : Crew κ ι σ} (hq : AllGuarded use holder q) {k : κ} {c : χ} {i : ι}
    {is push : List ι} {s : σ} (hk : q.script k = i :: is) (hr : R.act k i c q.state = some (push, s)) :
    AllGuarded use holder (q.put k (push ++ is) s) := by
  have hg := hq k
  rw [hk, Guarded] at hg
  cases hi : use i with
  | takes =>
    obtain ⟨rfl, hfree, htaken⟩ := L.takes k i c _ _ _ hi hr
    rw [hi, hfree] at hg
    refine hq.put ?_ ?_
    · rw [htaken, decide_eq_true rfl]
      exact hg.resolve_left (by simp)
    · intro k' he
      rw [htaken, hfree]
      simp [Ne.symm he]
  | frees =>
    obtain ⟨rfl, hfree⟩ := L.frees k i c _ _ _ hi hr
    rw [hi] at hg
    have hheld : holder q.state = some k := of_decide_eq_true hg.1
    refine hq.put ?_ ?_
    · rw [hfree]
      exact hg.2
    · intro k' he
      rw [hfree, hheld]
      simp [Ne.symm he]
  | inside =>
    obtain ⟨hsame, hpush⟩ := L.inside k i c _ _ _ hi hr
    rw [hi] at hg
    refine hq.put ?_ (fun k' _ => by rw [hsame])
    rw [hsame, hg.1]
    exact hpush is hg.2
  | outside =>
    obtain ⟨hsame, hpush⟩ := L.outside k i c _ _ _ hi hr
    rw [hi] at hg
    refine hq.put ?_ (fun k' _ => by rw [hsame])
    rw [hsame]
    exact hpush _ is hg

theorem run_guarded (L : Locks use R holder) {init : Crew κ ι σ} (h0 : AllGuarded use holder init)
    (es : List (Crew.Event κ ρ χ)) : AllGuarded use holder (Crew.run R init es) := by
  refine Crew.run_keeps (I := fun _ q => AllGuarded use holder q) h0 (fun _ _ _ _ h => h) ?_ ?_ es
  · intro es q k r is s _ hq hk hr
    obtain ⟨hg, hsame⟩ := L.start k r _ _ _ hr
    have hfree := hq k
    rw [hk, Guarded] at hfree
    refine hq.put ?_ (fun k' _ => by rw [hsame])
    rw [hsame, hfree]
    exact hg
  · intro es q k c i is push s _ hq hk hr
    exact hq.turn L hk hr

end Lock

/-! ## A log in blocks -/

/-- Equal labels stand together. -/
inductive InBlocks {α : Type} : List α → Prop
  | nil : InBlocks []
  | first {l : List α} {a : α} : InBlocks l → a ∉ l → InBlocks (l ++ [a])
  | again {l : List α} {a : α} : InBlocks (l ++ [a]) → InBlocks (l ++ [a] ++ [a])

/-- The block of `a` at the end, which may be empty yet, goes on. -/
theorem InBlocks.concat {α : Type} {earlier block : List α} {a : α} (h : InBlocks (earlier ++ block)) (hearlier : a ∉ earlier)
    (hblock : ∀ b ∈ block, b = a) : InBlocks (earlier ++ block ++ [a]) := by
  rcases List.eq_nil_or_concat block with rfl | ⟨block, b, rfl⟩
  · rw [List.append_nil] at h ⊢
    exact .first h hearlier
  · obtain rfl : b = a := hblock b (by simp)
    rw [List.concat_eq_append, ← List.append_assoc] at h ⊢
    exact .again h

/-- The entry at the end is `b`, or `a` and `b` both come before it. -/
theorem pair_sublist_concat {α : Type} {l : List α} {a b c : α} (h : [a, b].Sublist (l ++ [c])) :
    [a, b].Sublist l ∨ a ∈ l ∧ b = c := by
  obtain ⟨l₁, l₂, hsplit, h₁, h₂⟩ := List.sublist_append_iff.mp h
  rcases l₂ with _ | ⟨d, l₂⟩
  · rw [List.append_nil] at hsplit
    exact .inl (hsplit ▸ h₁)
  · rw [h₂.eq_of_length_le (by simp)] at hsplit
    have hlast : [a] ++ [b] = l₁ ++ [c] := hsplit
    obtain ⟨rfl, hb⟩ := List.append_inj' hlast rfl
    exact .inr ⟨List.singleton_sublist.mp h₁, List.head_eq_of_cons_eq hb⟩

theorem InBlocks.not_both {α : Type} {l : List α} (hl : InBlocks l) {a b : α} (hne : a ≠ b) (hab : [a, b].Sublist l) :
    ¬ [b, a].Sublist l := by
  induction hl generalizing a b with
  | nil => cases hab
  | @first l c _ hc ih =>
    intro hba
    rcases pair_sublist_concat hab with hl₁ | ⟨ha, rfl⟩
    · rcases pair_sublist_concat hba with hl₂ | ⟨hb, rfl⟩
      · exact ih hne hl₁ hl₂
      · exact hc (hl₁.subset List.mem_cons_self)
    · rcases pair_sublist_concat hba with hl₂ | ⟨hb, rfl⟩
      · exact hc (hl₂.subset List.mem_cons_self)
      · exact hne rfl
  | @again l c _ ih =>
    -- The block of `c` was there before, so one of the two orders was.
    intro hba
    rcases pair_sublist_concat hab with hl₁ | ⟨ha, rfl⟩
    · rcases pair_sublist_concat hba with hl₂ | ⟨hb, rfl⟩
      · exact ih hne hl₁ hl₂
      · have hb' : b ∈ l := (List.mem_append.mp hb).resolve_right (by simpa using hne.symm)
        exact ih hne hl₁ ((List.singleton_sublist.mpr hb').append (List.Sublist.refl _))
    · have ha' : a ∈ l := (List.mem_append.mp ha).resolve_right (by simpa using hne)
      rcases pair_sublist_concat hba with hl₂ | ⟨hb, rfl⟩
      · exact ih hne ((List.singleton_sublist.mpr ha').append (List.Sublist.refl _)) hl₂
      · exact hne rfl

end NovaMP.Lib
