/-
  NovaMP.Lib.Loop — loops that end.

  A `Loop` is the body of a `while` loop with a measure that every pass makes smaller,
  so a loop without an end cannot be built. A pass may leave the loop (its condition
  fails, or it breaks), go on with a new state, or raise. `Ends` is the loop taken pass
  by pass, `run` what it computes.

  - `run_ends`: after at most as many passes as the measure says the loop has ended.
  - `run_invariant`: what every pass keeps holds where the loop is left, and
    `Reaches.invariant`: in every state that the loop passes through.
-/

import Mathlib.Data.List.Basic

namespace NovaMP.Lib

inductive Pass (σ E : Type) where
  | leave
  | next (s : σ)
  | raise (e : E)
  deriving DecidableEq, Repr

structure Loop (σ E : Type) where
  body : σ → Pass σ E
  measure : σ → Nat
  decreases : ∀ s t, body s = .next t → measure t < measure s

namespace Loop

variable {σ E : Type}

/-- From `s` the loop ends with `r` after `n` full passes. -/
inductive Ends (body : σ → Pass σ E) : σ → Nat → Except E σ → Prop
  | leave {s : σ} : body s = .leave → Ends body s 0 (.ok s)
  | raise {s : σ} {e : E} : body s = .raise e → Ends body s 0 (.error e)
  | next {s t : σ} {n : Nat} {r : Except E σ} : body s = .next t → Ends body t n r → Ends body s (n + 1) r

def run (l : Loop σ E) (s : σ) : Except E σ :=
  match _h : l.body s with
  | .leave => .ok s
  | .raise e => .error e
  | .next t => run l t
termination_by l.measure s
decreasing_by exact l.decreases s t _h

variable {l : Loop σ E}

theorem run_leave {s : σ} (h : l.body s = .leave) : l.run s = .ok s := by
  rw [run]
  split <;> simp_all

theorem run_raise {s : σ} {e : E} (h : l.body s = .raise e) : l.run s = .error e := by
  rw [run]
  split <;> simp_all

theorem run_next {s t : σ} (h : l.body s = .next t) : l.run s = l.run t := by
  rw [run]
  split <;> simp_all

theorem run_ends (l : Loop σ E) (s : σ) : ∃ n, n ≤ l.measure s ∧ Ends l.body s n (l.run s) := by
  induction s using run.induct l with
  | case1 s h => exact ⟨0, Nat.zero_le _, by rw [run_leave h]; exact .leave h⟩
  | case2 s e h => exact ⟨0, Nat.zero_le _, by rw [run_raise h]; exact .raise h⟩
  | case3 s t h ih =>
    obtain ⟨n, hn, hends⟩ := ih
    have hlt := l.decreases s t h
    refine ⟨n + 1, by omega, ?_⟩
    rw [run_next h]
    exact .next h hends

/-- A loop that keeps `I` and raises nowhere in it is left in a state of `I`. -/
theorem run_invariant {I : σ → Prop} (hnext : ∀ s t, I s → l.body s = .next t → I t)
    (hraise : ∀ s e, I s → l.body s ≠ .raise e) {s : σ} (hs : I s) :
    ∃ t, l.run s = .ok t ∧ I t ∧ l.body t = .leave := by
  induction s using run.induct l with
  | case1 s h => exact ⟨s, run_leave h, hs, h⟩
  | case2 s e h => exact absurd h (hraise s e hs)
  | case3 s t h ih =>
    rw [run_next h]
    exact ih (hnext s t hs h)

/-- The states that the loop passes through. -/
inductive Reaches (body : σ → Pass σ E) (s : σ) : σ → Prop
  | refl : Reaches body s s
  | next {t u : σ} : Reaches body s t → body t = .next u → Reaches body s u

theorem Reaches.invariant {body : σ → Pass σ E} {I : σ → Prop} {s t : σ} (hr : Reaches body s t) (hs : I s)
    (hnext : ∀ t u, I t → body t = .next u → I u) : I t := by
  induction hr with
  | refl => exact hs
  | next _ hbody ih => exact hnext _ _ ih hbody

end Loop

end NovaMP.Lib
