/-
  NovaMP.Lib.Pacing — loops that sleep until their next round is due.

  A paced loop (`sleep_until`) has its rounds due at multiples of a period. A round that
  takes too long makes the next ones late, and a thread may wake up late; how late a
  round begins is its `lag`. What is lost to a long round is caught up with, so a lag
  does not add up.

  - `lag_catches_up`: a lag falls with every round that has time to spare.
  - `lag_le_of_caught`: so rounds begin on time again.
  - `next_round`: when a round begins after a given time, at the latest.
-/

import Mathlib.Data.Nat.Find
import Mathlib.Order.Lattice

namespace NovaMP.Lib

/-- A paced loop: when its first round is due, what its rounds take, and how late its
    thread is when it begins a round it has slept for. -/
structure Pace where
  first : Nat
  period : Nat
  work : Nat → Nat
  late : Nat → Nat

namespace Pace

variable (p : Pace)

def due (k : Nat) : Nat := p.first + k * p.period

/-- When the rounds begin. -/
def start : Nat → Nat
  | 0 => p.due 0 + p.late 0
  | k + 1 => max (start k + p.work k) (p.due (k + 1)) + p.late (k + 1)

def lag (k : Nat) : Nat := p.start k - p.due k

@[simp] theorem due_zero : p.due 0 = p.first := by simp [due]

theorem due_succ (k : Nat) : p.due (k + 1) = p.due k + p.period := by
  rw [due, due, Nat.succ_mul, Nat.add_assoc]

/-- No round begins before it is due. -/
theorem due_le_start (k : Nat) : p.due k ≤ p.start k := by
  cases k with
  | zero => exact Nat.le_add_right _ _
  | succ k => exact (Nat.le_max_right _ _).trans (Nat.le_add_right _ _)

theorem start_eq (k : Nat) : p.start k = p.due k + p.lag k := by
  rw [lag, Nat.add_sub_cancel' (p.due_le_start k)]

theorem lag_succ (k : Nat) : p.lag (k + 1) = (p.lag k + p.work k - p.period) + p.late (k + 1) := by
  have hstart := p.start_eq k
  have hdue := p.due_succ k
  rw [lag, start]
  omega

theorem start_mono {i j : Nat} (h : i ≤ j) : p.start i ≤ p.start j := by
  induction j, h using Nat.le_induction with
  | base => exact le_refl _
  | succ j _ ih =>
    have hmax := Nat.le_max_left (p.start j + p.work j) (p.due (j + 1))
    rw [start]
    omega

variable {p} {b : Nat}

/-- With `spare` time left in each round, so much of a lag is caught up with. -/
theorem lag_catches_up {spare m : Nat} (hlate : ∀ k, p.late k ≤ b) (hwork : ∀ k ≥ m, p.work k + b + spare ≤ p.period)
    (n : Nat) : p.lag (m + n) ≤ max b (p.lag m - n * spare) := by
  induction n with
  | zero => rw [Nat.add_zero, Nat.zero_mul]; exact Nat.le_max_right _ _
  | succ n ih =>
    have hk := hlate (m + n + 1)
    have hw := hwork (m + n) (Nat.le_add_right _ _)
    have hspare : (n + 1) * spare = n * spare + spare := Nat.succ_mul n spare
    rw [← Nat.add_assoc, lag_succ]
    omega

/-- From then on the rounds begin on time. -/
theorem lag_le_of_caught {spare m n : Nat} (hlate : ∀ k, p.late k ≤ b) (hwork : ∀ k ≥ m, p.work k + b + spare ≤ p.period)
    (hcaught : p.lag m ≤ b + n * spare) {k : Nat} (hk : m + n ≤ k) : p.lag k ≤ b := by
  obtain ⟨j, rfl⟩ := Nat.exists_eq_add_of_le hk
  have hlag := lag_catches_up hlate hwork (n + j)
  have hspare : n * spare ≤ (n + j) * spare := Nat.mul_le_mul_right _ (Nat.le_add_right _ _)
  rw [Nat.add_assoc]
  omega

/-- After any time there is a round, within the period and the lag there can be. -/
theorem next_round {t : Nat} (hlag : ∀ k, t < p.start k → p.lag k ≤ b) (hperiod : 0 < p.period) (ht : p.first ≤ t) :
    ∃ k, t < p.start k ∧ p.start k ≤ t + p.period + b ∧ ∀ j < k, p.start j ≤ t := by
  have hex : ∃ k, t < p.start k := by
    refine ⟨t + 1, lt_of_lt_of_le ?_ (p.due_le_start (t + 1))⟩
    rw [due]
    have hmul : t + 1 ≤ (t + 1) * p.period := Nat.le_mul_of_pos_right _ hperiod
    omega
  have hmin : ∀ j < Nat.find hex, p.start j ≤ t := fun j hj => Nat.le_of_not_lt (Nat.find_min hex hj)
  refine ⟨Nat.find hex, Nat.find_spec hex, ?_, hmin⟩
  have hstart := p.start_eq (Nat.find hex)
  have hb := hlag (Nat.find hex) (Nat.find_spec hex)
  cases hk : Nat.find hex with
  | zero =>
    rw [hk, due_zero] at hstart
    rw [hk] at hb
    omega
  | succ j =>
    have hj := hmin j (by omega)
    have hdue := p.due_succ j
    have hle := p.due_le_start j
    rw [hk] at hstart hb
    omega

end Pace

end NovaMP.Lib
