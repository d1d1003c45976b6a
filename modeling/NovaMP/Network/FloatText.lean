/-
  NovaMP.Network.FloatText — single-precision floats as `%.6f` prints them.

  A float is its 32 bits. A finite one is an exact rational, `m / 2 ^ 149` up to its
  sign; it is printed as the nearest multiple of a millionth, to the even one of two
  (`divEven`).

  - `printed_near`: what is printed is half a millionth off at most.
  - `decimal_fixed`: the digits before and after the point are those of the millionths.
  - `fixedText_length_le`: what is printed below `10 ^ k` has `k` digits before the point
    at most.
-/

import Mathlib.Algebra.Order.Field.Basic
import Mathlib.Algebra.Order.Field.Rat
import Mathlib.Data.Rat.Cast.Order
import Mathlib.Tactic.Linarith
import Mathlib.Tactic.FieldSimp
import NovaMP.Network.Decimal

namespace NovaMP

open Lib

/-! ## Rounding -/

/-- `a / b`, to the nearest integer, and to the even one of two. -/
def divEven (a b : Nat) : Nat :=
  let q := a / b
  let r := a % b
  if b < 2 * r ∨ b = 2 * r ∧ q % 2 = 1 then q + 1 else q

theorem divEven_near (a : Nat) {b : Nat} (hb : 0 < b) : |(divEven a b : Rat) - a / b| ≤ 1 / 2 := by
  have hdiv := Nat.div_add_mod a b
  have hmod := Nat.mod_lt a hb
  have hnear : 2 * (b * divEven a b) ≤ 2 * a + b ∧ 2 * a ≤ 2 * (b * divEven a b) + b := by
    unfold divEven
    dsimp only
    split
    · rw [Nat.mul_add, Nat.mul_one]
      omega
    · omega
  have hle : (2 : Rat) * (b * divEven a b) ≤ 2 * a + b := by exact_mod_cast hnear.1
  have hge : (2 : Rat) * a ≤ 2 * (b * divEven a b) + b := by exact_mod_cast hnear.2
  have hpos : (0 : Rat) < b := by exact_mod_cast hb
  rw [abs_sub_le_iff, sub_le_iff_le_add, sub_le_iff_le_add, div_add_div _ _ (by norm_num) hpos.ne', le_div_iff₀ (by positivity),
    div_le_iff₀ hpos]
  constructor <;> nlinarith

/-! ## Floats -/

namespace Single

def negative (bits : UInt32) : Bool := 2 ^ 31 ≤ bits.toNat

def exponent (bits : UInt32) : Nat := bits.toNat / 2 ^ 23 % 256

def fraction (bits : UInt32) : Nat := bits.toNat % 2 ^ 23

/-- The absolute value of a finite float, in units of `2 ^ -149`. -/
def magnitude (bits : UInt32) : Nat :=
  if exponent bits = 0 then fraction bits else (2 ^ 23 + fraction bits) * 2 ^ (exponent bits - 1)

def signed (bits : UInt32) (x : Rat) : Rat := if negative bits then -x else x

def value (bits : UInt32) : Rat := signed bits (magnitude bits / 2 ^ 149)

/-- The absolute value in millionths, rounded. -/
def millionths (bits : UInt32) : Nat := divEven (magnitude bits * 10 ^ 6) (2 ^ 149)

/-- The rational that is printed. -/
def printed (bits : UInt32) : Rat := signed bits (millionths bits / 10 ^ 6)

end Single

/-- The last `k` digits of `n`, with zeros in front. -/
def lastDigits : Nat → Nat → Bytes
  | 0, _ => []
  | k + 1, n => lastDigits k (n / 10) ++ [UInt8.ofNat (48 + n % 10)]

/-- `%.6f` -/
def fixedText (bits : UInt32) : Bytes :=
  let sign : Bytes := if Single.negative bits then [45] else []
  if Single.exponent bits = 255 then sign ++ utf8 (if Single.fraction bits = 0 then "inf" else "nan")
  else
    let m := Single.millionths bits
    sign ++ natText (m / 10 ^ 6) ++ 46 :: lastDigits 6 m

/-! ## What is printed -/

theorem Single.printed_near (bits : UInt32) : |printed bits - value bits| ≤ 1 / (2 * 10 ^ 6) := by
  have hnear : |(millionths bits : Rat) / 10 ^ 6 - magnitude bits / 2 ^ 149| ≤ 1 / (2 * 10 ^ 6) := by
    have hround := divEven_near (magnitude bits * 10 ^ 6) (b := 2 ^ 149) (by positivity)
    push_cast at hround
    have hscale : (millionths bits : Rat) / 10 ^ 6 - magnitude bits / 2 ^ 149 =
        (millionths bits - magnitude bits * 10 ^ 6 / 2 ^ 149) / 10 ^ 6 := by
      field_simp
    rw [hscale, abs_div, div_le_div_iff₀ (by positivity) (by positivity)]
    rw [millionths]
    have hten : |(10 : Rat) ^ 6| = 10 ^ 6 := abs_of_pos (by positivity)
    rw [hten]
    linarith
  unfold printed value signed
  split
  · rwa [neg_sub_neg, abs_sub_comm]
  · exact hnear

theorem lastDigits_length (k n : Nat) : (lastDigits k n).length = k := by
  induction k generalizing n with
  | zero => rfl
  | succ k ih => simp [lastDigits, ih]

theorem isDigit_of_mem_lastDigits {k n : Nat} {b : UInt8} (hb : b ∈ lastDigits k n) : isDigit b = true := by
  induction k generalizing n with
  | zero => cases hb
  | succ k ih =>
    rcases List.mem_append.mp hb with hb | hb
    · exact ih hb
    · obtain rfl := List.mem_singleton.mp hb
      simp only [isDigit, Bool.and_eq_true, decide_eq_true_eq, UInt8.le_iff_toNat_le, UInt8.toNat_ofNat']
      have h48 : (48 : UInt8).toNat = 48 := rfl
      have h57 : (57 : UInt8).toNat = 57 := rfl
      omega

theorem decimal_concat (digits : Bytes) (b : UInt8) : decimal (digits ++ [b]) = 10 * decimal digits + (b.toNat - 48) := by
  rw [decimal, List.foldl_append]
  rfl

/-- The digits around the point are those of the number. -/
theorem decimal_fixed (k n : Nat) : decimal (natText (n / 10 ^ k) ++ lastDigits k n) = n := by
  induction k generalizing n with
  | zero => simp [lastDigits, decimal_natText]
  | succ k ih =>
    have hdiv : n / 10 ^ (k + 1) = n / 10 / 10 ^ k := by
      rw [Nat.div_div_eq_div_mul, Nat.pow_succ']
    have hdigit : (UInt8.ofNat (48 + n % 10)).toNat = 48 + n % 10 := by
      rw [UInt8.toNat_ofNat']
      omega
    rw [lastDigits, ← List.append_assoc, hdiv, decimal_concat, ih, hdigit]
    omega

theorem fixedText_eq {bits : UInt32} (hfinite : Single.exponent bits ≠ 255) :
    fixedText bits = (if Single.negative bits then [45] else []) ++
      (natText (Single.millionths bits / 10 ^ 6) ++ 46 :: lastDigits 6 (Single.millionths bits)) := by
  rw [fixedText, if_neg hfinite, List.append_assoc]

theorem fixedText_length {bits : UInt32} (hfinite : Single.exponent bits ≠ 255) :
    (fixedText bits).length = (if Single.negative bits then 1 else 0) +
      (natText (Single.millionths bits / 10 ^ 6)).length + 7 := by
  rw [fixedText_eq hfinite, List.length_append, List.length_append, List.length_cons, lastDigits_length]
  split
  · rw [List.length_singleton]
    omega
  · rw [List.length_nil]
    omega

/-- What is printed below `10 ^ k` has `k` digits before the point at most. -/
theorem fixedText_length_le {bits : UInt32} {k : Nat} (hk : 0 < k) (hfinite : Single.exponent bits ≠ 255)
    (hsmall : |Single.printed bits| < 10 ^ k) : (fixedText bits).length ≤ k + 8 := by
  have habs : |Single.printed bits| = Single.millionths bits / 10 ^ 6 := by
    have hpos : (0 : Rat) ≤ Single.millionths bits / 10 ^ 6 := by positivity
    unfold Single.printed Single.signed
    split
    · rw [abs_neg, abs_of_nonneg hpos]
    · exact abs_of_nonneg hpos
  rw [habs, div_lt_iff₀ (by positivity)] at hsmall
  have hlt : Single.millionths bits < 10 ^ k * 10 ^ 6 := by exact_mod_cast hsmall
  have hdigits := (natText_length_le_iff hk).mpr (Nat.div_lt_of_lt_mul (by rwa [Nat.mul_comm] at hlt))
  rw [fixedText_length hfinite]
  split <;> omega

/-- A printed float is a text of digits, `-`, `.` and letters. -/
theorem fixedText_token (bits : UInt32) : fixedText bits ≠ [] ∧ 58 ∉ fixedText bits := by
  by_cases hfinite : Single.exponent bits = 255
  · have htexts : ∀ text ∈ ["inf", "nan"], utf8 text ≠ [] ∧ (58 : UInt8) ∉ utf8 text := by decide
    have htext := htexts (if Single.fraction bits = 0 then "inf" else "nan") (by split <;> simp)
    rw [fixedText, if_pos hfinite]
    refine ⟨fun hnil => htext.1 (List.append_eq_nil_iff.mp hnil).2, fun hmem => ?_⟩
    rcases List.mem_append.mp hmem with hmem | hmem
    · split at hmem <;> simp at hmem
    · exact htext.2 hmem
  · rw [fixedText_eq hfinite]
    refine ⟨by simp, fun hmem => ?_⟩
    rcases List.mem_append.mp hmem with hmem | hmem
    · split at hmem <;> simp at hmem
    · rcases List.mem_append.mp hmem with hmem | hmem
      · cases isDigit_of_mem_natText hmem
      · rcases List.mem_cons.mp hmem with hmem | hmem
        · cases hmem
        · cases isDigit_of_mem_lastDigits hmem

end NovaMP
