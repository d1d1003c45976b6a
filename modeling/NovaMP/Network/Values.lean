/-
  NovaMP.Network.Values — text and JSON that is read as numbers, as the standard library
  and `nlohmann::json` do.

  `stoi` skips white space, takes an optional sign and the digits that follow, and throws
  (`none`) if there are none or the number is no `int`. `j.value(key, default)` throws
  unless `j` is an object, and unless the member, if there is one, has a type that
  converts to that of the default. `trunc` is the conversion of a `double` to an integer.
-/

import Mathlib.Algebra.Ring.Int.Defs
import NovaMP.Server.State

namespace NovaMP

open Lib

/-! ## Text -/

def isSpace (b : UInt8) : Bool := b == 32 || (9 ≤ b && b ≤ 13)

def isDigit (b : UInt8) : Bool := 48 ≤ b && b ≤ 57

/-- The number that decimal digits stand for. -/
def decimal (digits : Bytes) : Nat := digits.foldl (fun n b => 10 * n + (b.toNat - 48)) 0

/-- The digits a text begins with. -/
def leadingDigits (text : Bytes) : Bytes := text.takeWhile isDigit

def stoi (text : Bytes) : Option Int :=
  let signed (negative : Bool) (rest : Bytes) : Option Int :=
    if leadingDigits rest = [] then none
    else
      let n : Int := if negative then -decimal (leadingDigits rest) else decimal (leadingDigits rest)
      if -2 ^ 31 ≤ n ∧ n < 2 ^ 31 then some n else none
  match text.dropWhile isSpace with
  | 45 :: rest => signed true rest
  | 43 :: rest => signed false rest
  | rest => signed false rest

theorem not_isSpace_of_isDigit {b : UInt8} (h : isDigit b = true) : isSpace b = false := by
  simp only [isDigit, Bool.and_eq_true, decide_eq_true_eq, UInt8.le_iff_toNat_le] at h
  have h48 : (48 : UInt8).toNat = 48 := rfl
  simp only [isSpace, Bool.or_eq_false_iff, beq_eq_false_iff_ne, Bool.and_eq_false_iff, decide_eq_false_iff_not,
    UInt8.le_iff_toNat_le]
  refine ⟨?_, .inr ?_⟩
  · rintro rfl
    have h32 : (32 : UInt8).toNat = 32 := rfl
    omega
  · have h13 : (13 : UInt8).toNat = 13 := rfl
    omega

/-- A text that begins with a digit is the number of its leading digits, if that fits. -/
theorem stoi_of_digit {b : UInt8} {rest : Bytes} (h : isDigit b = true) :
    stoi (b :: rest) = if decimal (leadingDigits (b :: rest)) < 2 ^ 31
      then some (decimal (leadingDigits (b :: rest)) : Int) else none := by
  have hdrop : (b :: rest).dropWhile isSpace = b :: rest := by
    rw [List.dropWhile_cons_of_neg]
    simp [not_isSpace_of_isDigit h]
  have hdigits : leadingDigits (b :: rest) ≠ [] := by
    simp [leadingDigits, h]
  have hplus : b ≠ 43 := by
    rintro rfl
    cases h
  have hminus : b ≠ 45 := by
    rintro rfl
    cases h
  unfold stoi
  rw [hdrop]
  split
  · rename_i he
    exact absurd (List.head_eq_of_cons_eq he) hminus
  · rename_i he
    exact absurd (List.head_eq_of_cons_eq he) hplus
  · dsimp only
    rw [if_neg hdigits]
    simp only [Bool.false_eq_true, if_false]
    by_cases hlt : decimal (leadingDigits (b :: rest)) < 2 ^ 31
    · rw [if_pos hlt, if_pos (by omega)]
    · rw [if_neg hlt, if_neg (by omega)]

/-! ## JSON -/

namespace Json

/-- The member `value` looks for. -/
def member (j : Json) (key : String) : Except Fault (Option Json) :=
  match j with
  | obj members => .ok (members.lookup key)
  | _ => .error (.typeError 306)

/-- `j.get<T>()` for an integer type, before the conversion to that type. -/
def getNumber (trunc : UInt64 → Int) : Json → Except Fault Int
  | int n => .ok n
  | real bits => .ok (trunc bits)
  | bool b => .ok (if b then 1 else 0)
  | _ => .error (.typeError 302)

def getBool : Json → Except Fault Bool
  | bool b => .ok b
  | _ => .error (.typeError 302)

/-- `j.value(key, default)` for a default of an integer type. -/
def valueNumber (trunc : UInt64 → Int) (j : Json) (key : String) (dflt : Int) : Except Fault Int := do
  match ← j.member key with
  | none => pure dflt
  | some v => v.getNumber trunc

def valueBool (j : Json) (key : String) (dflt : Bool) : Except Fault Bool := do
  match ← j.member key with
  | none => pure dflt
  | some v => v.getBool

end Json

end NovaMP
