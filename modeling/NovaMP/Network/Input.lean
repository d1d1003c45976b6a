/-
  NovaMP.Network.Input — the bytes of a text to `std::istream` in the "C" locale, and the
  range of an `int`.
-/

import NovaMP.Lib.Istream
import NovaMP.Network.Decimal

namespace NovaMP

open Lib Lib.Istream

def ascii : Alphabet UInt8 where
  space := isSpace
  digit := isDigit
  plus := 43
  minus := 45
  value := decimal

theorem ascii_lawful : ascii.Lawful where
  digit_not_space _ := not_isSpace_of_isDigit
  plus_not_space := rfl
  minus_not_space := rfl
  plus_not_digit := rfl
  minus_not_digit := rfl
  signs_differ := by decide

/-- A numeral as an `int`: the nearest one and a failure if it is out of range. -/
def toInt (negative : Bool) (m : Nat) : Int × Bool :=
  let n : Int := if negative then -m else m
  if -2 ^ 31 ≤ n ∧ n < 2 ^ 31 then (n, false) else (if negative then -2 ^ 31 else 2 ^ 31 - 1, true)

theorem toInt_natCast {m : Nat} (h : m < 2 ^ 31) : toInt false m = (↑m, false) := by
  rw [toInt, if_neg Bool.false_ne_true, if_pos (by omega)]

/-- A printed number is a numeral, whatever follows but a digit. -/
theorem numeral_natText {rest : Bytes} (space : Bytes) (hspace : ∀ b ∈ space, isSpace b = true) (hrest : DigitsEnd rest)
    (n : Nat) :
    Numeral ascii (space ++ (natText n ++ rest)) false (natText n) rest :=
  ⟨⟨space, [], rfl, hspace, .inl ⟨rfl, rfl⟩⟩, natText_ne_nil n, fun _ => isDigit_of_mem_natText, hrest⟩

end NovaMP
