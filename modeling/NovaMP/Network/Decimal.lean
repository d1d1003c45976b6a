/-
  NovaMP.Network.Decimal — numbers as decimal text, as `%d` and `std::to_string` print
  them and `stoi` reads them.

  - `stoi_natText`: what is printed is read back, whatever follows but a digit.
  - `stoi_eq_some_iff`: what `stoi` reads of any text (`Writes`): white space, a sign and
    the digits after it, of an `int`; the rest is left alone.
-/

import Mathlib.Data.List.TakeWhile
import NovaMP.Network.Values

namespace NovaMP

open Lib

/-! ## Printing -/

def natText (n : Nat) : Bytes := utf8 (toString n)

theorem isDigit_char {c : Char} (hc : c.isDigit = true) : 48 ≤ c.toNat ∧ c.toNat ≤ 57 := by
  simp only [Char.isDigit, Bool.and_eq_true, decide_eq_true_eq, ge_iff_le, UInt32.le_iff_toNat_le] at hc
  exact hc

theorem toNat_digit {c : Char} (hc : c.isDigit = true) : c.val.toUInt8.toNat = c.toNat := by
  have hle := isDigit_char hc
  rw [UInt32.toNat_toUInt8]
  show c.toNat % 2 ^ 8 = c.toNat
  omega

theorem flatMap_digits {cs : List Char} (hcs : ∀ c ∈ cs, c.isDigit = true) :
    cs.flatMap String.utf8EncodeChar = cs.map fun c => c.val.toUInt8 := by
  induction cs with
  | nil => rfl
  | cons c cs ih =>
    obtain ⟨hc, hcs⟩ := List.forall_mem_cons.mp hcs
    have hsize : c.utf8Size = 1 := by
      rw [Char.utf8Size_eq_one_iff, UInt32.le_iff_toNat_le]
      have hle := isDigit_char hc
      show c.toNat ≤ 127
      omega
    rw [List.flatMap_cons, String.utf8EncodeChar_eq_singleton hsize, ih hcs]
    rfl

theorem natText_eq (n : Nat) : natText n = (Nat.toDigits 10 n).map fun c => c.val.toUInt8 := by
  rw [← flatMap_digits fun c hc => Nat.isDigit_of_mem_toDigits (by decide) (by decide) hc]
  rw [natText, utf8, Nat.toString_eq_ofList_toDigits]
  simp [List.utf8Encode]

theorem isDigit_of_mem_natText {n : Nat} {b : UInt8} (hb : b ∈ natText n) : isDigit b = true := by
  rw [natText_eq] at hb
  obtain ⟨c, hc, rfl⟩ := List.mem_map.mp hb
  have hdigit := Nat.isDigit_of_mem_toDigits (by decide) (by decide) hc
  have hle := isDigit_char hdigit
  simp only [isDigit, Bool.and_eq_true, decide_eq_true_eq, UInt8.le_iff_toNat_le, toNat_digit hdigit]
  exact hle

@[simp] theorem natText_ne_nil (n : Nat) : natText n ≠ [] := by
  simp [natText_eq]

theorem natText_length_le_iff {n k : Nat} (hk : 0 < k) : (natText n).length ≤ k ↔ n < 10 ^ k := by
  rw [natText_eq, List.length_map, Nat.length_toDigits_le_iff (by decide) hk]

/-- The digits are those of the number. -/
theorem decimal_natText (n : Nat) : decimal (natText n) = n := by
  have hfold : ∀ (cs : List Char) (init : Nat), (∀ c ∈ cs, c.isDigit = true) →
      (cs.map fun c => c.val.toUInt8).foldl (fun n b => 10 * n + (b.toNat - 48)) init = Nat.ofDigitChars 10 cs init := by
    intro cs
    induction cs with
    | nil => exact fun _ _ => rfl
    | cons c cs ih =>
      intro init hcs
      obtain ⟨hc, hcs⟩ := List.forall_mem_cons.mp hcs
      rw [List.map_cons, List.foldl_cons, toNat_digit hc, ih _ hcs, Nat.ofDigitChars_cons]
      rfl
  rw [decimal, natText_eq, hfold _ _ fun c hc => Nat.isDigit_of_mem_toDigits (by decide) (by decide) hc]
  exact Nat.ofDigitChars_ten_toDigits

/-! ## Reading back -/

/-- The text does not go on with a digit. -/
def DigitsEnd (rest : Bytes) : Prop := ∀ b ∈ rest.head?, isDigit b = false

theorem leadingDigits_append {digits rest : Bytes} (hdigits : ∀ b ∈ digits, isDigit b = true) (hrest : DigitsEnd rest) :
    leadingDigits (digits ++ rest) = digits := by
  rw [leadingDigits, List.takeWhile_append_of_pos hdigits]
  cases rest with
  | nil => simp
  | cons b rest => simp [hrest b rfl]

/-- A printed number is read back, whatever follows but a digit. -/
theorem stoi_natText {n : Nat} (hn : n < 2 ^ 31) {rest : Bytes} (hrest : DigitsEnd rest) :
    stoi (natText n ++ rest) = some (n : Int) := by
  have hlead : leadingDigits (natText n ++ rest) = natText n :=
    leadingDigits_append (fun b => isDigit_of_mem_natText) hrest
  cases htext : natText n with
  | nil => exact absurd htext (natText_ne_nil n)
  | cons b digits =>
    have hb : isDigit b = true := isDigit_of_mem_natText (n := n) (by simp [htext])
    rw [htext] at hlead
    rw [List.cons_append, stoi_of_digit hb, ← List.cons_append, hlead, ← htext, decimal_natText, if_pos hn]

/-! ## Any text -/

/-- What a sign makes of a number. -/
def Signs (sign : Bytes) (m : Nat) (n : Int) : Prop := (sign = [] ∨ sign = [43]) ∧ n = m ∨ sign = [45] ∧ n = -m

/-- The text begins, after white space, with the integer `n` in decimal. -/
def Writes (text : Bytes) (n : Int) : Prop :=
  ∃ space sign digits rest, text = space ++ (sign ++ (digits ++ rest)) ∧ (∀ b ∈ space, isSpace b = true) ∧
    digits ≠ [] ∧ (∀ b ∈ digits, isDigit b = true) ∧ DigitsEnd rest ∧ Signs sign (decimal digits) n

/-- Whether there is a minus sign, and the text after the sign. -/
def splitSign : Bytes → Bool × Bytes
  | 45 :: rest => (true, rest)
  | 43 :: rest => (false, rest)
  | rest => (false, rest)

/-- `stoi` for integers of any size. -/
def integer (text : Bytes) : Option Int :=
  let signed := splitSign (text.dropWhile isSpace)
  let digits := leadingDigits signed.2
  if digits = [] then none else some (if signed.1 then -(decimal digits : Int) else decimal digits)

theorem stoi_eq (text : Bytes) :
    stoi text = (integer text).bind fun n => if -2 ^ 31 ≤ n ∧ n < 2 ^ 31 then some n else none := by
  unfold stoi integer
  generalize text.dropWhile isSpace = t
  have hsigned : ∀ (negative : Bool) (rest : Bytes), (if leadingDigits rest = [] then none
      else
        let n : Int := if negative then -decimal (leadingDigits rest) else decimal (leadingDigits rest)
        if -2 ^ 31 ≤ n ∧ n < 2 ^ 31 then some n else none) =
      (if leadingDigits rest = [] then none
        else some (if negative then -(decimal (leadingDigits rest) : Int) else decimal (leadingDigits rest))).bind
          fun n => if -2 ^ 31 ≤ n ∧ n < 2 ^ 31 then some n else none := by
    intro negative rest
    by_cases hnil : leadingDigits rest = []
    · rw [if_pos hnil, if_pos hnil]
      rfl
    · rw [if_neg hnil, if_neg hnil]
      rfl
  split
  · exact hsigned true _
  · exact hsigned false _
  · rename_i hminus hplus
    rw [splitSign]
    · exact hsigned false _
    · exact hminus
    · exact hplus

theorem digitsEnd_dropWhile (text : Bytes) : DigitsEnd (text.dropWhile isDigit) := by
  intro b hb
  cases hd : text.dropWhile isDigit with
  | nil => simp [hd] at hb
  | cons c rest =>
    have hc := List.head?_dropWhile_not isDigit text
    rw [hd] at hb hc
    obtain rfl : c = b := Option.some.inj hb
    simpa using hc

/-- A text without white space in front is its sign, its digits and the rest. -/
theorem integer_of_parts {space sign digits rest : Bytes} {n : Int} (hspace : ∀ b ∈ space, isSpace b = true)
    (hne : digits ≠ []) (hdigits : ∀ b ∈ digits, isDigit b = true) (hrest : DigitsEnd rest)
    (hsign : Signs sign (decimal digits) n) : integer (space ++ (sign ++ (digits ++ rest))) = some n := by
  obtain ⟨d, ds, rfl⟩ := List.exists_cons_of_ne_nil hne
  have hd : isDigit d = true := hdigits d (by simp)
  have hlead := leadingDigits_append hdigits hrest
  have hdrop : ∀ b more, isSpace b = false → (space ++ b :: more).dropWhile isSpace = b :: more := by
    intro b more hb
    rw [List.dropWhile_append_of_pos hspace, List.dropWhile_cons_of_neg (by simp [hb])]
  rcases hsign with ⟨rfl | rfl, rfl⟩ | ⟨rfl, rfl⟩
  · have hplain : splitSign (d :: (ds ++ rest)) = (false, d :: (ds ++ rest)) := by
      rw [splitSign]
      · rintro more he
        cases List.head_eq_of_cons_eq he
        cases hd
      · rintro more he
        cases List.head_eq_of_cons_eq he
        cases hd
    rw [integer, List.nil_append, List.cons_append, hdrop d _ (not_isSpace_of_isDigit hd), hplain]
    dsimp only
    rw [← List.cons_append, hlead, if_neg hne]
    rfl
  · rw [integer, List.singleton_append, hdrop 43 _ (by decide), splitSign, hlead, if_neg hne]
    rfl
  · rw [integer, List.singleton_append, hdrop 45 _ (by decide), splitSign, hlead, if_neg hne]
    rfl

/-- The sign is what `splitSign` takes off. -/
theorem splitSign_spec (text : Bytes) : ∃ sign, text = sign ++ (splitSign text).2 ∧
    ∀ m : Nat, Signs sign m (if (splitSign text).1 then -(m : Int) else m) := by
  unfold splitSign
  split
  · exact ⟨[45], rfl, fun m => .inr ⟨rfl, rfl⟩⟩
  · exact ⟨[43], rfl, fun m => .inl ⟨.inr rfl, rfl⟩⟩
  · exact ⟨[], rfl, fun m => .inl ⟨.inl rfl, rfl⟩⟩

theorem integer_eq_some_iff {text : Bytes} {n : Int} : integer text = some n ↔ Writes text n := by
  constructor
  · intro hn
    obtain ⟨sign, hsplit, hsign⟩ := splitSign_spec (text.dropWhile isSpace)
    unfold integer at hn
    dsimp only at hn
    by_cases hne : leadingDigits (splitSign (text.dropWhile isSpace)).2 = []
    · rw [if_pos hne] at hn
      cases hn
    · rw [if_neg hne] at hn
      cases hn
      refine ⟨text.takeWhile isSpace, sign, _, (splitSign (text.dropWhile isSpace)).2.dropWhile isDigit, ?_,
        fun b => List.mem_takeWhile_imp, hne, fun b => List.mem_takeWhile_imp, digitsEnd_dropWhile _, hsign _⟩
      rw [leadingDigits, List.takeWhile_append_dropWhile, ← hsplit, List.takeWhile_append_dropWhile]
  · rintro ⟨space, sign, digits, rest, rfl, hspace, hne, hdigits, hrest, hsign⟩
    exact integer_of_parts hspace hne hdigits hrest hsign

/-- What `stoi` reads is what the text begins with, if that is an `int`. -/
theorem stoi_eq_some_iff {text : Bytes} {n : Int} : stoi text = some n ↔ Writes text n ∧ -2 ^ 31 ≤ n ∧ n < 2 ^ 31 := by
  rw [stoi_eq, ← integer_eq_some_iff]
  cases integer text with
  | none => simp
  | some m =>
    rw [Option.bind_some, Option.some.injEq]
    split
    · rename_i hm
      constructor
      · intro heq
        cases heq
        exact ⟨rfl, hm⟩
      · intro heq
        rw [heq.1]
    · rename_i hm
      refine iff_of_false nofun fun heq => hm ?_
      rw [heq.1]
      exact heq.2

/-- A text writes one integer at most. -/
theorem Writes.unique {text : Bytes} {m n : Int} (hm : Writes text m) (hn : Writes text n) : m = n := by
  rw [← integer_eq_some_iff] at hm hn
  exact Option.some.inj (hm.symm.trans hn)

end NovaMP
