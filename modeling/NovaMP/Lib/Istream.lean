/-
  NovaMP.Lib.Istream — formatted input from a text stream, as `std::istream` does it.

  A stream is the text that is left with its two state bits. Formatted input skips white
  space first; if nothing is left, or a bit is set already, it reads nothing and leaves
  its variable as it was (`none`). A number is a sign and the digits after it; what
  becomes of it is left to `convert`, with whether it is out of range.

  - `number_numeral`: a numeral is read whole, whatever follows but a digit.
  - `number_blank`, `number_malformed`: what becomes of any other text.
  - `number_failed`, `getline_failed`: after a failure nothing is read any more.
-/

import Mathlib.Data.List.Basic
import Mathlib.Data.List.TakeWhile

namespace NovaMP.Lib

/-- What formatted input knows of characters. -/
structure Alphabet (α : Type) where
  space : α → Bool
  digit : α → Bool
  plus : α
  minus : α
  /-- The number that digits stand for. -/
  value : List α → Nat

structure Alphabet.Lawful {α : Type} (a : Alphabet α) : Prop where
  digit_not_space : ∀ b, a.digit b = true → a.space b = false
  plus_not_space : a.space a.plus = false
  minus_not_space : a.space a.minus = false
  plus_not_digit : a.digit a.plus = false
  minus_not_digit : a.digit a.minus = false
  signs_differ : a.plus ≠ a.minus

structure Istream (α : Type) where
  rest : List α
  eof : Bool
  fail : Bool
  deriving DecidableEq, Repr

namespace Istream

variable {α : Type}

def ofText (text : List α) : Istream α := ⟨text, false, false⟩

/-- The stream after an input that stopped in front of `rest`. -/
def stopped (rest : List α) : Istream α := ⟨rest, rest.isEmpty, false⟩

def good (s : Istream α) : Bool := !(s.eof || s.fail)

variable (a : Alphabet α)

/-! ## Formatted input -/

/-- The sentry: whether there is something to read, and the stream without the white
    space in front. -/
def sentry (s : Istream α) : Bool × Istream α :=
  if s.good then
    match s.rest.dropWhile a.space with
    | [] => (false, ⟨[], true, true⟩)
    | b :: rest => (true, ofText (b :: rest))
  else (false, { s with fail := true })

/-- `is >> str` -/
def word (s : Istream α) : Option (List α) × Istream α :=
  let (ok, s) := s.sentry a
  if ok then
    (some (s.rest.takeWhile fun b => !a.space b), stopped (s.rest.dropWhile fun b => !a.space b))
  else (none, s)

variable [DecidableEq α]

/-- Whether there is a minus sign, and the text after the sign. -/
def splitSign : List α → Bool × List α
  | [] => (false, [])
  | b :: rest => if b = a.minus then (true, rest) else if b = a.plus then (false, rest) else (false, b :: rest)

/-- `is >> n`. A text without digits reads as `0`. -/
def number (convert : Bool → Nat → Int × Bool) (s : Istream α) : Option Int × Istream α :=
  let (ok, s) := s.sentry a
  if ok then
    let signed := splitSign a s.rest
    let digits := signed.2.takeWhile a.digit
    let rest := signed.2.dropWhile a.digit
    if digits = [] then (some 0, ⟨rest, rest.isEmpty, true⟩)
    else
      let (n, bad) := convert signed.1 (a.value digits)
      (some n, ⟨rest, rest.isEmpty, bad⟩)
  else (none, s)

/-! ## Unformatted input -/

/-- `std::getline`. The delimiter is taken and not kept. -/
def getline (d : α) (s : Istream α) : Option (List α) × Istream α :=
  if s.good then
    let line := s.rest.takeWhile fun b => b ≠ d
    match s.rest.dropWhile fun b => b ≠ d with
    | [] => (some line, ⟨[], true, line.isEmpty⟩)
    | _ :: rest => (some line, ofText rest)
  else (none, { s with fail := true })

omit [DecidableEq α]

/-- `is.get()` -/
def get (s : Istream α) : Option α × Istream α :=
  if s.good then
    match s.rest with
    | [] => (none, ⟨[], true, true⟩)
    | b :: rest => (some b, ofText rest)
  else (none, { s with fail := true })

/-- `is.ignore()`, which does not mind the end. -/
def ignore (s : Istream α) : Istream α :=
  if s.good then
    match s.rest with
    | [] => ⟨[], true, false⟩
    | _ :: rest => ofText rest
  else { s with fail := true }

/-! ## The state bits -/

variable {a} {s : Istream α} {text : List α}

@[simp] theorem good_ofText : (ofText text).good = true := rfl

theorem good_of_fail (hs : s.fail = true) : s.good = false := by simp [good, hs]

theorem good_stopped : (stopped text).good = !text.isEmpty := by simp [good, stopped]

@[simp] theorem rest_ofText : (ofText text).rest = text := rfl

theorem sentry_blank (h : ∀ b ∈ text, a.space b = true) : (ofText text).sentry a = (false, ⟨[], true, true⟩) := by
  have hdrop : text.dropWhile a.space = [] := List.dropWhile_eq_nil_iff.mpr h
  rw [sentry, if_pos good_ofText, rest_ofText, hdrop]

theorem sentry_text {space : List α} {b : α} {rest : List α} (hspace : ∀ b ∈ space, a.space b = true)
    (hb : a.space b = false) : (ofText (space ++ b :: rest)).sentry a = (true, ofText (b :: rest)) := by
  have hdrop : (space ++ b :: rest).dropWhile a.space = b :: rest := by
    rw [List.dropWhile_append_of_pos hspace, List.dropWhile_cons_of_neg (by simp [hb])]
  rw [sentry, if_pos good_ofText, rest_ofText, hdrop]

/-- Nothing is left to read, or something. -/
theorem blank_or_text (a : Alphabet α) (text : List α) :
    (∀ b ∈ text, a.space b = true) ∨
      ∃ space b rest, text = space ++ b :: rest ∧ (∀ b ∈ space, a.space b = true) ∧ a.space b = false := by
  cases hdrop : text.dropWhile a.space with
  | nil => exact .inl (List.dropWhile_eq_nil_iff.mp hdrop)
  | cons b rest =>
    refine .inr ⟨text.takeWhile a.space, b, rest, ?_, fun b => List.mem_takeWhile_imp, ?_⟩
    · rw [← hdrop, List.takeWhile_append_dropWhile]
    · have hhead := List.head?_dropWhile_not a.space text
      rw [hdrop] at hhead
      simpa using hhead

/-! ## Words and lines -/

theorem word_blank (h : ∀ b ∈ text, a.space b = true) : (ofText text).word a = (none, ⟨[], true, true⟩) := by
  rw [word, sentry_blank h]
  rfl

theorem word_text {space : List α} {b : α} {rest : List α} (hspace : ∀ b ∈ space, a.space b = true)
    (hb : a.space b = false) : (ofText (space ++ b :: rest)).word a =
      (some ((b :: rest).takeWhile fun b => !a.space b), stopped ((b :: rest).dropWhile fun b => !a.space b)) := by
  rw [word, sentry_text hspace hb]
  rfl

/-- What is left of the line. -/
theorem getline_stopped [DecidableEq α] (d : α) (rest : List α) :
    (getline d (stopped rest)).1.getD [] = rest.takeWhile fun b => b ≠ d := by
  cases rest with
  | nil => rfl
  | cons b rest =>
    rw [getline, good_stopped]
    dsimp only [stopped]
    cases (b :: rest).dropWhile fun b => decide (b ≠ d) <;> rfl

/-! ## Numbers -/

/-- The text begins, after white space, with a sign and digits. -/
structure Numeral (a : Alphabet α) (text : List α) (negative : Bool) (digits rest : List α) : Prop where
  text : ∃ space sign, text = space ++ (sign ++ (digits ++ rest)) ∧ (∀ b ∈ space, a.space b = true) ∧
    (sign = [] ∧ negative = false ∨ sign = [a.plus] ∧ negative = false ∨ sign = [a.minus] ∧ negative = true)
  nonempty : digits ≠ []
  digits : ∀ b ∈ digits, a.digit b = true
  ends : ∀ b ∈ rest.head?, a.digit b = false

theorem dropWhile_digit_ends (text : List α) : ∀ b ∈ (text.dropWhile a.digit).head?, a.digit b = false := by
  intro b hb
  have hc := List.head?_dropWhile_not a.digit text
  rw [Option.mem_def.mp hb] at hc
  simpa using hc

theorem takeWhile_digits {digits rest : List α} (hdigits : ∀ b ∈ digits, a.digit b = true)
    (hends : ∀ b ∈ rest.head?, a.digit b = false) :
    (digits ++ rest).takeWhile a.digit = digits ∧ (digits ++ rest).dropWhile a.digit = rest := by
  rw [List.takeWhile_append_of_pos hdigits, List.dropWhile_append_of_pos hdigits]
  cases rest with
  | nil => simp
  | cons b rest => simp [hends b rfl]

/-- The first character of a numeral is no white space. -/
theorem numeral_head (ha : a.Lawful) {sign digits rest : List α} {negative : Bool} (hne : digits ≠ [])
    (hdigits : ∀ b ∈ digits, a.digit b = true)
    (hsign : sign = [] ∧ negative = false ∨ sign = [a.plus] ∧ negative = false ∨ sign = [a.minus] ∧ negative = true) :
    ∃ b more, sign ++ (digits ++ rest) = b :: more ∧ a.space b = false := by
  obtain ⟨d, ds, rfl⟩ := List.exists_cons_of_ne_nil hne
  rcases hsign with ⟨rfl, -⟩ | ⟨rfl, -⟩ | ⟨rfl, -⟩
  · exact ⟨d, ds ++ rest, rfl, ha.digit_not_space d (hdigits d List.mem_cons_self)⟩
  · exact ⟨a.plus, _, rfl, ha.plus_not_space⟩
  · exact ⟨a.minus, _, rfl, ha.minus_not_space⟩

/-- A text of white space is no numeral. -/
theorem Numeral.not_blank (ha : a.Lawful) {negative : Bool} {digits rest : List α} (h : Numeral a text negative digits rest) :
    ¬ ∀ b ∈ text, a.space b = true := by
  intro hblank
  obtain ⟨space, sign, rfl, -, -⟩ := h.text
  obtain ⟨d, ds, rfl⟩ := List.exists_cons_of_ne_nil h.nonempty
  have hd : a.space d = false := ha.digit_not_space d (h.digits d List.mem_cons_self)
  rw [hblank d (by simp)] at hd
  cases hd

variable [DecidableEq α] {convert : Bool → Nat → Int × Bool}

theorem number_blank (h : ∀ b ∈ text, a.space b = true) :
    number a convert (ofText text) = (none, ⟨[], true, true⟩) := by
  rw [number, sentry_blank h]
  rfl

theorem splitSign_digit (ha : a.Lawful) {b : α} (hb : a.digit b = true) (rest : List α) :
    splitSign a (b :: rest) = (false, b :: rest) := by
  have hminus : b ≠ a.minus := by
    rintro rfl
    rw [ha.minus_not_digit] at hb
    cases hb
  have hplus : b ≠ a.plus := by
    rintro rfl
    rw [ha.plus_not_digit] at hb
    cases hb
  rw [splitSign, if_neg hminus, if_neg hplus]

/-- The sign is what `splitSign` takes off. -/
theorem splitSign_spec (text : List α) : ∃ sign, text = sign ++ (splitSign a text).2 ∧
    (sign = [] ∧ (splitSign a text).1 = false ∨ sign = [a.plus] ∧ (splitSign a text).1 = false ∨
      sign = [a.minus] ∧ (splitSign a text).1 = true) := by
  cases text with
  | nil => exact ⟨[], rfl, .inl ⟨rfl, rfl⟩⟩
  | cons b rest =>
    rw [splitSign]
    by_cases hminus : b = a.minus
    · rw [if_pos hminus, hminus]
      exact ⟨[a.minus], rfl, .inr (.inr ⟨rfl, rfl⟩)⟩
    rw [if_neg hminus]
    by_cases hplus : b = a.plus
    · rw [if_pos hplus, hplus]
      exact ⟨[a.plus], rfl, .inr (.inl ⟨rfl, rfl⟩)⟩
    · rw [if_neg hplus]
      exact ⟨[], rfl, .inl ⟨rfl, rfl⟩⟩

/-- A sign takes its place in front of the digits. -/
theorem splitSign_sign (ha : a.Lawful) {sign digits rest : List α} {negative : Bool} (hne : digits ≠ [])
    (hdigits : ∀ b ∈ digits, a.digit b = true)
    (hsign : sign = [] ∧ negative = false ∨ sign = [a.plus] ∧ negative = false ∨ sign = [a.minus] ∧ negative = true) :
    splitSign a (sign ++ (digits ++ rest)) = (negative, digits ++ rest) := by
  obtain ⟨d, ds, rfl⟩ := List.exists_cons_of_ne_nil hne
  rcases hsign with ⟨rfl, rfl⟩ | ⟨rfl, rfl⟩ | ⟨rfl, rfl⟩
  · exact splitSign_digit ha (hdigits d (List.mem_cons_self)) _
  · rw [List.singleton_append, splitSign, if_neg ha.signs_differ, if_pos rfl]
  · rw [List.singleton_append, splitSign, if_pos rfl]

/-- A numeral is read whole, whatever follows but a digit. -/
theorem number_numeral (convert : Bool → Nat → Int × Bool) (ha : a.Lawful) {negative : Bool} {digits rest : List α}
    (h : Numeral a text negative digits rest) :
    number a convert (ofText text) =
      (some (convert negative (a.value digits)).1, ⟨rest, rest.isEmpty, (convert negative (a.value digits)).2⟩) := by
  obtain ⟨space, sign, rfl, hspace, hsign⟩ := h.text
  have hb : ∃ b more, sign ++ (digits ++ rest) = b :: more ∧ a.space b = false := numeral_head ha h.nonempty h.digits hsign
  obtain ⟨b, more, hhead, hb⟩ := hb
  have htext : (ofText (space ++ b :: more)).sentry a = (true, ofText (b :: more)) := sentry_text hspace hb
  rw [← hhead] at htext
  rw [number, htext]
  dsimp only
  rw [if_pos rfl, rest_ofText, splitSign_sign ha h.nonempty h.digits hsign]
  dsimp only
  obtain ⟨htake, hdrop⟩ := takeWhile_digits h.digits h.ends
  rw [htake, hdrop, if_neg h.nonempty]

/-- A text that is no numeral reads as `0`, and the stream fails. -/
theorem number_malformed (convert : Bool → Nat → Int × Bool) {space : List α} {b : α} {rest : List α}
    (htext : text = space ++ b :: rest) (hspace : ∀ b ∈ space, a.space b = true) (hb : a.space b = false)
    (h : ∀ negative digits rest, ¬ Numeral a text negative digits rest) :
    (number a convert (ofText text)).1 = some 0 ∧ (number a convert (ofText text)).2.fail = true := by
  obtain ⟨sign, hsplit, hsign⟩ := splitSign_spec (a := a) (b :: rest)
  have hnone : (splitSign a (b :: rest)).2.takeWhile a.digit = [] := by
    by_contra hne
    refine h (splitSign a (b :: rest)).1 _ ((splitSign a (b :: rest)).2.dropWhile a.digit) ⟨⟨space, sign, ?_, hspace, hsign⟩,
      hne, fun c => List.mem_takeWhile_imp, dropWhile_digit_ends _⟩
    rw [List.takeWhile_append_dropWhile, ← hsplit, htext]
  rw [htext, number, sentry_text hspace hb]
  dsimp only
  rw [if_pos rfl, rest_ofText, if_pos hnone]
  exact ⟨rfl, rfl⟩

/-- Where a text begins with a numeral, it does so in one way. -/
theorem Numeral.unique (ha : a.Lawful) {negative negative' : Bool} {digits digits' rest rest' : List α}
    (h : Numeral a text negative digits rest) (h' : Numeral a text negative' digits' rest') :
    negative = negative' ∧ a.value digits = a.value digits' ∧ rest = rest' := by
  have hread := number_numeral (fun negative m => (if negative then -m - 1 else m, false)) ha h
  rw [number_numeral _ ha h'] at hread
  simp only [Prod.mk.injEq, Option.some.injEq, Istream.mk.injEq] at hread
  obtain ⟨hn, hrest, -⟩ := hread
  refine ⟨?_, ?_, hrest.symm⟩
  · cases negative <;> cases negative' <;> simp at hn ⊢ <;> omega
  · cases negative <;> cases negative' <;> simp at hn <;> omega

/-! ## After a failure -/

/-- Nothing is read any more. -/
theorem number_failed (hs : s.good = false) : number a convert s = (none, { s with fail := true }) := by
  rw [number, sentry, if_neg (by simp [hs])]
  rfl

theorem getline_failed (hs : s.good = false) (d : α) : getline d s = (none, { s with fail := true }) := by
  rw [getline, if_neg (by simp [hs])]

end Istream

end NovaMP.Lib
