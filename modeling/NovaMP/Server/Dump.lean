/-
  NovaMP.Server.Dump — the text `nlohmann::json`'s `dump()` writes, and how long it is.

  `dump()` without arguments writes no blanks, the members of an object in the order of
  their keys (a `std::map`), and strings in UTF-8 with the quote, the backslash and the
  control characters escaped. How it writes a floating-point number is a parameter.

  - `render_obj_size`: an object's text is as long as its keys and values make it,
    whatever their order.
-/

import NovaMP.Server.Runs

namespace NovaMP

namespace Json

/-! ## The text -/

def escapeChar (c : Char) : String :=
  match c.toNat with
  | 0x08 => "\\b"
  | 0x09 => "\\t"
  | 0x0a => "\\n"
  | 0x0c => "\\f"
  | 0x0d => "\\r"
  | 0x22 => "\\\""
  | 0x5c => "\\\\"
  | n => if n < 0x20 then "\\u00" ++ String.ofList [(n / 16).digitChar, (n % 16).digitChar] else String.singleton c

def escapeAll : List Char → String
  | [] => ""
  | c :: cs => escapeChar c ++ escapeAll cs

def escape (s : String) : String := escapeAll s.toList

def quote (s : String) : String := "\"" ++ escape s ++ "\""

section Render

variable (real : UInt64 → String)

mutual

def render : Json → String
  | null => "null"
  | bool b => if b then "true" else "false"
  | int n => toString n
  | .real bits => real bits
  | str s => quote s
  | arr xs => "[" ++ commas (renders xs) ++ "]"
  | obj ms => "\x7b" ++ commas ((renderMembers ms).map fun m => quote m.1 ++ ":" ++ m.2) ++ "\x7d"

def renders : List Json → List String
  | [] => []
  | j :: js => render j :: renders js

def renderMembers : List (String × Json) → List (String × String)
  | [] => []
  | (k, j) :: ms => insertMember (k, render j) (renderMembers ms)

end

end Render

/-! ## Its size -/

/-- The bytes a string takes inside the quotes. -/
def escapedSize (s : String) : Nat := (escape s).utf8ByteSize

/-- The bytes a number takes. -/
def decimalSize (n : Int) : Nat := (toString n).utf8ByteSize

/-- Escaping makes no text shorter. -/
theorem size_le_escapedSize (s : String) : s.utf8ByteSize ≤ escapedSize s := by
  have hchar : ∀ c : Char, c.utf8Size ≤ (escapeChar c).utf8ByteSize := by
    intro c
    have hsmall : c.toNat < 128 → c.utf8Size = 1 := by
      intro h
      have hle : c.val ≤ 0x7F := UInt32.le_iff_toNat_le.mpr (Nat.le_of_lt_succ h)
      exact if_pos hle
    unfold escapeChar
    split
    case h_8 n _ _ _ _ _ _ _ =>
      split
      · rename_i hlt
        rw [hsmall (by omega), String.utf8ByteSize_append]
        show 1 ≤ 4 + _
        omega
      · rw [String.utf8ByteSize_singleton]
    all_goals
      rename_i h
      rw [hsmall (by omega)]
      decide
  have hall : ∀ cs : List Char, (String.ofList cs).utf8ByteSize ≤ (escapeAll cs).utf8ByteSize := by
    intro cs
    induction cs with
    | nil => simp
    | cons c cs ih =>
      have hc := hchar c
      rw [String.ofList_cons, String.utf8ByteSize_append, String.utf8ByteSize_singleton, escapeAll,
        String.utf8ByteSize_append]
      omega
  have hs := hall s.toList
  rw [String.ofList_toList] at hs
  exact hs

theorem quote_size (s : String) : (quote s).utf8ByteSize = escapedSize s + 2 := by
  rw [quote, String.utf8ByteSize_append, String.utf8ByteSize_append]
  show 1 + escapedSize s + 1 = _
  omega

theorem commas_size {l : List String} (h : l ≠ []) : (commas l).utf8ByteSize + 1 = (l.map fun s => s.utf8ByteSize + 1).sum := by
  induction l with
  | nil => exact absurd rfl h
  | cons s l ih =>
    cases l with
    | nil => simp [commas]
    | cons t l =>
      have hrest := ih (List.cons_ne_nil t l)
      rw [commas, String.utf8ByteSize_append, String.utf8ByteSize_append, List.map_cons, List.sum_cons, ← hrest]
      · show s.utf8ByteSize + 1 + _ + 1 = _
        omega
      · exact List.cons_ne_nil t l

theorem decimalSize_le (n : Nat) (h : n < 65536) : decimalSize n ≤ 20 := by
  have hlen : n.repr.length ≤ 5 := (Nat.length_repr_le_iff (by decide)).mpr (by omega)
  have hsize : ∀ cs : List Char, (String.ofList cs).utf8ByteSize ≤ 4 * cs.length := by
    intro cs
    induction cs with
    | nil => simp
    | cons c cs ih =>
      have hc := c.utf8Size_le_four
      rw [String.ofList_cons, String.utf8ByteSize_append, String.utf8ByteSize_singleton, List.length_cons]
      omega
  have hn := hsize n.repr.toList
  rw [String.ofList_toList, String.length_toList] at hn
  show n.repr.utf8ByteSize ≤ 20
  omega

theorem insertMember_perm (m : String × String) (ms : List (String × String)) : (insertMember m ms).Perm (m :: ms) := by
  induction ms with
  | nil => exact .refl _
  | cons m' ms ih =>
    unfold insertMember
    split
    · exact .refl _
    · exact (ih.cons m').trans (.swap m m' ms)

theorem renderMembers_perm (real : UInt64 → String) (ms : List (String × Json)) :
    (renderMembers real ms).Perm (ms.map fun m => (m.1, render real m.2)) := by
  induction ms with
  | nil => simp [renderMembers]
  | cons m ms ih =>
    obtain ⟨k, j⟩ := m
    rw [renderMembers]
    exact (insertMember_perm _ _).trans (ih.cons _)

/-- Each member takes its key, its value, the key's quotes, a colon and, but for one, a
    comma; the braces are two bytes more. -/
theorem render_obj_size (real : UInt64 → String) {ms : List (String × Json)} (h : ms ≠ []) :
    (render real (obj ms)).utf8ByteSize =
      1 + (ms.map fun m => escapedSize m.1 + (render real m.2).utf8ByteSize + 4).sum := by
  have hperm := (renderMembers_perm real ms).map fun m => quote m.1 ++ ":" ++ m.2
  have hne : ((renderMembers real ms).map fun m => quote m.1 ++ ":" ++ m.2) ≠ [] := by
    intro hnil
    rw [hnil] at hperm
    have hlen := hperm.length_eq
    rw [List.length_map, List.length_map] at hlen
    exact h (List.eq_nil_of_length_eq_zero hlen.symm)
  have hsum := commas_size hne
  rw [(hperm.map fun s : String => s.utf8ByteSize + 1).sum_nat, List.map_map, List.map_map] at hsum
  have hmember : (ms.map fun m => escapedSize m.1 + (render real m.2).utf8ByteSize + 4) =
      ms.map (((fun s : String => s.utf8ByteSize + 1) ∘ fun m => quote m.1 ++ ":" ++ m.2) ∘
        fun m => (m.1, render real m.2)) := by
    refine List.map_congr_left fun m _ => ?_
    show _ = (quote m.1 ++ ":" ++ render real m.2).utf8ByteSize + 1
    rw [String.utf8ByteSize_append, String.utf8ByteSize_append, quote_size]
    show _ = escapedSize m.1 + 2 + 1 + _ + 1
    omega
  rw [hmember, ← hsum, render, String.utf8ByteSize_append, String.utf8ByteSize_append]
  show 1 + _ + 1 = _
  omega

end Json

end NovaMP
