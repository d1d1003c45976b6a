/-
  NovaMP.Lib.Lines — lines on a stream that is read piece by piece.

  `split` cuts a stream at a delimiter into its complete lines and the rest. A `Reader`
  is a program that reads until the delimiter, handles the line and reads on, as long
  as its state is live; what comes with a line stays in its buffer for the next.

  - `split_append`: the lines of a stream are those of a first part, then those of its
    rest with what follows.
  - `drain_eq`: from its buffer a reader handles the complete lines.
  - `feedAll_eq`: however the stream is cut, a reader has handled its complete lines.
-/

import Mathlib.Data.List.Basic
import Mathlib.Data.List.Induction

namespace NovaMP.Lib.Lines

variable {α σ : Type} [DecidableEq α]

/-! ## Lines -/

/-- The complete lines, without their delimiter, and what follows the last one. -/
def split (d : α) : List α → List (List α) × List α
  | [] => ([], [])
  | b :: bs =>
    if b = d then ([] :: (split d bs).1, (split d bs).2)
    else
      match (split d bs).1 with
      | [] => ([], b :: (split d bs).2)
      | line :: lines => ((b :: line) :: lines, (split d bs).2)

variable {d : α}

theorem split_rest {s : List α} (h : d ∉ s) : split d s = ([], s) := by
  induction s with
  | nil => rfl
  | cons b bs ih =>
    rw [List.mem_cons, not_or] at h
    rw [split, if_neg (Ne.symm h.1), ih h.2]

theorem split_line {line : List α} (h : d ∉ line) (s : List α) :
    split d (line ++ d :: s) = (line :: (split d s).1, (split d s).2) := by
  induction line with
  | nil => rw [List.nil_append, split, if_pos rfl]
  | cons b line ih =>
    rw [List.mem_cons, not_or] at h
    rw [List.cons_append, split, if_neg (Ne.symm h.1), ih h.2]

/-- A stream begins with a complete line, or has none. -/
theorem exists_line {s : List α} (h : d ∈ s) : ∃ line rest, d ∉ line ∧ s = line ++ d :: rest := by
  induction s with
  | nil => cases h
  | cons b bs ih =>
    by_cases hb : b = d
    · exact ⟨[], bs, List.not_mem_nil, by rw [hb]; rfl⟩
    · obtain ⟨line, rest, hline, rfl⟩ := ih ((List.mem_cons.mp h).resolve_left (Ne.symm hb))
      refine ⟨b :: line, rest, ?_, rfl⟩
      rw [List.mem_cons, not_or]
      exact ⟨Ne.symm hb, hline⟩

theorem split_append (s t : List α) :
    split d (s ++ t) = ((split d s).1 ++ (split d ((split d s).2 ++ t)).1, (split d ((split d s).2 ++ t)).2) := by
  induction h : s.length using Nat.strongRecOn generalizing s with
  | _ n ih =>
    by_cases hd : d ∈ s
    · obtain ⟨line, rest, hline, rfl⟩ := exists_line hd
      have hlt : rest.length < n := by
        rw [← h, List.length_append, List.length_cons]
        omega
      rw [List.append_assoc, List.cons_append, split_line hline, split_line hline, ih rest.length hlt rest rfl]
      rfl
    · rw [split_rest hd]
      rfl

/-! ## Reading until the delimiter -/

/-- How many elements a read until `d` is about, if it is complete: those up to and
    including the first `d`. -/
def readUntil (d : α) (buf : List α) : Option Nat := if d ∈ buf then some (buf.idxOf d + 1) else none

theorem readUntil_eq_none_iff {buf : List α} : readUntil d buf = none ↔ d ∉ buf := by
  unfold readUntil
  split <;> simp_all

theorem readUntil_line {line : List α} (h : d ∉ line) (rest : List α) :
    readUntil d (line ++ d :: rest) = some (line.length + 1) := by
  rw [readUntil, if_pos (List.mem_append_right _ List.mem_cons_self), List.idxOf_append_of_notMem h, List.idxOf_cons_self]

/-- A read that is complete takes something out of the buffer. -/
theorem readUntil_pos {buf : List α} {n : Nat} (h : readUntil d buf = some n) : (buf.drop n).length < buf.length := by
  unfold readUntil at h
  split at h
  · rename_i hd
    cases h
    have hpos := List.length_pos_of_mem hd
    rw [List.length_drop]
    omega
  · cases h

/-! ## Readers -/

/-- `handle` is given a line with its delimiter. -/
structure Reader (α σ : Type) where
  delim : α
  live : σ → Bool
  handle : σ → List α → σ

namespace Reader

variable (r : Reader α σ)

/-- Reads are complete as long as the buffer has a delimiter. -/
def drain (s : σ) (buf : List α) : σ × List α :=
  if r.live s then
    match _h : readUntil r.delim buf with
    | none => (s, buf)
    | some n => drain (r.handle s (buf.take n)) (buf.drop n)
  else (s, buf)
termination_by buf.length
decreasing_by exact readUntil_pos _h

/-- A piece comes in; nobody reads it if the state is not live. -/
def feed (st : σ × List α) (chunk : List α) : σ × List α :=
  if r.live st.1 then r.drain st.1 (st.2 ++ chunk) else st

def feedAll (s : σ) (chunks : List (List α)) : σ × List α := chunks.foldl r.feed (s, [])

/-- What a line, without its delimiter, does to the state. -/
def take (s : σ) (line : List α) : σ := if r.live s then r.handle s (line ++ [r.delim]) else s

variable {r} {s : σ}

omit [DecidableEq α] in
/-- A state that is not live stays. -/
theorem foldl_take_of_not_live (h : r.live s = false) (lines : List (List α)) : lines.foldl r.take s = s := by
  induction lines with
  | nil => rfl
  | cons line lines ih => rw [List.foldl_cons, take, if_neg (by rw [h]; exact Bool.false_ne_true), ih]

theorem drain_line {line : List α} (hlive : r.live s = true) (h : r.delim ∉ line) (rest : List α) :
    r.drain s (line ++ r.delim :: rest) = r.drain (r.take s line) rest := by
  have htake : (line ++ r.delim :: rest).take (line.length + 1) = line ++ [r.delim] := by
    rw [List.take_append, List.take_of_length_le (by omega), Nat.add_sub_cancel_left]
    rfl
  have hdrop : (line ++ r.delim :: rest).drop (line.length + 1) = rest := by
    rw [List.drop_append, List.drop_of_length_le (by omega), Nat.add_sub_cancel_left]
    rfl
  rw [drain, if_pos hlive]
  split
  · rename_i hnone
    rw [readUntil_line h] at hnone
    cases hnone
  · rename_i n hsome
    rw [readUntil_line h] at hsome
    cases hsome
    rw [htake, hdrop, take, if_pos hlive]

theorem drain_rest {buf : List α} (h : r.delim ∉ buf) : r.drain s buf = (s, buf) := by
  rw [drain]
  split
  · split
    · rfl
    · rename_i hsome
      rw [readUntil_eq_none_iff.mpr h] at hsome
      cases hsome
  · rfl

/-- A reader handles the complete lines of its buffer and keeps the rest. -/
theorem drain_eq (s : σ) (buf : List α) :
    (r.drain s buf).1 = (split r.delim buf).1.foldl r.take s ∧
      (r.live (r.drain s buf).1 = true → (r.drain s buf).2 = (split r.delim buf).2) := by
  induction h : buf.length using Nat.strongRecOn generalizing s buf with
  | _ n ih =>
    cases hlive : r.live s with
    | false =>
      have hstay : r.drain s buf = (s, buf) := by
        rw [drain, if_neg (by rw [hlive]; exact Bool.false_ne_true)]
      rw [hstay, foldl_take_of_not_live hlive]
      exact ⟨rfl, fun habs => absurd (hlive.symm.trans habs) Bool.false_ne_true⟩
    | true =>
      by_cases hd : r.delim ∈ buf
      · obtain ⟨line, rest, hline, rfl⟩ := exists_line hd
        have hlt : rest.length < n := by
          rw [← h, List.length_append, List.length_cons]
          omega
        rw [drain_line hlive hline, split_line hline]
        exact ih rest.length hlt (r.take s line) rest rfl
      · rw [drain_rest hd, split_rest hd]
        exact ⟨rfl, fun _ => rfl⟩

/-- However a stream is cut, a reader has handled its complete lines, and the rest is in
    the buffer while the reader is live. -/
theorem feedAll_eq (s : σ) (chunks : List (List α)) :
    (r.feedAll s chunks).1 = (split r.delim chunks.flatten).1.foldl r.take s ∧
      (r.live (r.feedAll s chunks).1 = true → (r.feedAll s chunks).2 = (split r.delim chunks.flatten).2) := by
  induction chunks using List.reverseRecOn with
  | nil => exact ⟨rfl, fun _ => rfl⟩
  | append_singleton chunks chunk ih =>
    obtain ⟨hstate, hbuf⟩ := ih
    have hfeed : r.feedAll s (chunks ++ [chunk]) = r.feed (r.feedAll s chunks) chunk := by
      rw [feedAll, List.foldl_append]
      rfl
    rw [hfeed, List.flatten_append, List.flatten_singleton, split_append, List.foldl_append, ← hstate, feed]
    cases hlive : r.live (r.feedAll s chunks).1 with
    | false =>
      rw [if_neg Bool.false_ne_true, foldl_take_of_not_live hlive]
      exact ⟨rfl, fun habs => absurd (hlive.symm.trans habs) Bool.false_ne_true⟩
    | true =>
      rw [if_pos rfl, hbuf hlive]
      exact drain_eq _ _

end Reader

end NovaMP.Lib.Lines
