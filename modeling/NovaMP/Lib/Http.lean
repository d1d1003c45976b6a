/-
  NovaMP.Lib.Http — messages of HTTP/1.0.

  A message is its lines, each with `CR LF` behind it, an empty one, and the body. A
  server reads line by line (`read`). A client that wants the body alone can look for
  the first empty line (`afterHead`), and takes everything for the body if there is none.

  - `cut_mark`: a text is cut where a mark first stands.
  - `read_text`: a message is read back from its text.
  - `afterHead_text`: what follows the first empty line of a message is its body.
  - `afterHead_broken`: what is left of a message that breaks off.
-/

import Mathlib.Data.List.Basic
import Mathlib.Data.List.Infix

namespace NovaMP.Lib.Http

/-! ## Cutting at a mark -/

section

variable {α : Type} [DecidableEq α]

/-- What stands before and after the first `mark`. -/
def cut (mark : List α) : List α → Option (List α × List α)
  | [] => if mark = [] then some ([], []) else none
  | b :: bs => if mark <+: b :: bs then some ([], (b :: bs).drop mark.length) else (cut mark bs).map fun p => (b :: p.1, p.2)

variable {c : α} {cs : List α}

theorem cut_skip {b : α} {bs : List α} (h : ¬ c :: cs <+: b :: bs) :
    cut (c :: cs) (b :: bs) = (cut (c :: cs) bs).map fun p => (b :: p.1, p.2) := by rw [cut, if_neg h]

theorem cut_skip_all {pre : List α} (h : c ∉ pre) (s : List α) :
    cut (c :: cs) (pre ++ s) = (cut (c :: cs) s).map fun p => (pre ++ p.1, p.2) := by
  induction pre with
  | nil => simp
  | cons b pre ih =>
    rw [List.mem_cons, not_or] at h
    have hno : ¬ c :: cs <+: b :: (pre ++ s) := fun hp => h.1 (List.cons_prefix_cons.mp hp).1
    rw [List.cons_append, cut_skip hno, ih h.2, Option.map_map]
    rfl

theorem cut_here (s : List α) : cut (c :: cs) (c :: cs ++ s) = some ([], s) := by
  have hp : c :: cs <+: c :: (cs ++ s) := List.prefix_append (c :: cs) s
  rw [List.cons_append, cut, if_pos hp]
  simp

/-- A text is cut where the mark first stands. -/
theorem cut_mark {pre : List α} (h : c ∉ pre) (s : List α) : cut (c :: cs) (pre ++ (c :: cs ++ s)) = some (pre, s) := by
  rw [cut_skip_all h, cut_here]
  simp

theorem cut_none {s : List α} (h : c ∉ s) : cut (c :: cs) s = none := by
  have hskip : cut (c :: cs) (s ++ []) = (cut (c :: cs) []).map fun p => (s ++ p.1, p.2) := cut_skip_all h []
  rwa [List.append_nil, cut, if_neg (List.cons_ne_nil _ _)] at hskip

/-- The two parts and the mark are the text. -/
theorem cut_parts {mark s : List α} {p : List α × List α} (h : cut mark s = some p) : s = p.1 ++ (mark ++ p.2) := by
  induction s generalizing p with
  | nil =>
    unfold cut at h
    split at h
    · rename_i hmark
      cases h
      rw [hmark]
      rfl
    · cases h
  | cons b bs ih =>
    unfold cut at h
    split at h
    · rename_i hp
      cases h
      obtain ⟨t, ht⟩ := hp
      rw [← ht, List.drop_left]
      rfl
    · obtain ⟨q, hq, rfl⟩ := Option.map_eq_some_iff.mp h
      rw [ih hq]
      rfl

/-- More text does not move the cut. -/
theorem cut_append {mark s : List α} {p : List α × List α} (h : cut mark s = some p) (hmark : mark ≠ []) (t : List α) :
    cut mark (s ++ t) = some (p.1, p.2 ++ t) := by
  induction s generalizing p with
  | nil =>
    rw [cut, if_neg hmark] at h
    cases h
  | cons b bs ih =>
    unfold cut at h
    split at h
    · rename_i hp
      cases h
      have hp' : mark <+: b :: (bs ++ t) := hp.trans (List.prefix_append (b :: bs) t)
      have hle : mark.length ≤ (b :: bs).length := hp.length_le
      rw [List.cons_append, cut, if_pos hp', ← List.cons_append, List.drop_append_of_le_length hle]
    · rename_i hp
      obtain ⟨q, hq, rfl⟩ := Option.map_eq_some_iff.mp h
      have hno : ¬ mark <+: b :: (bs ++ t) := by
        intro hp'
        refine hp (List.prefix_of_prefix_length_le hp' (List.prefix_append (b :: bs) t) ?_)
        rw [cut_parts hq]
        simp only [List.length_cons, List.length_append]
        omega
      rw [List.cons_append, cut, if_neg hno, ih hq]
      rfl

theorem cut_shorter {s : List α} {p : List α × List α} (h : cut (c :: cs) s = some p) : p.2.length < s.length := by
  rw [cut_parts h]
  simp only [List.length_append, List.length_cons]
  omega

end

/-! ## Messages -/

abbrev Text := List UInt8

def CR : UInt8 := 13

def crlf : Text := [CR, 10]

structure Field where
  name : Text
  value : Text
  deriving DecidableEq

structure Message where
  /-- The request or the status line. -/
  start : Text
  fields : List Field
  body : Text
  deriving DecidableEq

def Field.line (f : Field) : Text := f.name ++ ([58, 32] ++ f.value)

def Message.lines (m : Message) : List Text := m.start :: m.fields.map Field.line

/-- Lines on the wire. -/
def wire (lines : List Text) : Text := lines.flatMap (· ++ crlf)

def Message.text (m : Message) : Text := wire m.lines ++ (crlf ++ m.body)

/-- A line that does not look like the end of the head or of itself. -/
def Line (line : Text) : Prop := line ≠ [] ∧ CR ∉ line

structure Message.Proper (m : Message) : Prop where
  start : Line m.start
  fields : ∀ f ∈ m.fields, (58 : UInt8) ∉ f.name ∧ CR ∉ f.name ∧ CR ∉ f.value

/-! ## Reading -/

/-- The lines before the first empty one, and what follows that. -/
def readHead (s : Text) : Option (List Text × Text) :=
  match _h : cut crlf s with
  | none => none
  | some ([], body) => some ([], body)
  | some (b :: line, rest) => (readHead rest).map fun p => ((b :: line) :: p.1, p.2)
termination_by s.length
decreasing_by exact cut_shorter _h

def readField (line : Text) : Option Field := (cut [58, 32] line).map fun p => ⟨p.1, p.2⟩

def read (s : Text) : Option Message :=
  match readHead s with
  | some (start :: lines, body) => (lines.mapM readField).map fun fields => ⟨start, fields, body⟩
  | _ => none

/-- What follows the first empty line, and everything if there is none. -/
def afterHead (s : Text) : Text := ((cut (crlf ++ crlf) s).map (·.2)).getD s

/-! ## What is written is read -/

theorem wire_cons (line : Text) (lines : List Text) : wire (line :: lines) = line ++ (crlf ++ wire lines) := by
  rw [wire, List.flatMap_cons, List.append_assoc]
  rfl

theorem readHead_wire {lines : List Text} (h : ∀ line ∈ lines, Line line) (body : Text) :
    readHead (wire lines ++ (crlf ++ body)) = some (lines, body) := by
  induction lines with
  | nil =>
    have hcut : cut crlf (crlf ++ body) = some ([], body) := cut_here body
    show readHead (crlf ++ body) = _
    unfold readHead
    split
    · rename_i hnone
      cases hcut.symm.trans hnone
    · rename_i hsome
      cases hcut.symm.trans hsome
      rfl
    · rename_i hsome
      cases hcut.symm.trans hsome
  | cons line lines ih =>
    obtain ⟨⟨hne, hcr⟩, hlines⟩ := List.forall_mem_cons.mp h
    obtain ⟨b, bs, rfl⟩ := List.exists_cons_of_ne_nil hne
    have hcut : cut crlf (wire ((b :: bs) :: lines) ++ (crlf ++ body)) = some (b :: bs, wire lines ++ (crlf ++ body)) := by
      rw [wire_cons, List.append_assoc, List.append_assoc]
      exact cut_mark hcr _
    unfold readHead
    split
    · rename_i hnone
      cases hcut.symm.trans hnone
    · rename_i hsome
      cases hcut.symm.trans hsome
    · rename_i hsome
      cases hcut.symm.trans hsome
      rw [ih hlines]
      rfl

theorem readField_line {f : Field} (h : (58 : UInt8) ∉ f.name) : readField f.line = some f := by
  rw [readField, Field.line, cut_mark h]
  rfl

theorem readFields {fields : List Field} (h : ∀ f ∈ fields, (58 : UInt8) ∉ f.name) :
    (fields.map Field.line).mapM readField = some fields := by
  induction fields with
  | nil => rfl
  | cons f fields ih =>
    obtain ⟨hf, hfields⟩ := List.forall_mem_cons.mp h
    rw [List.map_cons, List.mapM_cons, readField_line hf, ih hfields]
    rfl

variable {m : Message}

theorem Message.Proper.lines (h : m.Proper) : ∀ line ∈ m.lines, Line line := by
  refine List.forall_mem_cons.mpr ⟨h.start, fun line hline => ?_⟩
  obtain ⟨f, hf, rfl⟩ := List.mem_map.mp hline
  obtain ⟨-, hname, hvalue⟩ := h.fields f hf
  refine ⟨by simp [Field.line], ?_⟩
  rw [Field.line, List.mem_append, List.mem_append]
  rintro (hin | hin | hin)
  · exact hname hin
  · exact absurd hin (by decide)
  · exact hvalue hin

/-- A message is read back from its text. -/
theorem read_text (h : m.Proper) : read m.text = some m := by
  rw [read, Message.text, readHead_wire h.lines]
  show ((m.fields.map Field.line).mapM readField).map _ = _
  rw [readFields fun f hf => (h.fields f hf).1]
  rfl

/-! ## The body alone -/

/-- A line before another one is not where the head ends. -/
theorem cut_line {line s : Text} (hcr : CR ∉ line) (hs : s.head? ≠ some CR) :
    cut (crlf ++ crlf) (line ++ (crlf ++ s)) = (cut (crlf ++ crlf) s).map fun p => (line ++ (crlf ++ p.1), p.2) := by
  have hfirst : ¬ crlf ++ crlf <+: CR :: 10 :: s := by
    intro hp
    cases s with
    | nil => exact absurd hp (by decide)
    | cons b bs =>
      refine hs ?_
      obtain ⟨t, ht⟩ := hp
      cases ht
      rfl
  have hsecond : ¬ crlf ++ crlf <+: 10 :: s := fun hp => absurd (List.cons_prefix_cons.mp hp).1 (by decide)
  have hcrlf : cut (crlf ++ crlf) (CR :: 10 :: s) = (cut (crlf ++ crlf) s).map fun p => (CR :: 10 :: p.1, p.2) := by
    have hskip : cut (crlf ++ crlf) (CR :: 10 :: s) = (cut (crlf ++ crlf) (10 :: s)).map fun p => (CR :: p.1, p.2) :=
      cut_skip hfirst
    have hskip' : cut (crlf ++ crlf) (10 :: s) = (cut (crlf ++ crlf) s).map fun p => (10 :: p.1, p.2) := cut_skip hsecond
    rw [hskip, hskip', Option.map_map]
    rfl
  have hline : cut (crlf ++ crlf) (line ++ (crlf ++ s)) =
      (cut (crlf ++ crlf) (CR :: 10 :: s)).map fun p => (line ++ p.1, p.2) := cut_skip_all hcr _
  rw [hline, hcrlf, Option.map_map]
  rfl

theorem wire_head {line : Text} (h : Line line) (lines : List Text) (s : Text) :
    (wire (line :: lines) ++ s).head? ≠ some CR := by
  obtain ⟨b, bs, rfl⟩ := List.exists_cons_of_ne_nil h.1
  rw [wire_cons]
  intro hb
  exact h.2 (Option.some.inj hb ▸ List.mem_cons_self)

/-- The head ends with its last line. -/
theorem cut_wire {line : Text} {lines : List Text} (h : ∀ l ∈ line :: lines, Line l) (body : Text) :
    (cut (crlf ++ crlf) (wire (line :: lines) ++ (crlf ++ body))).map (·.2) = some body := by
  induction lines generalizing line with
  | nil =>
    have hcut : cut (crlf ++ crlf) (line ++ (crlf ++ crlf ++ body)) = some (line, body) :=
      cut_mark (List.forall_mem_cons.mp h).1.2 body
    rw [wire_cons]
    show (cut (crlf ++ crlf) (line ++ (crlf ++ []) ++ (crlf ++ body))).map _ = _
    rw [List.append_nil, List.append_assoc, ← List.append_assoc crlf crlf, hcut]
    rfl
  | cons next lines ih =>
    obtain ⟨hline, hrest⟩ := List.forall_mem_cons.mp h
    have hnext := wire_head (List.forall_mem_cons.mp hrest).1 lines (crlf ++ body)
    rw [wire_cons, List.append_assoc, List.append_assoc, cut_line hline.2 hnext, Option.map_map]
    exact ih hrest

/-- What follows the first empty line of a message is its body. -/
theorem afterHead_text (h : m.Proper) : afterHead m.text = m.body := by
  rw [afterHead, Message.text, Message.lines, cut_wire h.lines]
  rfl

/-- Of a message that breaks off there is left what there is of the body, or all that has
    come, if that is not the whole head. -/
theorem afterHead_broken (h : m.Proper) {s rest : Text} (hs : s ++ rest = m.text) :
    afterHead s ++ rest = m.body ∨ afterHead s = s ∧ s.length < (wire m.lines ++ crlf).length := by
  have hwhole : (cut (crlf ++ crlf) m.text).map (·.2) = some m.body := cut_wire h.lines m.body
  cases hcut : cut (crlf ++ crlf) s with
  | some p =>
    left
    rw [← hs, cut_append hcut (by decide)] at hwhole
    rw [afterHead, hcut]
    exact Option.some.inj hwhole
  | none =>
    right
    refine ⟨by rw [afterHead, hcut]; rfl, ?_⟩
    by_contra hlong
    -- what has come holds the whole head
    have htext : m.text = wire m.lines ++ crlf ++ m.body := (List.append_assoc ..).symm
    obtain ⟨part, rfl⟩ : wire m.lines ++ crlf <+: s :=
      List.prefix_of_prefix_length_le (htext ▸ List.prefix_append _ _) (hs ▸ List.prefix_append _ _) (not_lt.mp hlong)
    have hpart := cut_wire h.lines part
    rw [← List.append_assoc] at hpart
    have hnone : cut (crlf ++ crlf) (wire (m.start :: m.fields.map Field.line) ++ crlf ++ part) = none := hcut
    rw [hnone] at hpart
    cases hpart

end NovaMP.Lib.Http
