/-
  NovaMP.Lib.Outbox — several writes outstanding on one stream.

  A write is done in parts, from a buffer that its starter owns. A part takes some of what
  is left of one outstanding write and puts it at the end of the stream; a write that has
  nothing left is over. The buffer may be given up before that: then a part puts there
  whatever the memory holds by now. Who chooses the parts is left open: `Run ok` are the
  runs whose choices meet `ok`.

  `Run.inOrder`: where each part is of the oldest write and comes while its buffer is there,
  the stream and what is left are the writes, one after the other.
-/

namespace NovaMP.Lib

/-- What is left of a write, and whether its buffer still is there. -/
structure Write (α : Type) where
  left : List α
  kept : Bool

structure Outbox (α : Type) where
  written : List α
  /-- The writes that are not over, the oldest first. -/
  pending : List (Write α)

namespace Outbox

variable {α : Type}

def empty : Outbox α := ⟨[], []⟩

def start (o : Outbox α) (bytes : List α) : Outbox α := { o with pending := o.pending ++ [⟨bytes, true⟩] }

/-- The write `i` has become `w`. -/
def leave (ws : List (Write α)) (i : Nat) (w : Write α) : List (Write α) :=
  if w.left.isEmpty then ws.eraseIdx i else ws.set i w

/-- A part of the write `i`, which is `w`, puts `bytes` on the stream. -/
def part (o : Outbox α) (i : Nat) (w : Write α) (bytes : List α) : Outbox α where
  written := o.written ++ bytes
  pending := leave o.pending i { w with left := w.left.drop bytes.length }

/-- The buffer of the write `i` is given up. -/
def free (o : Outbox α) (i : Nat) (w : Write α) : Outbox α :=
  { o with pending := o.pending.set i { w with kept := false } }

/-- A run, with the writes that were started, the oldest first. -/
inductive Run (ok : Outbox α → Nat → Prop) : List (List α) → Outbox α → Prop
  | init : Run ok [] empty
  | start {ws : List (List α)} {o : Outbox α} {bytes : List α} : Run ok ws o → bytes ≠ [] →
      Run ok (ws ++ [bytes]) (o.start bytes)
  /-- Without the buffer, as many elements as there were, whichever. -/
  | part {ws : List (List α)} {o : Outbox α} {i : Nat} {w : Write α} {bytes : List α} : Run ok ws o →
      o.pending[i]? = some w → bytes ≠ [] → bytes.length ≤ w.left.length →
      (w.kept = true → bytes = w.left.take bytes.length) → ok o i → Run ok ws (o.part i w bytes)
  | free {ws : List (List α)} {o : Outbox α} {i : Nat} {w : Write α} : Run ok ws o → o.pending[i]? = some w →
      Run ok ws (o.free i w)

/-- Any part may come next. -/
def any : Outbox α → Nat → Prop := fun _ _ => True

/-- The next part is of the oldest write, and its buffer is there. -/
def timely (o : Outbox α) (i : Nat) : Prop := i = 0 ∧ ∀ w, o.pending[0]? = some w → w.kept = true

/-- What is left of the writes that are not over. -/
def left (o : Outbox α) : List α := (o.pending.map (·.left)).flatten

variable {ok : Outbox α → Nat → Prop} {ws : List (List α)} {o : Outbox α}

theorem left_start (bytes : List α) : (o.start bytes).left = o.left ++ bytes := by
  simp [left, start]

/-- A buffer that is given up leaves as much to be written as before. -/
theorem left_free {i : Nat} {w : Write α} (h : o.pending[i]? = some w) : (o.free i w).left = o.left := by
  obtain ⟨hi, rfl⟩ := List.getElem?_eq_some_iff.mp h
  have hset : (o.pending.map (·.left)).set i o.pending[i].left = o.pending.map (·.left) := by
    rw [← List.getElem_map Write.left (h := by simpa using hi), List.set_getElem_self]
  rw [left, left, free, List.map_set]
  dsimp only
  rw [hset]

theorem left_leave_zero (w w' : Write α) (ws : List (Write α)) :
    ((leave (w :: ws) 0 w').map (·.left)).flatten = w'.left ++ (ws.map (·.left)).flatten := by
  unfold leave
  split
  · rename_i hempty
    rw [List.isEmpty_iff.mp hempty]
    rfl
  · rfl

/-- A part of the oldest write moves the border between what is written and what is left. -/
theorem part_oldest {w : Write α} {bytes : List α} (h : o.pending[0]? = some w) (hbytes : bytes = w.left.take bytes.length) :
    (o.part 0 w bytes).written ++ (o.part 0 w bytes).left = o.written ++ o.left := by
  cases hp : o.pending with
  | nil => rw [hp] at h; cases h
  | cons w' ws =>
    rw [hp] at h
    cases h
    have hsplit : bytes ++ w.left.drop bytes.length = w.left := calc
      _ = w.left.take bytes.length ++ w.left.drop bytes.length := congrArg (· ++ _) hbytes
      _ = w.left := List.take_append_drop _ _
    simp only [left, part, hp, left_leave_zero, List.map_cons, List.flatten_cons, List.append_assoc]
    rw [← List.append_assoc bytes, hsplit]

theorem Run.inOrder (hr : Run timely ws o) : o.written ++ o.left = ws.flatten := by
  induction hr with
  | init => rfl
  | start _ _ ih =>
    rw [List.flatten_append, ← ih, left_start]
    simp [Outbox.start, List.append_assoc]
  | part _ hw _ _ hbytes hok ih =>
    obtain ⟨rfl, hkept⟩ := hok
    rw [part_oldest hw (hbytes (hkept _ hw)), ih]
  | free _ hw ih =>
    rw [left_free hw]
    exact ih

/-- So the stream is a beginning of the writes, and all of them once none is left. -/
theorem Run.begins (hr : Run timely ws o) : o.written <+: ws.flatten := ⟨_, hr.inOrder⟩

theorem Run.done (hr : Run timely ws o) (h : o.pending = []) : o.written = ws.flatten := by
  have hall := hr.inOrder
  rw [left, h, List.map_nil, List.flatten_nil, List.append_nil] at hall
  exact hall

end Outbox

end NovaMP.Lib
