/-
  NovaMP.Lib.Framing — length-prefixed frames on a byte stream.

  A frame is four length bytes (little-endian) and that many bytes, at least one and at
  most `max`. A `Reader` collects the length, then the body, and closes for good at a
  length it does not accept; a reader with too many bytes or a bad length cannot be built.

  - `feed_frames`: a reader hands over what was framed (`frame`).
  - `feed_chunks`: what a reader hands over does not depend on how the stream is cut.
  - `feed_start`: it hands over the frames of the stream (`parse`), and is closed at the
    end exactly when a bad length comes after them.
-/

import NovaMP.Lib.Codec

namespace NovaMP.Lib.Framing

variable {max : Nat}

/-- The bytes of a frame. -/
def frame (data : Bytes) : Bytes := leBytes 4 data.length ++ data

inductive Reader (max : Nat) where
  /-- Waiting for four length bytes. -/
  | length (buf : Bytes) (short : buf.length < 4)
  /-- Waiting for `n` bytes. -/
  | body (n : Nat) (buf : Bytes) (fits : 1 ≤ n ∧ n ≤ max) (short : buf.length < n)
  | closed

def start : Reader max := .length [] (by decide)

/-- The reader once the four length bytes are there. -/
def afterLength (max : Nat) (lenBuf : Bytes) : Reader max :=
  if h : ofLE lenBuf = 0 ∨ max < ofLE lenBuf then .closed
  else .body (ofLE lenBuf) [] (by omega) (by simp; omega)

/-- One byte comes in; a frame may be complete. -/
def step : Reader max → UInt8 → Reader max × Option Bytes
  | .length buf _, b =>
    if h : (buf ++ [b]).length < 4 then (.length (buf ++ [b]) h, none) else (afterLength max (buf ++ [b]), none)
  | .body n buf fits _, b =>
    if h : (buf ++ [b]).length < n then (.body n (buf ++ [b]) fits h, none) else (start, some (buf ++ [b]))
  | .closed, _ => (.closed, none)

/-- The reader after some bytes, and the frames they completed. -/
def feed (r : Reader max) : Bytes → Reader max × List Bytes
  | [] => (r, [])
  | b :: bs => ((feed (step r b).1 bs).1, (step r b).2.toList ++ (feed (step r b).1 bs).2)

/-- The stream arrives in chunks. -/
def feedAll (r : Reader max) : List Bytes → Reader max × List Bytes
  | [] => (r, [])
  | c :: cs => ((feedAll (feed r c).1 cs).1, (feed r c).2 ++ (feedAll (feed r c).1 cs).2)

/-! ## Cutting the stream -/

theorem feed_append (r : Reader max) (as bs : Bytes) :
    feed r (as ++ bs) = ((feed (feed r as).1 bs).1, (feed r as).2 ++ (feed (feed r as).1 bs).2) := by
  induction as generalizing r with
  | nil => rfl
  | cons a as ih => rw [List.cons_append, feed, ih, feed, List.append_assoc]

theorem feed_chunks (r : Reader max) (cs : List Bytes) : feedAll r cs = feed r cs.flatten := by
  induction cs generalizing r with
  | nil => rfl
  | cons c cs ih => rw [feedAll, ih, List.flatten_cons, feed_append]

/-! ## The frames of a stream -/

/-- The complete frames before the first bad length, and whether there is one. -/
def parse (max : Nat) (bs : Bytes) : List Bytes × Bool :=
  if bs.length < 4 then ([], false)
  else if ofLE (bs.take 4) = 0 ∨ max < ofLE (bs.take 4) then ([], true)
  else if (bs.drop 4).length < ofLE (bs.take 4) then ([], false)
  else
    let rest := parse max ((bs.drop 4).drop (ofLE (bs.take 4)))
    ((bs.drop 4).take (ofLE (bs.take 4)) :: rest.1, rest.2)
termination_by bs.length
decreasing_by
  simp only [List.length_drop]
  omega

theorem feed_closed (bs : Bytes) : feed (.closed : Reader max) bs = (.closed, []) := by
  induction bs with
  | nil => rfl
  | cons b bs ih => rw [feed, step, ih]; rfl

theorem feed_length_short {buf bs : Bytes} {short : buf.length < 4} (h : (buf ++ bs).length < 4) :
    feed (.length buf short : Reader max) bs = (.length (buf ++ bs) h, []) := by
  induction bs generalizing buf with
  | nil => simp [feed]
  | cons b bs ih =>
    have h1 : (buf ++ [b]).length < 4 := by simp at h ⊢; omega
    have h2 : ((buf ++ [b]) ++ bs).length < 4 := by simpa using h
    rw [feed, step, dif_pos h1]
    dsimp only
    rw [ih h2]
    simp

theorem feed_length_full {buf bs : Bytes} {short : buf.length < 4} (h : (buf ++ bs).length = 4) (rest : Bytes) :
    feed (.length buf short : Reader max) (bs ++ rest) = feed (afterLength max (buf ++ bs)) rest := by
  induction bs generalizing buf with
  | nil => simp at h; omega
  | cons b bs ih =>
    rw [List.cons_append, feed, step]
    by_cases h1 : (buf ++ [b]).length < 4
    · have h2 : ((buf ++ [b]) ++ bs).length = 4 := by simpa using h
      rw [dif_pos h1]
      dsimp only
      rw [ih h2]
      simp
    · have hnil : bs = [] := by
        rw [← List.length_eq_zero_iff]
        simp at h h1
        omega
      subst hnil
      rw [dif_neg h1]
      rfl

theorem feed_body_short {n : Nat} {buf bs : Bytes} {fits : 1 ≤ n ∧ n ≤ max} {short : buf.length < n}
    (h : (buf ++ bs).length < n) : feed (.body n buf fits short : Reader max) bs = (.body n (buf ++ bs) fits h, []) := by
  induction bs generalizing buf with
  | nil => simp [feed]
  | cons b bs ih =>
    have h1 : (buf ++ [b]).length < n := by simp at h ⊢; omega
    have h2 : ((buf ++ [b]) ++ bs).length < n := by simpa using h
    rw [feed, step, dif_pos h1]
    dsimp only
    rw [ih h2]
    simp

theorem feed_body_full {n : Nat} {buf bs : Bytes} {fits : 1 ≤ n ∧ n ≤ max} {short : buf.length < n}
    (h : (buf ++ bs).length = n) (rest : Bytes) :
    feed (.body n buf fits short : Reader max) (bs ++ rest) =
      ((feed (start : Reader max) rest).1, (buf ++ bs) :: (feed (start : Reader max) rest).2) := by
  induction bs generalizing buf with
  | nil => simp at h; omega
  | cons b bs ih =>
    rw [List.cons_append, feed, step]
    by_cases h1 : (buf ++ [b]).length < n
    · have h2 : ((buf ++ [b]) ++ bs).length = n := by simpa using h
      rw [dif_pos h1]
      dsimp only
      rw [ih h2]
      simp
    · have hnil : bs = [] := by
        rw [← List.length_eq_zero_iff]
        simp at h h1
        omega
      subst hnil
      rw [dif_neg h1]
      rfl

/-- Once the length bytes are in, the rest of the stream is for the body. -/
theorem feed_start_length {bs : Bytes} (h : 4 ≤ bs.length) :
    feed (start : Reader max) bs = feed (afterLength max (bs.take 4)) (bs.drop 4) := by
  have htake : ([] ++ bs.take 4).length = 4 := by simp; omega
  have hfeed : feed (start : Reader max) (bs.take 4 ++ bs.drop 4) = feed (afterLength max (bs.take 4)) (bs.drop 4) :=
    feed_length_full htake (bs.drop 4)
  rwa [List.take_append_drop] at hfeed

/-- A reader hands over the frames of the stream, and closes at its first bad length. -/
theorem feed_start (bs : Bytes) :
    (feed (start : Reader max) bs).2 = (parse max bs).1 ∧
      ((feed (start : Reader max) bs).1 = .closed ↔ (parse max bs).2 = true) := by
  induction bs using parse.induct max with
  | case1 bs hlen =>
    have hfeed : feed (start : Reader max) bs = (.length bs hlen, []) :=
      feed_length_short (show ([] ++ bs).length < 4 from hlen)
    rw [parse, if_pos hlen, hfeed]
    simp
  | case2 bs hlen hbad =>
    rw [parse, if_neg hlen, if_pos hbad, feed_start_length (by omega), afterLength, dif_pos hbad, feed_closed]
    simp
  | case3 bs hlen hgood hshort =>
    rw [parse, if_neg hlen, if_neg hgood, if_pos hshort, feed_start_length (by omega), afterLength, dif_neg hgood,
      feed_body_short (by simpa using hshort)]
    simp
  | case4 bs hlen hgood hfull ih =>
    have hbody : ([] ++ (bs.drop 4).take (ofLE (bs.take 4))).length = ofLE (bs.take 4) := by simp at hfull ⊢; omega
    rw [parse, if_neg hlen, if_neg hgood, if_neg hfull, feed_start_length (by omega), afterLength, dif_neg hgood]
    rw [← List.take_append_drop (ofLE (bs.take 4)) (bs.drop 4), feed_body_full hbody]
    simp only [List.take_append_drop, List.nil_append, ih.1, ih.2, and_self]

/-- Every frame is of a length the reader accepts. -/
theorem parse_bounds {bs f : Bytes} (h : f ∈ (parse max bs).1) : 1 ≤ f.length ∧ f.length ≤ max := by
  induction bs using parse.induct max with
  | case1 bs hlen => rw [parse, if_pos hlen] at h; cases h
  | case2 bs hlen hbad => rw [parse, if_neg hlen, if_pos hbad] at h; cases h
  | case3 bs hlen hgood hshort => rw [parse, if_neg hlen, if_neg hgood, if_pos hshort] at h; cases h
  | case4 bs hlen hgood hfull ih =>
    rw [parse, if_neg hlen, if_neg hgood, if_neg hfull] at h
    rcases List.mem_cons.mp h with rfl | h
    · rw [List.length_take]
      omega
    · exact ih h

/-! ## Framed data -/

@[simp] theorem frame_length (data : Bytes) : (frame data).length = 4 + data.length := by simp [frame]

theorem take_frame (data rest : Bytes) : (frame data ++ rest).take 4 = leBytes 4 data.length := by
  rw [frame, List.append_assoc]
  exact List.take_left' (leBytes_length 4 _)

theorem drop_frame (data rest : Bytes) : (frame data ++ rest).drop 4 = data ++ rest := by
  rw [frame, List.append_assoc]
  exact List.drop_left' (leBytes_length 4 _)

theorem ofLE_length (data : Bytes) (h : data.length < 2 ^ 32) : ofLE (leBytes 4 data.length) = data.length := by
  rw [ofLE_leBytes]
  exact Nat.mod_eq_of_lt h

theorem feed_frame {data : Bytes} (hdata : 1 ≤ data.length ∧ data.length ≤ max) (hmax : max < 2 ^ 32) (rest : Bytes) :
    feed (start : Reader max) (frame data ++ rest) =
      ((feed (start : Reader max) rest).1, data :: (feed (start : Reader max) rest).2) := by
  have hlen := ofLE_length data (by omega)
  have hgood : ¬ (ofLE (leBytes 4 data.length) = 0 ∨ max < ofLE (leBytes 4 data.length)) := by omega
  rw [feed_start_length (by simp; omega), take_frame, drop_frame, afterLength, dif_neg hgood]
  exact feed_body_full (by simp [hlen]) rest

/-- A reader hands over the framed data, and waits for the next frame then. -/
theorem feed_frames {ds : List Bytes} (hds : ∀ d ∈ ds, 1 ≤ d.length ∧ d.length ≤ max) (hmax : max < 2 ^ 32) :
    feed (start : Reader max) (ds.flatMap frame) = (start, ds) := by
  induction ds with
  | nil => rfl
  | cons d ds ih =>
    obtain ⟨hd, hrest⟩ := List.forall_mem_cons.mp hds
    rw [List.flatMap_cons, feed_frame hd hmax, ih hrest]

end NovaMP.Lib.Framing
