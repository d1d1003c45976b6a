/-
  NovaMP.Client.SplitBuffer — how long `m_split_buf` gets (`BeamMPClient::readLoop` in
  `client/src/compat/beammp_client.cpp`).

  The loop is meant to leave at a frame of more than 50 MB. But the size of a frame has
  three bytes and stays below 16 MB, so this never happens (`size_allowed`), and nothing
  looks at the buffer that the `S` frames fill.

  - `Read.step`, `reached`: the states that the loop passes through are the ones after the
    frames that leave the connection open, with `unfinished` in the buffer.
  - `bounded_iff`: the buffer and the data given to `handlePacket` stay within 50 MB
    exactly if the data of the `S` frames since an `F` frame do (`Within`); where they do
    not, the connection is open at that point.
  - `flood_kept`: four `S` frames.
-/

import Mathlib.Data.List.Induction
import NovaMP.Client.FrameStream

namespace NovaMP.BeamMP

open Lib

variable {h : Host} {cb : Callbacks} {w : Nat → Bool}

/-- `50 * 1024 * 1024` -/
def maxBytes : Nat := 50 * 1024 * 1024

/-! ## Points of the loop -/

/-- The reader at the points of the loop that begins with `s`. -/
inductive Point (h : Host) (cb : Callbacks) (w : Nat → Bool) (s : Reader × Bytes) : Reader → Prop
  /-- Before the two reads, and where the loop is left. -/
  | between {t : Reader} {input : Bytes} : Loop.Reaches (loopBody h cb w) s (t, input) → Point h cb w s t
  /-- After `m_split_buf += data`; after `F` the buffer is kept until `handlePacket` is done. -/
  | appended {t : Reader} {input rest : Bytes} {f : Packet} : Loop.Reaches (loopBody h cb w) s (t, input) →
      t.client.connected = true → firstFrame input = some (f, rest) →
      f.code = Code.split.byte ∨ f.code = Code.splitFinish.byte →
      Point h cb w s (t.setSplit (t.client.splitBuf ++ f.data) t.client.inSplit)

structure Bounded (h : Host) (cb : Callbacks) (w : Nat → Bool) (key input : Bytes) : Prop where
  buffer : ∀ t, Point h cb w (.start key, input) t → t.client.splitBuf.length ≤ maxBytes
  given : ∀ p ∈ packetsGiven (readLoop h cb w (.start key) input), p.data.length ≤ maxBytes

/-! ## The stream -/

/-- None of these packets ends the connection; `n` replies were written before. -/
def Survives (h : Host) (w : Nat → Bool) (n : Nat) : List Packet → Prop
  | [] => True
  | p :: ps => ¬ Ends h w n p ∧ Survives h w (if Replied p then n + 1 else n) ps

/-- How many bytes the `S` frames carry. -/
def splitBytes (fs : List Packet) : Nat := ((fs.filter (·.code = Code.split.byte)).map (·.data.length)).sum

/-- As long as the connection is open, the `S` frames that follow one another without an
    `F` frame, and the `F` frame after them, carry at most 50 MB. -/
def Within (h : Host) (w : Nat → Bool) (input : Bytes) : Prop :=
  ∀ before run f after, framesOf input = before ++ run ++ f :: after → (∀ g ∈ run, g.code ≠ Code.splitFinish.byte) →
    f.code = Code.split.byte ∨ f.code = Code.splitFinish.byte → Survives h w 0 (packetsOf [] (before ++ run)) →
      splitBytes run + f.data.length ≤ maxBytes

/-! ## The size of a frame -/

/-- Three bytes never say more than 50 MB. -/
theorem size_allowed (b1 b2 b3 : UInt8) : ofLE [b1, b2, b3] ≤ maxBytes := by
  have hlt : ofLE [b1, b2, b3] < 256 ^ 3 := ofLE_lt [b1, b2, b3]
  rw [maxBytes]
  omega

theorem firstFrame_data {input rest : Bytes} {f : Packet} (hf : firstFrame input = some (f, rest)) :
    f.data.length ≤ maxBytes := by
  unfold firstFrame at hf
  split at hf
  · dsimp only at hf
    split at hf
    · cases hf
    split at hf
    · cases hf
    · cases hf
      rw [List.length_take]
      exact (Nat.min_le_left _ _).trans (size_allowed _ _ _)
  · cases hf

theorem firstFrame_of_framesOf {input : Bytes} {f : Packet} {fs : List Packet} (hfs : framesOf input = f :: fs) :
    ∃ rest, firstFrame input = some (f, rest) := by
  cases hfirst : firstFrame input with
  | none =>
    rw [framesOf_none hfirst] at hfs
    cases hfs
  | some q =>
    rw [framesOf_some hfirst] at hfs
    exact ⟨q.2, by rw [← (List.cons.inj hfs).1]⟩

theorem framesOf_data {input : Bytes} {f : Packet} (hf : f ∈ framesOf input) : f.data.length ≤ maxBytes := by
  induction input using framesOf.induct with
  | case1 input hnone =>
    rw [framesOf_none hnone] at hf
    cases hf
  | case2 input g rest hsome ih =>
    rw [framesOf_some hsome] at hf
    rcases List.mem_cons.mp hf with rfl | hf
    · exact firstFrame_data hsome
    · exact ih hf

/-! ## Frames that have been read -/

/-- What is in `m_split_buf` after these frames. -/
def unfinished (fs : List Packet) : Bytes := fs.foldl (fun buf f => (taken buf f).1) []

/-- How many of the packets are replied to. -/
def replies (ps : List Packet) : Nat := ps.countP (Replied ·)

theorem unfinished_snoc (fs : List Packet) (f : Packet) : unfinished (fs ++ [f]) = (taken (unfinished fs) f).1 := by
  rw [unfinished, List.foldl_append]
  rfl

theorem packetsOf_append (buf : Bytes) (fs gs : List Packet) :
    packetsOf buf (fs ++ gs) = packetsOf buf fs ++ packetsOf (fs.foldl (fun buf f => (taken buf f).1) buf) gs := by
  induction fs generalizing buf with
  | nil => rfl
  | cons f fs ih => rw [List.cons_append, packetsOf_cons, packetsOf_cons, ih, List.append_assoc, List.foldl_cons]

theorem packetsOf_snoc (fs : List Packet) (f : Packet) :
    packetsOf [] (fs ++ [f]) = packetsOf [] fs ++ (taken (unfinished fs) f).2.toList := by
  rw [packetsOf_append, packetsOf_cons, packetsOf, List.append_nil]
  rfl

theorem replies_cons (n : Nat) (p : Packet) (ps : List Packet) :
    (if Replied p then n + 1 else n) + replies ps = n + replies (p :: ps) := by
  rw [replies, replies, List.countP_cons]
  by_cases hp : Replied p
  · rw [if_pos hp, if_pos (decide_eq_true hp), Nat.add_right_comm, Nat.add_assoc]
  · rw [if_neg hp, if_neg (by simpa using hp), Nat.add_zero]

theorem survives_append (n : Nat) (ps qs : List Packet) :
    Survives h w n (ps ++ qs) ↔ Survives h w n ps ∧ Survives h w (n + replies ps) qs := by
  induction ps generalizing n with
  | nil => simp [Survives, replies]
  | cons p ps ih =>
    rw [List.cons_append, Survives, Survives, ih, replies_cons, and_assoc]

/-- The packets of the second list are heard if the first one leaves the connection open. -/
theorem mem_heard_append (n : Nat) (ps qs : List Packet) {p : Packet} (hp : p ∈ heard h w n (ps ++ qs)) :
    p ∈ heard h w n ps ∨ Survives h w n ps ∧ p ∈ heard h w (n + replies ps) qs := by
  induction ps generalizing n with
  | nil => exact .inr ⟨trivial, hp⟩
  | cons q ps ih =>
    rw [List.cons_append, heard] at hp
    rw [heard]
    rcases List.mem_cons.mp hp with rfl | hp
    · exact .inl List.mem_cons_self
    · split at hp
      · cases hp
      · rename_i hends
        rw [if_neg hends]
        rcases ih _ hp with hp | ⟨hs, hp⟩
        · exact .inl (List.mem_cons_of_mem _ hp)
        · exact .inr ⟨⟨hends, hs⟩, replies_cons n q ps ▸ hp⟩

/-- A packet that is heard was completed by a frame, with the connection open before it. -/
theorem heard_frame {fs : List Packet} {p : Packet} (hp : p ∈ heard h w 0 (packetsOf [] fs)) :
    ∃ before f after, fs = before ++ f :: after ∧ (taken (unfinished before) f).2 = some p ∧
      Survives h w 0 (packetsOf [] before) := by
  induction fs using List.reverseRecOn with
  | nil => cases hp
  | append_singleton fs f ih =>
    rw [packetsOf_snoc] at hp
    rcases mem_heard_append 0 _ _ hp with hp | ⟨hs, hp⟩
    · obtain ⟨before, g, after, rfl, hg, hs⟩ := ih hp
      exact ⟨before, g, after ++ [f], by simp, hg, hs⟩
    · refine ⟨fs, f, [], rfl, ?_, hs⟩
      cases htaken : (taken (unfinished fs) f).2 with
      | none =>
        rw [htaken] at hp
        cases hp
      | some q =>
        rw [htaken] at hp
        rcases List.mem_cons.mp hp with rfl | hp
        · rfl
        · split at hp <;> cases hp

/-! ## The states of the loop -/

/-- The loop has read the frames `before`, and `rest` is what is left of the input. -/
structure Read (h : Host) (w : Nat → Bool) (input : Bytes) (before : List Packet) (t : Reader) (rest : Bytes) : Prop where
  frames : framesOf input = before ++ framesOf rest
  buffer : t.client.splitBuf = unfinished before
  writes : t.writes = replies (packetsOf [] before)
  connected : t.client.connected = true ↔ Survives h w 0 (packetsOf [] before)

variable {input rest : Bytes} {before : List Packet} {t : Reader}

theorem Read.start (key : Bytes) : Read h w input [] (.start key) input :=
  ⟨rfl, rfl, rfl, iff_of_true rfl trivial⟩

theorem Read.ahead {rest' : Bytes} {f : Packet} (hr : Read h w input before t rest)
    (hf : firstFrame rest = some (f, rest')) : framesOf input = before ++ f :: framesOf rest' := by
  rw [hr.frames, framesOf_some hf]

theorem Read.step {rest' : Bytes} {f : Packet} {u : Reader} (hr : Read h w input before t rest)
    (hconn : t.client.connected = true) (hf : firstFrame rest = some (f, rest')) (hu : t.frame h cb w f = .ok u) :
    Read h w input (before ++ [f]) u rest' := by
  have hframed : Framed h w t f (t.frame h cb w f) := frame_framed hconn f
  have hframes : framesOf input = (before ++ [f]) ++ framesOf rest' := by
    rw [hr.ahead hf, List.append_assoc]
    rfl
  have hsurvives := hr.connected.mp hconn
  rw [hu] at hframed
  obtain ⟨hp, hconn', hwrites, hbuf, -⟩ | ⟨hp, hconn', hwrites, hbuf, -⟩ | - := hframed
  · rw [hr.buffer] at hp hbuf
    have hpackets : packetsOf [] (before ++ [f]) = packetsOf [] before := by
      rw [packetsOf_snoc, hp, Option.toList_none, List.append_nil]
    refine ⟨hframes, hbuf.trans (unfinished_snoc before f).symm, ?_, ?_⟩
    · rw [hwrites, hr.writes, hpackets]
    · rw [hpackets]
      exact iff_of_true hconn' hsurvives
  · rename_i p
    rw [hr.buffer] at hp hbuf
    have hpackets : packetsOf [] (before ++ [f]) = packetsOf [] before ++ [p] := by
      rw [packetsOf_snoc, hp, Option.toList_some]
    refine ⟨hframes, hbuf.trans (unfinished_snoc before f).symm, ?_, ?_⟩
    · rw [hwrites, hr.writes, hpackets, replies, replies, List.countP_append]
      split <;> simp_all
    · rw [hconn', hpackets, survives_append, hr.writes, Nat.zero_add]
      exact ⟨fun hends => ⟨hsurvives, hends, trivial⟩, fun hs => hs.2.1⟩

theorem loopBody_next {s : Reader × Bytes} {u : Reader × Bytes} (hb : loopBody h cb w s = .next u) :
    s.1.client.connected = true ∧ ∃ f, firstFrame s.2 = some (f, u.2) ∧ s.1.frame h cb w f = .ok u.1 := by
  unfold loopBody at hb
  split at hb
  · rename_i hconn
    split at hb
    · cases hb
    · rename_i f rest hf
      split at hb <;> cases hb
      rename_i ht
      exact ⟨hconn, f, hf, ht⟩
  · cases hb

theorem reaches_read {key : Bytes} {s : Reader × Bytes} (hr : Loop.Reaches (loopBody h cb w) (.start key, input) s) :
    ∃ before, Read h w input before s.1 s.2 := by
  refine hr.invariant (I := fun s => ∃ before, Read h w input before s.1 s.2) ⟨[], .start key⟩ ?_
  rintro t u ⟨before, hread⟩ hb
  obtain ⟨hconn, f, hf, hu⟩ := loopBody_next hb
  exact ⟨before ++ [f], hread.step hconn hf hu⟩

/-- The loop comes to every frame before which the connection is open. -/
theorem reached (h : Host) (cb : Callbacks) (w : Nat → Bool) (key : Bytes) {fs : List Packet}
    (hframes : framesOf input = before ++ fs) (hs : Survives h w 0 (packetsOf [] before)) :
    ∃ t rest, Loop.Reaches (loopBody h cb w) (.start key, input) (t, rest) ∧ Read h w input before t rest := by
  induction before using List.reverseRecOn generalizing fs with
  | nil => exact ⟨.start key, input, .refl, .start key⟩
  | append_singleton before f ih =>
    rw [List.append_assoc] at hframes
    rw [packetsOf_snoc, survives_append] at hs
    obtain ⟨t, rest, hreach, hread⟩ := ih hframes hs.1
    have hconn := hread.connected.mpr hs.1
    have hrest : framesOf rest = f :: fs := List.append_cancel_left (hread.frames.symm.trans hframes)
    obtain ⟨rest', hf⟩ := firstFrame_of_framesOf hrest
    have hframed : Framed h w t f (t.frame h cb w f) := frame_framed hconn f
    cases hu : t.frame h cb w f with
    | error e =>
      -- A packet that throws ends the connection.
      rw [hu] at hframed
      obtain - | - | ⟨hp, hends, -⟩ := hframed
      rw [hread.buffer] at hp
      rw [hp, ← hread.writes.trans (Nat.zero_add _).symm] at hs
      exact absurd hends hs.2.1
    | ok u =>
      have hbody : loopBody h cb w (t, rest) = .next (u, rest') := by
        rw [loopBody, if_pos hconn]
        simp only [hf, hu]
      exact ⟨u, rest', hreach.next hbody, hread.step hconn hf hu⟩

/-! ## The bound -/

/-- The buffer has the data of the `S` frames since any `F` frame at least. -/
theorem splitBytes_le (before : List Packet) {run : List Packet} (hrun : ∀ g ∈ run, g.code ≠ Code.splitFinish.byte) :
    splitBytes run ≤ (unfinished (before ++ run)).length := by
  induction run using List.reverseRecOn with
  | nil => exact Nat.zero_le _
  | append_singleton run g ih =>
    have hle := ih fun g hg => hrun g (List.mem_append_left _ hg)
    have hfinish : g.code ≠ Code.splitFinish.byte := hrun g (by simp)
    rw [← List.append_assoc, unfinished_snoc]
    by_cases hsplit : g.code = Code.split.byte
    · simpa [taken_split _ hsplit, splitBytes, hsplit] using hle
    · simpa [taken_whole _ hsplit hfinish, splitBytes, hsplit] using hle

/-- It has no more than the data of the `S` frames since the last `F` frame. -/
theorem unfinished_run (fs : List Packet) : ∃ before run, fs = before ++ run ∧
    (∀ g ∈ run, g.code ≠ Code.splitFinish.byte) ∧ (unfinished fs).length = splitBytes run := by
  induction fs using List.reverseRecOn with
  | nil => exact ⟨[], [], rfl, by simp, rfl⟩
  | append_singleton fs g ih =>
    obtain ⟨before, run, rfl, hrun, hlen⟩ := ih
    rw [unfinished_snoc]
    by_cases hfinish : g.code = Code.splitFinish.byte
    · exact ⟨before ++ run ++ [g], [], by simp, by simp, by rw [taken_finish _ hfinish]; rfl⟩
    refine ⟨before, run ++ [g], by simp, ?_, ?_⟩
    · intro g' hg'
      rcases List.mem_append.mp hg' with hg' | hg'
      · exact hrun g' hg'
      · rwa [List.mem_singleton.mp hg']
    by_cases hsplit : g.code = Code.split.byte
    · simp [taken_split _ hsplit, splitBytes, hsplit, hlen]
    · simp [taken_whole _ hsplit hfinish, splitBytes, hsplit, hlen]

/-- The buffer after an append. -/
theorem Within.appended (hw : Within h w input) {fs after : List Packet} {f : Packet}
    (hframes : framesOf input = fs ++ f :: after) (hcode : f.code = Code.split.byte ∨ f.code = Code.splitFinish.byte)
    (hs : Survives h w 0 (packetsOf [] fs)) : (unfinished fs ++ f.data).length ≤ maxBytes := by
  obtain ⟨before, run, rfl, hrun, hlen⟩ := unfinished_run fs
  rw [List.length_append, hlen]
  exact hw before run f after hframes hrun hcode hs

theorem Within.between (hw : Within h w input) {key : Bytes} {s : Reader × Bytes}
    (hr : Loop.Reaches (loopBody h cb w) (.start key, input) s) : s.1.client.splitBuf.length ≤ maxBytes := by
  induction hr with
  | refl => exact Nat.zero_le _
  | @next t u hreach hb ih =>
    obtain ⟨before, hread⟩ := reaches_read hreach
    obtain ⟨hconn, f, hf, hu⟩ := loopBody_next hb
    rw [hread.buffer] at ih
    rw [(hread.step hconn hf hu).buffer, unfinished_snoc]
    by_cases hfinish : f.code = Code.splitFinish.byte
    · rw [taken_finish _ hfinish]
      exact Nat.zero_le _
    by_cases hsplit : f.code = Code.split.byte
    · rw [taken_split _ hsplit]
      exact hw.appended (hread.ahead hf) (.inl hsplit) (hread.connected.mp hconn)
    · rwa [taken_whole _ hsplit hfinish]

theorem Within.given (hw : Within h w input) {p : Packet} (hp : p ∈ heard h w 0 (packetsOf [] (framesOf input))) :
    p.data.length ≤ maxBytes := by
  obtain ⟨before, f, after, hframes, htaken, hs⟩ := heard_frame hp
  by_cases hsplit : f.code = Code.split.byte
  · rw [taken_split _ hsplit] at htaken
    cases htaken
  by_cases hfinish : f.code = Code.splitFinish.byte
  · have hlen := hw.appended hframes (.inr hfinish) hs
    rw [taken_finish _ hfinish] at htaken
    cases hbuf : unfinished before ++ f.data with
    | nil =>
      rw [hbuf] at htaken
      cases htaken
    | cons code data =>
      rw [hbuf] at htaken hlen
      cases htaken
      exact (Nat.le_succ _).trans hlen
  · rw [taken_whole _ hsplit hfinish] at htaken
    cases htaken
    have hmem : p ∈ framesOf input := by rw [hframes]; simp
    exact framesOf_data hmem

theorem Within.bounded (cb : Callbacks) (key : Bytes) (hw : Within h w input) : Bounded h cb w key input := by
  refine ⟨fun t hpoint => ?_, fun p hp => ?_⟩
  · cases hpoint with
    | between hreach => exact hw.between hreach
    | @appended t _ _ f hreach hconn hf hcode =>
      obtain ⟨before, hread⟩ := reaches_read hreach
      show (t.client.splitBuf ++ f.data).length ≤ maxBytes
      rw [hread.buffer]
      exact hw.appended (hread.ahead hf) hcode (hread.connected.mp hconn)
  · rw [readLoop_given] at hp
    exact hw.given hp

/-- Where the stream has more, the loop takes it. -/
theorem overrun (h : Host) (cb : Callbacks) (w : Nat → Bool) (key : Bytes) {run after : List Packet} {f : Packet}
    (hframes : framesOf input = before ++ run ++ f :: after) (hrun : ∀ g ∈ run, g.code ≠ Code.splitFinish.byte)
    (hcode : f.code = Code.split.byte ∨ f.code = Code.splitFinish.byte)
    (hs : Survives h w 0 (packetsOf [] (before ++ run))) :
    ∃ t, Point h cb w (.start key, input) t ∧ t.client.connected = true ∧
      splitBytes run + f.data.length ≤ t.client.splitBuf.length := by
  obtain ⟨t, rest, hreach, hread⟩ := reached h cb w key hframes hs
  have hconn := hread.connected.mpr hs
  have hrest : framesOf rest = f :: after := List.append_cancel_left (hread.frames.symm.trans hframes)
  obtain ⟨rest', hf⟩ := firstFrame_of_framesOf hrest
  refine ⟨_, .appended hreach hconn hf hcode, hconn, ?_⟩
  show _ ≤ (t.client.splitBuf ++ f.data).length
  have hle := splitBytes_le before hrun
  rw [hread.buffer, List.length_append]
  omega

/-- The buffer and the packets stay within 50 MB exactly if the stream does; where it does not,
    the connection stays open. -/
theorem bounded_iff (h : Host) (cb : Callbacks) (w : Nat → Bool) (key input : Bytes) :
    (Bounded h cb w key input ↔ Within h w input) ∧
      (¬ Within h w input → ∃ t, Point h cb w (.start key, input) t ∧ t.client.connected = true ∧
        maxBytes < t.client.splitBuf.length) := by
  have hover : ¬ Within h w input → ∃ t, Point h cb w (.start key, input) t ∧ t.client.connected = true ∧
      maxBytes < t.client.splitBuf.length := by
    intro hw
    simp only [Within, not_forall, Nat.not_le] at hw
    obtain ⟨before, run, f, after, hframes, hrun, hcode, hs, hlong⟩ := hw
    obtain ⟨t, hpoint, hconn, hle⟩ := overrun h cb w key hframes hrun hcode hs
    exact ⟨t, hpoint, hconn, Nat.lt_of_lt_of_le hlong hle⟩
  refine ⟨⟨fun hb => ?_, Within.bounded cb key⟩, hover⟩
  by_contra hw
  obtain ⟨t, hpoint, -, hlt⟩ := hover hw
  exact Nat.not_le.mpr hlt (hb.buffer t hpoint)

/-! ## Four frames -/

/-- An `S` frame of the largest size. -/
def Sample.chunk : Packet := ⟨Code.split.byte, List.replicate (2 ^ 24 - 1) 0⟩

/-- Four of them. -/
def Sample.flood : Bytes := (List.replicate 4 Sample.chunk).flatMap fun f => buildPacket f.code f.data

theorem flood_kept : (∃ t, Point Sample.host Sample.callbacks noError (.start [1], Sample.flood) t ∧
    t.client.connected = true ∧ 67108860 ≤ t.client.splitBuf.length) ∧
      ¬ Bounded Sample.host Sample.callbacks noError [1] Sample.flood := by
  have hsize : Sample.chunk.data.length = 2 ^ 24 - 1 := List.length_replicate
  have hcode : Sample.chunk.code = Code.split.byte := rfl
  have hframes : framesOf Sample.flood = [] ++ List.replicate 3 Sample.chunk ++ Sample.chunk :: [] := by
    refine framesOf_build fun f hf => ?_
    rw [List.eq_of_mem_replicate hf, hsize]
    decide
  have hrun : ∀ g ∈ List.replicate 3 Sample.chunk, g.code ≠ Code.splitFinish.byte := by
    intro g hg
    rw [List.eq_of_mem_replicate hg, hcode]
    decide
  have hpackets : packetsOf [] ([] ++ List.replicate 3 Sample.chunk) = [] := by
    simp [List.replicate, packetsOf, hcode]
  have hbytes : splitBytes (List.replicate 3 Sample.chunk) = 3 * (2 ^ 24 - 1) := by
    simp [splitBytes, hcode, hsize]
  obtain ⟨t, hpoint, hconn, hle⟩ := overrun Sample.host Sample.callbacks noError [1] hframes hrun (.inl hcode)
    (by rw [hpackets]; trivial)
  rw [hbytes, hsize] at hle
  refine ⟨⟨t, hpoint, hconn, hle⟩, fun hb => ?_⟩
  have hmax := hb.buffer t hpoint
  rw [maxBytes] at hmax
  omega

end NovaMP.BeamMP
