/-
  NovaMP.Client.FrameStream — streams of frames (`buildPacket` in
  `client/src/compat/beammp_protocol.hpp`, `BeamMPClient::send` and `readLoop` in
  `beammp_client.cpp`).

  The size of a frame is 24 bits wide. `buildPacket` cuts the size of the data to these
  and then writes the data as they are, and `send` does not ask how many they are: it
  never makes `S` frames of a large packet, as the protocol has it. `4 + sz` is 32 bits
  wide too, so just below 4 GB the packet has no room for what is written (`HasRoom`).

  - `frame_framed`: what a frame does to the reader (`Framed`), whichever callbacks are
    set; so `readLoop_given`: `handlePacket` gets the packets of the stream, up to the one
    that ends the connection.
  - `inSync_iff`: the loop reads a list of packets as it was sent exactly if each of them
    has less than 16 MB.
  - `chat_cut`: a chat message of 16 MB is read as an empty one, and its text as frames.
-/

import NovaMP.Client.Handshake
import NovaMP.Client.Reassembly

namespace NovaMP.BeamMP

open Lib

variable {h : Host} {cb : Callbacks} {w : Nat → Bool}

/-! ## One frame -/

/-- What a frame leaves in `m_split_buf`, and the packet it completes. -/
def taken (buf : Bytes) (f : Packet) : Bytes × Option Packet :=
  if f.code = Code.split.byte then (buf ++ f.data, none)
  else if f.code = Code.splitFinish.byte then
    match buf ++ f.data with
    | [] => ([], none)
    | code :: data => ([], some ⟨code, data⟩)
  else (buf, some f)

theorem taken_split (buf : Bytes) {f : Packet} (hf : f.code = Code.split.byte) : taken buf f = (buf ++ f.data, none) := by
  rw [taken, if_pos hf]

theorem taken_finish (buf : Bytes) {f : Packet} (hf : f.code = Code.splitFinish.byte) :
    taken buf f = ([], match buf ++ f.data with | [] => none | code :: data => some ⟨code, data⟩) := by
  have hsplit : f.code ≠ Code.split.byte := by rw [hf]; decide
  rw [taken, if_neg hsplit, if_pos hf]
  cases buf ++ f.data <;> rfl

theorem taken_whole (buf : Bytes) {f : Packet} (hsplit : f.code ≠ Code.split.byte) (hfinish : f.code ≠ Code.splitFinish.byte) :
    taken buf f = (buf, some f) := by
  rw [taken, if_neg hsplit, if_neg hfinish]

theorem packetsOf_cons (buf : Bytes) (f : Packet) (fs : List Packet) :
    packetsOf buf (f :: fs) = (taken buf f).2.toList ++ packetsOf (taken buf f).1 fs := by
  rw [packetsOf, taken]
  split
  · rfl
  split
  · cases buf ++ f.data <;> rfl
  · rfl

/-- The packets given to `handlePacket`. -/
def packetsGiven (r : Except Thrown Reader) : List Packet := (turnsOf r).map (·.packet)

theorem Handed.given {s t : Reader} {p : Packet} (ht : Handed h w s t p) :
    packetsGiven (.ok t) = packetsGiven (.ok s) ++ [p] := by
  obtain ⟨effects, hturns⟩ := ht.turn
  simp [packetsGiven, turnsOf, hturns]

theorem handle_error_given {s : Reader} {p : Packet} {e : Thrown} (hr : s.handle h cb w p = .error e) :
    Throws h p ∧ packetsGiven (.error e) = packetsGiven (.ok s) ++ [p] := by
  obtain ⟨hthrows, hturns⟩ := handle_thrown hr
  exact ⟨hthrows, by simp [packetsGiven, turnsOf, hturns]⟩

/-- What a frame does to a reader with a connection. -/
inductive Framed (h : Host) (w : Nat → Bool) (s : Reader) (f : Packet) : Except Thrown Reader → Prop
  | quiet {t : Reader} : (taken s.client.splitBuf f).2 = none → t.client.connected = true → t.writes = s.writes →
      t.client.splitBuf = (taken s.client.splitBuf f).1 → packetsGiven (.ok t) = packetsGiven (.ok s) → Framed h w s f (.ok t)
  | handed {p : Packet} {t : Reader} : (taken s.client.splitBuf f).2 = some p →
      (t.client.connected = true ↔ ¬ Ends h w s.writes p) → t.writes = (if Replied p then s.writes + 1 else s.writes) →
      t.client.splitBuf = (taken s.client.splitBuf f).1 → packetsGiven (.ok t) = packetsGiven (.ok s) ++ [p] → Framed h w s f (.ok t)
  | thrown {p : Packet} {e : Thrown} : (taken s.client.splitBuf f).2 = some p → Ends h w s.writes p →
      packetsGiven (.error e) = packetsGiven (.ok s) ++ [p] → Framed h w s f (.error e)

theorem frame_framed {s : Reader} (hs : s.client.connected = true) (f : Packet) : Framed h w s f (s.frame h cb w f) := by
  rw [Reader.frame]
  by_cases hsplit : f.code = Code.split.byte
  · rw [if_pos hsplit]
    have htaken := taken_split s.client.splitBuf hsplit
    exact .quiet (by rw [htaken]) hs rfl (by rw [htaken]; rfl) rfl
  rw [if_neg hsplit]
  by_cases hfinish : f.code = Code.splitFinish.byte
  · rw [if_pos hfinish]
    have htaken := taken_finish s.client.splitBuf hfinish
    cases hbuf : s.client.splitBuf ++ f.data with
    | nil =>
      rw [hbuf] at htaken
      exact .quiet (by rw [htaken]) hs rfl (by rw [htaken]; rfl) rfl
    | cons code data =>
      rw [hbuf] at htaken
      have hfull : (s.setSplit (code :: data) s.client.inSplit).client.connected = true := hs
      show Framed h w s f ((s.setSplit (code :: data) s.client.inSplit).handle h cb w ⟨code, data⟩ >>= fun t => _)
      cases hr : (s.setSplit (code :: data) s.client.inSplit).handle h cb w ⟨code, data⟩ with
      | error e =>
        obtain ⟨hthrows, hgiven⟩ := handle_error_given hr
        exact .thrown (by rw [htaken]) (.inr (.inl hthrows)) hgiven
      | ok t =>
        have ht := handle_handed hfull hr
        show Framed h w s f (.ok (t.setSplit [] false))
        exact .handed (by rw [htaken]) ht.connected ht.writes (by rw [htaken]; rfl) ht.given
  · rw [if_neg hfinish]
    have htaken := taken_whole s.client.splitBuf hsplit hfinish
    cases hr : s.handle h cb w f with
    | error e =>
      obtain ⟨hthrows, hgiven⟩ := handle_error_given hr
      exact .thrown (by rw [htaken]) (.inr (.inl hthrows)) hgiven
    | ok t =>
      have ht := handle_handed hs hr
      exact .handed (by rw [htaken]) ht.connected ht.writes (by rw [htaken]; exact ht.splitBuf) ht.given

/-! ## The calls of `handlePacket` -/

theorem serve_given (fs : List Packet) {s : Reader} (hs : s.client.connected = true) :
    packetsGiven (serve h cb w s fs) = packetsGiven (.ok s) ++ heard h w s.writes (packetsOf s.client.splitBuf fs) := by
  induction fs generalizing s with
  | nil => simp [serve, packetsOf, heard]
  | cons f fs ih =>
    have hframed : Framed h w s f (s.frame h cb w f) := frame_framed hs f
    rw [serve, if_pos hs, packetsOf_cons]
    cases hr : s.frame h cb w f with
    | error e =>
      rw [hr] at hframed
      obtain - | - | ⟨hp, hends, hgiven⟩ := hframed
      rw [hp, Option.toList_some, List.singleton_append, heard, if_pos hends]
      exact hgiven
    | ok t =>
      rw [hr] at hframed
      show packetsGiven (serve h cb w t fs) = _
      obtain ⟨hp, hconn, hwrites, hbuf, hgiven⟩ | ⟨hp, hconn, hwrites, hbuf, hgiven⟩ | - := hframed
      · rw [hp, Option.toList_none, List.nil_append, ih hconn, hwrites, hbuf, hgiven]
      · rename_i p
        rw [hp, Option.toList_some, List.singleton_append, heard]
        by_cases hends : Ends h w s.writes p
        · have hclosed : t.client.connected = false := by
            rw [Bool.eq_false_iff, Ne, hconn, not_not]
            exact hends
          rw [if_pos hends, serve_disconnected hclosed, hgiven]
        · rw [if_neg hends, ih (hconn.mpr hends), hwrites, hbuf, hgiven, List.append_assoc]
          rfl

theorem readLoop_given (h : Host) (cb : Callbacks) (w : Nat → Bool) (key input : Bytes) :
    packetsGiven (readLoop h cb w (.start key) input) = heard h w 0 (packetsOf [] (framesOf input)) := by
  rw [packetsGiven, turnsOf_readLoop]
  exact serve_given (framesOf input) (s := .start key) rfl

/-! ## Frames on the wire -/

/-- `4 + sz` bytes are enough for the frame. -/
def HasRoom (data : Bytes) : Prop := 4 + data.length % 2 ^ 32 < 2 ^ 32

/-- Packets sent one after the other. -/
def sent (ls : List Logical) : Bytes := ls.flatMap fun l => buildPacket l.packet.code l.packet.data

/-- `readLoop` reads the packets as they were sent, with any host, callbacks and writes. -/
structure InSync (ls : List Logical) : Prop where
  room : ∀ l ∈ ls, HasRoom l.packet.data
  decoded : packetsOf [] (framesOf (sent ls)) = ls.map (·.packet)
  /-- `handlePacket` gets them, up to the one that ends the connection. -/
  given : ∀ (h : Host) (cb : Callbacks) (w : Nat → Bool) (key : Bytes),
    packetsGiven (readLoop h cb w (.start key) (sent ls)) = heard h w 0 (ls.map (·.packet))

/-- What is read of a packet, and where the next frame begins. -/
theorem packetsOf_sent_cons (l : Logical) (ls : List Logical) :
    packetsOf [] (framesOf (sent (l :: ls))) =
      ⟨l.packet.code, l.packet.data.take (l.packet.data.length % 2 ^ 24)⟩ ::
        packetsOf [] (framesOf ((l.packet.data.take (l.packet.data.length % 2 ^ 32)).drop
          (l.packet.data.length % 2 ^ 24) ++ sent ls)) := by
  have hsent : sent (l :: ls) = buildPacket l.packet.code l.packet.data ++ sent ls := rfl
  rw [hsent, framesOf_some (firstFrame_buildPacket _ _ _), packetsOf, if_neg l.plain.1, if_neg l.plain.2.1]

theorem packetsOf_sent_fits {l : Logical} (h : l.packet.data.length < 2 ^ 24) (ls : List Logical) :
    packetsOf [] (framesOf (sent (l :: ls))) = l.packet :: packetsOf [] (framesOf (sent ls)) := by
  rw [packetsOf_sent_cons, Nat.mod_eq_of_lt h, Nat.mod_eq_of_lt (h.trans (by decide)), List.take_length, List.drop_length,
    List.nil_append]

theorem decoded_iff (ls : List Logical) :
    packetsOf [] (framesOf (sent ls)) = ls.map (·.packet) ↔ ∀ l ∈ ls, l.packet.data.length < 2 ^ 24 := by
  induction ls with
  | nil =>
    have hnil : framesOf (sent []) = [] := framesOf_none rfl
    rw [hnil]
    simp [packetsOf]
  | cons l ls ih =>
    rw [List.forall_mem_cons, List.map_cons]
    by_cases hlt : l.packet.data.length < 2 ^ 24
    · rw [packetsOf_sent_fits hlt, ← ih]
      exact ⟨fun h => ⟨hlt, (List.cons.inj h).2⟩, fun h => congrArg _ h.2⟩
    · -- The first packet read is shorter than the one that was sent.
      refine iff_of_false (fun heq => ?_) fun h => hlt h.1
      rw [packetsOf_sent_cons] at heq
      have hdata := congrArg (·.data.length) (List.cons.inj heq).1
      simp only [List.length_take] at hdata
      omega

/-- The stream stays in sync exactly if every size fits its field. -/
theorem inSync_iff (ls : List Logical) : InSync ls ↔ ∀ l ∈ ls, l.packet.data.length < 2 ^ 24 := by
  refine ⟨fun h => (decoded_iff ls).mp h.decoded, fun hfits => ?_⟩
  have hdecoded := (decoded_iff ls).mpr hfits
  refine ⟨fun l hl => ?_, hdecoded, fun h cb w key => ?_⟩
  · have hlt := hfits l hl
    rw [HasRoom]
    omega
  · rw [readLoop_given, hdecoded]

/-- A chat message of `n` letters. -/
def Sample.chat (n : Nat) : Logical where
  packet := ⟨Code.chat.byte, List.replicate n 97⟩
  plain := show Code.chat.byte ≠ Code.split.byte ∧ Code.chat.byte ≠ Code.splitFinish.byte ∧
    Code.chat.byte ≠ Code.authKick.byte by decide

theorem chat_cut : (packetsOf [] (framesOf (sent [Sample.chat (2 ^ 24)]))).head? = some ⟨Code.chat.byte, []⟩ ∧
    ¬ InSync [Sample.chat (2 ^ 24)] := by
  have hlength : (Sample.chat (2 ^ 24)).packet.data.length = 2 ^ 24 := List.length_replicate
  have hhead : (packetsOf [] (framesOf (sent [Sample.chat (2 ^ 24)]))).head? = some ⟨Code.chat.byte, []⟩ := by
    rw [packetsOf_sent_cons, List.head?_cons, hlength, Nat.mod_self, List.take_zero]
    rfl
  refine ⟨hhead, fun hsync => ?_⟩
  have hfirst : some (Sample.chat (2 ^ 24)).packet = some ⟨Code.chat.byte, []⟩ := by
    rw [← hhead, hsync.decoded]
    rfl
  have hdata := congrArg (·.data.length) (Option.some.inj hfirst)
  simp only [hlength] at hdata
  cases hdata

end NovaMP.BeamMP
