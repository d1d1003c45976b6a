/-
  NovaMP.Client.Reassembly — split packets of the BeamMP protocol
  (`BeamMPClient::readLoop` in `client/src/compat/beammp_client.cpp`).

  The server sends a packet as one frame, or cuts its code byte and data into `S` frames
  and an `F` frame, with whole packets in between (`Item`). `readLoop` hands every packet
  to `handlePacket` once, at its last frame. But a `CODE_SERVER_INFO` packet may throw:
  `json::parse` is called in a `try` block and `value` after it, and nothing in `readLoop`
  catches what `value` throws on JSON of another shape.

  - `Outcome`: a list of frames is served with these calls, or one of them throws.
  - `reassembled_iff`: every packet is handed over, in order, and nothing is left in
    `m_split_buf`, exactly if no packet throws (`Throws`).
  - `ping_lost`: after the server info `5` nothing more is handled.
-/

import NovaMP.Client.BeamMP

namespace NovaMP.BeamMP

open Lib

/-! ## What the server sends -/

/-- A packet that is no part of a split one and does not end the connection. -/
structure Logical where
  packet : Packet
  plain : packet.code ≠ Code.split.byte ∧ packet.code ≠ Code.splitFinish.byte ∧ packet.code ≠ Code.authKick.byte

/-- A packet in `S` frames, each with the whole packets that come after it, and an `F`
    frame. -/
structure SplitPacket where
  logical : Logical
  chunks : List (Bytes × List Logical)
  last : Bytes
  cut : (chunks.map (·.1)).flatten ++ last = logical.packet.code :: logical.packet.data

inductive Item where
  | whole (l : Logical)
  | split (s : SplitPacket)

def chunkFrames (c : Bytes × List Logical) : List Packet := ⟨Code.split.byte, c.1⟩ :: c.2.map (·.packet)

def Item.frames : Item → List Packet
  | whole l => [l.packet]
  | split s => s.chunks.flatMap chunkFrames ++ [⟨Code.splitFinish.byte, s.last⟩]

/-- The packets of an item in the order of their last frames. -/
def Item.packets : Item → List Packet
  | whole l => [l.packet]
  | split s => (s.chunks.flatMap fun c => c.2.map (·.packet)) ++ [s.logical.packet]

def stream (items : List Item) : Bytes :=
  (items.flatMap Item.frames).flatMap fun f => buildPacket f.code f.data

variable {h : Host} {cb : Callbacks}

/-! ## One packet -/

/-- The reader goes on after these calls, with `buf` in `m_split_buf`. -/
structure After (s t : Reader) (buf : Bytes) (calls : List Packet) : Prop where
  connected : t.client.connected = true
  splitBuf : t.client.splitBuf = buf
  turns : t.turns.map (·.packet) = s.turns.map (·.packet) ++ calls

/-- These calls were made and none throws, or one does. -/
def Outcome (h : Host) (s : Reader) (buf : Bytes) (calls : List Packet) : Except Thrown Reader → Prop
  | .ok t => (∀ p ∈ calls, ¬ Throws h p) ∧ After s t buf calls
  | .error _ => ∃ p ∈ calls, Throws h p

theorem Outcome.nil (s : Reader) (hs : s.client.connected = true) : Outcome h s s.client.splitBuf [] (.ok s) :=
  ⟨by simp, hs, rfl, by simp⟩

theorem Outcome.bind {s : Reader} {buf buf' : Bytes} {calls calls' : List Packet} {r : Except Thrown Reader}
    {f : Reader → Except Thrown Reader} (hr : Outcome h s buf calls r)
    (hf : ∀ t, t.client.connected = true → t.client.splitBuf = buf → Outcome h t buf' calls' (f t)) :
    Outcome h s buf' (calls ++ calls') (r >>= f) := by
  cases r with
  | error e =>
    obtain ⟨p, hp, ht⟩ := hr
    exact ⟨p, List.mem_append_left _ hp, ht⟩
  | ok t =>
    obtain ⟨hfine, hconn, hbuf, hturns⟩ := hr
    have hnext := hf t hconn hbuf
    show Outcome h s buf' (calls ++ calls') (f t)
    cases hft : f t with
    | error e =>
      rw [hft] at hnext
      obtain ⟨p, hp, ht⟩ := hnext
      exact ⟨p, List.mem_append_right _ hp, ht⟩
    | ok u =>
      rw [hft] at hnext
      obtain ⟨hfine', hconn', hbuf', hturns'⟩ := hnext
      refine ⟨fun p hp => ?_, hconn', hbuf', ?_⟩
      · exact (List.mem_append.mp hp).elim (hfine p) (hfine' p)
      · rw [hturns', hturns, List.append_assoc]

theorem Outcome.of_turns {s s' : Reader} {buf : Bytes} {calls : List Packet} {r : Except Thrown Reader}
    (hs : s'.turns = s.turns) (hr : Outcome h s' buf calls r) : Outcome h s buf calls r := by
  cases r with
  | error e => exact hr
  | ok t => exact ⟨hr.1, hr.2.connected, hr.2.splitBuf, hs ▸ hr.2.turns⟩

theorem perform_keeps (d : Doing) {a : Action} (ha : a ≠ .disconnected) :
    (perform noError d a).client.connected = d.client.connected ∧
      (perform noError d a).client.splitBuf = d.client.splitBuf := by
  cases a with
  | setMapName _ | setPlayerId _ | call _ => exact ⟨rfl, rfl⟩
  | disconnected => exact absurd rfl ha
  | send code data =>
    rw [perform]
    split
    · rename_i hc
      exact ⟨hc.symm, rfl⟩
    · exact ⟨rfl, rfl⟩

theorem foldl_perform_keeps {as : List Action} (has : .disconnected ∉ as) (d : Doing) :
    (as.foldl (perform noError) d).client.connected = d.client.connected ∧
      (as.foldl (perform noError) d).client.splitBuf = d.client.splitBuf := by
  induction as generalizing d with
  | nil => exact ⟨rfl, rfl⟩
  | cons a as ih =>
    obtain ⟨hne, hrest⟩ := not_or.mp (fun hm => has (List.mem_cons.mpr hm))
    obtain ⟨hc, hb⟩ := ih hrest (perform noError d a)
    obtain ⟨hc', hb'⟩ := perform_keeps d (Ne.symm hne)
    exact ⟨hc.trans hc', hb.trans hb'⟩

/-- Only a kick clears `m_connected`. -/
theorem kick_of_disconnected {key : Bytes} {p : Packet} {as : List Action} (hp : Handles cb key p as)
    (ha : .disconnected ∈ as) : p.code = Code.authKick.byte := by
  cases hp with
  | kick hcode => exact hcode
  | map _ | reply _ _ | swallowed _ _ _ | ignore _ _ => simp at ha
  | accepted _ _ _ =>
    rcases List.mem_append.mp ha with ha | ha
    · simp at ha
    · cases mem_callIf ha
  | rejected _ _ => cases mem_callIf ha
  | tell _ _ _ => cases mem_callIf ha

theorem handle_outcome {s : Reader} (hs : s.client.connected = true) {p : Packet} (hp : p.code ≠ Code.authKick.byte) :
    Outcome h s s.client.splitBuf [p] (s.handle h cb noError p) := by
  rw [Reader.handle]
  cases hr : handlePacket h cb s.client.privateKey p with
  | error f =>
    have hnot : ¬ ∃ as, handlePacket h cb s.client.privateKey p = .ok as := by
      rw [hr]
      rintro ⟨as, has⟩
      cases has
    rw [handlePacket_ok_iff, not_not] at hnot
    exact ⟨p, List.mem_singleton_self p, hnot⟩
  | ok as =>
    have has : .disconnected ∉ as := fun ha => hp (kick_of_disconnected (handles hr) ha)
    obtain ⟨hc, hb⟩ := foldl_perform_keeps has ⟨s.client, s.writes, []⟩
    refine ⟨?_, hc.trans hs, hb, by simp⟩
    intro p' hp'
    rw [List.mem_singleton.mp hp']
    exact handlePacket_ok_iff.mp ⟨as, hr⟩

/-! ## Lists of frames -/

theorem serve_append (s : Reader) (fs gs : List Packet) :
    serve h cb noError s (fs ++ gs) = serve h cb noError s fs >>= fun t => serve h cb noError t gs := by
  induction fs generalizing s with
  | nil => rfl
  | cons f fs ih =>
    cases hc : s.client.connected with
    | false =>
      rw [serve_disconnected hc, serve_disconnected hc]
      exact (serve_disconnected hc gs).symm
    | true =>
      rw [List.cons_append, serve, serve, if_pos hc, if_pos hc]
      cases s.frame h cb noError f with
      | error e => rfl
      | ok t => exact ih t

theorem serve_one {s : Reader} (hs : s.client.connected = true) (f : Packet) :
    serve h cb noError s [f] = s.frame h cb noError f := by
  rw [serve, if_pos hs]
  cases s.frame h cb noError f <;> rfl

/-- A whole packet, also between the frames of a split one. -/
theorem whole_outcome {s : Reader} (hs : s.client.connected = true) (l : Logical) :
    Outcome h s s.client.splitBuf [l.packet] (serve h cb noError s [l.packet]) := by
  rw [serve_one hs, Reader.frame, if_neg l.plain.1, if_neg l.plain.2.1]
  exact handle_outcome hs l.plain.2.2

theorem wholes_outcome {s : Reader} (hs : s.client.connected = true) (ls : List Logical) :
    Outcome h s s.client.splitBuf (ls.map (·.packet)) (serve h cb noError s (ls.map (·.packet))) := by
  induction ls generalizing s with
  | nil => exact .nil s hs
  | cons l ls ih =>
    have hsplit : (l :: ls).map (·.packet) = [l.packet] ++ ls.map (·.packet) := rfl
    rw [hsplit, serve_append]
    exact (whole_outcome hs l).bind fun t ht hb => hb ▸ ih ht

/-- An `S` frame adds to the buffer, and the whole packets after it leave it alone. -/
theorem chunk_outcome {s : Reader} (hs : s.client.connected = true) (c : Bytes × List Logical) :
    Outcome h s (s.client.splitBuf ++ c.1) (c.2.map (·.packet)) (serve h cb noError s (chunkFrames c)) := by
  have hadd : Outcome h s (s.client.splitBuf ++ c.1) [] (serve h cb noError s [⟨Code.split.byte, c.1⟩]) := by
    rw [serve_one hs, Reader.frame, if_pos rfl]
    exact ⟨by simp, hs, rfl, by simp [Reader.setSplit]⟩
  have hsplit : chunkFrames c = [⟨Code.split.byte, c.1⟩] ++ c.2.map (·.packet) := rfl
  rw [hsplit, serve_append, ← List.nil_append (c.2.map (·.packet))]
  exact hadd.bind fun t ht hb => hb ▸ wholes_outcome ht c.2

theorem chunks_outcome {s : Reader} (hs : s.client.connected = true) (cs : List (Bytes × List Logical)) :
    Outcome h s (s.client.splitBuf ++ (cs.map (·.1)).flatten) (cs.flatMap fun c => c.2.map (·.packet))
      (serve h cb noError s (cs.flatMap chunkFrames)) := by
  induction cs generalizing s with
  | nil =>
    rw [List.map_nil, List.flatten_nil, List.append_nil]
    exact .nil s hs
  | cons c cs ih =>
    rw [List.flatMap_cons, List.flatMap_cons, List.map_cons, List.flatten_cons, ← List.append_assoc, serve_append]
    exact (chunk_outcome hs c).bind fun t ht hb => hb ▸ ih ht

/-- The `F` frame hands the buffer over and empties it. -/
theorem finish_outcome {s : Reader} (hs : s.client.connected = true) {l : Logical} {last : Bytes}
    (hcut : s.client.splitBuf ++ last = l.packet.code :: l.packet.data) :
    Outcome h s [] [l.packet] (serve h cb noError s [⟨Code.splitFinish.byte, last⟩]) := by
  have hne : Code.splitFinish.byte ≠ Code.split.byte := by decide
  rw [serve_one hs, Reader.frame, if_neg hne, if_pos rfl]
  dsimp only
  rw [hcut]
  have hfull : (s.setSplit (l.packet.code :: l.packet.data) s.client.inSplit).client.connected = true := hs
  have hhandle : Outcome h _ _ [l.packet] (Reader.handle h cb noError _ l.packet) := handle_outcome hfull l.plain.2.2
  have hclear : Outcome h _ [] ([l.packet] ++ []) (_ >>= fun t : Reader => .ok (t.setSplit [] false)) :=
    hhandle.bind fun t ht _ => ⟨by simp, ht, rfl, by simp [Reader.setSplit]⟩
  have hturns : (s.setSplit (l.packet.code :: l.packet.data) s.client.inSplit).turns = s.turns := rfl
  exact Outcome.of_turns hturns hclear

theorem item_outcome {s : Reader} (hs : s.client.connected = true) (hbuf : s.client.splitBuf = []) (i : Item) :
    Outcome h s [] i.packets (serve h cb noError s i.frames) := by
  cases i with
  | whole l => exact hbuf ▸ whole_outcome hs l
  | split p =>
    have hchunks : Outcome h s _ _ (serve h cb noError s (p.chunks.flatMap chunkFrames)) := chunks_outcome hs p.chunks
    rw [hbuf, List.nil_append] at hchunks
    rw [Item.frames, serve_append]
    exact hchunks.bind fun t ht hb => finish_outcome ht (hb ▸ p.cut)

theorem items_outcome {s : Reader} (hs : s.client.connected = true) (hbuf : s.client.splitBuf = []) (items : List Item) :
    Outcome h s [] (items.flatMap Item.packets) (serve h cb noError s (items.flatMap Item.frames)) := by
  induction items generalizing s with
  | nil => exact hbuf ▸ .nil s hs
  | cons i items ih =>
    rw [List.flatMap_cons, List.flatMap_cons, serve_append]
    exact (item_outcome hs hbuf i).bind fun t ht hb => ih ht hb

/-! ## The whole stream -/

/-- `readLoop` comes to its end with exactly these calls and an empty `m_split_buf`. -/
def Reassembled (calls : List Packet) (r : Except Thrown Reader) : Prop :=
  ∃ t, r = .ok t ∧ t.turns.map (·.packet) = calls ∧ t.client.splitBuf = []

theorem reassembled_iff (h : Host) (cb : Callbacks) (key : Bytes) (items : List Item)
    (hsize : ∀ f ∈ items.flatMap Item.frames, f.data.length < 2 ^ 24) :
    Reassembled (items.flatMap Item.packets) (readLoop h cb noError (.start key) (stream items)) ↔
      ∀ p ∈ items.flatMap Item.packets, ¬ Throws h p := by
  have hall : Outcome h (.start key) [] _ (serve h cb noError (.start key) (items.flatMap Item.frames)) :=
    items_outcome rfl rfl items
  rw [readLoop_eq, stream, framesOf_build hsize]
  cases hr : serve h cb noError (.start key) (items.flatMap Item.frames) with
  | error e =>
    rw [hr] at hall
    obtain ⟨p, hp, ht⟩ := hall
    refine iff_of_false ?_ fun hno => hno p hp ht
    rintro ⟨t, hok, -⟩
    cases hok
  | ok t =>
    rw [hr] at hall
    obtain ⟨hfine, -, hbuf, hturns⟩ := hall
    exact iff_of_true ⟨t.close cb, rfl, hturns, hbuf⟩ hfine

/-! ## A split packet, and a server info -/

namespace Sample

def ping : Logical := ⟨⟨Code.ping.byte, []⟩, by decide⟩

def map : Logical := ⟨⟨Code.map.byte, [103, 114, 105, 100]⟩, by decide⟩

def info : Logical := ⟨⟨Code.serverInfo.byte, [53]⟩, by decide⟩

/-- The map in two `S` frames, the first one empty and with a ping after it, and an `F`
    frame. -/
def cutMap : SplitPacket := ⟨map, [([], [ping]), ([77, 103], [])], [114, 105, 100], by decide⟩

end Sample

theorem reassembled_map : Reassembled [Sample.ping.packet, Sample.map.packet, Sample.ping.packet]
    (readLoop Sample.host Sample.callbacks noError (.start [1]) (stream [.split Sample.cutMap, .whole Sample.ping])) := by
  have hsize : ∀ f ∈ [Item.split Sample.cutMap, .whole Sample.ping].flatMap Item.frames, f.data.length < 2 ^ 24 := by
    decide
  refine (reassembled_iff Sample.host Sample.callbacks [1] [.split Sample.cutMap, .whole Sample.ping] hsize).mpr ?_
  rintro p hp ⟨hcode, -⟩
  have hnone : ∀ p ∈ [Item.split Sample.cutMap, .whole Sample.ping].flatMap Item.packets,
      p.code ≠ Code.serverInfo.byte := by decide
  exact hnone p hp hcode

/-- The ping after the server info is not handled. -/
theorem ping_lost : ¬ ∀ (h : Host) (cb : Callbacks) (key : Bytes) (items : List Item),
    (∀ f ∈ items.flatMap Item.frames, f.data.length < 2 ^ 24) →
      Reassembled (items.flatMap Item.packets) (readLoop h cb noError (.start key) (stream items)) := by
  intro hall
  have hre := hall Sample.host Sample.callbacks [1] [.whole Sample.info, .whole Sample.ping] (by decide)
  have hthrown : serve Sample.host Sample.callbacks noError (.start [1]) [Sample.info.packet, Sample.ping.packet] =
      .error (.typeError 306, { Reader.start [1] with turns := [⟨Sample.info.packet, []⟩] }) := rfl
  have hframes : framesOf (stream [.whole Sample.info, .whole Sample.ping]) = [Sample.info.packet, Sample.ping.packet] :=
    framesOf_build (by decide)
  obtain ⟨t, hok, -⟩ := hre
  rw [readLoop_eq, hframes, hthrown] at hok
  cases hok

end NovaMP.BeamMP
