/-
  NovaMP.Server.Writes — the frames of a session on its socket.

  `TCPSession::send` calls `asio::async_write` for each packet and does not wait for the
  one before. An `async_write` is a sequence of partial writes, and asio keeps those of
  two such calls apart only if there is one at a time (`Lib.Outbox`). The frame is a local
  vector of `send`, so what is not written when `send` returns is read from memory that
  may hold anything. So the frames are whole on the wire as long as each partial write is
  of the oldest unfinished frame, and comes before the `send` of this frame returns.

  - `frames_whole`: in such a schedule the socket has the frames in the order of the
    calls.
  - `frames_interleaved`: two frames, four bytes of each at a time.
-/

import NovaMP.Lib.Outbox
import NovaMP.Client.Stream

namespace NovaMP.TCPSession

open Lib

/-- The packets `ps` were sent, and what asio chose to write fits `ok`. The buffer of a write
    is `framed`, and it is given up as `send` returns. -/
def Wire (ok : Outbox UInt8 → Nat → Prop) (ps : List Bytes) (o : Outbox UInt8) : Prop :=
  Outbox.Run ok (ps.map framed) o

/-- The socket has a beginning of the frames, and all of them once no write is left. -/
structure Whole (ps : List Bytes) (o : Outbox UInt8) : Prop where
  begins : o.written <+: (ps.map framed).flatten
  done : o.pending = [] → o.written = (ps.map framed).flatten

/-- A frame is never empty, so it can be sent in any state of the socket. -/
theorem Wire.send {ok : Outbox UInt8 → Nat → Prop} {ps : List Bytes} {o : Outbox UInt8} (hw : Wire ok ps o) (p : Bytes) :
    Wire ok (ps ++ [p]) (o.start (framed p)) := by
  have hne : framed p ≠ [] := by
    intro he
    have hlen := Framing.frame_length p
    rw [← framed_eq, he] at hlen
    simp at hlen
    omega
  rw [Wire, List.map_append]
  exact Outbox.Run.start hw hne

/-- Where each partial write is of the oldest unfinished frame and comes before its `send`
    returns, the frames are whole. -/
theorem frames_whole {ps : List Bytes} {o : Outbox UInt8} (hw : Wire Outbox.timely ps o) : Whole ps o :=
  ⟨hw.begins, hw.done⟩

/-! ## Two frames -/

namespace Pressed

def first : Bytes := Packet.build .vehicleDelete 1 0 [0] 1 0

def second : Bytes := Packet.build .vehicleDelete 2 0 [0] 1 0

/-- The first `send` is at its `async_write`. -/
def sending : Outbox UInt8 := Outbox.empty.start (framed first)

theorem wire_sending (ok : Outbox UInt8 → Nat → Prop) : Wire ok [first] sending :=
  (show Wire ok [] Outbox.empty from .init).send first

/-- The first frame goes out in two parts, the second in one, each inside its `send`. -/
def ordered : Outbox UInt8 :=
  (((sending.part 0 ⟨framed first, true⟩ ((framed first).take 4)).part 0 ⟨(framed first).drop 4, true⟩
    ((framed first).drop 4)).start (framed second)).part 0 ⟨framed second, true⟩ (framed second)

theorem wire_ordered : Wire Outbox.timely [first, second] ordered := by
  have htimely {o : Outbox UInt8} {left : Bytes} (h : o.pending = [⟨left, true⟩]) : Outbox.timely o 0 := by
    refine ⟨rfl, fun w hw => ?_⟩
    rw [h] at hw
    cases hw
    rfl
  have hfour : Wire Outbox.timely [first] (sending.part 0 ⟨framed first, true⟩ ((framed first).take 4)) :=
    .part (wire_sending _) rfl (by decide) (by decide) (fun _ => by decide) (htimely rfl)
  have hfirst : Wire Outbox.timely [first] (Outbox.part _ 0 ⟨(framed first).drop 4, true⟩ ((framed first).drop 4)) :=
    .part hfour rfl (by decide) (by decide) (fun _ => by decide) (htimely rfl)
  exact .part (Wire.send hfirst second) rfl (by decide) (by decide) (fun _ => by decide) (htimely rfl)

/-- The first `send` returns after four bytes; then the second writes four. -/
def mixed : Outbox UInt8 :=
  (((sending.part 0 ⟨framed first, true⟩ ((framed first).take 4)).free 0 ⟨(framed first).drop 4, true⟩).start
    (framed second)).part 1 ⟨framed second, true⟩ ((framed second).take 4)

theorem wire_mixed : Wire Outbox.any [first, second] mixed := by
  have hfour : Wire Outbox.any [first] (sending.part 0 ⟨framed first, true⟩ ((framed first).take 4)) :=
    .part (wire_sending _) rfl (by decide) (by decide) (fun _ => by decide) trivial
  have hfreed : Wire Outbox.any [first] (Outbox.free _ 0 ⟨(framed first).drop 4, true⟩) := .free hfour rfl
  exact .part (hfreed.send second) rfl (by decide) (by decide) (fun _ => by decide) trivial

end Pressed

theorem frames_whole_ordered : Wire Outbox.timely [Pressed.first, Pressed.second] Pressed.ordered ∧
    Whole [Pressed.first, Pressed.second] Pressed.ordered ∧
    Pressed.ordered.written = framed Pressed.first ++ framed Pressed.second := by
  have hwhole := frames_whole Pressed.wire_ordered
  exact ⟨Pressed.wire_ordered, hwhole, by simpa using hwhole.done (by decide)⟩

theorem frames_interleaved : ¬ ∀ (ps : List Bytes) (o : Outbox UInt8), Wire Outbox.any ps o → Whole ps o := by
  intro hall
  have hbegins := (hall _ _ Pressed.wire_mixed).begins
  have hmixed : Pressed.mixed.written = [11, 0, 0, 0, 11, 0, 0, 0] := by decide
  have hframes : ([Pressed.first, Pressed.second].map framed).flatten =
      [11, 0, 0, 0, 7, 1, 0, 0, 0, 0, 0, 1, 0, 0, 0, 11, 0, 0, 0, 7, 2, 0, 0, 0, 0, 0, 1, 0, 0, 0] := by decide
  rw [hmixed, hframes] at hbegins
  simp at hbegins

end NovaMP.TCPSession
