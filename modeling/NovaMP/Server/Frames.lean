/-
  NovaMP.Server.Frames — the byte stream of a TCP connection, and what its frames do.

  `TCPSession::readLen` takes four bytes and closes the session when they say 0 or more
  than 4 MiB; `readPayload` takes that many bytes, hands them to `onTCPPacket` and goes
  back to `readLen`. `Packet::parseHeader` throws on fewer than 10 bytes, and nothing
  between it and the io thread catches that. Neither check knows the other.

  - `handed_isFrame`: what a stream hands over is what `exec` takes as a frame.
  - `framing_safe_iff`: a stream is harmless (`FramingSafe`) exactly when each of its
    frames holds a header.
  - `one_byte_frame_throws`: the five bytes that end the process.
-/

import NovaMP.Lib.Framing
import NovaMP.Server.Reads

namespace NovaMP

open Lib Exec

namespace TCPSession

/-- What a session waits for: the length (`readLen`), or a body (`readPayload`). -/
abbrev Reader := Framing.Reader GameServer.maxFrame

/-- The reader after the chunks of a stream, and the payloads handed to `m_recv_cb`. -/
def receive (chunks : List Bytes) : Reader × List Bytes := Framing.feedAll Framing.start chunks

/-- What the stream says: its frames before the first length that closes the session,
    and whether there is such a length. -/
def frames (chunks : List Bytes) : List Bytes × Bool := Framing.parse GameServer.maxFrame chunks.flatten

theorem receive_frames (chunks : List Bytes) : (receive chunks).2 = (frames chunks).1 := by
  rw [receive, frames, Framing.feed_chunks]
  exact (Framing.feed_start _).1

theorem receive_closed_iff (chunks : List Bytes) : (receive chunks).1 = .closed ↔ (frames chunks).2 = true := by
  rw [receive, frames, Framing.feed_chunks]
  exact (Framing.feed_start _).2

/-- The calls a stream on the session object `object` makes, in order. -/
def calls (object : Nat) (chunks : List Bytes) : List GameServer.Call :=
  (receive chunks).2.map (.frame object) ++
    match (receive chunks).1 with
    | .closed => [.close object]
    | _ => []

end TCPSession

namespace GameServer

open TCPSession

variable (w : World) (x : Env) (s : Server)

/-- A frame that an open session hands over passes the guard of `exec`. -/
theorem handed_isFrame {chunks : List Bytes} {data : Bytes} (h : data ∈ (receive chunks).2) {t : TCPSession}
    (ht : t.isOpen = true) : isFrame t data := by
  rw [receive_frames] at h
  exact ⟨ht, Framing.parse_bounds h⟩

/-! ## What a closing session leaves alone -/

structure OthersKept (s s' : Server) (object : Nat) (t : TCPSession) : Prop where
  objects : ∀ i, i ≠ object → s'.tcp.objects[i]? = s.tcp.objects[i]?
  sessions : ∀ sid, sid ≠ t.id → s'.tcp.sessions.lookup sid = s.tcp.sessions.lookup sid
  mapped : ∀ sid, sid ≠ t.id → s'.sessionToPlayer.lookup sid = s.sessionToPlayer.lookup sid
  players : ∀ pid, s.sessionToPlayer.lookup t.id ≠ some pid → s'.players.lookup pid = s.players.lookup pid

theorem announceLeave_players (pid : UInt16) : (announceLeave w x s pid).players = s.players := by
  unfold announceLeave
  dsimp only
  split <;> rfl

theorem removePlayer_players {pid pid' : UInt16} (h : pid' ≠ pid) :
    (removePlayer s pid).players.lookup pid' = s.players.lookup pid' := by
  unfold removePlayer
  split
  · exact AList.lookup_erase_ne h
  · rfl

theorem disconnected_players {sid pid : UInt16} (h : s.sessionToPlayer.lookup sid ≠ some pid) :
    (disconnected w x s sid).players.lookup pid = s.players.lookup pid := by
  cases hl : s.sessionToPlayer.lookup sid with
  | none => rw [disconnected_none hl]
  | some pid' =>
    by_cases hp : pid' = 0xFFFF
    · subst hp
      rw [disconnected_sentinel hl]
    · have hne : pid ≠ pid' := fun e => h (e ▸ hl)
      rw [disconnected_some hl hp, announceLeave_players, removePlayer_players _ hne]

theorem closed_othersKept {object : Nat} {t : TCPSession} (ht : s.tcp.objects[object]? = some t) :
    OthersKept s (closed w x s object) object t := by
  rw [closed_some w x s ht]
  refine ⟨?_, ?_, ?_, ?_⟩
  · intro i hi
    rw [disconnected_tcp]
    exact List.getElem?_modify_ne _ _ (Ne.symm hi)
  · intro sid hsid
    rw [disconnected_tcp]
    exact AList.lookup_erase_ne hsid
  · intro sid hsid
    rw [disconnected_sessionToPlayer]
    exact AList.lookup_erase_ne hsid
  · intro pid hpid
    exact disconnected_players w x _ hpid

/-! ## Streams -/

/-- `parseHeader` is the only one to find a packet too short. -/
theorem onTCPPacket_too_short_iff (sid : UInt16) (data : Bytes) :
    (onTCPPacket w x sid data [] s).1 = .error (.fault (.runtimeError "Packet too short")) ↔ data.length < 10 := by
  rw [onTCPPacket_eq]
  by_cases hd : data.length < 10
  · rw [Packet.parseHeader_of_lt hd]
    exact iff_of_true rfl hd
  · rw [Packet.parseHeader_of_le (by omega)]
    refine iff_of_false (fun h => ?_) hd
    rcases dispatch_fault h with he | ⟨id, he⟩ <;> cases he

/-- A stream ends no io thread, and at most its own session. -/
structure FramingSafe (chunks : List Bytes) : Prop where
  /-- The precondition of `parseHeader`. -/
  header : ∀ data ∈ (receive chunks).2, Packet.headerSize ≤ data.length
  no_throw : ∀ data ∈ (receive chunks).2, ∀ w x s sid,
    (onTCPPacket w x sid data [] s).1 ≠ .error (.fault (.runtimeError "Packet too short"))
  /-- A frame too short for a header closes the session, as the lengths 0 and above 4 MiB do. -/
  closes : (∃ data ∈ (frames chunks).1, data.length < Packet.headerSize) ∨ (frames chunks).2 = true →
    ∀ object, .close object ∈ calls object chunks
  others : ∀ w x s object t, s.tcp.objects[object]? = some t → .close object ∈ calls object chunks →
    (exec w x (.close object) [] s).1 = .ok () ∧ OthersKept s (exec w x (.close object) [] s).2 object t

theorem close_mem_calls (object : Nat) (chunks : List Bytes) :
    .close object ∈ calls object chunks ↔ (frames chunks).2 = true := by
  rw [← receive_closed_iff, calls]
  cases (receive chunks).1 with
  | length buf _ => simp
  | body n buf _ _ => simp
  | closed => simp

/-- A stream, however it is cut, is harmless exactly when each of its frames holds a
    packet header. -/
theorem framing_safe_iff (chunks : List Bytes) :
    FramingSafe chunks ↔ ∀ data ∈ (frames chunks).1, 10 ≤ data.length := by
  constructor
  · intro h data hd
    exact h.header data (receive_frames chunks ▸ hd)
  · intro h
    refine ⟨?_, ?_, ?_, ?_⟩
    · intro data hd
      exact h data (receive_frames chunks ▸ hd)
    · intro data hd w x s sid ht
      have hle := h data (receive_frames chunks ▸ hd)
      have hlt := (onTCPPacket_too_short_iff w x s sid data).mp ht
      omega
    · intro hbad object
      rw [close_mem_calls]
      rcases hbad with ⟨data, hd, hlt⟩ | hbad
      · have hle := h data hd
        rw [Packet.headerSize_eq] at hlt
        omega
      · exact hbad
    · intro w x s object t ht _
      rw [exec_eq]
      exact ⟨rfl, closed_othersKept w x s ht⟩

/-- A frame of one byte. -/
def shortFrame : List Bytes := [[1, 0, 0, 0, 0]]

theorem one_byte_frame_throws : ¬ ∀ chunks, FramingSafe chunks := by
  intro h
  have hthrow := (onTCPPacket_too_short_iff Sample.world Env.quiet Sample.connected 1 [0]).mpr (by decide)
  exact (h shortFrame).no_throw [0] (by decide) Sample.world Env.quiet Sample.connected 1 hthrow

end GameServer

end NovaMP
