/-
  NovaMP.Server.Rcon — a connection to the remote console
  (`RconServer::accept` in `servers/src/console/rcon.cpp`, `Console::dispatch` in
  `servers/src/console/console.cpp`).

  The first line has to be the password; every later one is given to the console. Both
  reads are `async_read_until` on one buffer, so what comes with a line is the beginning
  of the next. `stop`, `quit` and `exit` stop the server, and with it the loop that would
  run the handler of the next read. Where another `stop` has cleared `m_running` already,
  `GameServer::stop` returns at once and the session goes on.

  - `foldl_commands`: after the password each line is given to the console, until the
    session ends.
  - `rcon_gate`: so the console gets the lines up to the first that stops the server, if
    the session does not end otherwise, and never others.
  - `rest_after_stop`: what follows a `stop`.
-/

import Mathlib.Data.List.DropRight
import NovaMP.Lib.Lines
import NovaMP.Network.Values

namespace NovaMP

open Lib Lib.Lines

/-! ## The console -/

namespace Console

/-- What `ss >> cmd` reads from a line. -/
def word (line : Bytes) : Bytes := (line.dropWhile isSpace).takeWhile fun b => !isSpace b

/-- The result; it is `false` after a call of `m_server.stop()`. What the other commands do
    to the game is not looked at here. -/
def dispatch (line : Bytes) : Bool :=
  if line = [] then true
  else
    let cmd := word line
    if cmd = utf8 "stop" || cmd = utf8 "quit" || cmd = utf8 "exit" then false else true

end Console

/-! ## A session -/

namespace RconServer

/-- Which read the connection is in. In `over` no handler runs any more. -/
inductive Phase where
  | password
  | commands
  | over
deriving DecidableEq

/-- The lines `dispatch` has been called on and the texts written to the socket, oldest
    first. -/
structure Session where
  phase : Phase
  dispatched : List Bytes
  written : List Bytes

def Session.start : Session := ⟨.password, [], []⟩

/-- What the session meets: whether its writes go out, whether its calls of `dispatch`
    return, whether `m_running` is set at these calls, and whether `m_ioc` still runs after
    a write, as far as others stop it. -/
structure Host where
  writes : Nat → Bool
  returns : Nat → Bool
  set : Nat → Bool
  running : Nat → Bool

/-- The loop at the end of both handlers that takes the line end off. -/
def trimmed (line : Bytes) : Bytes := line.rdropWhile fun b => b = 10 || b = 13

variable (h : Host)

/-- `asio::write`, which throws out of the handler if it fails, and what comes next. -/
def write (c : Session) (text : Bytes) (next : Phase) : Session :=
  let k := c.written.length
  if h.writes k then { c with written := c.written ++ [text], phase := if h.running k then next else .over }
  else { c with phase := .over }

/-- The handler of the first read. -/
def onPassword (password : Bytes) (c : Session) (line : Bytes) : Session :=
  let pass := trimmed line
  if pass ≠ password then write h c (utf8 "ERR: Bad password\n") .over
  else write h c (utf8 "OK\n") .commands

/-- `m_server.stop()` is called with `m_running` set: it stops `m_ioc`. -/
def stops (k : Nat) (cmd : Bytes) : Bool := !Console.dispatch cmd && h.set k

/-- The handler of a read of `readCmd`. -/
def onCommand (c : Session) (line : Bytes) : Session :=
  let cmd := trimmed line
  let k := c.dispatched.length
  let c := { c with dispatched := c.dispatched ++ [cmd] }
  if h.returns k then write h c (utf8 "OK\n") (if stops h k cmd then .over else .commands)
  else { c with phase := .over }

/-- The two `async_read_until` with their buffer. -/
def reader (password : Bytes) : Reader UInt8 Session where
  delim := 10
  live c := c.phase ≠ .over
  handle c line :=
    match c.phase with
    | .password => onPassword h password c line
    | .commands => onCommand h c line
    | .over => c

/-- The session and its buffer after some reads of the socket. -/
def receive (password : Bytes) (chunks : List Bytes) : Session × Bytes :=
  (reader h password).feedAll .start chunks

/-! ## What the stream says -/

/-- The complete lines of a stream, without their line ends. -/
def linesOf (stream : Bytes) : List Bytes := (split 10 stream).1.map trimmed

/-- The lines after the first, if that is the password. -/
def admitted (password : Bytes) : List Bytes → List Bytes
  | [] => []
  | pass :: cmds => if pass = password then cmds else []

def commands (password stream : Bytes) : List Bytes := admitted password (linesOf stream)

/-- The lines, of which the first is the `k`-th call of `dispatch`, up to and including the
    one that stops the server. -/
def untilStop : Nat → List Bytes → List Bytes
  | _, [] => []
  | k, cmd :: cmds => if stops h k cmd then [cmd] else cmd :: untilStop (k + 1) cmds

/-- The session ends by its stream only. -/
structure Host.Good (h : Host) : Prop where
  writes : ∀ k, h.writes k = true
  returns : ∀ k, h.returns k = true
  running : ∀ k, h.running k = true

/-! ## Sessions -/

variable {h} {password : Bytes} {c : Session}

theorem trimmed_concat (line : Bytes) : trimmed (line ++ [10]) = trimmed line := by
  rw [trimmed, List.rdropWhile_concat_pos _ _ _ (by decide)]
  rfl

theorem not_live (hover : c.phase = .over) : (reader h password).live c = false :=
  decide_eq_false (not_not.mpr hover)

@[simp] theorem write_dispatched (text : Bytes) (next : Phase) : (write h c text next).dispatched = c.dispatched := by
  unfold write
  dsimp only
  split <;> rfl

/-- A write leads where it should, or the session is over. -/
theorem write_phase (text : Bytes) (next : Phase) :
    (write h c text next).phase = next ∨ ((write h c text next).phase = .over ∧ ¬ h.Good) := by
  unfold write
  dsimp only
  split
  · split
    · exact .inl rfl
    · rename_i hrun
      exact .inr ⟨rfl, fun hgood => hrun (hgood.running _)⟩
  · rename_i hwrite
    exact .inr ⟨rfl, fun hgood => hwrite (hgood.writes _)⟩

variable (h password) in
/-- A line in the phase `commands` is given to the console. The session goes on, or it is
    over: the line stops the server, or the end has another reason. -/
theorem take_commands (hc : c.phase = .commands) (line : Bytes) :
    ((reader h password).take c line).dispatched = c.dispatched ++ [trimmed line] ∧
      ((((reader h password).take c line).phase = .commands ∧ stops h c.dispatched.length (trimmed line) = false) ∨
        (((reader h password).take c line).phase = .over ∧
          (h.Good → stops h c.dispatched.length (trimmed line) = true))) := by
  have htake : (reader h password).take c line = onCommand h c (line ++ [10]) := by
    simp [Reader.take, reader, hc]
  rw [htake, onCommand, trimmed_concat]
  dsimp only
  split
  · refine ⟨write_dispatched _ _, ?_⟩
    cases hd : stops h c.dispatched.length (trimmed line) with
    | false =>
      rcases write_phase (utf8 "OK\n") .commands with hnext | ⟨hover, hbad⟩
      · exact .inl ⟨hnext, rfl⟩
      · exact .inr ⟨hover, fun hgood => absurd hgood hbad⟩
    | true =>
      rcases write_phase (utf8 "OK\n") .over with hnext | ⟨hover, -⟩
      · exact .inr ⟨hnext, fun _ => rfl⟩
      · exact .inr ⟨hover, fun _ => rfl⟩
  · rename_i hreturn
    exact ⟨rfl, .inr ⟨rfl, fun hgood => absurd (hgood.returns _) hreturn⟩⟩

/-- The lines of the phase `commands`, up to where the session ends. -/
theorem foldl_commands (hc : c.phase = .commands) (lines : List Bytes) :
    ∃ cmds, (lines.foldl (reader h password).take c).dispatched = c.dispatched ++ cmds ∧
      cmds <+: untilStop h c.dispatched.length (lines.map trimmed) ∧
      (h.Good → cmds = untilStop h c.dispatched.length (lines.map trimmed)) := by
  induction lines generalizing c with
  | nil => exact ⟨[], (List.append_nil _).symm, List.prefix_refl _, fun _ => rfl⟩
  | cons line lines ih =>
    obtain ⟨hsaid, hnext⟩ := take_commands h password hc line
    rw [List.foldl_cons, List.map_cons, untilStop]
    rcases hnext with ⟨hphase, hd⟩ | ⟨hover, hd⟩
    · obtain ⟨cmds, hcmds, hpre, hall⟩ := ih hphase
      rw [hsaid, List.length_append, List.length_singleton] at hpre hall
      rw [hd, if_neg Bool.false_ne_true]
      refine ⟨trimmed line :: cmds, ?_, (List.prefix_cons_inj _).mpr hpre, fun hgood => ?_⟩
      · rw [hcmds, hsaid, List.append_assoc, List.singleton_append]
      · rw [hall hgood]
    · rw [Reader.foldl_take_of_not_live (not_live hover)]
      refine ⟨[trimmed line], hsaid, ?_, fun hgood => ?_⟩
      · split
        · exact List.prefix_refl _
        · exact ⟨_, rfl⟩
      · rw [if_pos (hd hgood)]

variable (h password) in
/-- The first line. -/
theorem take_password (line : Bytes) :
    ((reader h password).take .start line).dispatched = [] ∧
      ((((reader h password).take .start line).phase = .commands ∧ trimmed line = password) ∨
        (((reader h password).take .start line).phase = .over ∧ (h.Good → trimmed line ≠ password))) := by
  have htake : (reader h password).take .start line = onPassword h password .start (line ++ [10]) := by
    simp [Reader.take, reader, Session.start]
  rw [htake, onPassword, trimmed_concat]
  split
  · rename_i hpass
    refine ⟨write_dispatched _ _, .inr ⟨?_, fun _ => hpass⟩⟩
    rcases write_phase (utf8 "ERR: Bad password\n") .over with hnext | ⟨hover, -⟩
    · exact hnext
    · exact hover
  · rename_i hpass
    refine ⟨write_dispatched _ _, ?_⟩
    rcases write_phase (utf8 "OK\n") .commands with hnext | ⟨hover, hbad⟩
    · exact .inl ⟨hnext, not_not.mp hpass⟩
    · exact .inr ⟨hover, fun hgood => absurd hgood hbad⟩

/-- The first line, and those after it if it is the password. -/
theorem foldl_lines (lines : List Bytes) :
    (lines.foldl (reader h password).take .start).dispatched <+: untilStop h 0 (admitted password (lines.map trimmed)) ∧
      (h.Good → (lines.foldl (reader h password).take .start).dispatched =
        untilStop h 0 (admitted password (lines.map trimmed))) := by
  cases lines with
  | nil => exact ⟨List.prefix_refl _, fun _ => rfl⟩
  | cons line lines =>
    obtain ⟨hnone, hnext⟩ := take_password h password line
    rw [List.foldl_cons, List.map_cons, admitted]
    rcases hnext with ⟨hphase, hpass⟩ | ⟨hover, hpass⟩
    · obtain ⟨cmds, hcmds, hpre, hall⟩ := foldl_commands hphase lines
      rw [hnone, List.nil_append] at hcmds
      rw [hnone] at hpre hall
      rw [if_pos hpass, hcmds]
      exact ⟨hpre, hall⟩
    · rw [Reader.foldl_take_of_not_live (not_live hover), hnone]
      refine ⟨List.nil_prefix, fun hgood => ?_⟩
      rw [if_neg (hpass hgood)]
      rfl

/-- In every session the console is given the first lines after the password, up to the
    one that stops the server. -/
theorem session_eq (h : Host) (password : Bytes) (chunks : List Bytes) :
    (receive h password chunks).1.dispatched <+: untilStop h 0 (commands password chunks.flatten) ∧
      (h.Good → (receive h password chunks).1.dispatched = untilStop h 0 (commands password chunks.flatten)) := by
  have hstate := (Reader.feedAll_eq (r := reader h password) .start chunks).1
  rw [receive, hstate]
  exact foldl_lines _

/-! ## The gate -/

/-- For every stream and every cut of it: the console is given the complete lines after
    the password, in order, up to and including the first `stop` that finds `m_running` set;
    none if the first line is not the password; fewer only if the session has ended for
    another reason. While the session goes on, what follows the last complete line is kept. -/
theorem rcon_gate (h : Host) (password : Bytes) (chunks : List Bytes) :
    (receive h password chunks).1.dispatched <+: untilStop h 0 (commands password chunks.flatten) ∧
      (h.Good → (receive h password chunks).1.dispatched = untilStop h 0 (commands password chunks.flatten)) ∧
      ((receive h password chunks).1.phase ≠ .over →
        (receive h password chunks).2 = (split 10 chunks.flatten).2) := by
  obtain ⟨hpre, hall⟩ := session_eq h password chunks
  have hbuf := (Reader.feedAll_eq (r := reader h password) .start chunks).2
  exact ⟨hpre, hall, fun hlive => hbuf (decide_eq_true hlive)⟩

/-- Nothing but its stream ends the session. -/
def undisturbed : Host := ⟨fun _ => true, fun _ => true, fun _ => true, fun _ => true⟩

theorem undisturbed_good : undisturbed.Good := ⟨fun _ => rfl, fun _ => rfl, fun _ => rfl⟩

/-- Another `stop` is under way. -/
def overtaken : Host := { undisturbed with set := fun _ => false }

/-- The password and two commands, in three reads; and a `stop` that comes too late. -/
theorem rcon_gate_pieces :
    (receive undisturbed (utf8 "pw") [utf8 "pw\r\nhe", utf8 "lp", utf8 "\nsay hi\nla"]).1.dispatched =
        [utf8 "help", utf8 "say hi"] ∧
      (receive overtaken (utf8 "pw") [utf8 "pw\nstop\nhelp\n"]).1.dispatched = [utf8 "stop", utf8 "help"] := by
  have hgate := (rcon_gate undisturbed (utf8 "pw") [utf8 "pw\r\nhe", utf8 "lp", utf8 "\nsay hi\nla"]).2.1 undisturbed_good
  have hlate := (rcon_gate overtaken (utf8 "pw") [utf8 "pw\nstop\nhelp\n"]).2.1 ⟨fun _ => rfl, fun _ => rfl, fun _ => rfl⟩
  rw [hgate, hlate]
  decide

/-- Nobody reads the line after a `stop`. -/
theorem rest_after_stop : ¬ ∀ (h : Host) (password : Bytes) (chunks : List Bytes), h.Good →
    (receive h password chunks).1.dispatched = commands password chunks.flatten := by
  intro hall
  have hcmds := hall undisturbed (utf8 "pw") [utf8 "pw\nstop\nhelp\n"] undisturbed_good
  rw [(session_eq undisturbed (utf8 "pw") [utf8 "pw\nstop\nhelp\n"]).2 undisturbed_good] at hcmds
  exact absurd hcmds (by decide)

end RconServer

end NovaMP
