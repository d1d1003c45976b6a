/-
  NovaMP.Server.Commands — the commands of the console
  (`Console::dispatch` in `servers/src/console/console.cpp`, `GameServer::stop` in
  `servers/src/game_server.cpp`).

  `Server.Rcon` says which lines get to the console; here is what a line does. `dispatch`
  reads it as a stream: the command word, for `kick` and `ban` a `uint16_t` and then the
  rest of the line. `pid` is not initialised, so a `kick` that nothing follows names
  whatever was on the stack; a number that is malformed or too large is read as 0 or
  65535, which no player has. `AITraffic` is not in the repository: what an `ai.` command
  makes it send goes through the callback that `GameServer` gives it.

  - `target_spelled`, `target_unspelled`: the number that is read, for every text after
    the command word.
  - `stop_answer`: a `stop` does its work if `m_running` is set.
  - `line_answer`: what a line does in a reachable state: a kick or a ban falls on the
    player its number spells, or on nobody.
  - `kick_round_trip`: the form that `help` prints.
-/

import NovaMP.Network.Input
import NovaMP.Server.Locks
import NovaMP.Server.PlayerIds
import NovaMP.Server.Rcon

namespace NovaMP

open Lib Exec Lib.Istream

namespace Console

/-! ## Commands -/

inductive Command where
  | nothing
  | stop
  | help
  | players
  | kick (pid : UInt16) (reason : Bytes)
  | ban (pid : UInt16) (reason : Bytes)
  | say (msg : Bytes)
  | lua (code : Bytes)
  | aiSpawn
  | aiDespawnAll
  | aiSetCount (n : Int)
  | aiSetSpeedLimit (v : UInt32)
  | aiStatus
  | unknown (cmd : Bytes)
  deriving DecidableEq

/-- What `dispatch` does not decide. -/
structure Host where
  /-- What is in `pid` before a number is read into it. -/
  stack : UInt16
  /-- Whether a negative numeral is taken modulo 2^16, as the usual libraries do, or is
      out of range. -/
  wraps : Bool
  /-- What is in `v` after `float v = 0; ss >> v`. -/
  float : Istream UInt8 → UInt32
  /-- The calls of the server that a piece of Lua makes. -/
  lua : Bytes → List GameServer.Call
  /-- Those that plugins make when they hear `onShutdown`. -/
  onShutdown : List GameServer.Call
  /-- What `AITraffic` gives to its callback as it is called. -/
  traffic : Command → List Bytes

variable (h : Host)

/-- A numeral as a `uint16_t`. -/
def toShort (negative : Bool) (m : Nat) : Int × Bool :=
  if negative ∧ m ≠ 0 ∧ !h.wraps then (65535, true)
  else if m ≤ 65535 then (if negative then -m else m, false)
  else (65535, true)

/-- What `std::getline(ss, text)` leaves in an empty string, without a blank in front. -/
def restOf (ss : Istream UInt8) : Bytes :=
  let text := (getline 10 ss).1.getD []
  if text.head? = some 32 then text.tail else text

/-- `ss >> pid; std::getline(ss, reason)` and what follows. -/
def target (dflt : Bytes) (ss : Istream UInt8) : UInt16 × Bytes :=
  let (n, ss) := number ascii (toShort h) ss
  let reason := restOf ss
  ((n.map UInt16.ofInt).getD h.stack, if reason = [] then dflt else reason)

/-- What `dispatch` makes of a line. -/
def command (line : Bytes) : Command :=
  if line = [] then .nothing
  else
    let (cmd, ss) := Istream.word ascii (ofText line)
    let cmd := cmd.getD []
    if cmd = utf8 "stop" || cmd = utf8 "quit" || cmd = utf8 "exit" then .stop
    else if cmd = utf8 "help" then .help
    else if cmd = utf8 "players" then .players
    else if cmd = utf8 "kick" then
      let (pid, reason) := target h (utf8 "Kicked by admin") ss
      .kick pid reason
    else if cmd = utf8 "ban" then
      let (pid, reason) := target h (utf8 "Banned by admin") ss
      .ban pid reason
    else if cmd = utf8 "say" then .say (restOf ss)
    else if cmd = utf8 "lua" then .lua ((getline 10 ss).1.getD [])
    else if cmd = utf8 "ai.spawn" then .aiSpawn
    else if cmd = utf8 "ai.despawn_all" then .aiDespawnAll
    else if cmd = utf8 "ai.set_count" then .aiSetCount ((number ascii toInt ss).1.getD 0)
    else if cmd = utf8 "ai.set_speed_limit" then .aiSetSpeedLimit (h.float ss)
    else if cmd = utf8 "ai.status" then .aiStatus
    else .unknown cmd

variable (w : World) (x : Env)

/-- The server, and what `stop` ends. -/
structure Process where
  server : Server
  /-- `m_running` -/
  running : Bool
  /-- The game that `m_headless` has launched is there. -/
  game : Bool
  /-- `m_ioc` has been stopped. -/
  stopped : Bool

abbrev ProcessM := Exec Mutex Fault Process

def Process.after {α : Type} (p : Process) (r : Except (Stop Mutex Fault) α × Server) : Except (Stop Mutex Fault) α × Process :=
  (r.1, { p with server := r.2 })

/-- A call that is about the players only. -/
def onServer {α : Type} (m : ServerM α) : ProcessM α := fun held p => p.after (m held p.server)

/-- `GameServer::stop` -/
def stop : ProcessM Unit := do
  let p ← state
  update fun p => { p with running := false }
  if p.running = false then pure ()
  else
    onServer do
      let _ ← GameServer.fireEvent x "onShutdown" []
      each (GameServer.exec w x) h.onShutdown
    update fun p => { p with game := false }
    update fun p => { p with stopped := true }

def execute (c : Command) : ProcessM Unit :=
  match c with
  | .stop => stop h w x
  | .kick pid reason => onServer (GameServer.kickPlayer w x pid reason)
  | .ban pid reason => onServer (GameServer.banPlayer w x pid reason)
  | .say msg => onServer (GameServer.sendChat (-1) (utf8 "[Admin] " ++ msg))
  | .lua code => onServer (each (GameServer.exec w x) (h.lua code))
  | .aiSpawn | .aiDespawnAll | .aiSetCount _ | .aiSetSpeedLimit _ | .aiStatus =>
    onServer (each (UDPServer.sendAll · 0xFFFF) (h.traffic c))
  | .nothing | .help | .players | .unknown _ => pure ()

/-- `Console::dispatch` -/
def perform (line : Bytes) : ProcessM Unit := execute h w x (command h line)

/-! ## What a line spells -/

/-- What follows the command word. -/
def operand (line : Bytes) : Bytes := (line.dropWhile isSpace).dropWhile fun b => !isSpace b

/-- The line of text after a number, without a blank in front. -/
def textOf (rest : Bytes) : Bytes :=
  let text := rest.takeWhile fun b => b ≠ 10
  if text.head? = some 32 then text.tail else text

/-- The number an operand gives to `kick` and `ban`, and what follows it. -/
inductive Spells (text : Bytes) : UInt16 → Bytes → Prop
  | blank : (∀ b ∈ text, isSpace b = true) → Spells text h.stack []
  | short {digits rest : Bytes} : Numeral ascii text false digits rest → decimal digits ≤ 65535 →
      Spells text (UInt16.ofNat (decimal digits)) rest
  /-- The numeral of a number that is not positive. -/
  | wrapped {digits rest : Bytes} : Numeral ascii text true digits rest → decimal digits ≤ 65535 →
      (decimal digits = 0 ∨ h.wraps = true) → Spells text (UInt16.ofInt (-decimal digits)) rest

variable {h}

/-- The stream that the command word leaves. -/
theorem word_line (line : Bytes) : (Istream.word ascii (ofText line)).1.getD [] = word line ∧
    ((Istream.word ascii (ofText line)).2 = stopped (operand line) ∨
      (Istream.word ascii (ofText line)).2.good = false ∧ operand line = []) := by
  rcases blank_or_text ascii line with hblank | ⟨space, b, rest, rfl, hspace, hb⟩
  · have hdrop : line.dropWhile isSpace = [] := List.dropWhile_eq_nil_iff.mpr hblank
    rw [word_blank hblank, word, operand, hdrop]
    exact ⟨rfl, .inr ⟨rfl, rfl⟩⟩
  · have hdrop : (space ++ b :: rest).dropWhile isSpace = b :: rest := by
      have hword : isSpace b = false := hb
      rw [List.dropWhile_append_of_pos (by exact hspace), List.dropWhile_cons_of_neg (by simpa using hword)]
    rw [word_text hspace hb, word, operand, hdrop]
    exact ⟨rfl, .inl rfl⟩

theorem restOf_failed {ss : Istream UInt8} (hs : ss.good = false) : restOf ss = [] := by
  rw [restOf, getline_failed hs]
  rfl

theorem restOf_stopped (rest : Bytes) : restOf (stopped rest) = textOf rest := by
  rw [restOf, getline_stopped]
  rfl

theorem target_failed {ss : Istream UInt8} (hs : ss.good = false) (dflt : Bytes) : target h dflt ss = (h.stack, dflt) := by
  rw [target, number_failed hs]
  dsimp only
  rw [restOf_failed (good_of_fail rfl)]
  rfl

/-- What is spelled is read. -/
theorem target_spelled {text rest : Bytes} {pid : UInt16} (hs : Spells h text pid rest) (dflt : Bytes) :
    target h dflt (stopped text) = (pid, if textOf rest = [] then dflt else textOf rest) := by
  cases text with
  | nil =>
    have hblank : pid = h.stack ∧ rest = [] := by
      cases hs with
      | blank => exact ⟨rfl, rfl⟩
      | short hn | wrapped hn =>
        obtain ⟨space, sign, htext, -⟩ := hn.text
        exact absurd (by simp_all) hn.nonempty
    rw [hblank.1, hblank.2]
    exact target_failed rfl dflt
  | cons b text =>
    have htext : stopped (b :: text) = ofText (b :: text) := rfl
    rw [htext]
    cases hs with
    | blank hblank =>
      rw [target, number_blank hblank]
      rfl
    | @short digits _ hn hle =>
      have hconvert : toShort h false (decimal digits) = (↑(decimal digits), false) := by
        simp [toShort, hle]
      rw [target, number_numeral _ ascii_lawful hn]
      dsimp only [ascii]
      rw [hconvert]
      show (UInt16.ofInt _, if restOf (stopped rest) = [] then dflt else restOf (stopped rest)) = _
      rw [restOf_stopped, ofInt16_natCast]
    | @wrapped digits _ hn hle hwraps =>
      have hconvert : toShort h true (decimal digits) = (-↑(decimal digits), false) := by
        rcases hwraps with h0 | hwraps
        · simp [toShort, h0]
        · simp [toShort, hle, hwraps]
      rw [target, number_numeral _ ascii_lawful hn]
      dsimp only [ascii]
      rw [hconvert]
      show (UInt16.ofInt _, if restOf (stopped rest) = [] then dflt else restOf (stopped rest)) = _
      rw [restOf_stopped]

/-- A text that spells no number is read as `0`, or as `65535` if it is out of range. -/
theorem target_unspelled {text : Bytes} (hs : ∀ pid rest, ¬ Spells h text pid rest) (dflt : Bytes) :
    (target h dflt (stopped text)).1 = 0 ∨ (target h dflt (stopped text)).1 = 0xFFFF := by
  rcases blank_or_text ascii text with hblank | ⟨space, b, more, htext, hspace, hb⟩
  · exact absurd (.blank hblank) (hs _ _)
  have hgood : stopped text = ofText text := by
    rw [htext]
    cases space <;> rfl
  rw [hgood]
  by_cases hnumeral : ∃ negative digits rest, Numeral ascii text negative digits rest
  · obtain ⟨negative, digits, rest, hn⟩ := hnumeral
    refine .inr ?_
    have hconvert : (toShort h negative (decimal digits)).1 = 65535 := by
      unfold toShort
      split
      · rfl
      · rename_i hwraps
        rw [if_neg]
        intro hle
        cases negative with
        | false => exact hs _ _ (.short hn hle)
        | true =>
          refine hs _ _ (.wrapped hn hle ?_)
          by_contra hne
          refine hwraps ⟨rfl, fun h0 => hne (.inl h0), ?_⟩
          simpa using fun hw => hne (.inr hw)
    rw [target, number_numeral _ ascii_lawful hn]
    show UInt16.ofInt (toShort h negative (decimal digits)).1 = _
    rw [hconvert]
    rfl
  · obtain ⟨hzero, -⟩ := number_malformed (toShort h) htext hspace hb
      fun negative digits rest hn => hnumeral ⟨negative, digits, rest, hn⟩
    refine .inl ?_
    show ((number ascii (toShort h) (ofText text)).1.map UInt16.ofInt).getD h.stack = 0
    rw [hzero]
    rfl

/-! ## What a line does -/

def stopWords : List Bytes := [utf8 "stop", utf8 "quit", utf8 "exit"]

def trafficWords : List Bytes :=
  [utf8 "ai.spawn", utf8 "ai.despawn_all", utf8 "ai.set_count", utf8 "ai.set_speed_limit", utf8 "ai.status"]

section

variable (h : Host) (w : World) (x : Env) (p : Process)

/-- The text for the player, or that of the code. -/
def reasonOr (dflt : String) (rest : Bytes) : Bytes := if textOf rest = [] then utf8 dflt else textOf rest

open GameServer in
/-- What a line does, told by its text. -/
inductive Answer (line : Bytes) : Except (Stop Mutex Fault) Unit × Process → Prop
  | kick {pid : UInt16} {rest : Bytes} : word line = utf8 "kick" → Spells h (operand line) pid rest → Present p.server pid →
      Answer line (p.after (kicked p.server pid (reasonOr "Kicked by admin" rest)))
  | ban {pid : UInt16} {rest : Bytes} : word line = utf8 "ban" → Spells h (operand line) pid rest → Present p.server pid →
      Answer line (p.after (kicked (markBanned p.server pid) pid (utf8 "Banned: " ++ reasonOr "Banned by admin" rest)))
  | say : word line = utf8 "say" → Answer line (.ok (), { p with
      server := p.server.log (p.server.toAll (Message.packet w (.chatMessage (utf8 "[Admin] " ++ textOf (operand line))))) })
  | lua : word line = utf8 "lua" →
      Answer line (p.after (each (exec w x) (h.lua ((operand line).takeWhile fun b => b ≠ 10)) [] p.server))
  /-- The plugins' handlers come back, and the rest of `stop` is done. -/
  | stop {s : Server} : word line ∈ stopWords → p.running = true →
      each (exec w x) h.onShutdown [] (p.server.note ⟨"onShutdown", [], []⟩) = (.ok (), s) →
      Answer line (.ok (), ⟨s, false, false, true⟩)
  | stuck {s : Server} {e : Stop Mutex Fault} : word line ∈ stopWords → p.running = true →
      each (exec w x) h.onShutdown [] (p.server.note ⟨"onShutdown", [], []⟩) = (.error e, s) →
      Answer line (.error e, { p with server := s, running := false })
  | late : word line ∈ stopWords → p.running = false → Answer line (.ok (), p)
  | traffic : word line ∈ trafficWords → Answer line (.ok (), { p with
      server := p.server.log ((h.traffic (command h line)).flatMap (p.server.toEndpoints · 0xFFFF)) })
  /-- Another command, or a `kick` or a `ban` of nobody. -/
  | nobody : word line ∉ utf8 "say" :: utf8 "lua" :: (stopWords ++ trafficWords) →
      (word line = utf8 "kick" ∨ word line = utf8 "ban" →
        ∀ pid rest, Spells h (operand line) pid rest → ¬ Present p.server pid) → Answer line (.ok (), p)

end

variable {w : World} {x : Env} {s : Server} {p : Process}

open GameServer in
theorem kicked_absent {pid : UInt16} (hp : ¬ Present s pid) (reason : Bytes) : kicked s pid reason = (.ok (), s) := by
  have hnone : s.sessionToPlayer.keyOf pid = none := by
    cases hk : s.sessionToPlayer.keyOf pid with
    | none => rfl
    | some sid => exact absurd (.inr ⟨sid, Table.lookup_keyOf hk⟩) hp
  rw [kicked, hnone]

open GameServer in
theorem markBanned_absent {pid : UInt16} (hp : ¬ Present s pid) : markBanned s pid = s := by
  have hnone : s.players.lookup pid = none := AList.lookup_eq_none.mpr fun hm => hp (.inl hm)
  rw [markBanned, hnone]

/-- The number of a `kick` or a `ban` and its reason, from what follows the word. -/
theorem target_word (line : Bytes) (dflt : String) :
    let t := target h (utf8 dflt) (Istream.word ascii (ofText line)).2
    (∃ pid rest, Spells h (operand line) pid rest ∧ t = (pid, reasonOr dflt rest)) ∨
      (∀ pid rest, ¬ Spells h (operand line) pid rest) ∧ (t.1 = 0 ∨ t.1 = 0xFFFF) := by
  dsimp only
  rcases (word_line line).2 with hss | ⟨hbad, hnil⟩
  · rw [hss]
    by_cases hs : ∃ pid rest, Spells h (operand line) pid rest
    · obtain ⟨pid, rest, hs⟩ := hs
      exact .inl ⟨pid, rest, hs, target_spelled hs _⟩
    · have hn : ∀ pid rest, ¬ Spells h (operand line) pid rest := fun pid rest hp => hs ⟨pid, rest, hp⟩
      exact .inr ⟨hn, target_unspelled hn _⟩
  · refine .inl ⟨h.stack, [], .blank ?_, target_failed hbad _⟩
    rw [hnil]
    exact fun b hb => by cases hb

/-- One text spells one number. -/
theorem Spells.unique {text rest rest' : Bytes} {pid pid' : UInt16} (hs : Spells h text pid rest)
    (hs' : Spells h text pid' rest') : pid = pid' := by
  have h1 := target_spelled hs []
  rw [target_spelled hs' []] at h1
  exact (congrArg Prod.fst h1).symm

open GameServer in
/-- A `kick` or a `ban` falls on the player its line spells, or on nobody. -/
theorem target_present {ok : Server → Env → GameServer.Call → Prop} (hr : GameServer.Reach w ok s) (line : Bytes)
    (dflt : String) :
    let t := target h (utf8 dflt) (Istream.word ascii (ofText line)).2
    (∃ rest, Spells h (operand line) t.1 rest ∧ Present s t.1 ∧ t.2 = reasonOr dflt rest) ∨
      ¬ Present s t.1 ∧ ∀ pid rest, Spells h (operand line) pid rest → ¬ Present s pid := by
  dsimp only
  rcases target_word line dflt with ⟨pid, rest, hs, ht⟩ | ⟨hn, ht⟩
  · rw [ht]
    by_cases hp : Present s pid
    · exact .inl ⟨rest, hs, hp, rfl⟩
    · exact .inr ⟨hp, fun pid' rest' hs' => hs.unique hs' ▸ hp⟩
  · refine .inr ⟨fun hp => ?_, fun pid rest hs => absurd hs (hn pid rest)⟩
    have hbounds := present_bounds hr hp
    rcases ht with h0 | hlast
    · rw [h0] at hbounds
      exact absurd hbounds (by decide)
    · rw [hlast] at hbounds
      exact absurd hbounds (by decide)

/-- A command that does nothing. -/
theorem quiet_answer {line : Bytes} (hword : word line ∉ [utf8 "say", utf8 "lua", utf8 "kick", utf8 "ban"])
    (hrest : word line ∉ stopWords ++ trafficWords) : Answer h w x p line (.ok (), p) := by
  simp only [List.mem_cons, List.not_mem_nil, or_false, not_or] at hword
  obtain ⟨hsay, hlua, hkick, hban⟩ := hword
  refine .nobody ?_ fun hor => (hor.elim hkick hban).elim
  rw [List.mem_cons, List.mem_cons, not_or, not_or]
  exact ⟨hsay, hlua, hrest⟩

theorem kick_answer {ok : Server → Env → GameServer.Call → Prop} (hr : GameServer.Reach w ok p.server) {line : Bytes}
    (hword : word line = utf8 "kick") :
    let t := target h (utf8 "Kicked by admin") (Istream.word ascii (ofText line)).2
    Answer h w x p line (execute h w x (.kick t.1 t.2) [] p) := by
  dsimp only [execute, onServer]
  rw [GameServer.kickPlayer_eq]
  rcases target_present hr line "Kicked by admin" with ⟨rest, hs, hp, hreason⟩ | ⟨hp, hnone⟩
  · rw [hreason]
    exact .kick hword hs hp
  · rw [kicked_absent hp]
    exact .nobody (by rw [hword]; decide) fun _ => hnone

theorem ban_answer {ok : Server → Env → GameServer.Call → Prop} (hr : GameServer.Reach w ok p.server) {line : Bytes}
    (hword : word line = utf8 "ban") :
    let t := target h (utf8 "Banned by admin") (Istream.word ascii (ofText line)).2
    Answer h w x p line (execute h w x (.ban t.1 t.2) [] p) := by
  dsimp only [execute, onServer]
  rw [GameServer.banPlayer_eq]
  rcases target_present hr line "Banned by admin" with ⟨rest, hs, hp, hreason⟩ | ⟨hp, hnone⟩
  · rw [hreason]
    exact .ban hword hs hp
  · rw [markBanned_absent hp, kicked_absent hp]
    exact .nobody (by rw [hword]; decide) fun _ => hnone

/-- What `getline` finds behind the command word. -/
theorem getline_word (line : Bytes) : (getline 10 (Istream.word ascii (ofText line)).2).1.getD [] =
    (operand line).takeWhile fun b => b ≠ 10 := by
  rcases (word_line line).2 with hss | ⟨hbad, hnil⟩
  · rw [hss, getline_stopped]
  · rw [getline_failed hbad, hnil]
    rfl

theorem restOf_word (line : Bytes) : restOf (Istream.word ascii (ofText line)).2 = textOf (operand line) := by
  rw [restOf, getline_word]
  rfl

theorem say_answer {line : Bytes} (hword : word line = utf8 "say") :
    Answer h w x p line (execute h w x (.say (restOf (Istream.word ascii (ofText line)).2)) [] p) := by
  dsimp only [execute, onServer]
  rw [GameServer.sendChat_eq, restOf_word]
  exact .say hword

theorem lua_answer {line : Bytes} (hword : word line = utf8 "lua") : Answer h w x p line
    (execute h w x (.lua ((getline 10 (Istream.word ascii (ofText line)).2).1.getD [])) [] p) := by
  rw [getline_word]
  exact .lua hword

/-- A `stop` does its work if `m_running` is set, as far as plugins let it. -/
theorem stop_answer {line : Bytes} (hword : word line ∈ stopWords) : Answer h w x p line (stop h w x [] p) := by
  obtain ⟨s, running, game, stopped⟩ := p
  cases running with
  | false => exact .late hword rfl
  | true =>
    cases heach : each (GameServer.exec w x) h.onShutdown [] (s.note ⟨"onShutdown", [], []⟩) with
    | mk r t =>
      have hcalls : stop h w x [] ⟨s, true, game, stopped⟩ =
          ((do
            onServer (each (GameServer.exec w x) h.onShutdown)
            update fun p => { p with game := false }
            update fun p => { p with stopped := true }) : ProcessM Unit) []
          ⟨s.note ⟨"onShutdown", [], []⟩, false, game, stopped⟩ := rfl
      rw [hcalls, run_bind, onServer, heach]
      cases r with
      | ok _ => exact .stop hword rfl heach
      | error e => exact .stuck hword rfl heach

/-- A command for the traffic. -/
def Command.isTraffic : Command → Bool
  | .aiSpawn | .aiDespawnAll | .aiSetCount _ | .aiSetSpeedLimit _ | .aiStatus => true
  | _ => false

theorem command_traffic {line : Bytes} (hword : word line ∈ trafficWords) : (command h line).isTraffic = true := by
  have hline : line ≠ [] := by
    rintro rfl
    exact absurd hword (by decide)
  unfold command
  rw [if_neg hline]
  dsimp only
  rw [(word_line line).1]
  simp only [trafficWords, List.mem_cons, List.not_mem_nil, or_false] at hword
  rcases hword with hword | hword | hword | hword | hword <;> (rw [hword]; rfl)

theorem traffic_answer {line : Bytes} (hword : word line ∈ trafficWords) (hc : (command h line).isTraffic = true) :
    Answer h w x p line (execute h w x (command h line) [] p) := by
  have hsent : execute h w x (command h line) [] p = p.after (.ok (), p.server.log
      ((h.traffic (command h line)).flatMap (p.server.toEndpoints · 0xFFFF))) := by
    have heach := run_each_log (H := []) (m := (UDPServer.sendAll · 0xFFFF)) (f := fun s pkt => s.toEndpoints pkt 0xFFFF)
      (fun _ _ _ => rfl) (fun pkt s => UDPServer.sendAll_eq pkt 0xFFFF s) (h.traffic (command h line)) p.server
    generalize command h line = c at hc heach
    cases c with
    | aiSpawn | aiDespawnAll | aiSetCount _ | aiSetSpeedLimit _ | aiStatus => exact congrArg p.after heach
    | _ => cases hc
  rw [hsent]
  exact .traffic hword

theorem line_answer (h : Host) (w : World) (x : Env) {ok : Server → Env → GameServer.Call → Prop} {p : Process}
    (hr : GameServer.Reach w ok p.server) (line : Bytes) : Answer h w x p line (perform h w x line [] p) := by
  unfold perform
  by_cases hai : word line ∈ trafficWords
  · exact traffic_answer hai (command_traffic hai)
  unfold command
  by_cases hnil : line = []
  · rw [if_pos hnil, hnil]
    exact quiet_answer (by decide) (by decide)
  rw [if_neg hnil]
  dsimp only
  rw [(word_line line).1]
  by_cases hstop : (word line = utf8 "stop" || word line = utf8 "quit" || word line = utf8 "exit") = true
  · rw [if_pos hstop]
    refine stop_answer ?_
    simpa [stopWords, or_assoc] using hstop
  have hnot : word line ∉ stopWords ++ trafficWords := by
    rw [List.mem_append, not_or]
    exact ⟨by simpa [stopWords, and_assoc] using hstop, hai⟩
  rw [if_neg hstop]
  by_cases hhelp : word line = utf8 "help"
  · rw [if_pos hhelp]
    exact quiet_answer (by rw [hhelp]; decide) hnot
  rw [if_neg hhelp]
  by_cases hplayers : word line = utf8 "players"
  · rw [if_pos hplayers]
    exact quiet_answer (by rw [hplayers]; decide) hnot
  rw [if_neg hplayers]
  by_cases hkick : word line = utf8 "kick"
  · rw [if_pos hkick]
    exact kick_answer hr hkick
  rw [if_neg hkick]
  by_cases hban : word line = utf8 "ban"
  · rw [if_pos hban]
    exact ban_answer hr hban
  rw [if_neg hban]
  by_cases hsay : word line = utf8 "say"
  · rw [if_pos hsay]
    exact say_answer hsay
  rw [if_neg hsay]
  by_cases hlua : word line = utf8 "lua"
  · rw [if_pos hlua]
    exact lua_answer hlua
  rw [if_neg hlua]
  simp only [trafficWords, List.mem_cons, List.not_mem_nil, or_false, not_or] at hai
  rw [if_neg hai.1, if_neg hai.2.1, if_neg hai.2.2.1, if_neg hai.2.2.2.1, if_neg hai.2.2.2.2]
  exact quiet_answer (by simp [hsay, hlua, hkick, hban]) hnot

/-- A host whose stack happens to hold Ann's number. -/
def sampleHost : Host := ⟨1, true, fun _ => 0, fun _ => [], [.sendChat (-1) (utf8 "bye")], fun _ => [[1]]⟩

/-- Ann has logged in. -/
def attended : Process := ⟨Sample.joined, true, true, false⟩

theorem attended_reach : GameServer.Reach Sample.world GameServer.anyStep attended.server :=
  .step (.step .init trivial Sample.step_connected) trivial Sample.step_joined

/-- Ann's number as it wraps around, one that is out of range, a `say` and a `stop`. -/
theorem line_answer_joined :
    let run := fun line => perform sampleHost Sample.world Env.quiet (utf8 line) [] attended
    GameServer.Reach Sample.world GameServer.anyStep attended.server ∧
      (∀ line, Answer sampleHost Sample.world Env.quiet attended (utf8 line) (run line)) ∧
      (run "kick -65535 go").2.server.sent = attended.server.sent ++ [.tcp 1 (some 0) (GameServer.kickPacket (utf8 "go"))] ∧
      (run "kick 65537 go").2.server.sent = attended.server.sent ∧
      (run "say hi").2.server.sent = attended.server.sent ++
        [.tcp 1 (some 0) (Packet.buildStr .chatMessage 0 0 (utf8 "[Admin] hi"))] ∧
      (run "quit").2.stopped = true := by
  dsimp only
  exact ⟨attended_reach, fun line => line_answer _ _ _ attended_reach _, by decide +kernel, by decide +kernel,
    by decide +kernel, by decide +kernel⟩

/-! ## The forms that `help` prints -/

/-- The lines on which `dispatch` returns `false`. -/
theorem command_stop_iff (line : Bytes) : command h line = .stop ↔ dispatch line = false := by
  unfold command dispatch
  by_cases hnil : line = []
  · rw [if_pos hnil, if_pos hnil]
    exact iff_of_false nofun nofun
  rw [if_neg hnil, if_neg hnil]
  dsimp only
  rw [(word_line line).1]
  by_cases hstop : (word line = utf8 "stop" || word line = utf8 "quit" || word line = utf8 "exit") = true
  · rw [if_pos hstop, if_pos hstop]
    exact iff_of_true rfl rfl
  · rw [if_neg hstop, if_neg hstop]
    refine iff_of_false ?_ nofun
    repeat' split
    all_goals exact nofun

/-- A number between two blanks, with a reason after it. -/
theorem spells_number (pid : UInt16) (reason : Bytes) :
    Spells h (32 :: (natText pid.toNat ++ 32 :: reason)) pid (32 :: reason) := by
  have hn : Numeral ascii (32 :: (natText pid.toNat ++ 32 :: reason)) false (natText pid.toNat) (32 :: reason) :=
    numeral_natText [32] (fun b hb => by rw [List.mem_singleton.mp hb]; rfl) (fun b hb => by rw [← Option.some.inj hb]; rfl) _
  have hs := Spells.short (h := h) hn (by rw [decimal_natText]; exact Nat.le_of_lt_succ pid.toNat_lt)
  rwa [decimal_natText, UInt16.ofNat_toNat] at hs

theorem textOf_reason {reason : Bytes} (hr : 10 ∉ reason) : textOf (32 :: reason) = reason := by
  have hall : ∀ b ∈ reason, decide (b ≠ 10) = true := by
    intro b hb
    rw [decide_eq_true_eq]
    rintro rfl
    exact hr hb
  rw [textOf, List.takeWhile_cons_of_pos (by decide), List.takeWhile_eq_self_iff.mpr hall]
  rfl

/-- `kick <id> [reason]` -/
theorem kick_round_trip (pid : UInt16) {reason : Bytes} (hr : 10 ∉ reason) :
    command h (utf8 "kick" ++ 32 :: (natText pid.toNat ++ 32 :: reason)) =
      .kick pid (if reason = [] then utf8 "Kicked by admin" else reason) := by
  have hbytes : utf8 "kick" = [107, 105, 99, 107] := by decide
  have hword : Istream.word ascii (ofText (utf8 "kick" ++ 32 :: (natText pid.toNat ++ 32 :: reason))) =
      (some (utf8 "kick"), stopped (32 :: (natText pid.toNat ++ 32 :: reason))) := by
    rw [hbytes]
    have hnone : ∀ b ∈ ([] : Bytes), ascii.space b = true := nofun
    exact word_text hnone (by decide)
  unfold command
  rw [if_neg (by rw [hbytes]; exact List.cons_ne_nil _ _), hword]
  dsimp only [Option.getD_some]
  rw [if_neg (by decide), if_neg (by decide), if_neg (by decide), if_pos rfl, target_spelled (spells_number pid reason),
    textOf_reason hr]

end Console

end NovaMP
