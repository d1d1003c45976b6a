/-
  NovaMP.Server.ShippedPlugins — what players see of the plugins that come with the server
  (`chat_commands.lua`, `example.lua` and `ai_traffic_control.lua` in
  `servers/Resources/Server/plugins`).

  All three handle chat messages and two of them joins and leaves; of each event the plugin
  that the directory has last gets to hear. A chat command is answered to its author alone,
  and everybody sees any other message. The commands of `ai_traffic_control.lua` are seen by
  everybody, too, since it knows no player by the id that it is given; and when `example.lua`
  says who has left, the record with the name is gone.

  - `Shipped.answers`, `Shipped.passes`: what the chat handler of a plugin does.
  - `hears_eq_some_iff`: which plugin hears of an event.
  - `shipped_talk`: what is sent about a chat message, a `READY` and a disconnect, whatever
    the order of the files.
-/

import NovaMP.Network.Decimal
import NovaMP.Server.PluginCalls

namespace NovaMP

open Lib GameServer

namespace LuaEngine

/-- A value in a concatenation. -/
def Value.text : Value → Bytes
  | .nil => []
  | .string s => s
  | .integer n => utf8 (toString n)

/-- `table.concat(names, ", ")` of the names in the list. -/
def nameList (players : List PlayerEntry) : Bytes := (utf8 ", ").intercalate (players.map fun e => e.name.text)

def blocked : Script := .ret (.string (utf8 "blocked"))

/-! ## `chat_commands.lua` -/

inductive ChatCommand where
  | help | players | ping | rules
deriving DecidableEq

namespace ChatCommand

def name : ChatCommand → Bytes
  | help => utf8 "help"
  | players => utf8 "players"
  | ping => utf8 "ping"
  | rules => utf8 "rules"

def info : ChatCommand → Bytes
  | help => utf8 "Show this help"
  | players => utf8 "List connected players"
  | ping => utf8 "Pong!"
  | rules => utf8 "Show server rules"

/-- `commands[cmd_name]` -/
def find (cmd : Bytes) : Option ChatCommand := [help, players, ping, rules].find? fun c => c.name = cmd

/-- `pairs` is the order in which Lua goes through the commands. -/
def run (pairs : List ChatCommand) (pid : Value) (next : Script) : ChatCommand → Script
  | help =>
    .sendChatMessage pid ((utf8 "\n").intercalate
      (utf8 "Commands:" :: pairs.map fun c => utf8 "  !" ++ c.name ++ utf8 " — " ++ c.info)) next
  | players => .getPlayers fun ps =>
    if ps.length = 0 then .sendChatMessage pid (utf8 "No players online.") next
    else .sendChatMessage pid (utf8 "Players (" ++ utf8 (toString ps.length) ++ utf8 "): " ++ nameList ps) next
  | ping => .sendChatMessage pid (utf8 "Pong!") next
  | rules => .sendChatMessage pid (utf8 "Rules:\n1. Be respectful\n2. No cheating\n3. Have fun!") next

end ChatCommand

/-- The first word of a message, which does not begin with a space. -/
def firstWord (message : Bytes) : Bytes := message.takeWhile fun b => !isSpace b

/-- Its `onChatMessage`. -/
def chatCommandsChat (pairs : List ChatCommand) : List Value → Script
  | [player_id, _, .string message] =>
    if message.take 1 ≠ utf8 "!" then .ret .nil
    else
      match ChatCommand.find ((firstWord message).drop 1) with
      | some cmd => cmd.run pairs player_id blocked
      | none => .ret .nil
  | _ => .raise

/-! ## `example.lua` -/

/-- Its handlers; what they print is left out. A missing argument cannot be concatenated. -/
def exampleHandler (event : String) (args : List Value) : Script :=
  match event, args with
  | "onInit", _ => .ret .nil
  | "onPlayerAuth", [_, _] => .ret .nil
  | "onPlayerJoin", [player_id, username] =>
    .sendChatMessage player_id (utf8 "Welcome, " ++ username.text ++ utf8 "!")
      (.sendChatMessage (.integer (-1)) (username.text ++ utf8 " joined the server.") (.ret .nil))
  | "onPlayerDisconnect", [player_id] =>
    .getPlayerName player_id fun name => .sendChatMessage (.integer (-1)) (name ++ utf8 " left the server.") (.ret .nil)
  | "onChatMessage", [player_id, _, message] =>
    if message = .string (utf8 "!players") then
      .getPlayers fun players =>
        .sendChatMessage player_id
          (utf8 "Online (" ++ utf8 (toString players.length) ++ utf8 "): " ++ nameList players) blocked
    else .ret .nil
  | "onVehicleSpawn", [_, _] => .ret .nil
  | "onVehicleDelete", [_, _] => .ret .nil
  | "onShutdown", _ => .ret .nil
  | _, _ => .raise

/-! ## `ai_traffic_control.lua` -/

/-- The calls of its chat handler, one after another. -/
def ofCalls : List ApiCall → Script → Script
  | [], next => next
  | .SendChatMessage player_id text :: calls, next => .sendChatMessage player_id text (ofCalls calls next)
  | call :: calls, next => .ai call (ofCalls calls next)

/-- `active` is what `NovaMP.AI.status()` returns. -/
def aiTrafficHandler (active : Bytes) (event : String) (args : List Value) : Script :=
  match event, args with
  | "onInit", _ => .ai .status (.ret .nil)
  | "onPlayerJoin", _ => .getPlayerCount fun count =>
    if 4 ≤ count then .ai (.setCount (utf8 "10")) (.ai (.setSpeedLimit (utf8 "10.0")) (.ret .nil))
    else .ai (.setCount (utf8 "20")) (.ai (.setSpeedLimit (utf8 "14.0")) (.ret .nil))
  | "onPlayerDisconnect", _ => .getPlayerCount fun count =>
    if count = 0 then .ai (.setCount (utf8 "0")) (.ret .nil) else .ret .nil
  | "onChatMessage", [player_id, _, message] => .getPlayers fun players =>
    match onChatMessage active players player_id message with
    | none => .raise
    | some (calls, ret) => ofCalls calls (.ret ret)
  | _, _ => .raise

def aiTrafficControlLua : Plugin := handlers ["onInit", "onPlayerJoin", "onPlayerDisconnect", "onChatMessage"]

/-! ## All three -/

inductive Shipped where
  | chatCommands | example | aiTrafficControl
deriving DecidableEq

/-- What a file assigns. -/
def Shipped.file : Shipped → Plugin
  | chatCommands => chatCommandsLua
  | .example => exampleLua
  | aiTrafficControl => aiTrafficControlLua

/-- What Lua and the traffic make of what the plugins ask. -/
structure Surroundings where
  tointeger : ToInteger
  pairs : List ChatCommand
  active : Bytes
  lua : Lua

def Shipped.handler (c : Surroundings) : Shipped → String → List Value → Script
  | chatCommands, _, args => chatCommandsChat c.pairs args
  | .example, event, args => exampleHandler event args
  | aiTrafficControl, event, args => aiTrafficHandler c.active event args

variable (c : Surroundings) (order : List Shipped)

/-- The plugin that hears of an event, once the files have been loaded in this order. -/
def hears (event : String) : Option Shipped :=
  match loadPlugins c.lua (order.map Shipped.file) (utf8 event) with
  | .handler i _ => order[i]?
  | _ => none

def shipped (event : String) (args : List Value) : Script :=
  match hears c order event with
  | some plugin => plugin.handler c event args
  | none => .ret .nil

/-! ## Words -/

/-- It begins with the word, and that ends there. -/
def BeginsWith (word message : Bytes) : Prop := ∃ rest, message = word ++ rest ∧ ∀ b ∈ rest.head?, isSpace b = true

theorem firstWord_eq_iff {word message : Bytes} (hword : ∀ b ∈ word, isSpace b = false) :
    firstWord message = word ↔ BeginsWith word message := by
  constructor
  · rintro rfl
    refine ⟨message.dropWhile fun b => !isSpace b, List.takeWhile_append_dropWhile.symm, fun b hb => ?_⟩
    have hstop := List.head?_dropWhile_not (fun b => !isSpace b) message
    rw [Option.mem_def.mp hb] at hstop
    simpa using hstop
  · rintro ⟨rest, rfl, hrest⟩
    rw [firstWord, List.takeWhile_append_of_pos fun b hb => by simp [hword b hb]]
    cases rest with
    | nil => simp
    | cons b rest => simp [hrest b rfl]

theorem find_eq_some_iff {cmd : Bytes} {command : ChatCommand} : ChatCommand.find cmd = some command ↔ command.name = cmd := by
  constructor
  · intro h
    simpa using List.find?_some h
  · rintro rfl
    cases command <;> decide

/-- What asks the plugin for something. -/
def Asks : Shipped → Bytes → Prop
  | .chatCommands, message => ∃ command : ChatCommand, BeginsWith (utf8 "!" ++ command.name) message
  | .example, message => message = utf8 "!players"
  | .aiTrafficControl, _ => False

theorem command_plain (command : ChatCommand) : ∀ b ∈ utf8 "!" ++ command.name, isSpace b = false := by
  cases command <;> decide +kernel

theorem find_iff (message : Bytes) {command : ChatCommand} :
    (message.take 1 = utf8 "!" ∧ ChatCommand.find ((firstWord message).drop 1) = some command) ↔
      BeginsWith (utf8 "!" ++ command.name) message := by
  have hmark : utf8 "!" = [33] := by decide
  rw [← firstWord_eq_iff (command_plain command), find_eq_some_iff, hmark]
  cases message with
  | nil => simp [firstWord]
  | cons b rest =>
    by_cases hb : b = 33
    · subst hb
      have hword : firstWord (33 :: rest) = 33 :: firstWord rest := List.takeWhile_cons_of_pos (by decide)
      rw [hword]
      simp [eq_comm]
    · have hword : firstWord (b :: rest) ≠ [33] ++ command.name := by
        intro heq
        have hprefix : [33] ++ command.name <+: b :: rest := heq ▸ List.takeWhile_prefix _
        exact hb (List.cons_prefix_cons.mp hprefix).1.symm
      refine iff_of_false (fun h => hb ?_) hword
      exact (List.cons.inj h.1).1

/-! ## What they answer -/

variable {c} {order : List Shipped} {w : World} {x : Env} {s : Server} {pid : UInt16} {p : Player}

/-- Lua reads the ids that events have. -/
def ReadsIds (tointeger : ToInteger) : Prop := ∀ pid : UInt16, tointeger (idText pid) = some (Int64.ofInt pid.toNat)

theorem cstr_idText (pid : UInt16) : cstr (idText pid) = idText pid := by
  refine cstr_eq_self_iff.mpr fun h => ?_
  have hdigit : isDigit 0 = true := isDigit_of_mem_natText (n := pid.toNat) h
  exact absurd hdigit (by decide)

theorem toInt_ofInt (pid : UInt16) : (Int64.ofInt pid.toNat).toInt = pid.toNat := by
  have hlt := pid.toNat_lt
  rw [Int64.toInt_ofInt, Int.bmod_def]
  simp only [Int64.size]
  omega

theorem castId_ofInt (pid : UInt16) : castId (Int64.ofInt pid.toNat) = pid := by
  rw [castId_eq, toInt_ofInt, ofInt16_toNat]

/-- The number of a player, as an event has it, is his id. -/
theorem chatPost_id (pid : UInt16) (text : Bytes) :
    chatPost (Int64.ofInt pid.toNat) text = ⟨.player pid, .chatMessage (utf8 "[Server] " ++ cstr text)⟩ := by
  have hid : IsId (Int64.ofInt pid.toNat) := by
    rw [IsId, toInt_ofInt]
    have hlt := pid.toNat_lt
    omega
  have hnn : ¬ castInt (Int64.ofInt pid.toNat) < 0 := by
    rw [castInt_of_isId hid, toInt_ofInt]
    omega
  rw [chatPost, if_neg hnn, castId_ofInt]

theorem chatPost_all (text : Bytes) :
    chatPost (Int64.ofInt (-1)) text = ⟨.all, .chatMessage (utf8 "[Server] " ++ cstr text)⟩ := by
  rw [chatPost, if_pos (by decide)]

/-- A script that says one thing to the player and stops the message. -/
def Answers (tointeger : ToInteger) (s : Server) (pid : UInt16) (sc : Script) : Prop :=
  ∃ text, sc.out tointeger s =
    ([⟨.player pid, .chatMessage (utf8 "[Server] " ++ text)⟩], some (.string (utf8 "blocked")))

/-- One that leaves it alone. -/
def Passes (tointeger : ToInteger) (s : Server) (sc : Script) : Prop := sc.out tointeger s = ([], some .nil)

section

variable (hnum : ReadsIds c.tointeger)
include hnum

theorem answers_text (text : Bytes) : Answers c.tointeger s pid (.sendChatMessage (.string (idText pid)) text blocked) := by
  refine ⟨cstr text, ?_⟩
  rw [Script.out, checkinteger, hnum pid]
  dsimp only
  rw [chatPost_id]
  rfl

/-- Each command says one thing. -/
theorem command_answers (command : ChatCommand) :
    Answers c.tointeger s pid (command.run c.pairs (.string (idText pid)) blocked) := by
  cases command with
  | help => exact answers_text hnum _
  | players =>
    rw [ChatCommand.run, Answers, Script.out]
    split <;> exact answers_text hnum _
  | ping => exact answers_text hnum _
  | rules => exact answers_text hnum _

omit hnum in
/-- The traffic plugin finds no admin. -/
theorem aiTraffic_passes (name message : Value) :
    Passes c.tointeger s (aiTrafficHandler c.active "onChatMessage" [.string (idText pid), name, message]) := by
  have hnone : isAdmin (.string (idText pid)) (lua_GetPlayers s) = false := by
    rw [Bool.eq_false_iff, ne_eq, isAdmin_iff]
    rintro ⟨e, he, hid, -⟩
    exact string_ne_id he _ hid.symm
  have hquiet : onChatMessage c.active (lua_GetPlayers s) (.string (idText pid)) message = some ([], .nil) := by
    simp [onChatMessage, hnone]
  show (Script.getPlayers _).out c.tointeger s = _
  rw [Script.out, hquiet]
  rfl

/-- What a plugin is asked it answers to the author. -/
theorem Shipped.answers (s : Server) (pid : UInt16) {plugin : Shipped} {message : Bytes} (h : Asks plugin message)
    (name : Value) :
    Answers c.tointeger s pid (plugin.handler c "onChatMessage" [.string (idText pid), name, .string message]) := by
  cases plugin with
  | chatCommands =>
    obtain ⟨command, hbegins⟩ := h
    obtain ⟨hmark, hfind⟩ := (find_iff message).mpr hbegins
    rw [Shipped.handler, chatCommandsChat, if_neg (not_not.mpr hmark), hfind]
    exact command_answers hnum command
  | «example» =>
    have hmessage : message = utf8 "!players" := h
    rw [hmessage]
    exact answers_text hnum _
  | aiTrafficControl => exact h.elim

omit hnum in
/-- Everything else it lets through. -/
theorem Shipped.passes (s : Server) (pid : UInt16) {plugin : Shipped} {message : Bytes} (h : ¬ Asks plugin message)
    (name : Value) :
    Passes c.tointeger s (plugin.handler c "onChatMessage" [.string (idText pid), name, .string message]) := by
  cases plugin with
  | chatCommands =>
    rw [Shipped.handler, chatCommandsChat]
    by_cases hmark : message.take 1 = utf8 "!"
    · have hnone : ChatCommand.find ((firstWord message).drop 1) = none := by
        cases hfind : ChatCommand.find ((firstWord message).drop 1) with
        | none => rfl
        | some command => exact absurd ⟨command, (find_iff message).mp ⟨hmark, hfind⟩⟩ h
      rw [if_neg (not_not.mpr hmark), hnone]
      rfl
    · rw [if_pos hmark]
      rfl
  | «example» =>
    have hne : Value.string message ≠ .string (utf8 "!players") := fun heq => h (Value.string.inj heq)
    show Passes _ _ (if _ then _ else _)
    rw [if_neg hne]
    rfl
  | aiTrafficControl => exact aiTraffic_passes name _

end

/-- The last file that has a handler for an event hears of it. -/
theorem hears_eq_some_iff {event : String} {plugin : Shipped} : hears c order event = some plugin ↔
    ∃ i, order[i]? = some plugin ∧ Holds (order.map Shipped.file) i (utf8 event) := by
  unfold hears
  constructor
  · intro h
    cases hg : loadPlugins c.lua (order.map Shipped.file) (utf8 event) with
    | handler i e =>
      rw [hg] at h
      exact ⟨i, h, ((loadPlugins_handler_iff _ _ _ _ _).mp hg).2⟩
    | cfunction =>
      rw [hg] at h
      cases h
    | other =>
      rw [hg] at h
      cases h
  · rintro ⟨i, hi, hheld⟩
    rw [(loadPlugins_handler_iff c.lua _ _ (utf8 event) i).mpr ⟨rfl, hheld⟩]
    exact hi

/-! ## What is sent -/

/-- What `example.lua` says to a player who is ready. -/
def greeting (pid : UInt16) (p : Player) : List Post :=
  [⟨.player pid, .chatMessage (utf8 "[Server] Welcome, " ++ cstr (utf8 p.username) ++ utf8 "!")⟩,
    ⟨.all, .chatMessage (utf8 "[Server] " ++ cstr (utf8 p.username) ++ utf8 " joined the server.")⟩]

/-- What it says when somebody has left, whoever it was. -/
def farewell : Post := ⟨.all, .chatMessage (utf8 "[Server]  left the server.")⟩

theorem reply_join (hnum : ReadsIds c.tointeger) (s : Server) :
    (reply c.tointeger (shipped c order) s "onPlayerJoin" [idText pid, utf8 p.username]).1 =
      if hears c order "onPlayerJoin" = some .example then greeting pid p else [] := by
  have hargs : pushed [idText pid, utf8 p.username] = [.string (idText pid), .string (cstr (utf8 p.username))] := by
    rw [pushed, List.map_cons, cstr_idText]
    rfl
  rw [reply, hargs, shipped]
  cases hears c order "onPlayerJoin" with
  | none => rfl
  | some plugin =>
    cases plugin with
    | chatCommands => rfl
    | «example» =>
      have hprefix : utf8 "[Server] " ++ utf8 "Welcome, " = utf8 "[Server] Welcome, " := by decide
      have hwelcome : cstr (utf8 "Welcome, " ++ cstr (utf8 p.username) ++ utf8 "!") =
          utf8 "Welcome, " ++ cstr (utf8 p.username) ++ utf8 "!" := by
        refine cstr_eq_self_iff.mpr ?_
        have hplain : 0 ∉ utf8 "Welcome, " ∧ 0 ∉ utf8 "!" := by decide
        simp only [List.mem_append, not_or]
        exact ⟨⟨hplain.1, zero_notMem_cstr _⟩, hplain.2⟩
      have hjoined : cstr (cstr (utf8 p.username) ++ utf8 " joined the server.") =
          cstr (utf8 p.username) ++ utf8 " joined the server." := by
        refine cstr_eq_self_iff.mpr ?_
        simp only [List.mem_append, not_or]
        exact ⟨zero_notMem_cstr _, by decide⟩
      have hfirst := chatPost_id pid (utf8 "Welcome, " ++ cstr (utf8 p.username) ++ utf8 "!")
      have hsecond := chatPost_all (cstr (utf8 p.username) ++ utf8 " joined the server.")
      rw [hwelcome, ← List.append_assoc, ← List.append_assoc, hprefix] at hfirst
      rw [hjoined, ← List.append_assoc] at hsecond
      rw [if_pos rfl, greeting, ← hfirst, ← hsecond]
      show (Script.out c.tointeger s (.sendChatMessage (.string (idText pid)) _ (.sendChatMessage (.integer (-1)) _ _))).1 = _
      rw [Script.out, checkinteger, hnum pid]
      rfl
    | aiTrafficControl =>
      show (Script.out c.tointeger s (.getPlayerCount _)).1 = _
      rw [Script.out]
      split <;> rfl

theorem reply_leave (hnum : ReadsIds c.tointeger) (hgone : s.players.lookup pid = none) :
    (reply c.tointeger (shipped c order) s "onPlayerDisconnect" [idText pid]).1 =
      if hears c order "onPlayerDisconnect" = some .example then [farewell] else [] := by
  have hargs : pushed [idText pid] = [.string (idText pid)] := by
    rw [pushed, List.map_cons, cstr_idText]
    rfl
  rw [reply, hargs, shipped]
  cases hears c order "onPlayerDisconnect" with
  | none => rfl
  | some plugin =>
    cases plugin with
    | chatCommands => rfl
    | «example» =>
      have hcast : castId (Int64.ofInt pid.toNat) = pid := castId_ofInt pid
      have hleft := chatPost_all ([] ++ utf8 " left the server.")
      rw [if_pos rfl]
      show (Script.out c.tointeger s (.getPlayerName (.string (idText pid)) _)).1 = _
      rw [Script.out, checkinteger, hnum pid]
      dsimp only
      rw [hcast, hgone]
      exact congrArg (fun post => [post]) hleft
    | aiTrafficControl =>
      show (Script.out c.tointeger s (.getPlayerCount _)).1 = _
      rw [Script.out]
      split <;> rfl

/-- What is sent about a chat message, a `READY` and a disconnect of a player. -/
structure Talk (w : World) (x : Env) (c : Surroundings) (order : List Shipped) (s : Server) (pid : UInt16) (p : Player) :
    Prop where
  /-- A message that asks the plugin which hears it is answered, and others go to all. -/
  chat : ∀ (payload : Bytes) (len : UInt16), p.isMuted = false → len.toNat ≤ payload.length →
    ∃ t, handleChatWith (firePlugin c.tointeger (shipped c order)) pid payload len [] s = (.ok (), t) ∧
      t.players = s.players ∧
      ((∃ plugin ∈ hears c order "onChatMessage", Asks plugin (cstr ((payload.take len.toNat).take 256))) →
        ∃ text, Says w s t [⟨.player pid, .chatMessage (utf8 "[Server] " ++ text)⟩]) ∧
      ((∀ plugin ∈ hears c order "onChatMessage", ¬ Asks plugin (cstr ((payload.take len.toNat).take 256))) →
        Says w s t [⟨.all, .chatMessage (chatText p (payload.take len.toNat))⟩])
  ready : ∃ t, handleReadyWith w (firePlugin c.tointeger (shipped c order)) pid [] s = (.ok (), t) ∧
    t.players = s.players.put pid { p with state := .ready } ∧
    Says w s t (⟨.all, .playerJoin { p with state := .ready }⟩ ::
      ((if hears c order "onPlayerJoin" = some .example then greeting pid p else []) ++
        [⟨.player pid, .chatMessage (welcome w)⟩]))
  /-- The farewell has no name. -/
  disconnect : ∀ sid, s.sessionToPlayer.lookup sid = some pid → pid ≠ 0xFFFF →
    ∃ t, onDisconnectWith w x (firePlugin c.tointeger (shipped c order)) sid [] s = (.ok (), t) ∧
      t.players = s.players.erase pid ∧
      Says w (removePlayer { s with sessionToPlayer := s.sessionToPlayer.erase sid } pid) t (⟨.all, .playerLeave pid⟩ ::
        ((if hears c order "onPlayerDisconnect" = some .example then [farewell] else []) ++
          if w.cfg.aiEnabled then (x.onAuthorityDisconnect pid).map authorityMessage else []))

/-- In any state and with the files in any order: a message that asks the chat plugin for
    something is answered to its author alone, and every other one goes to all; `example.lua`,
    where it is heard, greets who is ready, and takes leave of a player without a name. -/
theorem shipped_talk (w : World) (x : Env) (c : Surroundings) (order : List Shipped) (hnum : ReadsIds c.tointeger) (s : Server)
    (pid : UInt16) (p : Player) (hp : s.players.lookup pid = some p) : Talk w x c order s pid p where
  chat := by
    intro payload len hmuted hlen
    obtain ⟨t, ht, hplayers, hposts⟩ := chat_posts c.tointeger w (shipped c order) hp hmuted hlen
    have hargs : pushed [idText pid, utf8 p.username, (payload.take len.toNat).take 256] =
        [.string (idText pid), .string (cstr (utf8 p.username)), .string (cstr ((payload.take len.toNat).take 256))] := by
      rw [pushed, List.map_cons, cstr_idText]
      rfl
    rw [reply, hargs, shipped] at hposts
    refine ⟨t, ht, hplayers, ?_, ?_⟩
    · rintro ⟨plugin, hhears, hasks⟩
      obtain ⟨text, htext⟩ := Shipped.answers hnum s pid hasks (.string (cstr (utf8 p.username)))
      rw [Option.mem_def.mp hhears] at hposts
      dsimp only at hposts
      rw [htext] at hposts
      exact ⟨text, hposts⟩
    · intro hnone
      cases hhears : hears c order "onChatMessage" with
      | none =>
        rw [hhears] at hposts
        exact hposts
      | some plugin =>
        have hpasses : Passes c.tointeger s _ :=
          Shipped.passes s pid (hnone plugin hhears) (.string (cstr (utf8 p.username)))
        rw [hhears] at hposts
        dsimp only at hposts
        rw [hpasses] at hposts
        exact hposts
  ready := by
    obtain ⟨t, ht, hplayers, hposts⟩ := ready_posts c.tointeger w (shipped c order) hp
    rw [reply_join hnum] at hposts
    exact ⟨t, ht, hplayers, hposts⟩
  disconnect := by
    intro sid hl hid
    obtain ⟨t, ht, hplayers, hposts⟩ := disconnect_posts c.tointeger w (shipped c order) x hl hid
    have herased : (removePlayer { s with sessionToPlayer := s.sessionToPlayer.erase sid } pid).players =
        s.players.erase pid := by
      rw [removePlayer, if_pos (Table.mem_of_lookup hp)]
    rw [reply_leave hnum (by rw [herased]; exact AList.lookup_erase pid s.players)] at hposts
    exact ⟨t, ht, hplayers.trans herased, hposts⟩

/-- Digits are an integer, and nothing is stopped. -/
def Surroundings.sample : Surroundings where
  tointeger text := if !text.isEmpty && text.all isDigit then some (Int64.ofInt (decimal text)) else none
  pairs := [.help, .players, .ping, .rules]
  active := utf8 "0"
  lua := ⟨fun _ => [], fun _ => false, fun _ => none⟩

theorem sample_readsIds : ReadsIds Surroundings.sample.tointeger := by
  intro pid
  have hdigits : (!(idText pid).isEmpty && (idText pid).all isDigit) = true := by
    rw [Bool.and_eq_true, Bool.not_eq_true', List.isEmpty_eq_false_iff, List.all_eq_true]
    exact ⟨natText_ne_nil pid.toNat, fun b => isDigit_of_mem_natText⟩
  have hvalue : decimal (idText pid) = pid.toNat := decimal_natText pid.toNat
  show (if _ then _ else _) = _
  rw [if_pos hdigits, hvalue]

theorem shipped_talk_joined : ∃ p, Sample.joined.players.lookup 1 = some p ∧
    Talk Sample.world Env.quiet Surroundings.sample [.aiTrafficControl, .example, .chatCommands] Sample.joined 1 p := by
  obtain ⟨p, hp, -⟩ : ∃ p, Sample.joined.players.lookup 1 = some p ∧ p.isMuted = false := by decide
  exact ⟨p, hp, shipped_talk Sample.world Env.quiet .sample _ sample_readsIds Sample.joined 1 p hp⟩

end LuaEngine

end NovaMP
