/-
  NovaMP.Server.PluginPlayers — how a plugin finds the player an event is about
  (`fireEvent` and `lua_GetPlayers` in `servers/src/lua/lua_engine.cpp`, the plugin
  `ai_traffic_control.lua`).

  An event passes ids as strings, and `MP.GetPlayers()` has them as integers. Lua's `==`
  converts neither, so the plugin that looks for the sender of a chat message finds no one.

  - `obeys_iff`, `isAdmin_iff`: the plugin does what a command says if some entry of the
    list has the id it was given and the role `admin`.
  - `integer_recognised`, `integer_obeyed_iff`: an integer would be the id of the player's
    entry alone, and the plugin would obey admins and nobody else.
  - `never_recognised`: no argument of an event is the id of an entry.
  - `admin_ignored`: an admin whose command does nothing.
-/

import NovaMP.Server.Plugins
import NovaMP.Server.Roles

namespace NovaMP

open Lib GameServer

namespace LuaEngine

/-! ## Values -/

/-- What the engine gives to a plugin: `lua_pushstring` makes a string, `lua_pushinteger`
    an integer, and an argument that is not passed is nil. -/
inductive Value where
  | nil
  | string (s : Bytes)
  | integer (n : Int)
deriving DecidableEq

/-- Lua's `==`: values of different types are different. -/
def Value.equals : Value → Value → Bool
  | .nil, .nil => true
  | .string a, .string b => a == b
  | .integer a, .integer b => a == b
  | _, _ => false

@[simp] theorem Value.equals_iff (a b : Value) : a.equals b = true ↔ a = b := by
  cases a <;> cases b <;> simp [Value.equals]

/-- The arguments a handler is called with. -/
def pushed (args : List Bytes) : List Value := args.map fun a => .string (cstr a)

/-! ## `MP.GetPlayers` -/

structure PlayerEntry where
  id : Value
  name : Value
  role : Value
deriving DecidableEq

def playerEntry (p : Player) : PlayerEntry :=
  ⟨.integer p.id.toNat, .string (cstr (utf8 p.username)), .string (cstr (utf8 p.role))⟩

def lua_GetPlayers (s : Server) : List PlayerEntry := s.players.entries.map fun e => playerEntry e.2

/-! ## `ai_traffic_control.lua` -/

/-- `message:match(pattern)` for the pattern `^pre(class+)$`. -/
def matchAll (pre : Bytes) (cls : UInt8 → Bool) (message : Bytes) : Option Bytes :=
  let rest := message.drop pre.length
  if pre <+: message ∧ rest ≠ [] ∧ rest.all cls then some rest else none

/-- `%d` -/
def isDigitByte (b : UInt8) : Bool := 48 ≤ b && b ≤ 57

/-- `%a` -/
def isAlphaByte (b : UInt8) : Bool := (65 ≤ b && b ≤ 90) || (97 ≤ b && b ≤ 122)

inductive AiCommand where
  | spawn
  | clear
  | status
  | count (n : Bytes)
  | speed (spd : Bytes)
  | mode (mode : Bytes)
deriving DecidableEq

/-- The tests of the message, in their order. -/
def aiCommand (message : Bytes) : Option AiCommand :=
  if message = utf8 "!ai spawn" then some .spawn
  else if message = utf8 "!ai clear" then some .clear
  else if message = utf8 "!ai status" then some .status
  else match matchAll (utf8 "!ai count ") isDigitByte message with
    | some n => some (.count n)
    | none =>
      match matchAll (utf8 "!ai speed ") (fun b => isDigitByte b || b == 46) message with
      | some spd => some (.speed spd)
      | none => (matchAll (utf8 "!ai mode ") isAlphaByte message).map .mode

/-- What the plugin calls; a text that `tonumber` reads is left as it is. -/
inductive ApiCall where
  | spawn (model : Bytes)
  | despawnAll
  | status
  | setCount (n : Bytes)
  | setSpeedLimit (spd : Bytes)
  | setMode (mode : Bytes)
  | SendChatMessage (player_id : Value) (text : Bytes)
deriving DecidableEq

/-- `active` is what `NovaMP.AI.status()` returns. The calls are made as long as none
    raises an error. -/
def AiCommand.calls (active : Bytes) (player_id : Value) : AiCommand → List ApiCall
  | .spawn => [.spawn (utf8 "etk800"), .SendChatMessage player_id (utf8 "AI vehicle spawned.")]
  | .clear => [.despawnAll, .SendChatMessage player_id (utf8 "All AI vehicles removed.")]
  | .status => [.status, .SendChatMessage player_id (utf8 "AI active: " ++ active)]
  | .count n => [.setCount n, .SendChatMessage player_id (utf8 "AI count -> " ++ n)]
  | .speed spd => [.setSpeedLimit spd, .SendChatMessage player_id (utf8 "AI speed -> " ++ spd ++ utf8 " m/s")]
  | .mode m => [.setMode m, .SendChatMessage player_id (utf8 "AI mode -> " ++ m)]

/-- The loop over the players, up to its `break`. -/
def isAdmin (player_id : Value) : List PlayerEntry → Bool
  | [] => false
  | p :: ps =>
    if p.id.equals player_id && p.role.equals (.string (utf8 "admin")) then true else isAdmin player_id ps

/-- The handler: its calls and its result; `none` is the error of `message:match` on a
    message that is no string. -/
def onChatMessage (active : Bytes) (players : List PlayerEntry) (player_id message : Value) :
    Option (List ApiCall × Value) :=
  if !isAdmin player_id players then some ([], .nil)
  else match message with
    | .string m =>
      match aiCommand m with
      | some c => some (c.calls active player_id, .string (utf8 "blocked"))
      | none => some ([], .nil)
    | _ => none

/-! ## What the plugin does -/

theorem isAdmin_iff (player_id : Value) (ps : List PlayerEntry) :
    isAdmin player_id ps = true ↔ ∃ e ∈ ps, e.id = player_id ∧ e.role = .string (utf8 "admin") := by
  induction ps with
  | nil => simp [isAdmin]
  | cons p ps ih =>
    rw [isAdmin, List.exists_mem_cons_iff, ← ih]
    by_cases hp : (p.id.equals player_id && p.role.equals (.string (utf8 "admin"))) = true
    · rw [if_pos hp]
      simp only [Bool.and_eq_true, Value.equals_iff] at hp
      exact iff_of_true rfl (.inl hp)
    · rw [if_neg hp]
      simp only [Bool.and_eq_true, Value.equals_iff] at hp
      exact (or_iff_right hp).symm

/-- The plugin does what the message says. -/
def Obeys (s : Server) (player_id message : Value) : Prop :=
  ∀ active, ∃ m c, message = .string m ∧ aiCommand m = some c ∧
    onChatMessage active (lua_GetPlayers s) player_id message =
      some (c.calls active player_id, .string (utf8 "blocked"))

theorem calls_ne_nil (active : Bytes) (player_id : Value) (c : AiCommand) : c.calls active player_id ≠ [] := by
  cases c <;> simp [AiCommand.calls]

theorem obeys_iff (s : Server) (player_id : Value) (m : Bytes) :
    Obeys s player_id (.string m) ↔ isAdmin player_id (lua_GetPlayers s) = true ∧ (aiCommand m).isSome := by
  constructor
  · intro h
    obtain ⟨m', c, hm, hc, hrun⟩ := h []
    obtain rfl := Value.string.inj hm
    refine ⟨?_, by rw [hc]; rfl⟩
    by_contra hadmin
    rw [onChatMessage, Bool.eq_false_iff.mpr hadmin] at hrun
    simp only [Bool.not_false, if_true, Option.some.injEq, Prod.mk.injEq] at hrun
    exact calls_ne_nil [] player_id c hrun.1.symm
  · rintro ⟨hadmin, hsome⟩ active
    obtain ⟨c, hc⟩ := Option.isSome_iff_exists.mp hsome
    refine ⟨m, c, rfl, hc, ?_⟩
    simp only [onChatMessage, hadmin, Bool.not_true, Bool.false_eq_true, if_false, hc]

/-! ## An id of the right type -/

/-- The value is the `id` of the player's entry, and of no other. -/
def Recognised (s : Server) (v : Value) (p : Player) : Prop :=
  playerEntry p ∈ lua_GetPlayers s ∧ ∀ e ∈ lua_GetPlayers s, v.equals e.id = true ↔ e = playerEntry p

theorem mem_getPlayers {s : Server} {e : PlayerEntry} :
    e ∈ lua_GetPlayers s ↔ ∃ pid p, s.players.lookup pid = some p ∧ playerEntry p = e := by
  rw [lua_GetPlayers, List.mem_map]
  constructor
  · rintro ⟨⟨pid, p⟩, hmem, he⟩
    exact ⟨pid, p, Table.lookup_iff_mem.mpr hmem, he⟩
  · rintro ⟨pid, p, hp, he⟩
    exact ⟨⟨pid, p⟩, Table.lookup_iff_mem.mp hp, he⟩

theorem playerEntry_mem {s : Server} {pid : UInt16} {p : Player} (hp : s.players.lookup pid = some p) :
    playerEntry p ∈ lua_GetPlayers s := mem_getPlayers.mpr ⟨pid, p, hp, rfl⟩

/-- The id as an integer is that of one entry. -/
theorem integer_eq_iff {s : Server} (h : Records s) {pid : UInt16} {p : Player} (hp : s.players.lookup pid = some p)
    {e : PlayerEntry} (he : e ∈ lua_GetPlayers s) : e.id = .integer pid.toNat ↔ e = playerEntry p := by
  obtain ⟨pid', p', hp', rfl⟩ := mem_getPlayers.mp he
  constructor
  · intro hid
    have hint : (p'.id.toNat : Int) = pid.toNat := Value.integer.inj hid
    rw [(h pid' p' hp').id] at hint
    obtain rfl : pid' = pid := UInt16.toNat_inj.mp (by omega)
    rw [Option.some.inj (hp.symm.trans hp')]
  · intro heq
    rw [heq, playerEntry, (h pid p hp).id]

theorem integer_recognised {s : Server} (h : Records s) {pid : UInt16} {p : Player}
    (hp : s.players.lookup pid = some p) : Recognised s (.integer pid.toNat) p := by
  refine ⟨playerEntry_mem hp, fun e he => ?_⟩
  rw [Value.equals_iff, eq_comm]
  exact integer_eq_iff h hp he

/-- With it the plugin obeys exactly the admins. -/
theorem integer_obeyed_iff {s : Server} (h : Records s) {pid : UInt16} {p : Player}
    (hp : s.players.lookup pid = some p) (m : Bytes) :
    Obeys s (.integer pid.toNat) (.string m) ↔ luaRole p.role = utf8 "admin" ∧ (aiCommand m).isSome := by
  rw [obeys_iff, isAdmin_iff]
  refine and_congr_left fun _ => ⟨?_, ?_⟩
  · rintro ⟨e, he, hid, hrole⟩
    obtain rfl := (integer_eq_iff h hp he).mp hid
    exact Value.string.inj hrole
  · intro hrole
    exact ⟨playerEntry p, playerEntry_mem hp, (integer_eq_iff h hp (playerEntry_mem hp)).mpr rfl,
      congrArg Value.string hrole⟩

/-! ## The id that an event has -/

theorem string_ne_id {s : Server} {e : PlayerEntry} (he : e ∈ lua_GetPlayers s) (b : Bytes) : .string b ≠ e.id := by
  obtain ⟨pid, p, -, rfl⟩ := mem_getPlayers.mp he
  exact nofun

theorem string_not_recognised (s : Server) (b : Bytes) (p : Player) : ¬ Recognised s (.string b) p := by
  intro h
  obtain ⟨hmem, hall⟩ := h
  exact string_ne_id hmem b ((Value.equals_iff _ _).mp ((hall _ hmem).mpr rfl))

theorem string_not_obeyed (s : Server) (b m : Bytes) : ¬ Obeys s (.string b) (.string m) := by
  intro h
  obtain ⟨e, he, hid, -⟩ := (isAdmin_iff _ _).mp ((obeys_iff s _ m).mp h).1
  exact string_ne_id he b hid.symm

/-- No argument of an event is the `id` of the player's entry, and the plugin obeys nobody:
    it does as it should for those only who are no admins or give no command. -/
theorem never_recognised (s : Server) {pid : UInt16} {p : Player} (hp : s.players.lookup pid = some p) :
    playerEntry p ∈ lua_GetPlayers s ∧ (∀ args, ∀ v ∈ pushed args, ¬ Recognised s v p) ∧
      ∀ msg, (Obeys s (.string (cstr (idText pid))) (.string (cstr msg)) ↔
          luaRole p.role = utf8 "admin" ∧ (aiCommand (cstr msg)).isSome) ↔
        ¬ (luaRole p.role = utf8 "admin" ∧ (aiCommand (cstr msg)).isSome) := by
  refine ⟨playerEntry_mem hp, fun args v hv => ?_, fun msg => ?_⟩
  · obtain ⟨a, -, rfl⟩ := List.mem_map.mp hv
    exact string_not_recognised s _ p
  · rw [iff_false_left (string_not_obeyed s _ _)]

theorem never_recognised_ann : ∃ p, Sample.joined.players.lookup 1 = some p ∧
    playerEntry p ∈ lua_GetPlayers Sample.joined ∧
    (∀ args, ∀ v ∈ pushed args, ¬ Recognised Sample.joined v p) ∧
    ∀ msg, (Obeys Sample.joined (.string (cstr (idText 1))) (.string (cstr msg)) ↔
        luaRole p.role = utf8 "admin" ∧ (aiCommand (cstr msg)).isSome) ↔
      ¬ (luaRole p.role = utf8 "admin" ∧ (aiCommand (cstr msg)).isSome) := by
  obtain ⟨p, hp, -⟩ : ∃ p, Sample.joined.players.lookup 1 = some p ∧ p.isMuted = false := by decide
  exact ⟨p, hp, never_recognised Sample.joined hp⟩

/-- The server after `ann` has joined as an admin. -/
def withAdmin : Server :=
  after Impostor.world Impostor.connected Env.quiet (.frame 0 (authFrame (Impostor.asking "admin")))

/-- `ann` is an admin, and nothing comes of her `!ai clear`. -/
theorem admin_ignored : ¬ ∀ (w : World) (s : Server) (pid : UInt16) (p : Player), Reach w anyStep s →
    s.players.lookup pid = some p →
      Recognised s (.string (cstr (idText pid))) p ∧
        ∀ msg, Obeys s (.string (cstr (idText pid))) (.string (cstr msg)) ↔
          luaRole p.role = utf8 "admin" ∧ (aiCommand (cstr msg)).isSome := by
  intro h
  have hreach : Reach Impostor.world anyStep withAdmin :=
    .step Impostor.reach_connected trivial (step_after _ _ _ (by decide))
  have hann : withAdmin.players.lookup 1 = some (Impostor.ann "admin") := by decide
  have hobeys := ((h Impostor.world withAdmin 1 _ hreach hann).2 (utf8 "!ai clear")).mpr (by decide)
  exact string_not_obeyed withAdmin _ _ hobeys

end LuaEngine

end NovaMP
