/-
  NovaMP.Server.PluginIds — the player ids that plugins give to the server
  (`lua_SendChatMessage`, `lua_KickPlayer`, `lua_BanPlayer` and `lua_GetPlayerName` in
  `servers/src/lua/lua_engine.cpp`).

  A Lua integer has 64 bits and a player id 16. Each function casts to `int` and then to
  `uint16_t`, and `sendChat` asks in between whether the number is negative. `playerWith`
  is the player a number names; a number that names none may be cast to one that does.

  - `castId_eq`, `castInt_of_isId`: what the two casts make of a number.
  - `numbers_kept_iff`: the four functions do what the number says exactly if it names a
    player id, or its casts hit nobody.
  - `alias_kicked`: 65537 is no player's id, and `ann` is kicked.
-/

import NovaMP.Server.ChatFilter

namespace NovaMP

open Lib Exec GameServer

namespace LuaEngine

/-! ## The functions of `MP` -/

/-- `(int)luaL_checkinteger(L, 1)` -/
def castInt (n : Int64) : Int := n.toInt32.toInt

/-- The `int` as a `uint16_t`. -/
def castId (n : Int64) : UInt16 := UInt16.ofInt (castInt n)

variable (w : World) (x : Env)

/-- `text` is what `luaL_checkstring` gives. -/
def lua_SendChatMessage (n : Int64) (text : Bytes) : ServerM Unit :=
  sendChat (castInt n) (utf8 "[Server] " ++ cstr text)

/-- `reason` is what `lua_tostring` gives, if the argument is a string. -/
def lua_KickPlayer (n : Int64) (reason : Option Bytes) : ServerM Unit :=
  kickPlayer w x (castId n) ((reason.map cstr).getD (utf8 "Kicked"))

def lua_BanPlayer (n : Int64) (reason : Option Bytes) : ServerM Unit :=
  banPlayer w x (castId n) ((reason.map cstr).getD (utf8 "Banned"))

def lua_GetPlayerName (n : Int64) : ServerM Bytes := do
  match ← getPlayer (castId n) with
  | some p => pure (cstr (utf8 p.username))
  | none => pure []

/-! ## What a number says -/

/-- The number is a player id. -/
def IsId (n : Int64) : Prop := 0 ≤ n.toInt ∧ n.toInt < 2 ^ 16

instance (n : Int64) : Decidable (IsId n) := inferInstanceAs (Decidable (_ ∧ _))

/-- The id it is. -/
def playerWith (n : Int64) : Option UInt16 := if IsId n then some (UInt16.ofInt n.toInt) else none

/-- Whom a chat message is for. -/
def chatFor (n : Int64) (s : Server) (pkt : Bytes) : List Sent :=
  if n = -1 then s.toAll pkt
  else match playerWith n with
    | some id => s.toPlayer id pkt
    | none => []

/-- The four functions concern the player with the id `n` and no other, and the chat goes
    to all for -1. -/
structure NumberKept (n : Int64) (s : Server) : Prop where
  kick : ∀ reason, lua_KickPlayer w x n reason [] s = match playerWith n with
    | some id => kicked s id ((reason.map cstr).getD (utf8 "Kicked"))
    | none => (.ok (), s)
  ban : ∀ reason, lua_BanPlayer w x n reason [] s = match playerWith n with
    | some id => kicked (markBanned s id) id (utf8 "Banned: " ++ (reason.map cstr).getD (utf8 "Banned"))
    | none => (.ok (), s)
  name : lua_GetPlayerName n [] s = (.ok (match (playerWith n).bind fun id => s.players.lookup id with
    | some p => cstr (utf8 p.username)
    | none => []), s)
  chat : ∀ text, lua_SendChatMessage n text [] s =
    (.ok (), s.log (chatFor n s (Packet.buildStr .chatMessage 0 0 (utf8 "[Server] " ++ cstr text))))

/-- Nobody there is kicked, banned, named or told anything: the id has no session, its
    record if there is one is banned already and has no name that is read, and where the
    number is negative as an `int` there is no session at all. -/
structure HitsNobody (n : Int64) (s : Server) : Prop where
  session : s.sessionToPlayer.keyOf (castId n) = none
  record : ∀ p, s.players.lookup (castId n) = some p → p.isBanned = true ∧ cstr (utf8 p.username) = []
  all : castInt n < 0 → n = -1 ∨ Deserted s

/-! ## The casts -/

theorem castInt_eq (n : Int64) : castInt n = n.toInt.bmod (2 ^ 32) := Int64.toInt_toInt32 n

/-- The first cast does not matter for the second. -/
theorem castId_eq (n : Int64) : castId n = UInt16.ofInt n.toInt := by
  refine UInt16.toNat_inj.mp (Int.ofNat_inj.mp ?_)
  rw [castId, toNat_ofInt16, toNat_ofInt16, castInt_eq, Int.bmod_def]
  split <;> omega

theorem castInt_of_isId {n : Int64} (h : IsId n) : castInt n = n.toInt := by
  obtain ⟨hlow, hhigh⟩ := h
  rw [castInt_eq, Int.bmod_def]
  split <;> omega

theorem playerWith_of_isId {n : Int64} (h : IsId n) : playerWith n = some (castId n) := by
  rw [playerWith, if_pos h, castId_eq]

theorem playerWith_of_not {n : Int64} (h : ¬ IsId n) : playerWith n = none := if_neg h

/-! ## Hitting nobody -/

theorem toPlayer_eq_nil_iff (s : Server) (id : UInt16) (pkt : Bytes) :
    s.toPlayer id pkt = [] ↔ s.sessionToPlayer.keyOf id = none := by
  unfold Server.toPlayer
  cases s.sessionToPlayer.keyOf id with
  | none => simp
  | some sid => simp [Server.toSession]

theorem log_eq_self_iff (s : Server) (es : List Sent) : s.log es = s ↔ es = [] := by
  constructor
  · intro h
    have hsent : s.sent ++ es = s.sent := congrArg Server.sent h
    exact List.append_right_eq_self.mp hsent
  · rintro rfl
    exact Server.log_nil s

theorem kicked_of_unmapped {s : Server} {id : UInt16} (h : s.sessionToPlayer.keyOf id = none) (reason : Bytes) :
    kicked s id reason = (.ok (), s) := by
  rw [kicked, h]

/-- A kick that ends has sent a packet, if there was a session for it. -/
theorem kicked_sent {s t : Server} {id : UInt16} {reason : Bytes} (h : kicked s id reason = (.ok (), t))
    (hsent : t.sent = s.sent) : s.sessionToPlayer.keyOf id = none := by
  cases hk : s.sessionToPlayer.keyOf id with
  | none => rfl
  | some sid =>
    simp only [kicked, hk] at h
    have hlog : t = s.log (s.toSession sid (kickPacket reason)) := (dropped_ok h).1
    rw [hlog, Server.log_sent] at hsent
    exact absurd (List.append_right_eq_self.mp hsent) (List.cons_ne_nil _ _)

theorem kicked_eq_self_iff (s : Server) (id : UInt16) (reason : Bytes) :
    kicked s id reason = (.ok (), s) ↔ s.sessionToPlayer.keyOf id = none :=
  ⟨fun h => kicked_sent h rfl, fun h => kicked_of_unmapped h reason⟩

theorem markBanned_sent (s : Server) (id : UInt16) : (markBanned s id).sent = s.sent := by
  unfold markBanned
  split <;> rfl

theorem markBanned_sessions (s : Server) (id : UInt16) : (markBanned s id).sessionToPlayer = s.sessionToPlayer := by
  unfold markBanned
  split <;> rfl

theorem markBanned_eq_self_iff (s : Server) (id : UInt16) :
    markBanned s id = s ↔ ∀ p, s.players.lookup id = some p → p.isBanned = true := by
  constructor
  · intro h p hp
    rw [markBanned, hp] at h
    have hplayers : s.players.put id { p with isBanned := true } = s.players := congrArg Server.players h
    have hlookup := Table.lookup_put_self hp { p with isBanned := true }
    rw [hplayers, hp] at hlookup
    exact congrArg Player.isBanned (Option.some.inj hlookup)
  · intro h
    cases hp : s.players.lookup id with
    | none => rw [markBanned, hp]
    | some p =>
      have hsame : { p with isBanned := true } = p := by rw [← h p hp]
      rw [markBanned, hp]
      dsimp only
      rw [hsame, Table.put_lookup hp]

theorem banned_eq_self_iff (s : Server) (id : UInt16) (reason : Bytes) :
    kicked (markBanned s id) id reason = (.ok (), s) ↔
      s.sessionToPlayer.keyOf id = none ∧ ∀ p, s.players.lookup id = some p → p.isBanned = true := by
  rw [← markBanned_eq_self_iff]
  constructor
  · intro h
    have hnone := kicked_sent h (markBanned_sent s id).symm
    rw [kicked_of_unmapped hnone, Prod.mk.injEq] at h
    rw [markBanned_sessions] at hnone
    exact ⟨hnone, h.2⟩
  · rintro ⟨hnone, hsame⟩
    rw [hsame, kicked_of_unmapped hnone]

/-! ## What each function does -/

theorem lua_KickPlayer_eq (n : Int64) (reason : Option Bytes) (s : Server) :
    lua_KickPlayer w x n reason [] s = kicked s (castId n) ((reason.map cstr).getD (utf8 "Kicked")) :=
  kickPlayer_eq w x _ _ s

theorem lua_BanPlayer_eq (n : Int64) (reason : Option Bytes) (s : Server) :
    lua_BanPlayer w x n reason [] s = kicked (markBanned s (castId n)) (castId n)
      (utf8 "Banned: " ++ (reason.map cstr).getD (utf8 "Banned")) :=
  banPlayer_eq w x _ _ s

theorem lua_GetPlayerName_eq (n : Int64) (s : Server) :
    lua_GetPlayerName n [] s = (.ok (match s.players.lookup (castId n) with
      | some p => cstr (utf8 p.username)
      | none => []), s) := by
  rw [lua_GetPlayerName, run_bind, getPlayer_eq]
  cases s.players.lookup (castId n) <;> rfl

theorem lua_SendChatMessage_eq (n : Int64) (text : Bytes) (s : Server) :
    lua_SendChatMessage n text [] s = (.ok (), s.log (s.chat (castInt n) (utf8 "[Server] " ++ cstr text))) :=
  sendChat_eq _ _ s

/-- A player's number: the casts keep it. -/
theorem kept_of_isId {n : Int64} (h : IsId n) (s : Server) : NumberKept w x n s := by
  have hplayer := playerWith_of_isId h
  have hint : ¬ castInt n < 0 := by
    rw [castInt_of_isId h]
    exact Int.not_lt.mpr h.1
  have hne : n ≠ -1 := by
    rintro rfl
    exact absurd h (by decide)
  constructor
  · intro reason
    rw [hplayer, lua_KickPlayer_eq]
  · intro reason
    rw [hplayer, lua_BanPlayer_eq]
  · rw [hplayer, lua_GetPlayerName_eq]
    rfl
  · intro text
    rw [lua_SendChatMessage_eq, chatFor, if_neg hne, hplayer, Server.chat, if_neg hint]
    rfl

theorem chat_eq_nil_iff (s : Server) (m : Int) (text : Bytes) :
    s.chat m text = [] ↔ if m < 0 then Deserted s else s.sessionToPlayer.keyOf (UInt16.ofInt m) = none := by
  rw [Server.chat]
  split
  · exact toAll_eq_nil_iff s _
  · exact toPlayer_eq_nil_iff s _ _

/-- Another number that is cast to nobody's id. -/
theorem kept_of_hitsNobody {n : Int64} (h : ¬ IsId n) {s : Server} (hhits : HitsNobody n s) : NumberKept w x n s := by
  have hplayer := playerWith_of_not h
  obtain ⟨hsession, hrecord, hall⟩ := hhits
  constructor
  · intro reason
    rw [hplayer, lua_KickPlayer_eq]
    exact kicked_of_unmapped hsession _
  · intro reason
    rw [hplayer, lua_BanPlayer_eq]
    exact (banned_eq_self_iff s _ _).mpr ⟨hsession, fun p hp => (hrecord p hp).1⟩
  · rw [hplayer, lua_GetPlayerName_eq]
    cases hp : s.players.lookup (castId n) with
    | none => rfl
    | some p =>
      show (Except.ok (cstr (utf8 p.username)), s) = _
      rw [(hrecord p hp).2]
      rfl
  · intro text
    rw [lua_SendChatMessage_eq, chatFor, hplayer]
    by_cases hminus : n = -1
    · rw [if_pos hminus, hminus, Server.chat, if_pos (by decide)]
    · rw [if_neg hminus, (chat_eq_nil_iff s _ _).mpr]
      split
      · exact (hall ‹_›).resolve_left hminus
      · exact hsession

/-- And if it were cast to somebody's, one of the four would do more than it should. -/
theorem hitsNobody_of_kept {n : Int64} (h : ¬ IsId n) {s : Server} (hkept : NumberKept w x n s) : HitsNobody n s := by
  have hplayer := playerWith_of_not h
  have hkick := hkept.kick none
  have hban := hkept.ban none
  have hname := hkept.name
  have hchat := hkept.chat []
  rw [hplayer, lua_KickPlayer_eq, kicked_eq_self_iff] at hkick
  rw [hplayer, lua_BanPlayer_eq, banned_eq_self_iff] at hban
  rw [hplayer, lua_GetPlayerName_eq] at hname
  refine ⟨hkick, fun p hp => ⟨hban.2 p hp, ?_⟩, fun hneg => ?_⟩
  · rw [hp] at hname
    exact Except.ok.inj (Prod.mk.inj hname).1
  · by_cases hall : n = -1
    · exact .inl hall
    · rw [lua_SendChatMessage_eq, chatFor, if_neg hall, hplayer, Server.log_nil, Prod.mk.injEq, log_eq_self_iff,
        chat_eq_nil_iff, if_pos hneg] at hchat
      exact .inr hchat.2

/-- The four functions do what the number says exactly if it is a player id, or what it is
    cast to hits nobody. -/
theorem numbers_kept_iff (n : Int64) (s : Server) : NumberKept w x n s ↔ IsId n ∨ HitsNobody n s := by
  by_cases h : IsId n
  · exact iff_of_true (kept_of_isId w x h s) (.inl h)
  · rw [or_iff_right h]
    exact ⟨hitsNobody_of_kept w x h, kept_of_hitsNobody w x h⟩

/-- `ann` has the id 1, and 65537 is cast to it. -/
theorem alias_kicked : ¬ ∀ (w : World) (x : Env) (s : Server) (n : Int64), Reach w anyStep s → NumberKept w x n s := by
  intro h
  have hreach : Reach Sample.world anyStep Sample.joined :=
    .step (.step .init trivial Sample.step_connected) trivial Sample.step_joined
  have hkick := (h Sample.world Env.quiet Sample.joined 65537 hreach).kick none
  rw [playerWith_of_not (by decide), lua_KickPlayer_eq, kicked_eq_self_iff] at hkick
  exact absurd hkick (by decide)

end LuaEngine

end NovaMP
