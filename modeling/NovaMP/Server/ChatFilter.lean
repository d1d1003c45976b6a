/-
  NovaMP.Server.ChatFilter — what a chat filter is shown, and what is then sent
  (`handleChat`, `sendChat` and `Packet::buildStr` in `servers/src/game_server.cpp` and
  `shared/protocol.hpp`, `fireEvent` in `servers/src/lua/lua_engine.cpp`).

  The name and the message are two `std::string`s. To the plugins they go as C strings,
  which end at the first zero byte; to the players they go as one counted string, whose
  length is cast to 16 bits.

  - `take_eq_iff`: when a text made of two parts, cut to 16 bits, is the text of the two
    parts cut at their first zero bytes.
  - `shown_is_sent_iff`: so the plugins have seen what is sent exactly if there is no zero
    byte and the text is short enough, or if nothing is sent at all.
  - `hidden_text`: a message whose second half the plugins do not see.
-/

import NovaMP.Server.Plugins
import NovaMP.Server.Whole

namespace NovaMP

open Lib Exec

namespace GameServer

/-! ## Shown and sent -/

/-- The plugins have been asked once, about a name and a message, and every packet that
    went out since holds these two. -/
def ShownIsSent (s t : Server) : Prop :=
  ∃ id name msg es, t.fired = s.fired ++ [⟨"onChatMessage", [id, name, msg], []⟩] ∧ t.sent = s.sent ++ es ∧
    ∀ e ∈ es, ∃ sid object pkt, e = .tcp sid object pkt ∧ Packet.payload pkt = name ++ utf8 ": " ++ msg

/-- Nothing in the name and the message ends a C string, and the two fit a packet. -/
def PlainText (p : Player) (msg : Bytes) : Prop :=
  0 ∉ utf8 p.username ∧ 0 ∉ msg.take 256 ∧ (chatText p msg).length ≤ 65535

instance (p : Player) (msg : Bytes) : Decidable (PlainText p msg) := inferInstanceAs (Decidable (_ ∧ _))

/-- A plugin refuses the message. -/
def Blocks (x : Env) (pid : UInt16) (p : Player) (msg : Bytes) : Prop :=
  refuses (cstr (x.plugin "onChatMessage" (chatArgs pid p msg))) = true

/-- There is no session that a broadcast goes to. -/
def Deserted (s : Server) : Prop := ∀ sid ∈ s.tcp.sessions, sid = 0xFFFF

/-- The arguments that the engine pushes for the handler. -/
theorem handed_eq (lua : LuaEngine.Lua) (g : LuaEngine.Globals) (pid : UInt16) (p : Player) (msg : Bytes) :
    ∀ c ∈ (LuaEngine.fireEvent lua g (utf8 "onChatMessage") [idText pid, utf8 p.username, msg.take 256]).2,
      c.args = (chatArgs pid p msg).map .string := by
  intro c hc
  rw [LuaEngine.fireEvent_calls, LuaEngine.callsOf] at hc
  split at hc
  · cases hc
  · rw [List.mem_singleton.mp hc]
    rfl

/-! ## Two cuts of one text -/

theorem cstr_length_le (b : Bytes) : (cstr b).length ≤ b.length := (List.takeWhile_prefix _).length_le

/-- The byte that ends a C string. -/
theorem get_cstr_length {b : Bytes} (h : 0 ∈ b) : b[(cstr b).length]? = some 0 := by
  induction b with
  | nil => cases h
  | cons a b ih =>
    by_cases ha : a = 0
    · subst ha
      rfl
    · have hmem : 0 ∈ b := (List.mem_cons.mp h).resolve_left (Ne.symm ha)
      have hcons : cstr (a :: b) = a :: cstr b := List.takeWhile_cons_of_pos (by simpa using ha)
      rw [hcons, List.length_cons, List.getElem?_cons_succ]
      exact ih hmem

/-- A text that starts with the C string of its first part, and goes on with a byte that is
    not zero, starts with the whole first part. -/
theorem notMem_of_take_eq {n : Nat} {u v v' : Bytes} {c : UInt8} (hc : c ≠ 0)
    (h : (u ++ v).take n = cstr u ++ c :: v') : 0 ∉ u := by
  intro hmem
  have hget := congrArg (fun b => b[(cstr u).length]?) h
  have hlt : (cstr u).length < u.length := (List.getElem?_eq_some_iff.mp (get_cstr_length hmem)).1
  have hleft : (u ++ v)[(cstr u).length]? = some 0 := by
    rw [List.getElem?_append_left hlt, get_cstr_length hmem]
  have hright : (cstr u ++ c :: v')[(cstr u).length]? = some c := by simp
  rw [hright] at hget
  rw [List.getElem?_take, hleft] at hget
  split at hget
  · exact hc (Option.some.inj hget).symm
  · cases hget

/-- The first cut is by length, the other at the zero bytes. -/
theorem take_eq_iff {u m rest : Bytes} {c : UInt8} (hc : c ≠ 0) (hm : m.length < 65536) :
    (u ++ c :: rest ++ m).take ((u ++ c :: rest ++ m).length % 65536) = cstr u ++ c :: rest ++ cstr m ↔
      0 ∉ u ∧ 0 ∉ m ∧ (u ++ c :: rest ++ m).length ≤ 65535 := by
  constructor
  · intro h
    have hu : 0 ∉ u := by
      rw [List.append_assoc u, List.append_assoc (cstr u)] at h
      exact notMem_of_take_eq hc h
    rw [LuaEngine.cstr_eq_self_iff.mpr hu] at h
    have hlen := congrArg List.length h
    have hcut := cstr_length_le m
    simp only [List.length_take, List.length_append, List.length_cons] at hlen ⊢
    -- the part that is cut off is a multiple of 65536, and less than that
    have hwhole : (cstr m).length = m.length := by omega
    have hcstr : cstr m = m := (List.takeWhile_prefix _).eq_of_length hwhole
    exact ⟨hu, LuaEngine.cstr_eq_self_iff.mp hcstr, by omega⟩
  · rintro ⟨hu, hm, hlen⟩
    rw [LuaEngine.cstr_eq_self_iff.mpr hu, LuaEngine.cstr_eq_self_iff.mpr hm, Nat.mod_eq_of_lt (by omega),
      List.take_length]

/-! ## A chat message -/

theorem chat_payload_iff (p : Player) (msg : Bytes) :
    Packet.payload (Packet.buildStr .chatMessage 0 0 (chatText p msg)) =
      cstr (utf8 p.username) ++ utf8 ": " ++ cstr (msg.take 256) ↔ PlainText p msg := by
  have hcolon : utf8 ": " = 58 :: [32] := by decide
  have hshort : (msg.take 256).length < 65536 := by
    rw [List.length_take]
    omega
  rw [Packet.payload_buildStr, PlainText, chatText, hcolon]
  exact take_eq_iff (by decide) hshort

theorem toAll_eq_nil_iff (s : Server) (pkt : Bytes) : s.toAll pkt = [] ↔ Deserted s := by
  simp only [Server.toAll, List.map_eq_nil_iff, List.filter_eq_nil_iff, decide_eq_true_eq, not_not, Deserted]
  constructor
  · intro h sid hsid
    obtain ⟨object, hlookup⟩ := Table.mem_iff.mp hsid
    exact h ⟨sid, object⟩ (Table.lookup_iff_mem.mp hlookup)
  · intro h e he
    exact h e.1 (Table.mem_of_lookup (Table.lookup_iff_mem.mpr he))

theorem mem_toAll {s : Server} {pkt : Bytes} {e : Sent} (h : e ∈ s.toAll pkt) :
    ∃ sid object, e = .tcp sid object pkt := by
  obtain ⟨entry, -, rfl⟩ := List.mem_map.mp h
  exact ⟨entry.1, some entry.2, rfl⟩

/-- A message that is asked about, and what is then sent. -/
theorem shownIsSent_log_iff (s : Server) (pid : UInt16) (p : Player) (msg : Bytes) (es : List Sent) :
    ShownIsSent s ((s.note ⟨"onChatMessage", chatArgs pid p msg, []⟩).log es) ↔
      ∀ e ∈ es, ∃ sid object pkt, e = .tcp sid object pkt ∧
        Packet.payload pkt = cstr (utf8 p.username) ++ utf8 ": " ++ cstr (msg.take 256) := by
  constructor
  · rintro ⟨id, name, text, es', hfired, hsent, hall⟩
    have hargs := List.append_cancel_left hfired
    simp only [List.cons.injEq, Fired.mk.injEq, chatArgs, and_true, true_and] at hargs
    obtain ⟨-, rfl, rfl⟩ := hargs
    obtain rfl := List.append_cancel_left hsent
    exact hall
  · intro hall
    exact ⟨_, _, _, es, rfl, rfl, hall⟩

theorem chatted_shown_iff (x : Env) (s : Server) {pid : UInt16} {p : Player} (hp : s.players.lookup pid = some p)
    (hmuted : p.isMuted = false) (msg : Bytes) :
    ShownIsSent s (chatted x s pid msg) ↔ Blocks x pid p msg ∨ Deserted s ∨ PlainText p msg := by
  have hnot : ¬ p.isMuted = true := by rw [hmuted]; exact Bool.false_ne_true
  simp only [chatted, hp, if_neg hnot]
  by_cases hblock : refuses (cstr (x.plugin "onChatMessage" (chatArgs pid p msg))) = true
  · rw [if_pos hblock, ← Server.log_nil (s.note _), shownIsSent_log_iff]
    refine ⟨fun _ => .inl hblock, fun _ e he => ?_⟩
    cases he
  have hpasses : ¬ Blocks x pid p msg := hblock
  rw [if_neg hblock, shownIsSent_log_iff, or_iff_right hpasses, Server.chat, if_pos (by decide)]
  show (∀ e ∈ s.toAll _, _) ↔ _
  by_cases hdeserted : Deserted s
  · rw [(toAll_eq_nil_iff s _).mpr hdeserted]
    refine ⟨fun _ => .inl hdeserted, fun _ e he => ?_⟩
    cases he
  rw [or_iff_right hdeserted, ← chat_payload_iff]
  constructor
  · intro hall
    obtain ⟨e, he⟩ := List.exists_mem_of_ne_nil _ (mt (toAll_eq_nil_iff s _).mp hdeserted)
    obtain ⟨sid, object, rfl⟩ := mem_toAll he
    obtain ⟨sid', object', pkt, heq, hpayload⟩ := hall _ he
    cases heq
    exact hpayload
  · intro hpayload e he
    obtain ⟨sid, object, rfl⟩ := mem_toAll he
    exact ⟨sid, object, _, rfl, hpayload⟩

/-- The plugins have seen what is sent exactly if one of them refuses it, nobody is there,
    or it has no zero byte and fits a packet. -/
theorem shown_is_sent_iff (x : Env) (s : Server) {pid : UInt16} {p : Player} (hp : s.players.lookup pid = some p)
    (hmuted : p.isMuted = false) {pl : Bytes} {len : UInt16} (hlen : len.toNat ≤ pl.length) :
    ShownIsSent s (handleChat x pid pl len [] s).2 ↔
      Blocks x pid p (pl.take len.toNat) ∨ Deserted s ∨ PlainText p (pl.take len.toNat) := by
  rw [handleChat_eq, readBytes_of_le hlen]
  exact chatted_shown_iff x s hp hmuted _

theorem shown_is_sent_hi : ∃ p, Sample.joined.players.lookup 1 = some p ∧
    (ShownIsSent Sample.joined (handleChat Env.quiet 1 (utf8 "hi") 2 [] Sample.joined).2 ↔
      Blocks Env.quiet 1 p ((utf8 "hi").take 2) ∨ Deserted Sample.joined ∨ PlainText p ((utf8 "hi").take 2)) := by
  obtain ⟨p, hp, hmuted⟩ : ∃ p, Sample.joined.players.lookup 1 = some p ∧ p.isMuted = false := by decide
  exact ⟨p, hp, shown_is_sent_iff Env.quiet Sample.joined hp hmuted (by decide)⟩

/-- `hi`, a zero byte and a text for the players alone. -/
def hidden : Bytes := utf8 "hi\u0000hidden"

/-- The plugins see `hi`, and `ann` says more. -/
theorem hidden_text : ¬ ∀ (w : World) (x : Env) (s : Server) (pid : UInt16) (p : Player) (pl : Bytes) (len : UInt16),
    Reach w anyStep s → s.players.lookup pid = some p → p.isMuted = false → len.toNat ≤ pl.length →
      ShownIsSent s (handleChat x pid pl len [] s).2 := by
  intro h
  have hreach : Reach Sample.world anyStep Sample.joined :=
    .step (.step .init trivial Sample.step_connected) trivial Sample.step_joined
  obtain ⟨p, hp, hmuted⟩ : ∃ p, Sample.joined.players.lookup 1 = some p ∧ p.isMuted = false := by decide
  have hshown := h Sample.world Env.quiet Sample.joined 1 p hidden 9 hreach hp hmuted (by decide)
  rw [handleChat_eq, readBytes_of_le (by decide)] at hshown
  rcases (chatted_shown_iff _ _ hp hmuted _).mp hshown with hblock | hdeserted | hplain
  · exact Bool.false_ne_true hblock
  · exact absurd (hdeserted 1 (by decide)) (by decide)
  · exact hplain.2.1 (by decide)

end GameServer

end NovaMP
