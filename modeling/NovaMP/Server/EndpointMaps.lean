/-
  NovaMP.Server.EndpointMaps — the two endpoint maps over any calls of `mapPlayer` and
  `unmapPlayer` (`servers/src/network/udp_server.cpp`).

  `mapPlayer` writes a pair into both maps and removes none, so the endpoint a player
  leaves, or the player an endpoint leaves, keeps its half of the old pair. `serve h` is
  the server after the calls `h`, newest first; `Sound h` is what the maps are for: they
  are inverse, an unmapped player has no endpoint, and a broadcast reaches each endpoint
  once.

  - `sound_cons`: from inverse maps a call leaves them sound if and only if it is `Tidy`:
    it binds a player and an endpoint that stand in no other pair, or unmaps an id that is
    not the one for no player.
  - `maps_sound_iff`: so every state of a run is sound exactly when every call in it is tidy.
-/

import NovaMP.Server.Departure
import Mathlib.Data.Fintype.EquivFin

namespace NovaMP

open Lib Exec

/-! ## The calls -/

namespace UDPServer

def mapPlayer (playerId : UInt16) (ep : UDPEndpoint) : ServerM Unit :=
  withLock .map do
    update fun s => { s with udp :=
      { playerToEp := s.udp.playerToEp.insert playerId ep, epToPlayer := s.udp.epToPlayer.insert ep playerId } }

end UDPServer

namespace GameServer

inductive MapCall where
  | mapPlayer (playerId : UInt16) (ep : UDPEndpoint)
  | unmapPlayer (playerId : UInt16)
  deriving DecidableEq, Repr

namespace MapCall

def exec : MapCall → ServerM Unit
  | mapPlayer p ep => UDPServer.mapPlayer p ep
  | unmapPlayer p => UDPServer.unmapPlayer p

/-- What a call makes of the maps. -/
def maps (udp : UDPServer) : MapCall → UDPServer
  | mapPlayer p ep => ⟨udp.playerToEp.insert p ep, udp.epToPlayer.insert ep p⟩
  | unmapPlayer p => udp.unmap p

theorem exec_eq (c : MapCall) (s : Server) : c.exec [] s = (.ok (), { s with udp := c.maps s.udp }) := by
  cases c with
  | mapPlayer p ep => rfl
  | unmapPlayer p => exact UDPServer.unmapPlayer_eq List.not_mem_nil p s

/-- The new pair has neither side in another pair; `0xFFFF` is no player. -/
def Tidy (udp : UDPServer) : MapCall → Prop
  | mapPlayer p ep =>
    (∀ ep', udp.playerToEp.lookup p = some ep' → ep' = ep) ∧ ∀ p', udp.epToPlayer.lookup ep = some p' → p' = p
  | unmapPlayer p => p ≠ 0xFFFF

end MapCall

/-- The server after some calls, the last one first. -/
def serve : List MapCall → Server
  | [] => Server.init
  | c :: h => (c.exec [] (serve h)).2

theorem serve_cons (c : MapCall) (h : List MapCall) : serve (c :: h) = { serve h with udp := c.maps (serve h).udp } := by
  rw [serve, MapCall.exec_eq]

@[simp] theorem serve_sent (h : List MapCall) : (serve h).sent = [] := by
  induction h with
  | nil => rfl
  | cons c h ih =>
    rw [serve_cons]
    exact ih

/-! ## What the maps are for -/

structure Sound (h : List MapCall) : Prop where
  inverse : Table.Inverse (serve h).udp.playerToEp (serve h).udp.epToPlayer
  unmapped : ∀ p t, h = .unmapPlayer p :: t → ∀ ep, (UDPServer.playerFromEndpoint ep [] (serve h)).1 ≠ .ok p
  once : ∀ pkt exclude p ep, (serve h).udp.playerToEp.lookup p = some ep → p ≠ exclude →
    (UDPServer.sendAll pkt exclude [] (serve h)).2.sent.count (.udp ep pkt) = 1

/-- Where no two players share an endpoint, a broadcast reaches each endpoint once. -/
theorem count_toEndpoints {s : Server} (h : s.udp.playerToEp.Inj) {pkt : Bytes} {exclude p : UInt16} {ep : UDPEndpoint}
    (hp : s.udp.playerToEp.lookup p = some ep) (hne : p ≠ exclude) :
    (s.toEndpoints pkt exclude).count (.udp ep pkt) = 1 := by
  have hnodup : (s.toEndpoints pkt exclude).Nodup := by
    rw [Server.toEndpoints, List.Nodup, List.pairwise_map]
    refine ((List.pairwise_map.mp h.nodup_values).filter _).imp ?_
    intro a b hab he
    injection he with he
    exact hab he
  exact List.count_eq_one_of_mem hnodup (mem_toEndpoints.mpr ⟨p, ep, hp, hne, rfl⟩)

theorem once_of_inverse {h : List MapCall}
    (hinv : Table.Inverse (serve h).udp.playerToEp (serve h).udp.epToPlayer) (pkt : Bytes) (exclude p : UInt16)
    (ep : UDPEndpoint) (hp : (serve h).udp.playerToEp.lookup p = some ep) (hne : p ≠ exclude) :
    (UDPServer.sendAll pkt exclude [] (serve h)).2.sent.count (.udp ep pkt) = 1 := by
  rw [UDPServer.sendAll_eq, Server.log_sent, serve_sent, List.nil_append]
  exact count_toEndpoints hinv.inj hp hne

/-- There is always an endpoint that is mapped to nobody. -/
theorem exists_unlisted (udp : UDPServer) : ∃ ep, udp.epToPlayer.lookup ep = none := by
  have hinj : Function.Injective fun n : Nat => (⟨String.ofList (List.replicate n 'a'), 0⟩ : UDPEndpoint) := by
    intro m n hmn
    have hlist := congrArg (fun ep : UDPEndpoint => ep.ip.toList.length) hmn
    simpa using hlist
  have : Infinite UDPEndpoint := Infinite.of_injective _ hinj
  obtain ⟨ep, hep⟩ := Infinite.exists_notMem_finset udp.epToPlayer.keys.toFinset
  refine ⟨ep, AList.lookup_eq_none.mpr fun hm => hep ?_⟩
  exact List.mem_toFinset.mpr (AList.mem_keys.mp hm)

theorem playerFromEndpoint_eq (ep : UDPEndpoint) (s : Server) :
    UDPServer.playerFromEndpoint ep [] s = (.ok ((s.udp.epToPlayer.lookup ep).getD 0xFFFF), s) := rfl

/-! ## One call -/

theorem inverse_unmap {udp : UDPServer} (h : Table.Inverse udp.playerToEp udp.epToPlayer) (p : UInt16) :
    Table.Inverse (udp.unmap p).playerToEp (udp.unmap p).epToPlayer := by
  unfold UDPServer.unmap
  cases hl : udp.playerToEp.lookup p with
  | none => exact h
  | some ep => exact h.erase hl

theorem sound_cons {h : List MapCall} (hs : Sound h) (c : MapCall) : Sound (c :: h) ↔ c.Tidy (serve h).udp := by
  have hudp : (serve (c :: h)).udp = c.maps (serve h).udp := by rw [serve_cons]
  cases c with
  | mapPlayer p ep =>
    have hiff := hs.inverse.insert_iff (k := p) (v := ep)
    constructor
    · intro hc
      have hinv := hc.inverse
      rw [hudp] at hinv
      exact hiff.mp hinv
    · intro ht
      have hinv : Table.Inverse (serve (.mapPlayer p ep :: h)).udp.playerToEp
          (serve (.mapPlayer p ep :: h)).udp.epToPlayer := by
        rw [hudp]
        exact hiff.mpr ht
      exact ⟨hinv, nofun, once_of_inverse hinv⟩
  | unmapPlayer p =>
    have hinv : Table.Inverse (serve (.unmapPlayer p :: h)).udp.playerToEp
        (serve (.unmapPlayer p :: h)).udp.epToPlayer := by
      rw [hudp]
      exact inverse_unmap hs.inverse p
    constructor
    · rintro hc rfl
      obtain ⟨ep, hep⟩ := exists_unlisted (serve (.unmapPlayer 0xFFFF :: h)).udp
      refine hc.unmapped 0xFFFF h rfl ep ?_
      rw [playerFromEndpoint_eq, hep, Option.getD_none]
    · intro hp
      refine ⟨hinv, ?_, once_of_inverse hinv⟩
      rintro q t ⟨rfl, rfl⟩ ep hq
      rw [playerFromEndpoint_eq] at hq
      have hgone := UDPServer.unmap_endpoint (serve h).udp p
      cases hl : (serve (.unmapPlayer p :: h)).udp.epToPlayer.lookup ep with
      | none =>
        rw [hl] at hq
        cases hq
        exact hp rfl
      | some q =>
        obtain rfl : q = p := by simpa [hl] using hq
        have hmapped := (hinv q ep).mpr hl
        rw [hudp, MapCall.maps, hgone] at hmapped
        cases hmapped

/-! ## Runs -/

theorem sound_nil : Sound [] where
  inverse := Table.inverse_empty
  unmapped := nofun
  once := once_of_inverse (h := []) Table.inverse_empty

/-- The maps stay sound through a run exactly when each of its calls is tidy. -/
theorem maps_sound_iff (h : List MapCall) :
    (∀ t, t <:+ h → Sound t) ↔ ∀ c t, c :: t <:+ h → c.Tidy (serve t).udp := by
  constructor
  · intro hs c t ht
    exact (sound_cons (hs t ((List.suffix_cons c t).trans ht)) c).mp (hs _ ht)
  · intro htidy t ht
    induction t with
    | nil => exact sound_nil
    | cons c t ih => exact (sound_cons (ih ((List.suffix_cons c t).trans ht)) c).mpr (htidy c t ht)

/-- A player changes endpoint: its old address still acts for it. -/
theorem old_endpoint_kept : ¬ ∀ h : List MapCall, Sound h := by
  intro hall
  have hs := hall [.mapPlayer 1 ⟨"10.0.0.1", 5001⟩, .mapPlayer 1 ⟨"10.0.0.1", 5000⟩]
  have hold := (hs.inverse 1 ⟨"10.0.0.1", 5000⟩).mpr (by decide)
  revert hold
  decide

end GameServer

end NovaMP
