/-
  NovaMP.Server.Sessions — whose connection a session id stands for.

  `m_next_session_id` counts the connections in 16 bits and wraps around; nothing looks
  whether the id it gives is in use. `0xFFFF` excludes nobody in `sendAll`, so the
  session with that id is never sent to. `allocPlayerID` leaves `0xFFFF` out, but does
  not look for ids in use either. So an id stands for one open connection in the runs
  that accept none under the id of another or under `0xFFFF`, close none whose id has
  been given away, and give no player's id away (`KeepsSessions`).

  - `change_apart`: one call keeps the open connections apart.
  - `sessions_of_keepsSessions`: so every such run does.
  - `sentinel_session`: the connection number 65535.
-/

import NovaMP.Server.Slots
import NovaMP.Server.VehicleStore

namespace NovaMP.GameServer

open Lib Exec

variable (w : World) (s : Server)

/-- A connection other than the one that closes is still there, and so is its player. -/
structure Spared (s s' : Server) (sid : UInt16) : Prop where
  session : s'.tcp.sessions.lookup sid = s.tcp.sessions.lookup sid
  player : s'.sessionToPlayer.lookup sid = s.sessionToPlayer.lookup sid
  record : ∀ pid, s.sessionToPlayer.lookup sid = some pid → s'.players.lookup pid = s.players.lookup pid

/-- The ids of the open connections tell them apart, none of them is `0xFFFF`, so that
    `sendAll` reaches them all; and in the history no new connection had a player, and
    none lost its session or its player as another one closed. -/
structure Identified (h : List Moment) (s : Server) : Prop where
  differ : OpenIdsDiffer s.tcp
  named : ∀ object, ¬ OpenAs s.tcp object 0xFFFF
  reached : ∀ object sid pkt, OpenAs s.tcp object sid → .tcp sid (some object) pkt ∈ s.toAll pkt
  unknown : ∀ m ∈ h, ∀ ip sid, m.call = .accept ip → OpenAs m.after.tcp m.before.tcp.objects.length sid →
    sid ∉ m.after.sessionToPlayer
  spared : ∀ m ∈ h, ∀ object other sid, m.call = .close object → OpenAs m.before.tcp other sid → other ≠ object →
    Spared m.before m.after sid

/-- No connection gets `0xFFFF` or the id of an open one, none closes while another has
    its id, and no player gets the id of another session's player. -/
structure KeepsSessions (s : Server) (_ : Env) (c : Call) : Prop where
  accept : ∀ ip, c = .accept ip → s.tcp.nextSessionId ≠ 0xFFFF ∧ ∀ object, ¬ OpenAs s.tcp object s.tcp.nextSessionId
  close : ∀ object t, c = .close object → s.tcp.objects[object]? = some t → ∀ other, OpenAs s.tcp other t.id →
    other = object
  register : ∀ sid, registering w s c = some sid → ∀ sid', sid' ≠ sid → s.sessionToPlayer.lookup sid' ≠ some (freshId s)

/-! ## The invariant -/

structure Apart (s : Server) : Prop where
  named : ∀ object, ¬ OpenAs s.tcp object 0xFFFF
  listed : ∀ object sid, OpenAs s.tcp object sid → s.tcp.sessions.lookup sid = some object
  players : s.sessionToPlayer.Inj
  mapped : MappedOpen s

variable {w s} {x : Env}

theorem Apart.differ (h : Apart s) : OpenIdsDiffer s.tcp := by
  intro i j sid hi hj
  have hlook := h.listed i sid hi
  rw [h.listed j sid hj] at hlook
  exact (Option.some.inj hlook).symm

theorem Apart.reached (h : Apart s) {object : Nat} {sid : UInt16} (ho : OpenAs s.tcp object sid) (pkt : Bytes) :
    .tcp sid (some object) pkt ∈ s.toAll pkt := by
  have hmem := Table.lookup_iff_mem.mp (h.listed object sid ho)
  have hne : sid ≠ 0xFFFF := fun he => h.named object (he ▸ ho)
  exact List.mem_map.mpr ⟨⟨sid, object⟩, List.mem_filter.mpr ⟨hmem, by simpa using hne⟩, rfl⟩

theorem apart_init : Apart Server.init := by
  refine ⟨?_, ?_, Table.inj_empty, ?_⟩
  · intro object ho
    obtain ⟨t, ht, -⟩ := ho
    simp [Server.init, TCPServer.empty] at ht
  · intro object sid ho
    obtain ⟨t, ht, -⟩ := ho
    simp [Server.init, TCPServer.empty] at ht
  · intro sid hsid
    exact absurd hsid (AList.notMem_empty sid)

/-- What a call that leaves the connections alone keeps. -/
theorem Apart.of_tcp (h : Apart s) {s' : Server} (htcp : s'.tcp = s.tcp) (hinj : s'.sessionToPlayer.Inj)
    (hmapped : MappedOpen s') : Apart s' :=
  ⟨htcp ▸ h.named, htcp ▸ h.listed, hinj, hmapped⟩

/-- A connection is accepted under a new id. -/
theorem accept_apart (h : Apart s) {ip : String} (hne : s.tcp.nextSessionId ≠ 0xFFFF)
    (hnew : ∀ object, ¬ OpenAs s.tcp object s.tcp.nextSessionId) {s' : Server} (htcp : s'.tcp = s.tcp.addSession ip)
    (hmap : s'.sessionToPlayer = s.sessionToPlayer) (hmapped : MappedOpen s') : Apart s' := by
  refine ⟨?_, ?_, hmap ▸ h.players, hmapped⟩
  · intro object ho
    rw [htcp, openAs_addSession] at ho
    rcases ho with ho | ⟨-, he⟩
    · exact h.named object ho
    · exact hne he.symm
  · intro object sid ho
    rw [htcp, openAs_addSession] at ho
    rw [htcp]
    show (s.tcp.sessions.insert s.tcp.nextSessionId s.tcp.objects.length).lookup sid = some object
    rw [Table.lookup_insert']
    rcases ho with ho | ⟨rfl, rfl⟩
    · rw [if_neg (fun he : sid = s.tcp.nextSessionId => hnew object (he ▸ ho))]
      exact h.listed object sid ho
    · rw [if_pos rfl]

/-- A connection closes that has its id for itself. -/
theorem close_apart (h : Apart s) {object : Nat} {t : TCPSession} (hown : ∀ other, OpenAs s.tcp other t.id → other = object)
    {s' : Server} (htcp : s'.tcp = (s.tcp.closeSocket object).eraseSession t.id)
    (hmap : s'.sessionToPlayer = s.sessionToPlayer.erase t.id) (hmapped : MappedOpen s') : Apart s' := by
  refine ⟨?_, ?_, hmap ▸ h.players.erase t.id, hmapped⟩
  · intro other ho
    rw [htcp, openAs_closed] at ho
    exact h.named other ho.1
  · intro other sid ho
    rw [htcp, openAs_closed] at ho
    rw [htcp]
    show (s.tcp.sessions.erase t.id).lookup sid = some other
    rw [Table.lookup_erase', if_neg (fun he : sid = t.id => ho.2 (hown other (he ▸ ho.1)))]
    exact h.listed other sid ho.1

theorem change_apart {c : Call} {as : List Announcement} {s' : Server} (h : Apart s) (hok : KeepsSessions w s x c)
    (hc : Change w s c as s') : Apart s' := by
  have hmapped := change_mappedOpen h.mapped hc
  cases hc with
  | quiet ha => exact h.of_tcp ha.tcp (ha.sessionToPlayer ▸ h.players) hmapped
  | accept ha =>
    obtain ⟨hne, hnew⟩ := hok.accept _ rfl
    exact accept_apart h hne hnew ha.tcp ha.sessionToPlayer hmapped
  | turn _ _ _ _ ht => exact h.of_tcp (turn_alike ht).tcp ((turn_alike ht).sessionToPlayer ▸ h.players) hmapped
  | banned _ ha => exact h.of_tcp ha.tcp (ha.sessionToPlayer ▸ h.players) hmapped
  | closed ht _ ha => exact close_apart h (hok.close _ _ rfl ht) ha.tcp ha.sessionToPlayer hmapped
  | left ht _ _ ha => exact close_apart h (hok.close _ _ rfl ht) ha.tcp ha.sessionToPlayer hmapped
  | registered ha hb hr =>
    have hnew := hok.register _ (registering_of_admits ha hb)
    exact h.of_tcp hr.tcp (hr.sessionToPlayer ▸ h.players.insert hnew) hmapped
  | vetoed ha hb hr =>
    have hnew := hok.register _ (registering_of_admits ha hb)
    exact h.of_tcp hr.tcp (hr.sessionToPlayer ▸ (h.players.insert hnew).erase _) hmapped

theorem apart_run {h : List Moment} (hr : MappedRun w (KeepsSessions w) h s) : Apart s :=
  hr.invariant apart_init (fun s x _ _ hi hok hs => change_apart hi hok (step_change w x s hs))
    fun _ _ hi => ⟨hi.named, hi.listed, hi.players, hi.mapped⟩

/-! ## Every call of a run -/

/-- A connection is not the one that closes, so it is spared. -/
theorem change_spared {object other : Nat} {sid : UInt16} {as : List Announcement} {s' : Server} (h : Apart s)
    (hok : KeepsSessions w s x (.close object)) (hc : Change w s (.close object) as s') (ho : OpenAs s.tcp other sid)
    (hne : other ≠ object) : Spared s s' sid := by
  have hid : ∀ t, s.tcp.objects[object]? = some t → sid ≠ t.id := fun t ht he =>
    hne (hok.close object t rfl ht other (he ▸ ho))
  cases hc with
  | quiet ha => exact ⟨by rw [ha.tcp], by rw [ha.sessionToPlayer], fun pid _ => by rw [ha.players]⟩
  | @closed _ t _ ht _ ha =>
    refine ⟨?_, ?_, fun pid _ => by rw [ha.players]; rfl⟩
    · rw [ha.tcp]
      exact AList.lookup_erase_ne (hid t ht)
    · rw [ha.sessionToPlayer]
      exact AList.lookup_erase_ne (hid t ht)
  | @left _ t pid _ ht hl hpid ha =>
    refine ⟨?_, ?_, fun pid' hl' => ?_⟩
    · rw [ha.tcp]
      exact AList.lookup_erase_ne (hid t ht)
    · rw [ha.sessionToPlayer]
      exact AList.lookup_erase_ne (hid t ht)
    · rw [ha.players]
      refine AList.lookup_erase_ne fun he => hid t ht ?_
      exact h.players sid t.id pid' hl' (he ▸ hl)

/-- In every such run an id stands for one open connection. -/
theorem sessions_of_keepsSessions (w : World) {h : List Moment} {s : Server} (hr : Run w (KeepsSessions w) h s) :
    Identified h s where
  differ := (apart_run hr.mapped).differ
  named := (apart_run hr.mapped).named
  reached object sid pkt ho := (apart_run hr.mapped).reached ho pkt
  unknown m hm ip sid hc ho := by
    obtain ⟨later, earlier, rfl⟩ := List.append_of_mem hm
    obtain ⟨hearlier, hok, hstep⟩ := hr.mapped.split
    have hbefore := apart_run hearlier
    rw [hc] at hok hstep
    obtain ⟨-, hnew⟩ := hok.accept ip rfl
    have hafter : m.after = { m.before.clear with tcp := m.before.tcp.addSession ip } :=
      congrArg Prod.snd (step_outcome hstep).symm
    rw [hafter]
    rw [hafter] at ho
    intro hsid
    obtain ⟨object, ho'⟩ := hbefore.mapped sid hsid
    rcases openAs_addSession.mp ho with hold | ⟨-, rfl⟩
    · obtain ⟨t, ht, -⟩ := hold
      rw [List.getElem?_eq_none (Nat.le_refl _)] at ht
      cases ht
    · exact hnew object ho'
  spared m hm object other sid hc ho hne := by
    obtain ⟨later, earlier, rfl⟩ := List.append_of_mem hm
    obtain ⟨hearlier, hok, hstep⟩ := hr.mapped.split
    rw [hc] at hok hstep
    exact change_spared (apart_run hearlier) hok (step_change w m.env m.before hstep) ho hne

/-! ## The connection number 65535 -/

namespace Worn

/-- `ann` is in the game, and another connection is open. -/
def second : Server := after Sample.world Sample.joined Env.quiet (.accept "10.0.0.2")

/-- The other connection goes. -/
def parted : Server := after Sample.world second Env.quiet (.close 1)

def history : List Moment :=
  [⟨second, Env.quiet, .close 1, parted⟩, ⟨Sample.joined, Env.quiet, .accept "10.0.0.2", second⟩,
    ⟨Sample.connected, Env.quiet, .frame 0 (authFrame (userJson "ann")), Sample.joined⟩,
    ⟨Server.init, Env.quiet, .accept "10.0.0.1", Sample.connected⟩]

theorem keeps_accept {s : Server} {ip : String} (hne : s.tcp.nextSessionId ≠ 0xFFFF)
    (hnew : ∀ t ∈ s.tcp.objects, t.id ≠ s.tcp.nextSessionId) : KeepsSessions Sample.world s Env.quiet (.accept ip) where
  accept _ _ := by
    refine ⟨hne, fun object ho => ?_⟩
    obtain ⟨t, ht, hid, -⟩ := ho
    exact hnew t (List.mem_of_getElem? ht) hid
  close _ _ h := nomatch h
  register _ h := nomatch h

theorem keeps_auth : KeepsSessions Sample.world Sample.connected Env.quiet (.frame 0 (authFrame (userJson "ann"))) where
  accept _ h := nomatch h
  close _ _ h := nomatch h
  register sid _ sid' _ hl := by
    have hnone : Sample.connected.sessionToPlayer.entries = [] := rfl
    have hmem := Table.lookup_iff_mem.mp hl
    rw [hnone] at hmem
    exact List.not_mem_nil hmem

theorem keeps_close : KeepsSessions Sample.world second Env.quiet (.close 1) where
  accept _ h := nomatch h
  close object t hc ht other ho := by
    cases hc
    have hobjs : second.tcp.objects = [⟨1, "10.0.0.1", true⟩, ⟨2, "10.0.0.2", true⟩] := by decide
    obtain ⟨u, hu, hid, -⟩ := ho
    rw [hobjs] at ht hu
    cases ht
    rcases other with _ | _ | other
    · cases hu
      cases hid
    · rfl
    · simp at hu
  register _ h := nomatch h

theorem run_parted : Run Sample.world (KeepsSessions Sample.world) history parted := by
  have hsecond : Step Sample.world Sample.joined Env.quiet (.accept "10.0.0.2") second := step_ends Sample.world _ _ rfl
  have hparted : Step Sample.world second Env.quiet (.close 1) parted := step_ends Sample.world _ _ rfl
  exact .step (.step (.step (.step .init (keeps_accept (by decide) (by decide)) Sample.step_connected) keeps_auth
    Sample.step_joined) (keeps_accept (by decide) (by decide)) hsecond) keeps_close hparted

/-- Closing a connection does not turn the counter back. -/
theorem closed_next (w : World) (x : Env) (s : Server) (object : Nat) :
    (closed w x s object).tcp.nextSessionId = s.tcp.nextSessionId := by
  cases ht : s.tcp.objects[object]? with
  | none => rw [closed, ht]
  | some t =>
    rw [closed_some w x s ht, disconnected_tcp]
    rfl

/-- After `n` connections that came and went the counter is at `n + 1`. -/
theorem cycled (n : Nat) :
    ∃ h s, Run Sample.world anyStep h s ∧ s.tcp.nextSessionId = UInt16.ofNat (n + 1) := by
  induction n with
  | zero => exact ⟨[], Server.init, .init, rfl⟩
  | succ n ih =>
    obtain ⟨h, s, hr, hnext⟩ := ih
    have hcame : Step Sample.world s Env.quiet (.accept "10.0.0.1") { s.clear with tcp := s.tcp.addSession "10.0.0.1" } :=
      exec_eq Sample.world Env.quiet _ _
    have hwent := exec_eq Sample.world Env.quiet (.close s.tcp.objects.length)
      ({ s.clear with tcp := s.tcp.addSession "10.0.0.1" } : Server).clear
    refine ⟨_, _, .step (.step hr trivial hcame) trivial hwent, ?_⟩
    show (closed Sample.world Env.quiet _ _).tcp.nextSessionId = _
    rw [closed_next]
    show s.tcp.nextSessionId + 1 = UInt16.ofNat (n + 1 + 1)
    rw [hnext]
    apply UInt16.toNat_inj.mp
    simp

end Worn

theorem sessions_of_keepsSessions_parted : Run Sample.world (KeepsSessions Sample.world) Worn.history Worn.parted ∧
    Identified Worn.history Worn.parted :=
  ⟨Worn.run_parted, sessions_of_keepsSessions Sample.world Worn.run_parted⟩

theorem sentinel_session : ¬ ∀ (w : World) (h : List Moment) (s : Server), Run w anyStep h s → Identified h s := by
  intro hall
  obtain ⟨h, s, hr, hnext⟩ := Worn.cycled 65534
  have hcame : Step Sample.world s Env.quiet (.accept "10.0.0.1") { s.clear with tcp := s.tcp.addSession "10.0.0.1" } :=
    exec_eq Sample.world Env.quiet _ _
  refine (hall _ _ _ (hr.step trivial hcame)).named s.tcp.objects.length ?_
  exact openAs_addSession.mpr (.inr ⟨rfl, hnext.symm⟩)

end NovaMP.GameServer
