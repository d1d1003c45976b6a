/-
  NovaMP.Server.Newcomers — what a client has been told against what the server holds.

  The server announces what changes; `sendExistingPlayers`, which would tell a newcomer
  what is there already, is never called. So a client keeps up (`later_shown`) from what
  the server held when it connected, and it starts from nothing.

  - `change_shown`: a call changes what there is to know as it announces.
  - `newcomer_told`: a client knows exactly what the server holds when everything there
    was as it connected has been announced again since.
  - `newcomer_not_told`: `bob` connects while `ann` is in the game.
-/

import NovaMP.Lib.Replica
import NovaMP.Server.Announcements
import NovaMP.Server.Whole

namespace NovaMP

open Lib Exec

/-! ## What there is to know -/

/-- That a player is `READY`, or that it has a vehicle. -/
inductive Item where
  | player (pid : UInt16)
  | vehicle (pid : UInt16) (vid : UInt8)
  deriving DecidableEq

namespace Item

def pid : Item → UInt16
  | player pid | vehicle pid _ => pid

/-- The player's record has the item. -/
def InRecord (p : Player) : Item → Prop
  | player _ => p.state = .ready
  | vehicle _ vid => ∃ v ∈ p.vehicles, v.vehicleId = vid

end Item

/-- What an announcement changes for those who hear it. -/
def Announcement.edit : Announcement → Edit Item
  | join pid => .add (.player pid)
  | spawn pid vid => .add (.vehicle pid vid)
  | delete pid vid => .drop {.vehicle pid vid}
  | leave pid => .drop {i | i.pid = pid}

namespace GameServer

variable (w : World) (x : Env) (s : Server)

/-- The players that are `READY`, and the vehicles in the records. -/
def shown : Set Item := {i | ∃ p, s.players.lookup i.pid = some p ∧ i.InRecord p}

variable {s}

theorem mem_shown {i : Item} {p : Player} (h : s.players.lookup i.pid = some p) : i ∈ shown s ↔ i.InRecord p := by
  constructor
  · rintro ⟨q, hq, hi⟩
    obtain rfl : p = q := Option.some.inj (h.symm.trans hq)
    exact hi
  · exact fun hi => ⟨p, h, hi⟩

theorem not_mem_shown {i : Item} (h : s.players.lookup i.pid = none) : i ∉ shown s := by
  rintro ⟨p, hp, -⟩
  rw [h] at hp
  cases hp

theorem shown_congr {t : Server} {i : Item} (h : t.players.lookup i.pid = s.players.lookup i.pid) :
    i ∈ shown t ↔ i ∈ shown s := by
  show (∃ p, t.players.lookup i.pid = some p ∧ _) ↔ _
  rw [h]
  rfl

theorem shown_of_players {t : Server} (h : t.players = s.players) : shown t = shown s := by
  unfold shown
  rw [h]

/-- A write to the record of `id` concerns the items of `id` only. -/
theorem mem_shown_put {t : Server} {id : UInt16} {p q : Player} (hp : s.players.lookup id = some p)
    (ht : t.players = s.players.put id q) (i : Item) :
    i ∈ shown t ↔ if i.pid = id then i.InRecord q else i ∈ shown s := by
  by_cases hid : i.pid = id
  · rw [if_pos hid]
    apply mem_shown
    rw [ht, hid]
    exact Table.lookup_put_self hp q
  · rw [if_neg hid]
    apply shown_congr
    rw [ht]
    exact Table.lookup_put_ne hid q

theorem shown_put {t : Server} {id : UInt16} {p q : Player} {e : Edit Item} (hp : s.players.lookup id = some p)
    (ht : t.players = s.players.put id q) (hown : ∀ i ∈ e.touches, i.pid = id)
    (hedit : ∀ i, i.pid = id → (i.InRecord q ↔ i ∈ e.apply {i | i.InRecord p})) :
    shown t = Edit.replay [e] (shown s) := by
  ext i
  rw [mem_shown_put hp ht]
  by_cases hid : i.pid = id
  · subst hid
    rw [if_pos rfl, hedit i rfl]
    exact Edit.replay_congr [e] (mem_shown hp).symm
  · rw [if_neg hid]
    exact (Edit.apply_untouched (fun hi => hid (hown i hi)) _).symm

/-! ## One call -/

theorem turn_shown (hrec : Records s) {id : UInt16} {t : Option PacketType} {as : List Announcement} {s' : Server}
    (ht : Turn s id t as s') : shown s' = Edit.replay (as.map Announcement.edit) (shown s) := by
  cases ht with
  | quiet ha => exact shown_of_players ha.players
  | @ready p s' hp ha =>
    have hpid : p.id = id := (hrec id p hp).id
    refine shown_put (e := .add (.player p.id)) hp ha.players ?_ ?_
    · rintro i rfl
      exact hpid
    · intro i hi
      rw [hpid]
      cases i with
      | player pid =>
        obtain rfl : pid = id := hi
        exact iff_of_true rfl (Set.mem_insert _ _)
      | vehicle pid vid =>
        have hno : Item.vehicle pid vid ≠ .player id := by rintro ⟨⟩
        exact (or_iff_right hno).symm
  | @spawn p v s' hp _ ha =>
    refine shown_put (e := .add (.vehicle id v.vehicleId)) hp ha.players ?_ ?_
    · rintro i rfl
      rfl
    · intro i hi
      cases i with
      | player pid =>
        have hno : Item.player pid ≠ .vehicle id v.vehicleId := by rintro ⟨⟩
        exact (or_iff_right hno).symm
      | vehicle pid vid =>
        obtain rfl : pid = id := hi
        show (∃ u ∈ p.vehicles ++ [v], u.vehicleId = vid) ↔
          Item.vehicle pid vid = .vehicle pid v.vehicleId ∨ ∃ u ∈ p.vehicles, u.vehicleId = vid
        simp only [List.mem_append, List.mem_singleton, Item.vehicle.injEq, true_and]
        constructor
        · rintro ⟨u, hu | rfl, rfl⟩
          · exact .inr ⟨u, hu, rfl⟩
          · exact .inl rfl
        · rintro (rfl | ⟨u, hu, rfl⟩)
          · exact ⟨v, .inr rfl, rfl⟩
          · exact ⟨u, .inl hu, rfl⟩
  | @delete p vid s' hp ha =>
    refine shown_put (e := .drop {.vehicle id vid}) hp ha.players ?_ ?_
    · rintro i rfl
      rfl
    · intro i hi
      cases i with
      | player pid =>
        have hno : Item.player pid ≠ .vehicle id vid := by rintro ⟨⟩
        exact (and_iff_left hno).symm
      | vehicle pid vid' =>
        obtain rfl : pid = id := hi
        show (∃ u ∈ p.vehicles.filter _, u.vehicleId = vid') ↔
          (∃ u ∈ p.vehicles, u.vehicleId = vid') ∧ Item.vehicle pid vid' ≠ .vehicle pid vid
        simp only [List.mem_filter, Bool.not_eq_true', beq_eq_false_iff_ne, Ne, Item.vehicle.injEq, true_and]
        constructor
        · rintro ⟨u, ⟨hu, hne⟩, rfl⟩
          exact ⟨⟨u, hu, rfl⟩, hne⟩
        · rintro ⟨⟨u, hu, rfl⟩, hne⟩
          exact ⟨u, ⟨hu, hne⟩, rfl⟩

/-- What a call must not do for its announcements to tell all: register the bridge, which
    is `READY` and never announced, give away an id that is still shown, or announce what
    does not fit its packet. -/
structure Announcing (w : World) (s : Server) (x : Env) (c : Call) : Prop where
  fresh : ∀ object data sid body, c = .frame object data → authText s object data = some (sid, body) →
    authBranch w s body ≠ .bridge ∧ ((authBranch w s body).admits ≠ none → ∀ i ∈ shown s, i.pid ≠ freshId s)
  whole : ∀ p ∈ posts w x s c, p.message.announcement ≠ none → p.message.Whole w

/-- An id that was given away has nothing shown before or after. -/
theorem shown_unused {t : Server} {id : UInt16} (hold : ∀ i ∈ shown s, i.pid ≠ id) (hnew : ∀ i ∈ shown t, i.pid ≠ id)
    (h : ∀ pid, pid ≠ id → t.players.lookup pid = s.players.lookup pid) : shown t = shown s := by
  ext i
  by_cases hid : i.pid = id
  · exact iff_of_false (fun hi => hnew i hi hid) (fun hi => hold i hi hid)
  · exact shown_congr (h i.pid hid)

/-- A call changes what there is to know as it announces. -/
theorem change_shown (hrec : Records s) {c : Call} {as : List Announcement} {s' : Server} (hc : Change w s c as s')
    (ha : Announcing w s x c) : shown s' = Edit.replay (as.map Announcement.edit) (shown s) := by
  cases hc with
  | quiet h => exact shown_of_players h.players
  | accept h => exact shown_of_players h.players
  | closed _ _ h => exact shown_of_players h.players
  | turn _ _ _ _ ht => exact turn_shown hrec ht
  | @banned id reason p s' hp h =>
    ext i
    rw [mem_shown_put hp h.players]
    by_cases hid : i.pid = id
    · subst hid
      rw [if_pos rfl]
      have hsame : i.InRecord { p with isBanned := true } ↔ i.InRecord p := by cases i <;> rfl
      exact hsame.trans (mem_shown hp).symm
    · rw [if_neg hid]
      rfl
  | @left object t pid s' _ _ _ h =>
    ext i
    show _ ↔ i ∈ shown s \ {i | i.pid = pid}
    by_cases hid : i.pid = pid
    · refine iff_of_false (not_mem_shown ?_) fun hi => hi.2 hid
      rw [h.players, hid]
      exact AList.lookup_erase pid s.players
    · refine (shown_congr ?_).trans (and_iff_left hid).symm
      rw [h.players]
      exact AList.lookup_erase_ne hid
  | @registered object data sid body username role st s' htext hb h =>
    obtain ⟨hbridge, hold⟩ := ha.fresh object data sid body rfl htext
    have hload : st = .loadingMods := by
      cases hbr : authBranch w s body with
      | bridge => exact absurd hbr hbridge
      | player u r => rw [hbr] at hb; cases hb; rfl
      | throws e => rw [hbr] at hb; cases hb
      | refused e d => rw [hbr] at hb; cases hb
      | badRole e => rw [hbr] at hb; cases hb
    refine shown_unused (hold (by rw [hb]; exact Option.some_ne_none _)) ?_ ?_
    · intro i hi hid
      have hl : s'.players.lookup i.pid = some ⟨freshId s, username, role, s.remoteIP sid, st, false, false, []⟩ := by
        rw [h.players, hid]
        exact AList.lookup_insert s.players
      have hin := (mem_shown hl).mp hi
      cases i with
      | player pid =>
        have hready : st = .ready := hin
        rw [hload] at hready
        cases hready
      | vehicle pid vid =>
        obtain ⟨v, hv, -⟩ := hin
        cases hv
    · intro pid hne
      rw [h.players]
      exact AList.lookup_insert_ne hne
  | @vetoed object data sid body username role st s' htext hb h =>
    have herased : s'.players = (s.players.insert (freshId s) _).erase (freshId s) := h.players
    refine shown_unused ((ha.fresh object data sid body rfl htext).2 (by rw [hb]; exact Option.some_ne_none _)) ?_ ?_
    · intro i hi hid
      refine not_mem_shown ?_ hi
      rw [herased, hid]
      exact AList.lookup_erase _ _
    · intro pid hne
      rw [herased, AList.lookup_erase_ne hne]
      exact AList.lookup_insert_ne hne

/-! ## One client -/

/-- The session and the session object of the connection that a call accepts. -/
def Moment.sid (m : Moment) : UInt16 := m.before.tcp.nextSessionId

def Moment.object (m : Moment) : Nat := m.before.tcp.objects.length

/-- The connection was made by the call `m` and is still there. -/
structure Connected (m : Moment) (s : Server) : Prop where
  accepted : ∃ ip, m.call = .accept ip
  live : s.tcp.sessions.lookup m.sid = some m.object

/-- What a connection hears of a call: the announcements of which it gets a packet that
    carries the whole text. -/
def learned (o : Nat) (m : Moment) : List Announcement :=
  ((posts w m.env m.before m.call).filter fun p =>
    p.message.packet w ∈ received o m.after ∧ p.message.Whole w).filterMap fun p => p.message.announcement

/-- What a connection has been told and not told to be gone. -/
def told (o : Nat) (h : List Moment) : Set Item :=
  Edit.replay ((h.reverse.flatMap (learned w o)).map Announcement.edit) ∅

variable {w}

theorem posts_clear (c : Call) : posts w x s.clear c = posts w x s c := by
  cases c <;> rfl

/-- What is announced goes to all. -/
def Public (ps : List Post) : Prop := ∀ p ∈ ps, p.message.announcement ≠ none → p.audience = .all

theorem public_nil : Public [] := fun p hp => by cases hp

theorem public_cons {p : Post} {ps : List Post} (hp : p.message.announcement ≠ none → p.audience = .all)
    (hps : Public ps) : Public (p :: ps) :=
  List.forall_mem_cons.mpr ⟨hp, hps⟩

theorem public_all (m : Message) {ps : List Post} (hps : Public ps) : Public (⟨.all, m⟩ :: ps) :=
  public_cons (fun _ => rfl) hps

theorem public_quiet {p : Post} {ps : List Post} (hp : p.message.announcement = none) (hps : Public ps) :
    Public (p :: ps) :=
  public_cons (fun h => absurd hp h) hps

theorem public_authority (calls : List AuthorityCall) : Public (calls.map authorityMessage) := by
  intro p hp ha
  obtain ⟨c, -, rfl⟩ := List.mem_map.mp hp
  cases c <;> exact absurd rfl ha

theorem inGamePosts_public (pid : UInt16) (pl : Bytes) (len : UInt16) (t : Option PacketType) :
    Public (inGamePosts w x s pid pl len t) := by
  intro post hpost ha
  rcases mem_inGamePosts hpost with ⟨-, body, -, h⟩ | ⟨-, -, vid, -, h⟩ | ⟨-, msg, -, h⟩ | ⟨-, h⟩ | ⟨-, h⟩
  · obtain ⟨j, p, model, -, -, -, -, rfl⟩ := mem_spawnPosts.mp h
    rfl
  · obtain ⟨-, rfl⟩ := mem_deletePosts.mp h
    rfl
  · obtain ⟨p, -, -, -, rfl⟩ := mem_chatPosts.mp h
    rfl
  · obtain ⟨p, -, rfl | rfl⟩ := mem_readyPosts.mp h
    · rfl
    · exact absurd rfl ha
  · rcases mem_claimPosts h with ⟨c, rfl⟩ | rfl
    · cases c <;> exact absurd rfl ha
    · exact absurd rfl ha

theorem authPosts_public (sid : UInt16) (b : AuthBranch) : Public (authPosts x s sid b) := by
  cases b with
  | throws e => exact public_nil
  | refused error drop => exact public_quiet rfl public_nil
  | bridge => exact public_quiet rfl (public_authority _)
  | badRole e => exact public_nil
  | player username role =>
    dsimp only [authPosts]
    split
    · split
      · exact public_quiet rfl public_nil
      · exact public_nil
    · exact public_quiet rfl (public_quiet rfl public_nil)

theorem posts_public (c : Call) : Public (posts w x s c) := by
  cases c with
  | accept ip => exact public_nil
  | frame object data =>
    intro post hpost
    rcases mem_posts_frame.mp hpost with ⟨sid, body, -, hpost⟩ | ⟨t, hdr, -, -, -, -, hpost⟩
    · exact authPosts_public x _ _ post hpost
    · exact inGamePosts_public x _ _ _ _ post hpost
  | close object =>
    dsimp only [posts, closePosts, leavePosts]
    split
    · split
      · split
        · exact public_nil
        refine public_all _ ?_
        split
        · exact public_authority _
        · exact public_nil
      · exact public_nil
    · exact public_nil
  | datagram source data => exact public_nil
  | broadcastAll => exact public_nil
  | kickPlayer id reason => exact public_quiet rfl public_nil
  | banPlayer id reason => exact public_quiet rfl public_nil
  | sendChat playerId msg => exact public_quiet rfl public_nil
  | grantAuthority pid => exact public_quiet rfl public_nil
  | revokeAuthority pid => exact public_quiet rfl public_nil

theorem received_of_sent {o : Nat} {sid : UInt16} {pkt : Bytes} (h : .tcp sid (some o) pkt ∈ s.sent) :
    pkt ∈ received o s :=
  List.mem_filterMap.mpr ⟨_, h, if_pos rfl⟩

theorem received_announced {c : Call} {s' : Server} (hs : Step w s x c s') {sid : UInt16} {o : Nat}
    (hl : s'.tcp.sessions.lookup sid = some o) (hsid : sid ≠ 0xFFFF) {p : Post} (hp : p ∈ posts w x s c)
    (ha : p.message.announcement ≠ none) : p.message.packet w ∈ received o s' := by
  have hsent := outcome_sent w x s.clear c
  rw [step_outcome hs, posts_clear] at hsent
  have hall : .tcp sid (some o) (p.message.packet w) ∈ deliver w s' p := by
    rw [deliver, posts_public x c p hp ha]
    exact List.mem_map.mpr ⟨⟨sid, o⟩, List.mem_filter.mpr ⟨Table.lookup_iff_mem.mp hl, by simpa using hsid⟩, rfl⟩
  have hin : .tcp sid (some o) (p.message.packet w) ∈ tcpSent s' := by
    rw [hsent]
    exact List.mem_append_right _ (List.mem_flatMap.mpr ⟨p, hp, hall⟩)
  exact received_of_sent (List.mem_filter.mp hin).1

/-- A connection hears all that is announced. -/
theorem learned_announced {m : Moment} (hs : Step w m.before m.env m.call m.after) {sid : UInt16} {o : Nat}
    (hl : m.after.tcp.sessions.lookup sid = some o) (hsid : sid ≠ 0xFFFF) (ha : Announcing w m.before m.env m.call) :
    learned w o m = announced w m.env m.before m.call := by
  unfold learned announced aboutPlayers
  rw [List.filterMap_filter]
  apply List.filterMap_congr
  intro p hp
  cases hann : p.message.announcement with
  | none => simp
  | some a =>
    have hne : p.message.announcement ≠ none := by rw [hann]; exact Option.some_ne_none a
    rw [if_pos]
    simpa using ⟨received_announced m.env hs hl hsid hp hne, ha.whole p hp hne⟩

/-- A connection that a call has not made was there before. -/
theorem live_before {c : Call} {s' : Server} (hs : Step w s x c s') {sid : UInt16} {o : Nat}
    (ho : o < s.tcp.objects.length) (h : s'.tcp.sessions.lookup sid = some o) : s.tcp.sessions.lookup sid = some o := by
  rw [step_tcp w x hs] at h
  cases c with
  | accept ip =>
    have hins : (s.tcp.sessions.insert s.tcp.nextSessionId s.tcp.objects.length).lookup sid = some o := h
    rw [Table.lookup_insert'] at hins
    split at hins
    · have heq : s.tcp.objects.length = o := Option.some.inj hins
      omega
    · exact hins
  | close object =>
    dsimp only [nextTcp] at h
    cases ht : s.tcp.objects[object]? with
    | none => rw [ht] at h; exact h
    | some t =>
      rw [ht] at h
      have her : (s.tcp.sessions.erase t.id).lookup sid = some o := h
      rw [Table.lookup_erase'] at her
      split at her
      · cases her
      · exact her
  | _ => exact h

theorem objects_grow {c : Call} {s' : Server} (hs : Step w s x c s') : s.tcp.objects.length ≤ s'.tcp.objects.length := by
  rw [step_tcp w x hs]
  cases c with
  | accept ip =>
    show _ ≤ (s.tcp.objects ++ [_]).length
    rw [List.length_append]
    omega
  | close object =>
    dsimp only [nextTcp]
    split
    · show _ ≤ (s.tcp.objects.modify _ _).length
      rw [List.length_modify]
    · exact le_rfl
  | _ => exact le_rfl

/-! ## Every run -/

theorem object_made {later earlier : List Moment} {m : Moment} (hr : Run w anyStep (later ++ m :: earlier) s)
    (hacc : ∃ ip, m.call = .accept ip) :
    m.object < s.tcp.objects.length := by
  induction later generalizing s with
  | nil =>
    obtain ⟨ip, hip⟩ := hacc
    cases hr with
    | step _ _ hs =>
      subst hip
      rw [step_tcp w _ hs]
      simp [Moment.object, nextTcp, TCPServer.addSession]
  | cons m' later ih =>
    cases hr with
    | step hr _ hs => exact lt_of_lt_of_le (ih hr) (objects_grow _ hs)

/-- What a connection is told brings it from nothing as far as it brings the server from
    what was there when it connected. -/
theorem later_shown {later earlier : List Moment} {m : Moment} (hr : Run w anyStep (later ++ m :: earlier) s)
    (hc : Connected m s) (hsid : m.sid ≠ 0xFFFF) (hann : ∀ m' ∈ later, Announcing w m'.before m'.env m'.call) :
    later.reverse.flatMap (learned w m.object) = later.reverse.flatMap (fun m' => announced w m'.env m'.before m'.call) ∧
      shown s = Edit.replay ((later.reverse.flatMap (learned w m.object)).map Announcement.edit) (shown m.before) := by
  induction later generalizing s with
  | nil =>
    obtain ⟨⟨ip, hip⟩, -⟩ := hc
    cases hr with
    | @step _ t _ x c hr _ hs =>
      subst hip
      refine ⟨rfl, ?_⟩
      have hch : Change w t (.accept ip) [] s := step_change w x t hs
      cases hch with
      | quiet h => exact shown_of_players h.players
      | accept h => exact shown_of_players h.players
  | cons m' later ih =>
    cases hr with
    | @step _ t _ x c hr _ hs =>
      obtain ⟨hfirst, hrest⟩ := List.forall_mem_cons.mp hann
      have hlive := live_before x hs (object_made hr hc.accepted) hc.live
      obtain ⟨hlearned, hshown⟩ := ih hr ⟨hc.accepted, hlive⟩ hrest
      have hnow := learned_announced (m := ⟨t, x, c, s⟩) hs hc.live hsid hfirst
      have hstep := change_shown w x (records_reach hr.reach) (step_change w x t hs) hfirst
      rw [announced_clear] at hstep
      rw [List.reverse_cons, List.flatMap_append, List.flatMap_append, List.flatMap_singleton, List.flatMap_singleton]
      refine ⟨by rw [hlearned, hnow], ?_⟩
      rw [List.map_append, Edit.replay_append, ← hshown, hnow]
      exact hstep

/-- For a client whose session is in the map, in a run whose calls since have announced
    what they changed: it has been told exactly what the server holds when all that was
    there as it connected has been announced since. -/
theorem newcomer_told (w : World) {later earlier : List Moment} {m : Moment} {s : Server}
    (hr : Run w anyStep (later ++ m :: earlier) s) (hc : Connected m s) (hsid : m.sid ≠ 0xFFFF)
    (hann : ∀ m' ∈ later, Announcing w m'.before m'.env m'.call) :
    told w m.object later = shown s ↔
      ∀ i ∈ shown m.before, ∃ m' ∈ later, ∃ a ∈ announced w m'.env m'.before m'.call, i ∈ a.edit.touches := by
  obtain ⟨hlearned, hshown⟩ := later_shown hr hc hsid hann
  have htouched : ∀ i, (∃ e ∈ (later.reverse.flatMap (learned w m.object)).map Announcement.edit, i ∈ e.touches) ↔
      ∃ m' ∈ later, ∃ a ∈ announced w m'.env m'.before m'.call, i ∈ a.edit.touches := by
    intro i
    rw [hlearned]
    constructor
    · rintro ⟨e, he, hi⟩
      obtain ⟨a, ha, rfl⟩ := List.mem_map.mp he
      obtain ⟨m', hm, ham⟩ := List.mem_flatMap.mp ha
      exact ⟨m', List.mem_reverse.mp hm, a, ham, hi⟩
    · rintro ⟨m', hm, a, ha, hi⟩
      exact ⟨a.edit, List.mem_map_of_mem (List.mem_flatMap.mpr ⟨m', List.mem_reverse.mpr hm, ha⟩), hi⟩
  rw [told, hshown, Edit.replay_empty_iff]
  exact forall₂_congr fun i _ => htouched i

/-! ## A client that comes later -/

namespace Latecomer

open Eager

/-- `bob` connects when `ann` is ready, -/
def visited : Server := after Sample.world ready Env.quiet (.accept "10.0.0.2")

/-- authenticates, -/
def joined : Server := after Sample.world visited Env.quiet (.frame 1 (authFrame (userJson "bob")))

/-- and is ready too. -/
def both : Server := after Sample.world joined Env.quiet (.frame 1 Eager.readyFrame)

def arrival : Moment := ⟨ready, Env.quiet, .accept "10.0.0.2", visited⟩

def later : List Moment :=
  [⟨joined, Env.quiet, .frame 1 Eager.readyFrame, both⟩,
    ⟨visited, Env.quiet, .frame 1 (authFrame (userJson "bob")), joined⟩]

theorem run_both : Run Sample.world anyStep (later ++ arrival :: history) both := by
  have hready : Run Sample.world anyStep history ready :=
    .step (.step (.step .init trivial Sample.step_connected) trivial Sample.step_joined) trivial step_ready
  have hvisited : Run Sample.world anyStep (arrival :: history) visited :=
    .step hready trivial (step_ends Sample.world _ _ rfl)
  have hjoined : Run Sample.world anyStep (_ :: arrival :: history) joined :=
    .step hvisited trivial (step_after Sample.world _ _ (by decide))
  exact .step hjoined trivial (step_after Sample.world _ _ (by decide))

theorem connected_both : Connected arrival both := ⟨⟨_, rfl⟩, by decide⟩

theorem told_bob : told Sample.world arrival.object later = Edit.replay [.add (.player 2)] ∅ := by
  have hlearned : later.reverse.flatMap (learned Sample.world arrival.object) = [.join 2] := by decide +kernel
  rw [told, hlearned]
  rfl

theorem ann_shown : Item.player 1 ∈ shown both := by
  have hann : both.players.lookup 1 = some ⟨1, "ann", "player", "10.0.0.1", .ready, false, false, []⟩ := by decide
  exact ⟨_, hann, rfl⟩

theorem bob_shown : Item.player (playerOf both arrival.sid) ∈ shown both := by
  have hbob : both.players.lookup 2 = some ⟨2, "bob", "player", "10.0.0.2", .ready, false, false, []⟩ := by decide
  have hpid : playerOf both arrival.sid = 2 := by decide
  rw [hpid]
  exact ⟨_, hbob, rfl⟩

theorem ann_untold : Item.player 1 ∉ told Sample.world arrival.object later := by
  rw [told_bob]
  rintro (h | h)
  · cases h
  · exact h

/-- His `AUTH_REQUEST` and his `READY` announce all they change. -/
theorem auth_announcing : Announcing Sample.world visited Env.quiet (.frame 1 (authFrame (userJson "bob"))) := by
  have htext : authText visited 1 (authFrame (userJson "bob")) = some (2, utf8 (userJson "bob").text) := by decide
  have hbranch : authBranch Sample.world visited (utf8 (userJson "bob").text) = .player "bob" "player" := by decide
  have hfresh : visited.players.lookup (freshId visited) = none := by decide
  refine ⟨?_, by decide⟩
  intro object data sid body hc h
  cases hc
  obtain ⟨rfl, rfl⟩ := Prod.mk.inj (Option.some.inj (htext.symm.trans h))
  rw [hbranch]
  refine ⟨(fun hb => by cases hb), fun _ i hi hid => ?_⟩
  exact not_mem_shown (by rw [hid]; exact hfresh) hi

theorem ready_announcing : Announcing Sample.world joined Env.quiet (.frame 1 Eager.readyFrame) := by
  have htext : authText joined 1 Eager.readyFrame = none := by decide
  refine ⟨?_, by decide⟩
  intro object data sid body hc h
  cases hc
  rw [htext] at h
  cases h

theorem later_announcing : ∀ m ∈ later, Announcing Sample.world m.before m.env m.call :=
  List.forall_mem_cons.mpr ⟨ready_announcing, List.forall_mem_singleton.mpr auth_announcing⟩

end Latecomer

theorem newcomer_told_bob : told Sample.world Latecomer.arrival.object Latecomer.later = shown Latecomer.both ↔
    ∀ i ∈ shown Eager.ready, ∃ m ∈ Latecomer.later, ∃ a ∈ announced Sample.world m.env m.before m.call,
      i ∈ a.edit.touches :=
  newcomer_told Sample.world Latecomer.run_both Latecomer.connected_both (by decide) Latecomer.later_announcing

/-- `bob` is never told of `ann`. -/
theorem newcomer_not_told : ¬ ∀ (w : World) (later earlier : List Moment) (m : Moment) (s : Server),
    Run w anyStep (later ++ m :: earlier) s → Connected m s → .player (playerOf s m.sid) ∈ shown s →
      told w m.object later = shown s := by
  intro hall
  have htold := hall _ _ _ _ _ Latecomer.run_both Latecomer.connected_both Latecomer.bob_shown
  apply Latecomer.ann_untold
  rw [htold]
  exact Latecomer.ann_shown

end GameServer

end NovaMP
