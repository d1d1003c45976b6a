/-
  NovaMP.Server.Announcements — in which order a player is announced.

  About a player id, from one allocation of it to the next, the server should say that
  the player joined, then what becomes of its vehicles, then that it left. The handlers
  never look at the player's state, so this is so in the runs whose packets come in turn
  (`InTurn`): `READY` from a player that is loading, vehicles from one that is ready, and
  no connection closes whose player is not. The bridge is ready from the start and has
  not joined, so nothing may be announced about it.

  - `change_piece`: what one call does to the record and the latest piece of an id.
  - `change_told`: one call keeps the announcements of each id in order.
  - `announced_in_order`: so every run of such calls does.
  - `joined_twice`: a second `READY`.
-/

import NovaMP.Server.Changes
import NovaMP.Server.Confidential

namespace NovaMP

open Lib Exec

namespace Announcement

/-! ## The order -/

def isVehicle : Announcement → Bool
  | spawn _ _ | delete _ _ => true
  | _ => false

/-- The player has joined and not left. -/
def Open (pid : UInt16) (as : List Announcement) : Prop :=
  ∃ vs, (∀ a ∈ vs, a.isVehicle = true) ∧ as = .join pid :: vs

/-- Joined, then vehicles, then left, or the beginning of that. -/
def InOrder (pid : UInt16) (as : List Announcement) : Prop :=
  ∃ vs, (∀ a ∈ vs, a.isVehicle = true) ∧ as <+: .join pid :: vs ++ [.leave pid]

theorem inOrder_nil (pid : UInt16) : InOrder pid [] := ⟨[], (fun a ha => by cases ha), List.nil_prefix⟩

theorem open_join (pid : UInt16) : Open pid [.join pid] := ⟨[], (fun a ha => by cases ha), rfl⟩

theorem Open.inOrder {pid : UInt16} {as : List Announcement} (h : Open pid as) : InOrder pid as := by
  obtain ⟨vs, hvs, rfl⟩ := h
  exact ⟨vs, hvs, List.prefix_append _ _⟩

theorem Open.vehicle {pid : UInt16} {as : List Announcement} (h : Open pid as) {a : Announcement}
    (ha : a.isVehicle = true) : Open pid (as ++ [a]) := by
  obtain ⟨vs, hvs, rfl⟩ := h
  refine ⟨vs ++ [a], fun b hb => ?_, rfl⟩
  rcases List.mem_append.mp hb with hb | hb
  · exact hvs b hb
  · rw [List.mem_singleton.mp hb]
    exact ha

theorem Open.left {pid : UInt16} {as : List Announcement} (h : Open pid as) : InOrder pid (as ++ [.leave pid]) := by
  obtain ⟨vs, hvs, rfl⟩ := h
  exact ⟨vs, hvs, List.prefix_rfl⟩

end Announcement

namespace GameServer

open Announcement

variable (w : World) (x : Env) (s : Server)

/-! ## Runs, cut at the allocations of an id -/

/-- `allocPlayerID` has returned `pid` in a call. -/
def allocates (pid : UInt16) (m : Moment) : Bool :=
  m.after.nextPlayerId == freshId m.before + 1 && freshId m.before == pid

/-- What a call announces about `pid`. -/
def about (pid : UInt16) (m : Moment) : List Announcement :=
  (announced w m.env m.before m.call).filter fun a => a.pid == pid

/-- What a run has announced about `pid`, cut where the id was given away; the latest
    piece comes first. -/
def pieces (pid : UInt16) : List Moment → List (List Announcement)
  | [] => [[]]
  | m :: h => if allocates pid m then about w pid m :: pieces pid h else (pieces pid h).modifyHead (· ++ about w pid m)

/-! ## Packets in turn -/

/-- The player's `READY` has been handled, and it is not the bridge. -/
def Playing (pid : UInt16) : Prop := ∃ p, s.players.lookup pid = some p ∧ p.state = .ready ∧ p.username ≠ aiBridge

/-- The player's state is the one a packet is meant for. -/
def Due (pid : UInt16) : Option PacketType → Prop
  | some .ready => ∃ p, s.players.lookup pid = some p ∧ p.state = .loadingMods
  | some .vehicleSpawn | some .vehicleDelete => Playing s pid
  | _ => True

/-- What a call announces, it announces of a player in the right state. -/
def InTurn (s : Server) (x : Env) : Call → Prop
  | .frame object data =>
    ∀ t hdr, s.tcp.objects[object]? = some t → isFrame t data → Packet.parseHeader data = .ok hdr →
      playerOf s t.id ≠ 0xFFFF →
      Announced w x s (playerOf s t.id) (Packet.payload data) hdr.payloadLen (PacketType.ofCode hdr.type) →
      Due s (playerOf s t.id) (PacketType.ofCode hdr.type)
  | .close object => ∀ t, s.tcp.objects[object]? = some t → playerOf s t.id ≠ 0xFFFF → Playing s (playerOf s t.id)
  | _ => True

/-! ## What is announced is due -/

theorem announced_clear (c : Call) : announced w x s.clear c = announced w x s c := by
  cases c <;> rfl

/-- A vehicle that is announced passed its handler's checks. -/
theorem vehicle_announced {pid : UInt16} {pl : Bytes} {len : UInt16} {t : Option PacketType}
    (ht : t = some .vehicleSpawn ∨ t = some .vehicleDelete) (h : aboutPlayers (inGamePosts w x s pid pl len t) ≠ []) :
    Announced w x s pid pl len t := by
  have hne : inGamePosts w x s pid pl len t ≠ [] := fun he => h (by rw [he]; rfl)
  obtain ⟨post, hpost⟩ := List.exists_mem_of_ne_nil _ hne
  rcases mem_inGamePosts hpost with ⟨rfl, body, hb, hm⟩ | ⟨rfl, hlen, vid, hv, hm⟩ | ⟨rfl, -⟩ | ⟨rfl, -⟩ | ⟨rfl, -⟩
  · obtain ⟨j, p, model, hj, hp, hlt, hmodel, -⟩ := mem_spawnPosts.mp hm
    exact ⟨body, j, p, model, hb, hj, hp, hlt, hmodel⟩
  · obtain ⟨⟨p, hp⟩, -⟩ := mem_deletePosts.mp hm
    refine ⟨hlen, ?_, Table.mem_of_lookup hp⟩
    rintro rfl
    cases hv
  · rcases ht with ht | ht <;> cases ht
  · rcases ht with ht | ht <;> cases ht
  · rcases ht with ht | ht <;> cases ht

/-! ## One call -/

/-- What has been announced about `pid` since it was given away, against its record. -/
structure Told (pid : UInt16) (s : Server) (as : List Announcement) : Prop where
  inOrder : InOrder pid as
  loading : ∀ p, s.players.lookup pid = some p → p.state = .loadingMods → as = []
  playing : ∀ p, s.players.lookup pid = some p → p.state = .ready → p.username ≠ aiBridge → Open pid as

variable {w s} {pid : UInt16} {as : List Announcement}

theorem Told.of_lookup (h : Told pid s as) {s' : Server} (hl : s'.players.lookup pid = s.players.lookup pid) :
    Told pid s' as := by
  refine ⟨h.inOrder, ?_, ?_⟩
  · rw [hl]; exact h.loading
  · rw [hl]; exact h.playing

theorem Told.gone (h : InOrder pid as) {s' : Server} (hl : s'.players.lookup pid = none) : Told pid s' as := by
  refine ⟨h, ?_, ?_⟩ <;>
    · rw [hl]
      intro p hp
      cases hp

/-- A record that keeps its state and its name. -/
theorem Told.put (h : Told pid s as) {id : UInt16} {p q : Player} (hp : s.players.lookup id = some p)
    (hstate : q.state = p.state) (hname : q.username = p.username) {s' : Server}
    (hs' : s'.players = s.players.put id q) : Told pid s' as := by
  by_cases hid : pid = id
  · subst hid
    have hl : s'.players.lookup pid = some q := by rw [hs']; exact Table.lookup_put_self hp q
    refine ⟨h.inOrder, ?_, ?_⟩
    · rw [hl]
      intro r hr hst
      cases hr
      exact h.loading p hp (hstate ▸ hst)
    · rw [hl]
      intro r hr hst hne
      cases hr
      exact h.playing p hp (hstate ▸ hst) (hname ▸ hne)
  · refine h.of_lookup ?_
    rw [hs']
    exact Table.lookup_put_ne hid q

theorem Playing.open (h : Told pid s as) (hp : Playing s pid) : Open pid as := by
  obtain ⟨p, hl, hst, hne⟩ := hp
  exact h.playing p hl hst hne

/-- What one announcement adds to what is told of `pid`. -/
def news (pid : UInt16) (as bs : List Announcement) : List Announcement := as ++ bs.filter fun a => a.pid == pid

theorem news_nil : news pid as [] = as := List.append_nil as

theorem news_other {a : Announcement} (h : a.pid ≠ pid) : news pid as [a] = as := by simp [news, h]

theorem news_own {a : Announcement} (h : a.pid = pid) : news pid as [a] = as ++ [a] := by simp [news, h]

/-- A vehicle of a player that has joined is announced. -/
theorem vehicle_told (h : Told pid s as) {id : UInt16} {p q : Player} (hp : s.players.lookup id = some p)
    (hstate : q.state = p.state) (hname : q.username = p.username) {s' : Server} (hs' : s'.players = s.players.put id q)
    (hplay : Playing s id) {a : Announcement} (ha : a.isVehicle = true) (hid : a.pid = id) :
    Told pid s' (news pid as [a]) := by
  by_cases heq : id = pid
  · subst heq
    have hopen := (hplay.open h).vehicle ha
    obtain ⟨r, hr, hready, -⟩ := hplay
    obtain rfl : p = r := Option.some.inj (hp.symm.trans hr)
    have hl : s'.players.lookup id = some q := by rw [hs']; exact Table.lookup_put_self hp q
    rw [news_own hid]
    refine ⟨hopen.inOrder, fun r hr hst => ?_, fun _ _ _ _ => hopen⟩
    rw [hl] at hr
    cases hr
    rw [hstate, hready] at hst
    cases hst
  · rw [news_other (by rw [hid]; exact heq)]
    exact h.put hp hstate hname hs'

theorem turn_told (hrec : Records s) {id : UInt16} {t : Option PacketType} {bs : List Announcement} {s' : Server}
    (ht : Turn s id t bs s') (hdue : bs ≠ [] → Due s id t) (h : Told pid s as) : Told pid s' (news pid as bs) := by
  cases ht with
  | quiet ha => rw [news_nil]; exact h.of_lookup (by rw [ha.players])
  | @ready p s' hp ha =>
    have hid : p.id = id := (hrec id p hp).id
    by_cases heq : id = pid
    · subst heq
      obtain ⟨q, hq, hload⟩ := hdue (List.cons_ne_nil _ _)
      obtain rfl : p = q := Option.some.inj (hp.symm.trans hq)
      have hnil := h.loading p hp hload
      subst hnil
      rw [news_own (by exact hid), hid, List.nil_append]
      have hl : s'.players.lookup id = some { p with state := .ready } := by
        rw [ha.players]
        exact Table.lookup_put_self hp _
      refine ⟨(open_join id).inOrder, fun r hr hst => ?_, fun _ _ _ _ => open_join id⟩
      rw [hl] at hr
      cases hr
      cases hst
    · rw [news_other (by show p.id ≠ pid; rw [hid]; exact heq)]
      refine h.of_lookup ?_
      rw [ha.players]
      exact Table.lookup_put_ne (Ne.symm heq) _
  | @spawn p v s' hp _ ha =>
    exact vehicle_told h hp (q := { p with vehicles := p.vehicles ++ [v] }) rfl rfl ha.players
      (hdue (List.cons_ne_nil _ _)) rfl rfl
  | @delete p vid s' hp ha =>
    exact vehicle_told h hp (q := { p with vehicles := p.vehicles.filter fun v => !(v.vehicleId == vid) }) rfl rfl
      ha.players (hdue (List.cons_ne_nil _ _)) rfl rfl

/-- What a packet announces, its handler does. -/
theorem turn_posts {object : Nat} {data : Bytes} {t : TCPSession} {hdr : PacketHeader} {bs : List Announcement}
    {s' : Server} (ht : s.tcp.objects[object]? = some t) (hf : isFrame t data) (hh : Packet.parseHeader data = .ok hdr)
    (hp : playerOf s t.id ≠ 0xFFFF) (hT : Turn s (playerOf s t.id) (PacketType.ofCode hdr.type) bs s')
    (hbs : announced w x s (.frame object data) = bs) (hne : bs ≠ []) :
    aboutPlayers (inGamePosts w x s (playerOf s t.id) (Packet.payload data) hdr.payloadLen
      (PacketType.ofCode hdr.type)) = bs := by
  have hauth : PacketType.ofCode hdr.type ≠ some .authRequest := by
    intro he
    rw [he] at hT
    cases hT
    exact hne rfl
  rw [← hbs, announced, posts_turn ht hf hh hauth hp]

/-- A packet that is announced is due. -/
theorem turn_due {object : Nat} {data : Bytes} {t : TCPSession} {hdr : PacketHeader} {bs : List Announcement} {s' : Server}
    (ht : s.tcp.objects[object]? = some t) (hf : isFrame t data) (hh : Packet.parseHeader data = .ok hdr)
    (hp : playerOf s t.id ≠ 0xFFFF) (hT : Turn s (playerOf s t.id) (PacketType.ofCode hdr.type) bs s')
    (hbs : announced w x s (.frame object data) = bs) (hturn : InTurn w s x (.frame object data)) (hne : bs ≠ []) :
    Due s (playerOf s t.id) (PacketType.ofCode hdr.type) := by
  refine hturn t hdr ht hf hh hp ?_
  have hposts := turn_posts x ht hf hh hp hT hbs hne
  rw [← hposts] at hne
  generalize PacketType.ofCode hdr.type = ty at *
  cases hT with
  | quiet _ => exact absurd hposts hne
  | ready hl _ => exact Table.mem_of_lookup hl
  | spawn _ _ _ => exact vehicle_announced w x s (.inl rfl) hne
  | delete _ _ => exact vehicle_announced w x s (.inr rfl) hne

/-- The new record of an id that has just been given away. -/
theorem registered_told {body : Bytes} {username role : String} {st : PlayerState}
    (hb : (authBranch w s body).admits = some (username, role, st)) {sid : UInt16} {s' : Server}
    (hl : s'.players.lookup pid = some ⟨pid, username, role, s.remoteIP sid, st, false, false, []⟩) : Told pid s' [] := by
  refine ⟨inOrder_nil pid, fun _ _ _ => rfl, fun p hp hst hne => ?_⟩
  rw [hl] at hp
  cases hp
  obtain ⟨j, password, ha⟩ := admits_admission hb
  rcases ha.checks with ⟨hu, -⟩ | ⟨-, -, -, -, -, hload⟩
  · exact absurd hu hne
  · rw [hload] at hst
    cases hst

theorem allocates_same {s' : Server} {c : Call} (hn : s'.nextPlayerId = s.nextPlayerId) :
    allocates pid ⟨s, x, c, s'⟩ = false := by
  have hne : ¬ s'.nextPlayerId = freshId s + 1 := hn ▸ freshId_advances s
  simp [allocates, hne]

theorem allocates_new {s' : Server} {c : Call} (hn : s'.nextPlayerId = freshId s + 1) :
    allocates pid ⟨s, x, c, s'⟩ = (freshId s == pid) := by
  simp [allocates, hn]

/-- A call that gives no id away goes on with the latest piece. -/
theorem piece_same {P : List Announcement → Prop} {s' : Server} {c : Call} {bs : List Announcement}
    (hn : s'.nextPlayerId = s.nextPlayerId) (h : P (news pid as bs)) :
    P (if allocates pid ⟨s, x, c, s'⟩ then news pid [] bs else news pid as bs) := by
  rw [allocates_same x hn, if_neg Bool.false_ne_true]
  exact h

/-- One that does starts a new piece for the player of the id, and announces nothing. -/
theorem piece_new {P : List Announcement → Prop} {s' : Server} {c : Call} (hn : s'.nextPlayerId = freshId s + 1)
    (hown : freshId s = pid → P []) (hother : freshId s ≠ pid → P as) :
    P (if allocates pid ⟨s, x, c, s'⟩ then news pid [] [] else news pid as []) := by
  rw [allocates_new x hn, news_nil, news_nil]
  by_cases hpid : freshId s = pid
  · rw [if_pos (by simpa using hpid)]
    exact hown hpid
  · rw [if_neg (by simpa using hpid)]
    exact hother hpid

/-- One call, for a property of the player's record and his latest piece: what the call
    announces goes to the piece, and an id it gives away starts a new one. A ban, a turn,
    his own leaving and his registration are left to show. -/
theorem change_piece {P : Server → List Announcement → Prop}
    (hlookup : ∀ {t t' : Server} {as : List Announcement}, P t as → t'.players.lookup pid = t.players.lookup pid → P t' as)
    (hgone : ∀ {t : Server}, t.players.lookup pid = none → P t [])
    {c : Call} {bs : List Announcement} {s' : Server} (hc : Change w s c bs s') (h : P s as)
    (hbanned : ∀ {id : UInt16} {p : Player}, s.players.lookup id = some p →
      s'.players = s.players.put id { p with isBanned := true } → P s' as)
    (hturn : ∀ {object : Nat} {data : Bytes} {t : TCPSession} {hdr : PacketHeader}, c = .frame object data →
      s.tcp.objects[object]? = some t → isFrame t data → Packet.parseHeader data = .ok hdr → playerOf s t.id ≠ 0xFFFF →
      Turn s (playerOf s t.id) (PacketType.ofCode hdr.type) bs s' → P s' (news pid as bs))
    (hleft : ∀ {object : Nat} {t : TCPSession}, c = .close object → s.tcp.objects[object]? = some t →
      s.sessionToPlayer.lookup t.id = some pid → pid ≠ 0xFFFF → s'.players.lookup pid = none →
      P s' (news pid as [.leave pid]))
    (hown : ∀ (sid : UInt16) {body : Bytes} {username role : String} {st : PlayerState},
      (authBranch w s body).admits = some (username, role, st) →
      s'.players.lookup pid = some ⟨pid, username, role, s.remoteIP sid, st, false, false, []⟩ → P s' []) :
    P s' (if allocates pid ⟨s, x, c, s'⟩ then news pid [] bs else news pid as bs) := by
  have hsame : bs = [] → s'.nextPlayerId = s.nextPlayerId → s'.players = s.players →
      P s' (if allocates pid ⟨s, x, c, s'⟩ then news pid [] bs else news pid as bs) := by
    intro hnil hn hl
    refine piece_same x hn ?_
    rw [hnil, news_nil]
    exact hlookup h (by rw [hl])
  cases hc with
  | quiet ha => exact hsame rfl ha.nextPlayerId ha.players
  | accept ha => exact hsame rfl ha.nextPlayerId ha.players
  | closed _ _ ha => exact hsame rfl ha.nextPlayerId ha.players
  | banned hp ha =>
    refine piece_same x ha.nextPlayerId ?_
    rw [news_nil]
    exact hbanned hp ha.players
  | turn ht hf hh hp hT =>
    refine piece_same x (turn_alike hT).nextPlayerId ?_
    exact hturn rfl ht hf hh hp hT
  | @left object t id s' ht hl hid ha =>
    refine piece_same x ha.nextPlayerId ?_
    by_cases heq : id = pid
    · subst heq
      refine hleft rfl ht hl hid ?_
      rw [ha.players]
      exact AList.lookup_erase id s.players
    · rw [news_other (by exact heq)]
      refine hlookup h ?_
      rw [ha.players]
      exact AList.lookup_erase_ne (Ne.symm heq)
  | @registered _ _ sid _ _ _ _ _ ha hb hr =>
    refine piece_new x hr.nextPlayerId (fun hpid => ?_) fun hpid => ?_
    · refine hown sid hb ?_
      rw [hr.players, ← hpid]
      exact AList.lookup_insert s.players
    · refine hlookup h ?_
      rw [hr.players]
      exact AList.lookup_insert_ne (Ne.symm hpid)
  | vetoed ha hb hr =>
    have herased : s'.players = (s.players.insert (freshId s) _).erase (freshId s) := hr.players
    refine piece_new x hr.nextPlayerId (fun hpid => ?_) fun hpid => ?_
    · refine hgone ?_
      rw [herased, ← hpid]
      exact AList.lookup_erase _ _
    · refine hlookup h ?_
      rw [herased, AList.lookup_erase_ne (Ne.symm hpid)]
      exact AList.lookup_insert_ne (Ne.symm hpid)

theorem change_told (hrec : Records s) {c : Call} {bs : List Announcement} {s' : Server} (hc : Change w s c bs s')
    (hbs : announced w x s c = bs) (hturn : InTurn w s x c) (h : Told pid s as) :
    Told pid s' (if allocates pid ⟨s, x, c, s'⟩ then news pid [] bs else news pid as bs) := by
  refine change_piece x (P := Told pid) (fun h hl => h.of_lookup hl) (Told.gone (inOrder_nil pid)) hc h ?banned ?turn
    ?left ?own
  case banned =>
    intro id p hp hs'
    exact h.put hp (q := { p with isBanned := true }) rfl rfl hs'
  case turn =>
    rintro object data t hdr rfl ht hf hh hp hT
    exact turn_told hrec hT (turn_due x ht hf hh hp hT hbs hturn) h
  case left =>
    rintro object t rfl ht hl hid hgone
    have hplay : Playing s pid := by
      have hclose := hturn t ht
      rw [playerOf_some hl] at hclose
      exact hclose hid
    rw [news_own (by rfl)]
    exact Told.gone (hplay.open h).left hgone
  case own =>
    intro sid body username role st hb hl
    exact registered_told hb hl

/-! ## Every run -/

/-- What one call keeps of the state and the latest piece, a whole run keeps. -/
theorem pieces_run {ok : Server → Env → Call → Prop} {P : Server → List Announcement → Prop}
    {Q : List Announcement → Prop} (hPQ : ∀ s as, P s as → Q as) (h0 : P Server.init [])
    (hstep : ∀ s x c s' as, Records s → ok s x c → Change w s c (announced w x s c) s' → P s as →
      P s' (if allocates pid ⟨s, x, c, s'⟩ then news pid [] (announced w x s c) else news pid as (announced w x s c)))
    {h : List Moment} (hr : Run w ok h s) :
    ∃ cur past, pieces w pid h = cur :: past ∧ P s cur ∧ ∀ piece ∈ past, Q piece := by
  induction hr with
  | init => exact ⟨[], [], rfl, h0, fun piece hp => by cases hp⟩
  | @step h s s' x c hr hok hs ih =>
    obtain ⟨cur, past, hcut, hcur, hpast⟩ := ih
    have hnext := hstep s x c s' cur (records_reach hr.reach) hok (announced_clear w x s c ▸ step_change w x s hs) hcur
    have habout : ∀ as, news pid as (announced w x s c) = as ++ about w pid ⟨s, x, c, s'⟩ := fun _ => rfl
    unfold pieces
    by_cases ha : allocates pid ⟨s, x, c, s'⟩ = true
    · rw [if_pos ha, habout, List.nil_append] at hnext
      rw [if_pos ha, hcut]
      exact ⟨_, _, rfl, hnext, List.forall_mem_cons.mpr ⟨hPQ _ _ hcur, hpast⟩⟩
    · rw [if_neg ha, habout] at hnext
      rw [if_neg ha, hcut]
      exact ⟨_, _, rfl, hnext, hpast⟩

theorem pieces_told {h : List Moment} (hr : Run w (InTurn w) h s) (pid : UInt16) :
    ∃ cur past, pieces w pid h = cur :: past ∧ Told pid s cur ∧ ∀ piece ∈ past, InOrder pid piece := by
  refine pieces_run (P := Told pid) (Q := InOrder pid) (fun s as h => h.inOrder) (Told.gone (inOrder_nil pid) ?_) ?_ hr
  · simp [Server.init]
  · intro s x c s' as hrec hturn hc h
    exact change_told x hrec hc rfl hturn h

/-- In every run whose packets come in turn, what is announced about an id from one
    allocation to the next is in order. -/
theorem announced_in_order (w : World) {h : List Moment} {s : Server} (hr : Run w (InTurn w) h s) (pid : UInt16) :
    ∀ piece ∈ pieces w pid h, InOrder pid piece := by
  obtain ⟨cur, past, hcut, htold, hpast⟩ := pieces_told hr pid
  rw [hcut]
  exact List.forall_mem_cons.mpr ⟨htold.inOrder, hpast⟩

/-! ## Ready twice -/

namespace Eager

def readyFrame : Bytes := Packet.buildStr .ready 0 0 []

/-- `ann` is ready. -/
def ready : Server := after Sample.world Sample.joined Env.quiet (.frame 0 readyFrame)

/-- She says so again. -/
def again : Server := after Sample.world ready Env.quiet (.frame 0 readyFrame)

def history : List Moment :=
  [⟨Sample.joined, Env.quiet, .frame 0 readyFrame, ready⟩,
    ⟨Sample.connected, Env.quiet, .frame 0 (authFrame (userJson "ann")), Sample.joined⟩,
    ⟨Server.init, Env.quiet, .accept "10.0.0.1", Sample.connected⟩]

theorem step_ready : Step Sample.world Sample.joined Env.quiet (.frame 0 readyFrame) ready :=
  step_after Sample.world _ _ (by decide)

theorem step_again : Step Sample.world ready Env.quiet (.frame 0 readyFrame) again :=
  step_after Sample.world _ _ (by decide)

theorem run_again : Run Sample.world anyStep (⟨ready, Env.quiet, .frame 0 readyFrame, again⟩ :: history) again :=
  .step (.step (.step (.step .init trivial Sample.step_connected) trivial Sample.step_joined) trivial step_ready)
    trivial step_again

/-- An `AUTH_REQUEST` announces nothing. -/
theorem auth_inTurn : InTurn Sample.world Sample.connected Env.quiet (.frame 0 (authFrame (userJson "ann"))) := by
  intro t hdr _ _ hh _ ha
  have hhdr : Packet.parseHeader (authFrame (userJson "ann")) = .ok ⟨PacketType.authRequest.code, 0, 0, 18, 0⟩ := rfl
  obtain rfl := Except.ok.inj (hhdr.symm.trans hh)
  cases ha

theorem ready_inTurn : InTurn Sample.world Sample.joined Env.quiet (.frame 0 readyFrame) := by
  intro t hdr ht _ hh _ _
  have hhdr : Packet.parseHeader readyFrame = .ok ⟨PacketType.ready.code, 0, 0, 0, 0⟩ := rfl
  obtain rfl := Except.ok.inj (hhdr.symm.trans hh)
  have hobj : Sample.joined.tcp.objects[0]? = some ⟨1, "10.0.0.1", true⟩ := by decide
  obtain rfl := Option.some.inj (hobj.symm.trans ht)
  have hpid : playerOf Sample.joined 1 = 1 := by decide
  have hp : Sample.joined.players.lookup 1 = some ⟨1, "ann", "player", "10.0.0.1", .loadingMods, false, false, []⟩ := by
    decide
  show Due Sample.joined (playerOf Sample.joined 1) (some .ready)
  rw [hpid]
  exact ⟨_, hp, rfl⟩

theorem run_ready : Run Sample.world (InTurn Sample.world) history ready :=
  .step (.step (.step .init trivial Sample.step_connected) auth_inTurn Sample.step_joined) ready_inTurn step_ready

theorem pieces_ready : pieces Sample.world 1 history = [[.join 1], []] := by decide

theorem pieces_again :
    pieces Sample.world 1 (⟨ready, Env.quiet, .frame 0 readyFrame, again⟩ :: history) = [[.join 1, .join 1], []] := by
  decide

theorem join_join : ¬ InOrder 1 [.join 1, .join 1] := by
  intro h
  obtain ⟨vs, hvs, hpre⟩ := h
  cases vs with
  | nil => simp at hpre
  | cons v vs =>
    have hv : Announcement.join 1 = v := by simpa using hpre
    have hfalse := hvs v List.mem_cons_self
    rw [← hv] at hfalse
    cases hfalse

end Eager

theorem announced_in_order_ann : [.join 1] ∈ pieces Sample.world 1 Eager.history ∧ InOrder 1 [.join 1] := by
  have hpiece : [.join 1] ∈ pieces Sample.world 1 Eager.history := by
    rw [Eager.pieces_ready]
    exact List.mem_cons_self
  exact ⟨hpiece, announced_in_order Sample.world Eager.run_ready 1 _ hpiece⟩

/-- A player that says `READY` twice joins twice. -/
theorem joined_twice : ¬ ∀ (w : World) (h : List Moment) (s : Server), Run w anyStep h s →
    ∀ pid, ∀ piece ∈ pieces w pid h, InOrder pid piece := by
  intro hall
  have hpiece := hall _ _ _ Eager.run_again 1 [.join 1, .join 1]
  rw [Eager.pieces_again] at hpiece
  exact Eager.join_join (hpiece List.mem_cons_self)

end GameServer

end NovaMP
