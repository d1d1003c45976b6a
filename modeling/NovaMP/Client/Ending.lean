/-
  NovaMP.Client.Ending — how the connection of a NovaMP client ends
  (`tcpReadLen`, `tcpReadPayload`, `onPacket` and `disconnect` in
  `client/src/network/client.cpp`).

  Three places end it, each in its own way. A read that fails calls the disconnect
  callback and leaves `m_connected`. A length that is not allowed makes the io thread call
  `disconnect`, which joins that thread and calls nothing. A `disconnect` of the owner
  clears the flag and stops `m_ioc`, after which the handler of the read it has cancelled
  does not run. And an authentication response that comes later, by UDP if not by TCP,
  sets the flag again.

  - `reads`, in `Inv`: one TCP read is outstanding, about to be begun, or has failed.
  - `ended_well`: with none of the above, the callback is called once, the flag stays
    cleared and the io thread joins nothing, in every state of every run.
  - `empty_frame`: a length of 0.
-/

import NovaMP.Client.NetworkClient

namespace NovaMP.NetworkClient

open Lib

/-! ## The claim about a state -/

def Mark.isCall : Mark → Bool
  | .called (.disconnect _) => true
  | _ => false

/-- A read has failed, or a `disconnect` has cleared `m_connected`. -/
def Over (s : Shared) : Prop := .tcpError ∈ s.log ∨ ∃ k, .disconnects k ∈ s.log

structure EndsWell (s : Shared) : Prop where
  once : s.log.countP Mark.isCall ≤ 1
  notified : (.tcpError ∈ s.log ∨ ∃ k, .returns k ∈ s.log) → s.log.countP Mark.isCall = 1
  disconnected : Over s → s.connected = false
  joined : .joins .io ∉ s.log

/-! ## The condition -/

/-- The lengths are allowed, a read fails while `m_connected` is not set, nothing sets it
    after the end, and `m_ioc` is stopped after a read has failed. -/
def Allowed (i : Instr) (o : Result) (s : Shared) : Prop :=
  match i, o with
  | .run, .length len => s.stopped = false → lengthOk len = true
  | .run, .tcpError _ => s.stopped = false → s.connected = false
  | .act .connected, _ => ¬ Over s
  | .stop, _ => .tcpError ∈ s.log
  | _, _ => True

/-- If the event is a step, it is allowed. -/
def Orderly (h : Host) (cb : Callbacks) (q : Threads) (e : Event) : Prop :=
  ∀ k o i is push s, e = .turn k o → q.script k = i :: is → act h cb k i o q.state = some (push, s) → Allowed i o q.state

/-! ## The io thread -/

/-- The io thread runs these; the callback is called in one other place only. -/
def Instr.handles : Instr → Bool
  | .run | .packet _ _ | .tcpReadLen | .tcpReadPayload _ | .udpRecv => true
  | .act (.call (.disconnect _)) => false
  | .act _ => true
  | _ => false

/-- A TCP read is begun. -/
def Instr.reads : Instr → Bool
  | .tcpReadLen | .tcpReadPayload _ => true
  | _ => false

/-- A mark of `disconnect`. -/
def Mark.ofDisconnect : Mark → Bool
  | .disconnects _ | .joins _ | .returns _ => true
  | _ => false

def reading (s : Shared) : Nat := if s.tcpRead.isSome then 1 else 0

variable {h : Host} {cb : Callbacks} {k : Thread} {i : Instr} {o : Result} {s s' : Shared} {push : List Instr}

theorem callIf_handles {c : Callback} (hc : ∀ reason, c ≠ .disconnect reason) :
    ∀ a ∈ callIf cb c, (Instr.act a).handles = true := by
  intro a ha
  unfold callIf at ha
  split at ha
  · rw [List.mem_singleton.mp ha]
    cases c with
    | disconnect reason => exact absurd rfl (hc reason)
    | packet _ _ | connect _ _ => rfl
  · cases ha

theorem authResponse_handles (body : Bytes) : ∀ a ∈ authResponse h cb body, (Instr.act a).handles = true := by
  intro a ha
  unfold authResponse at ha
  split at ha
  · cases ha
  split at ha
  · split at ha
    · rcases List.mem_append.mp ha with ha | ha
      · simp only [List.mem_cons, List.not_mem_nil, or_false] at ha
        rcases ha with rfl | rfl <;> rfl
      · exact callIf_handles (by simp) a ha
    · cases ha
  · split at ha
    · exact callIf_handles (by simp) a ha
    · cases ha
  · cases ha

theorem serverInfo_handles (body : Bytes) : ∀ a ∈ serverInfo h body, (Instr.act a).handles = true := by
  intro a ha
  unfold serverInfo at ha
  split at ha
  · cases ha
  · obtain ⟨x, -, rfl⟩ := List.mem_map.mp ha
    rfl

theorem ifType_handles {hdr : PacketHeader} {t : PacketType} {data : Bytes} {serve : Bytes → List Action} {as : List Action}
    (hserve : ∀ body, ∀ a ∈ serve body, (Instr.act a).handles = true) (has : ifType hdr t data serve = .ok as) :
    ∀ a ∈ as, (Instr.act a).handles = true := by
  unfold ifType at has
  split at has
  · cases hbody : readBytes (Packet.payload data) hdr.payloadLen.toNat with
    | error f =>
      rw [hbody] at has
      cases has
    | ok body =>
      rw [hbody] at has
      cases has
      exact hserve body
  · cases has
    simp

theorem onPacket_handles {data : Bytes} {len : Nat} {as : List Action} (has : onPacket h cb data len = .ok as) :
    ∀ a ∈ as, (Instr.act a).handles = true := by
  have hbind : ∀ {α : Type} {x : Except Fault α} {f : α → Except Fault (List Action)}, x >>= f = .ok as →
      ∃ a, x = .ok a ∧ f a = .ok as := by
    intro α x f hx
    cases x with
    | error e => cases hx
    | ok a => exact ⟨a, rfl, hx⟩
  obtain ⟨hdr, -, has⟩ := hbind has
  obtain ⟨auth, hauth, has⟩ := hbind has
  obtain ⟨info, hinfo, has⟩ := hbind has
  cases has
  intro a ha
  rcases List.mem_append.mp ha with ha | ha
  · rcases List.mem_append.mp ha with ha | ha
    · exact ifType_handles authResponse_handles hauth a ha
    · exact ifType_handles serverInfo_handles hinfo a ha
  · exact callIf_handles (by simp) a ha

/-- A step of the io thread. -/
structure Handled (cb : Callbacks) (i : Instr) (push : List Instr) (s s' : Shared) : Prop where
  pushes : ∀ i' ∈ push, i'.handles = true
  stopped : s'.stopped = s.stopped
  connected : s'.connected = s.connected ∨ i = .act .connected
  log : ∃ marks, s'.log = s.log ++ marks ∧ (∀ m ∈ marks, m.ofDisconnect = false) ∧
    (cb.disconnect = true → marks.countP Mark.isCall = marks.count .tcpError) ∧
    reading s' + push.countP Instr.reads + marks.count .tcpError = reading s + (if i.reads then 1 else 0) ∧
    (.tcpError ∈ marks → s'.connected = false)

theorem Handled.quiet (hpush : ∀ i' ∈ push, i'.handles = true) (hstopped : s'.stopped = s.stopped)
    (hconnected : s'.connected = s.connected ∨ i = .act .connected) (hlog : s'.log = s.log)
    (hreads : reading s' + push.countP Instr.reads = reading s + (if i.reads then 1 else 0)) : Handled cb i push s s' :=
  ⟨hpush, hstopped, hconnected, [], by simp [hlog], by simp, by simp, by simpa using hreads, by simp⟩

theorem complete_handled (hallow : Allowed .run o s) (hrunning : s.stopped = false) (hr : complete cb o s = some (push, s')) :
    Handled cb .run (push ++ [.run]) s s' := by
  unfold complete at hr
  cases o with
  | go => cases hr
  | length len =>
    dsimp only at hr
    split at hr
    · rename_i hread
      rw [if_pos (hallow hrunning)] at hr
      cases hr
      refine ⟨by simp [Instr.handles], rfl, .inl rfl, [.length len], rfl, by simp [Mark.ofDisconnect], by simp [Mark.isCall], ?_,
        by simp⟩
      simp [reading, hread, Shared.mark, Instr.reads, List.countP_cons]
    · cases hr
  | payload data =>
    dsimp only at hr
    split at hr
    · rename_i hread
      cases hr
      exact .quiet (by simp [Instr.handles]) rfl (.inl rfl) rfl (by simp [reading, hread, Instr.reads, List.countP_cons])
    · cases hr
  | tcpError what =>
    dsimp only at hr
    split at hr
    · rename_i hread
      cases hr
      have hconnected : s.connected = false := hallow hrunning
      split
      · refine ⟨by simp [Instr.handles], rfl, .inl rfl, [.tcpError, .called (.disconnect what)], by simp [Shared.mark],
          by simp [Mark.ofDisconnect], by simp [Mark.isCall], ?_, fun _ => hconnected⟩
        simp [reading, hread, Shared.mark, Instr.reads]
      · rename_i hcb
        refine ⟨by simp [Instr.handles], rfl, .inl rfl, [.tcpError], rfl, by simp [Mark.ofDisconnect], ?_, ?_, fun _ => hconnected⟩
        · intro hset
          exact absurd hset hcb
        · simp [reading, hread, Shared.mark, Instr.reads]
    · cases hr
  | arrives source data =>
    dsimp only at hr
    split at hr <;> cases hr
    exact ⟨by simp [Instr.handles], rfl, .inl rfl, [.arrived source], rfl, by simp [Mark.ofDisconnect], by simp [Mark.isCall],
      by simp [reading, Shared.mark, Instr.reads], by simp⟩
  | datagram =>
    dsimp only at hr
    split at hr <;> cases hr
    split <;> exact .quiet (by simp [Instr.handles]) rfl (.inl rfl) rfl (by simp [reading, Instr.reads])
  | udpError =>
    dsimp only at hr
    split at hr <;> cases hr
    exact .quiet (by simp [Instr.handles]) rfl (.inl rfl) rfl (by simp [reading, Instr.reads])

theorem io_step (hi : i.handles = true) (hallow : Allowed i o s) (hfree : i.reads = true → s.tcpRead = none)
    (hr : step h cb k i o s = some (push, s')) : Handled cb i push s s' := by
  unfold step at hr
  cases i with
  | run =>
    dsimp only at hr
    split at hr
    · cases hr
      exact .quiet (by simp) rfl (.inl rfl) rfl (by simp [reading, Instr.reads])
    · rename_i hrunning
      obtain ⟨⟨push', s''⟩, hc, he⟩ := Option.map_eq_some_iff.mp hr
      cases he
      exact complete_handled hallow (Bool.eq_false_iff.mpr hrunning) hc
  | packet data len =>
    dsimp only at hr
    split at hr <;> cases hr
    · rename_i as has
      have hpush : ∀ i' ∈ as.map Instr.act, i'.handles = true := by
        intro i' hi'
        obtain ⟨a, ha, rfl⟩ := List.mem_map.mp hi'
        exact onPacket_handles has a ha
      have hreads : (as.map Instr.act).countP Instr.reads = 0 := by
        rw [List.countP_eq_zero]
        intro i' hi'
        obtain ⟨a, -, rfl⟩ := List.mem_map.mp hi'
        exact Bool.false_ne_true
      exact .quiet hpush rfl (.inl rfl) rfl (by rw [hreads]; rfl)
    · exact .quiet (by simp) rfl (.inl rfl) rfl rfl
  | act a =>
    cases hr
    cases a with
    | call c =>
      refine ⟨by simp, rfl, .inl rfl, [.called c], rfl, by simp [Mark.ofDisconnect], fun _ => ?_, rfl, by simp⟩
      cases c with
      | disconnect _ => cases hi
      | packet _ _ | connect _ _ => rfl
    | connected => exact .quiet (by simp) rfl (.inr rfl) rfl rfl
    | setPlayerId _ | set _ => exact .quiet (by simp) rfl (.inl rfl) rfl rfl
  | tcpReadLen | tcpReadPayload _ =>
    cases hr
    exact .quiet (by simp) rfl (.inl rfl) rfl (by simp [reading, hfree rfl, Instr.reads])
  | udpRecv =>
    cases hr
    exact .quiet (by simp) rfl (.inl rfl) rfl rfl
  | disconnected | closeTcp | closeUdp | stop | join | returned | send _ | update _ => cases hi

/-! ## The owner -/

/-- The script of the owner; once `m_ioc` is stopped, a read has failed. -/
inductive OwnerAt (s : Shared) : List Instr → Prop
  | idle : OwnerAt s []
  | sending {data : Bytes} : OwnerAt s [.send data]
  | updating {vs : VehicleState} : OwnerAt s [.update vs]
  | disconnecting : OwnerAt s disconnecting
  | closingTcp : OwnerAt s [.closeTcp, .closeUdp, .stop, .join, .returned]
  | closingUdp : OwnerAt s [.closeUdp, .stop, .join, .returned]
  | stopping : OwnerAt s [.stop, .join, .returned]
  | joining : s.stopped = true → OwnerAt s [.join, .returned]
  | returning : s.stopped = true → OwnerAt s [.returned]

theorem OwnerAt.mono {is : List Instr} (ho : OwnerAt s is) (hs : s'.stopped = s.stopped) : OwnerAt s' is := by
  cases ho with
  | idle => exact .idle
  | sending => exact .sending
  | updating => exact .updating
  | disconnecting => exact .disconnecting
  | closingTcp => exact .closingTcp
  | closingUdp => exact .closingUdp
  | stopping => exact .stopping
  | joining h => exact .joining (hs.trans h)
  | returning h => exact .returning (hs.trans h)

/-- A step of the owner. -/
structure Owned (s s' : Shared) : Prop where
  tcpRead : s'.tcpRead = s.tcpRead
  connected : s'.connected = s.connected ∨ s'.connected = false
  stopped : s'.stopped = true → s.stopped = true ∨ .tcpError ∈ s.log
  log : ∃ marks, s'.log = s.log ++ marks ∧ marks.countP Mark.isCall = 0 ∧ .tcpError ∉ marks ∧ .joins .io ∉ marks ∧
    ((∃ k, .disconnects k ∈ marks) → s'.connected = false) ∧ ((∃ k, .returns k ∈ marks) → s.stopped = true)

theorem Owned.quiet (htcp : s'.tcpRead = s.tcpRead) (hconnected : s'.connected = s.connected)
    (hstopped : s'.stopped = true → s.stopped = true ∨ .tcpError ∈ s.log) (hlog : s'.log = s.log) : Owned s s' :=
  ⟨htcp, .inl hconnected, hstopped, [], by simp [hlog], rfl, by simp, by simp, by simp, by simp⟩

theorem owner_step {is : List Instr} (ho : OwnerAt s (i :: is)) (hallow : Allowed i o s)
    (hr : step h cb .owner i o s = some (push, s')) : OwnerAt s' (push ++ is) ∧ Owned s s' := by
  cases ho with
  | sending =>
    cases hr
    refine ⟨.idle, ?_⟩
    split
    · exact ⟨rfl, .inl rfl, .inl, [.sent s.udpEp _], rfl, rfl, by simp, by simp, by simp, by simp⟩
    · exact .quiet rfl rfl .inl rfl
  | updating =>
    cases hr
    exact ⟨.sending, .quiet rfl rfl .inl rfl⟩
  | disconnecting =>
    cases hr
    exact ⟨.closingTcp, rfl, .inr rfl, .inl, [.disconnects .owner], rfl, rfl, by simp, by simp, fun _ => rfl, by simp⟩
  | closingTcp =>
    cases hr
    exact ⟨.closingUdp, .quiet rfl rfl .inl rfl⟩
  | closingUdp =>
    cases hr
    exact ⟨.stopping, .quiet rfl rfl .inl rfl⟩
  | stopping =>
    cases hr
    exact ⟨.joining rfl, .quiet rfl rfl (fun _ => .inr hallow) rfl⟩
  | joining hs =>
    unfold step at hr
    dsimp only at hr
    split at hr
    · split at hr <;> cases hr
      exact ⟨.returning hs, rfl, .inl rfl, .inl, [.joins .owner], rfl, rfl, by simp, by simp, by simp, by simp⟩
    · cases hr
      exact ⟨.returning hs, .quiet rfl rfl .inl rfl⟩
  | returning hs =>
    cases hr
    exact ⟨.idle, rfl, .inl rfl, .inl, [.returns .owner], rfl, rfl, by simp, by simp, by simp, fun _ => hs⟩

/-! ## Runs -/

structure Inv (q : Threads) : Prop where
  owner : OwnerAt q.state (q.script .owner)
  io : ∀ i ∈ q.script .io, i.handles = true
  /-- One TCP read is outstanding, about to be begun, or has failed. -/
  reads : reading q.state + (q.script .io).countP Instr.reads + q.state.log.count .tcpError = 1
  calls : q.state.log.countP Mark.isCall = q.state.log.count .tcpError
  joined : .joins .io ∉ q.state.log
  disconnected : Over q.state → q.state.connected = false
  stopped : q.state.stopped = true → .tcpError ∈ q.state.log
  returned : (∃ k, .returns k ∈ q.state.log) → .tcpError ∈ q.state.log

theorem Inv.endsWell {q : Threads} (hq : Inv q) : EndsWell q.state where
  once := by
    have hreads := hq.reads
    rw [hq.calls]
    omega
  notified hover := by
    have herror : .tcpError ∈ q.state.log := hover.elim id hq.returned
    have hreads := hq.reads
    have hpos := List.count_pos_iff.mpr herror
    rw [hq.calls]
    omega
  disconnected := hq.disconnected
  joined := hq.joined

theorem Inv.io_turn {q : Threads} {is : List Instr} (hcb : cb.disconnect = true) (hq : Inv q) (hk : q.script .io = i :: is)
    (hallow : Allowed i o q.state) (hr : step h cb .io i o q.state = some (push, s)) : Inv (q.put .io (push ++ is) s) := by
  have hio := hq.io
  have hreads := hq.reads
  rw [hk] at hio hreads
  rw [List.countP_cons] at hreads
  have hfree : i.reads = true → q.state.tcpRead = none := by
    intro hi
    rw [if_pos hi] at hreads
    have hnone : reading q.state = 0 := by omega
    simpa [reading] using hnone
  have hi := hio i List.mem_cons_self
  obtain ⟨hpush, hstopped, hconnected, marks, hlog, hmarks, hcalls, hbalance, herror⟩ := io_step hi hallow hfree hr
  have hof : ∀ m : Mark, m.ofDisconnect = true → m ∈ q.state.log ++ marks → m ∈ q.state.log := by
    intro m hm hmem
    refine (List.mem_append.mp hmem).resolve_right fun hmem => ?_
    rw [hmarks m hmem] at hm
    cases hm
  refine ⟨?_, ?_, ?_, ?_, ?_, ?_, ?_, ?_⟩
  · rw [Crew.put_ne q (by simp)]
    exact hq.owner.mono hstopped
  · rw [Crew.put_self]
    intro i' hi'
    exact (List.mem_append.mp hi').elim (hpush i') fun hi' => hio i' (List.mem_cons_of_mem _ hi')
  · rw [Crew.put_self, Crew.put_state, hlog, List.count_append, List.countP_append]
    omega
  · rw [Crew.put_state, hlog, List.countP_append, List.count_append, hq.calls, hcalls hcb]
  · rw [Crew.put_state, hlog]
    exact fun hm => hq.joined (hof _ rfl hm)
  · rw [Crew.put_state, Over, hlog]
    intro hover
    by_cases hfails : .tcpError ∈ marks
    · exact herror hfails
    · have hearlier : Over q.state := by
        refine hover.imp (fun hm => (List.mem_append.mp hm).resolve_right hfails) ?_
        rintro ⟨k, hm⟩
        exact ⟨k, hof _ rfl hm⟩
      rcases hconnected with hsame | rfl
      · rw [hsame]
        exact hq.disconnected hearlier
      · exact absurd hearlier hallow
  · rw [Crew.put_state, hlog, hstopped]
    exact fun hs => List.mem_append_left _ (hq.stopped hs)
  · rw [Crew.put_state, hlog]
    rintro ⟨k, hm⟩
    exact List.mem_append_left _ (hq.returned ⟨k, hof _ rfl hm⟩)

theorem Inv.owner_turn {q : Threads} {is : List Instr} (hq : Inv q) (hk : q.script .owner = i :: is)
    (hallow : Allowed i o q.state) (hr : step h cb .owner i o q.state = some (push, s)) : Inv (q.put .owner (push ++ is) s) := by
  have ho := hq.owner
  rw [hk] at ho
  obtain ⟨hnext, htcp, hconnected, hstopped, marks, hlog, hcalls, herror, hjoins, hdisconnects, hreturns⟩ :=
    owner_step ho hallow hr
  have hio : (q.put .owner (push ++ is) s).script .io = q.script .io := Crew.put_ne q (by simp) _ _
  refine ⟨?_, ?_, ?_, ?_, ?_, ?_, ?_, ?_⟩
  · rw [Crew.put_self]
    exact hnext
  · rw [hio]
    exact hq.io
  · rw [hio, Crew.put_state, hlog, List.count_append, List.count_eq_zero.mpr herror, reading, htcp]
    exact hq.reads
  · rw [Crew.put_state, hlog, List.countP_append, List.count_append, List.count_eq_zero.mpr herror, hcalls, hq.calls]
  · rw [Crew.put_state, hlog]
    exact fun hm => (List.mem_append.mp hm).elim hq.joined hjoins
  · rw [Crew.put_state, Over, hlog]
    intro hover
    by_cases hclears : ∃ k, .disconnects k ∈ marks
    · exact hdisconnects hclears
    · have hearlier : Over q.state := by
        refine hover.imp (fun hm => (List.mem_append.mp hm).resolve_right herror) ?_
        rintro ⟨k, hm⟩
        exact ⟨k, (List.mem_append.mp hm).resolve_right fun hm => hclears ⟨k, hm⟩⟩
      exact hconnected.elim (fun hsame => hsame.trans (hq.disconnected hearlier)) id
  · rw [Crew.put_state, hlog]
    exact fun hs => List.mem_append_left _ ((hstopped hs).elim hq.stopped id)
  · rw [Crew.put_state, hlog]
    rintro ⟨k, hm⟩
    refine List.mem_append_left _ ?_
    rcases List.mem_append.mp hm with hm | hm
    · exact hq.returned ⟨k, hm⟩
    · exact hq.stopped (hreturns ⟨k, hm⟩)

theorem Inv.start {q : Threads} {r : Request} {is : List Instr} (hq : Inv q) (hr : NetworkClient.start k r q.state = some (is, s)) :
    Inv (q.put k is s) := by
  obtain ⟨rfl, rfl, his⟩ := start_eq_some hr
  have hio : (q.put .owner is q.state).script .io = q.script .io := Crew.put_ne q (by simp) _ _
  refine ⟨?_, ?_, ?_, hq.calls, hq.joined, hq.disconnected, hq.stopped, hq.returned⟩
  · rw [Crew.put_self]
    obtain rfl | ⟨data, rfl⟩ | ⟨vs, rfl⟩ := his
    · exact .disconnecting
    · exact .sending
    · exact .updating
  · rw [hio]
    exact hq.io
  · rw [hio]
    exact hq.reads

theorem inv_run (hcb : cb.disconnect = true) (server : Endpoint) {es : List Event}
    (horderly : ∀ es₁ e, es₁ ++ [e] <+: es → Orderly h cb (after h cb server es₁) e) : Inv (after h cb server es) := by
  have h0 : Inv (Threads.init h server) :=
    ⟨.idle, by simp [Threads.init, Instr.handles], rfl, rfl, by simp [Threads.init, Shared.init],
      by simp [Over, Threads.init, Shared.init], by simp [Threads.init, Shared.init], by simp [Threads.init, Shared.init]⟩
  refine Crew.run_keeps_of (R := rules h cb) (C := Orderly h cb) h0 ?_ ?_ horderly
  · intro q k r is s hq _ _ hr
    exact hq.start hr
  · intro q k o i is push s hq hallow hk hr
    have hi := hallow k o i is push s rfl hk hr
    cases k with
    | owner => exact hq.owner_turn hk hi (act_eq_some hr).2
    | io => exact hq.io_turn hcb hk hi (act_eq_some hr).2

/-- In a run whose steps are all allowed, the connection ends well. -/
theorem ended_well (h : Host) (cb : Callbacks) (hcb : cb.disconnect = true) (server : Endpoint) (es : List Event)
    (horderly : ∀ es₁ e, es₁ ++ [e] <+: es → Orderly h cb (after h cb server es₁) e) :
    EndsWell (after h cb server es).state :=
  (inv_run hcb server horderly).endsWell

/-! ## Two ends -/

theorem orderly_start {q : Threads} {r : Request} : Orderly h cb q (.start k r) := by
  rintro _ _ _ _ _ _ he
  cases he

theorem orderly_turn {q : Threads} {is : List Instr} (hk : q.script k = i :: is) (hallow : Allowed i o q.state) :
    Orderly h cb q (.turn k o) := by
  rintro _ _ i' _ _ _ he hk' -
  cases he
  cases hk.symm.trans hk'
  exact hallow

namespace Sample

/-- The server closes before it has answered, and then the owner disconnects. -/
def closed : List Event :=
  [.turn .io (.tcpError "End of file"), .start .owner .disconnect, .turn .owner .go, .turn .owner .go, .turn .owner .go,
    .turn .owner .go, .turn .io .go, .turn .owner .go, .turn .owner .go]

/-- A length of 0 comes. -/
def emptyFrame : List Event := .turn .io (.length 0) :: List.replicate 5 (.turn .io .go)

end Sample

theorem ended_well_closed : EndsWell (after Sample.host Sample.callbacks Sample.gameServer Sample.closed).state ∧
    .returns .owner ∈ (after Sample.host Sample.callbacks Sample.gameServer Sample.closed).state.log := by
  refine ⟨ended_well Sample.host Sample.callbacks rfl Sample.gameServer Sample.closed ?_, ?_⟩
  · refine Crew.forall_prefix_cons (orderly_turn rfl fun _ => rfl) (Crew.forall_prefix_cons orderly_start ?_)
    refine Crew.forall_prefix_cons (orderly_turn rfl trivial) (Crew.forall_prefix_cons (orderly_turn rfl trivial) ?_)
    refine Crew.forall_prefix_cons (orderly_turn rfl trivial) (Crew.forall_prefix_cons (orderly_turn rfl List.mem_cons_self) ?_)
    refine Crew.forall_prefix_cons (orderly_turn rfl trivial) (Crew.forall_prefix_cons (orderly_turn rfl trivial) ?_)
    refine Crew.forall_prefix_cons (orderly_turn rfl trivial) fun es₁ e hes => ?_
    exact absurd (List.prefix_nil.mp hes) (by simp)
  · have hlog : (after Sample.host Sample.callbacks Sample.gameServer Sample.closed).state.log =
        [.tcpError, .called (.disconnect "End of file"), .disconnects .owner, .joins .owner, .returns .owner] := rfl
    rw [hlog]
    simp

/-- A length of 0 makes the io thread join itself. -/
theorem empty_frame : ¬ ∀ (h : Host) (cb : Callbacks) (server : Endpoint) (es : List Event), cb.disconnect = true →
    EndsWell (after h cb server es).state := by
  intro hall
  have hjoined := (hall Sample.host Sample.callbacks Sample.gameServer Sample.emptyFrame rfl).joined
  have hlog : (after Sample.host Sample.callbacks Sample.gameServer Sample.emptyFrame).state.log =
      [.length 0, .disconnects .io, .joins .io] := rfl
  rw [hlog] at hjoined
  exact hjoined (by simp)

end NovaMP.NetworkClient
