/-
  NovaMP.Client.Foreign — datagrams from anywhere (`NetworkClient::udpRecv` and `sendUDP`
  in `client/src/network/client.cpp`).

  `udpRecv` gives `m_udp_ep` to `async_receive_from`, which writes the sender of each
  datagram to it, and `sendUDP` sends to it. No handler looks where a datagram came from,
  and `onPacket` takes an authentication response or server info from any.

  - `routed_run`: so the client sends to the sender of the last datagram, and to the server
    only before the first.
  - `foreign_harmless_iff`: what the client sends goes to the server, and no datagram from
    elsewhere changes anything, exactly if none is received.
  - `authenticated_by`: an authentication response from anywhere is taken.
  - `sent_elsewhere`: one empty datagram redirects the vehicle updates.
-/

import NovaMP.Client.NetworkClient

namespace NovaMP.NetworkClient

open Lib

/-! ## Where datagrams go -/

/-- The sender of the last datagram in the log; `ep` if there is none. -/
def lastSource (ep : Endpoint) : List Mark → Endpoint
  | [] => ep
  | .arrived source :: log => lastSource source log
  | _ :: log => lastSource ep log

/-- Each datagram was sent to where the last one had come from. -/
def Routed (ep : Endpoint) : List Mark → Prop
  | [] => True
  | .arrived source :: log => Routed source log
  | .sent destination _ :: log => destination = ep ∧ Routed ep log
  | _ :: log => Routed ep log

theorem lastSource_append (ep : Endpoint) (log marks : List Mark) :
    lastSource ep (log ++ marks) = lastSource (lastSource ep log) marks := by
  induction log generalizing ep with
  | nil => rfl
  | cons m log ih => cases m <;> exact ih _

theorem Routed.append {ep : Endpoint} {log marks : List Mark} (hl : Routed ep log) (hm : Routed (lastSource ep log) marks) :
    Routed ep (log ++ marks) := by
  induction log generalizing ep with
  | nil => exact hm
  | cons m log ih =>
    cases m with
    | sent destination data => exact ⟨hl.1, ih hl.2 hm⟩
    | _ => exact ih hl hm

variable {server : Endpoint} {log : List Mark}

theorem lastSource_eq (hlog : ∀ source, .arrived source ∈ log → source = server) : lastSource server log = server := by
  induction log with
  | nil => rfl
  | cons m log ih =>
    have hrest := ih fun source hm => hlog source (List.mem_cons_of_mem _ hm)
    cases m with
    | arrived source =>
      obtain rfl := hlog source List.mem_cons_self
      exact hrest
    | _ => exact hrest

theorem Routed.to_server (hr : Routed server log) (hlog : ∀ source, .arrived source ∈ log → source = server)
    {destination : Endpoint} {data : Bytes} (hm : .sent destination data ∈ log) : destination = server := by
  induction log with
  | nil => cases hm
  | cons m log ih =>
    have hlog' : ∀ source, .arrived source ∈ log → source = server := fun source hm => hlog source (List.mem_cons_of_mem _ hm)
    cases m with
    | arrived source =>
      obtain rfl := hlog source List.mem_cons_self
      exact ih hr hlog' ((List.mem_cons.mp hm).resolve_left (by simp))
    | sent dst d =>
      rcases List.mem_cons.mp hm with he | hm
      · cases he
        exact hr.1
      · exact ih hr.2 hlog' hm
    | _ => exact ih hr hlog' ((List.mem_cons.mp hm).resolve_left (by simp))

/-! ## Steps -/

variable {h : Host} {cb : Callbacks} {k : Thread} {i : Instr} {o : Result} {s s' : Shared} {push : List Instr}

/-- What a step adds to the log, and the endpoint after it. -/
structure Notes (i : Instr) (o : Result) (s s' : Shared) : Prop where
  log : ∃ marks, s'.log = s.log ++ marks ∧ Routed s.udpEp marks ∧ s'.udpEp = lastSource s.udpEp marks ∧
    ∀ source, .arrived source ∈ marks → i = .run ∧ (∃ data, o = .arrives source data) ∧ s'.udpEp = source

theorem Notes.quiet (hlog : s'.log = s.log) (hep : s'.udpEp = s.udpEp) : Notes i o s s' :=
  ⟨[], by rw [hlog, List.append_nil], trivial, hep, by simp⟩

/-- A mark that is neither of a datagram received nor of one sent. -/
def Mark.other : Mark → Bool
  | .arrived _ | .sent _ _ => false
  | _ => true

theorem Notes.marked {m : Mark} (hlog : s'.log = s.log ++ [m]) (hep : s'.udpEp = s.udpEp) (hm : m.other = true) :
    Notes i o s s' := by
  refine ⟨[m], hlog, ?_, ?_, ?_⟩
  · cases m <;> trivial
  · rw [hep]
    cases m <;> first | rfl | cases hm
  · rintro source hmem
    rw [← List.mem_singleton.mp hmem] at hm
    cases hm

theorem complete_notes (hr : complete cb o s = some (push, s')) : Notes .run o s s' := by
  unfold complete at hr
  cases o with
  | go => cases hr
  | length len =>
    dsimp only at hr
    split at hr <;> cases hr
    exact .marked rfl rfl rfl
  | payload data =>
    dsimp only at hr
    split at hr <;> cases hr
    exact .quiet rfl rfl
  | tcpError what =>
    dsimp only at hr
    split at hr
    · cases hr
      split
      · exact ⟨[.tcpError, .called (.disconnect what)], by simp [Shared.mark], trivial, rfl, by simp⟩
      · exact .marked rfl rfl rfl
    · cases hr
  | arrives source data =>
    dsimp only at hr
    split at hr <;> cases hr
    refine ⟨[.arrived source], rfl, trivial, rfl, fun source' hm => ?_⟩
    cases List.mem_singleton.mp hm
    exact ⟨rfl, ⟨data, rfl⟩, rfl⟩
  | datagram =>
    dsimp only at hr
    split at hr <;> cases hr
    exact .quiet rfl rfl
  | udpError =>
    dsimp only at hr
    split at hr <;> cases hr
    exact .quiet rfl rfl

theorem step_notes (hr : step h cb k i o s = some (push, s')) : Notes i o s s' := by
  unfold step at hr
  cases i with
  | run =>
    dsimp only at hr
    split at hr
    · cases hr
      exact .quiet rfl rfl
    · obtain ⟨⟨push', s''⟩, hc, he⟩ := Option.map_eq_some_iff.mp hr
      cases he
      exact complete_notes hc
  | packet data len =>
    dsimp only at hr
    split at hr <;> cases hr <;> exact .quiet rfl rfl
  | act a =>
    cases hr
    cases a with
    | call c => exact .marked rfl rfl rfl
    | setPlayerId _ | connected | set _ => exact .quiet rfl rfl
  | tcpReadLen | tcpReadPayload _ | udpRecv | closeTcp | closeUdp | stop | update _ =>
    cases hr
    exact .quiet rfl rfl
  | disconnected | returned =>
    cases hr
    exact .marked rfl rfl rfl
  | join =>
    dsimp only at hr
    split at hr
    · split at hr
      · cases hr
        exact .marked rfl rfl rfl
      · split at hr <;> cases hr
        exact .marked rfl rfl rfl
    · cases hr
      exact .quiet rfl rfl
  | send data =>
    cases hr
    split
    · exact ⟨[.sent s.udpEp data], rfl, ⟨rfl, trivial⟩, rfl, by simp⟩
    · exact .quiet rfl rfl

theorem log_grows {es₁ es : List Event} (hes : es₁ <+: es) (server : Endpoint) :
    (after h cb server es₁).state.log <+: (after h cb server es).state.log := by
  refine Crew.run_grows (R := rules h cb) (f := Shared.log) ?_ ?_ hes (Threads.init h server)
  · intro k r s is s' hr
    simp [(start_eq_some hr).1]
  · intro k i o s push s' hr
    obtain ⟨marks, hlog, -⟩ := (step_notes (act_eq_some hr).2).log
    rw [hlog]
    exact List.prefix_append _ _

/-- The client sends to where the last datagram came from. -/
theorem routed_run (h : Host) (cb : Callbacks) (server : Endpoint) (es : List Event) :
    Routed server (after h cb server es).state.log ∧
      (after h cb server es).state.udpEp = lastSource server (after h cb server es).state.log := by
  have h0 : Routed server (Threads.init h server).state.log ∧
      (Threads.init h server).state.udpEp = lastSource server (Threads.init h server).state.log := ⟨trivial, rfl⟩
  refine Crew.run_keeps (R := rules h cb) (I := fun _ q => Routed server q.state.log ∧ q.state.udpEp = lastSource server q.state.log)
    h0 (fun _ _ _ _ hq => hq) ?_ ?_ es
  · intro es q k r is s _ hq hk hr
    rw [Crew.put_state, (start_eq_some hr).1]
    exact hq
  · intro es q k o i is push s _ hq hk hr
    obtain ⟨marks, hlog, hrouted, hep, -⟩ := (step_notes (act_eq_some hr).2).log
    rw [Crew.put_state, hlog, hep, hq.2, lastSource_append]
    rw [hq.2] at hrouted
    exact ⟨hq.1.append hrouted, rfl⟩

/-! ## Datagrams from elsewhere -/

/-- What a datagram may change: `m_player_id`, `m_connected`, `m_server_info` and the
    destination. -/
def steered (s : Shared) : UInt16 × Bool × ServerInfo × Endpoint := (s.client.playerId, s.connected, s.serverInfo, s.udpEp)

/-- The sender of the datagram that the next step receives or handles. -/
def serves (q : Threads) : Event → Option Endpoint
  | .start _ _ => none
  | .turn k o =>
    match q.script k with
    | .run :: _ =>
      match o with
      | .arrives source _ => some source
      | _ => none
    -- In the handler of a datagram, `udpRecv` is what comes last.
    | is => if .udpRecv ∈ is then some q.state.udpEp else none

variable {es : List Event}

/-- The first datagram from elsewhere changes the destination. -/
theorem first_foreign (hforeign : ∃ source, .arrived source ∈ (after h cb server es).state.log ∧ source ≠ server) :
    ∃ es₁ e source, es₁ ++ [e] <+: es ∧ serves (after h cb server es₁) e = some source ∧ source ≠ server ∧
      steered (after h cb server (es₁ ++ [e])).state ≠ steered (after h cb server es₁).state := by
  induction es using List.reverseRecOn with
  | nil =>
    obtain ⟨source, hm, -⟩ := hforeign
    cases hm
  | append_singleton es e ih =>
    by_cases hearlier : ∃ source, .arrived source ∈ (after h cb server es).state.log ∧ source ≠ server
    · obtain ⟨es₁, e₁, source, hes, hrest⟩ := ih hearlier
      exact ⟨es₁, e₁, source, hes.trans (List.prefix_append _ _), hrest⟩
    have hserver : ∀ source, .arrived source ∈ (after h cb server es).state.log → source = server := by
      intro source hm
      by_contra hne
      exact hearlier ⟨source, hm, hne⟩
    have hep := (routed_run h cb server es).2.trans (lastSource_eq hserver)
    obtain ⟨source, hm, hne⟩ := hforeign
    have hafter : after h cb server (es ++ [e]) = Crew.next (rules h cb) (after h cb server es) e := Crew.run_concat _ _ _ _
    obtain ⟨-, hsame⟩ | ⟨k, r, is, s, -, -, hr, hnext⟩ | ⟨k, o, i, is, push, s, rfl, hk, hr, hnext⟩ :=
      Crew.next_cases (R := rules h cb) (after h cb server es) e
    · rw [hafter, hsame] at hm
      exact absurd (hserver source hm) hne
    · rw [hafter, hnext, Crew.put_state, (start_eq_some hr).1] at hm
      exact absurd (hserver source hm) hne
    · rw [hafter, hnext, Crew.put_state] at hm
      obtain ⟨marks, hlog, -, hs, harrived⟩ := (step_notes (act_eq_some hr).2).log
      rw [hlog] at hm
      have hmarks := (List.mem_append.mp hm).resolve_left fun hm => hne (hserver source hm)
      obtain ⟨rfl, ⟨data, rfl⟩, hnew⟩ := harrived source hmarks
      refine ⟨es, .turn k (.arrives source data), source, List.prefix_refl _, ?_, hne, fun hsame => hne ?_⟩
      · simp only [serves, hk]
      · rw [hafter, hnext, Crew.put_state] at hsame
        have hold : s.udpEp = (after h cb server es).state.udpEp := congrArg (·.2.2.2) hsame
        rw [← hnew, hold, hep]

/-- A step that serves a datagram of the server's, or receives none, is as before. -/
theorem serves_server {es₁ : List Event} {e : Event} {source : Endpoint}
    (hserver : ∀ source, .arrived source ∈ (after h cb server (es₁ ++ [e])).state.log → source = server)
    (hs : serves (after h cb server es₁) e = some source) (hne : source ≠ server) :
    steered (after h cb server (es₁ ++ [e])).state = steered (after h cb server es₁).state := by
  have hearlier : ∀ source, .arrived source ∈ (after h cb server es₁).state.log → source = server := fun source hm =>
    hserver source ((log_grows (List.prefix_append es₁ [e]) server).subset hm)
  have hep := (routed_run h cb server es₁).2.trans (lastSource_eq hearlier)
  have hafter : after h cb server (es₁ ++ [e]) = Crew.next (rules h cb) (after h cb server es₁) e := Crew.run_concat _ _ _ _
  obtain ⟨-, hsame⟩ | ⟨k, r, is, s, rfl, -, -, -⟩ | ⟨k, o, i, is, push, s, rfl, hk, hr, hnext⟩ :=
    Crew.next_cases (R := rules h cb) (after h cb server es₁) e
  · rw [hafter, hsame]
  · cases hs
  unfold serves at hs
  dsimp only at hs
  rw [hk] at hs
  split at hs
  · rename_i hrun
    cases List.head_eq_of_cons_eq hrun
    split at hs
    · rename_i source' data
      cases hs
      have hstep := (act_eq_some hr).2
      rw [step] at hstep
      rw [hafter, hnext, Crew.put_state] at hserver ⊢
      split at hstep
      · cases hstep
        rfl
      · obtain ⟨⟨push', s'⟩, hc, he⟩ := Option.map_eq_some_iff.mp hstep
        cases he
        dsimp only [complete] at hc
        split at hc <;> cases hc
        exact absurd (hserver source (List.mem_append_right _ (List.mem_singleton_self _))) hne
    · cases hs
  · split at hs
    · cases hs
      exact absurd hep hne
    · cases hs

/-- Everything goes to the server and datagrams from elsewhere change nothing, exactly if
    there are none. -/
theorem foreign_harmless_iff (h : Host) (cb : Callbacks) (server : Endpoint) (es : List Event) :
    ((∀ destination data, .sent destination data ∈ (after h cb server es).state.log → destination = server) ∧
      ∀ es₁ e source, es₁ ++ [e] <+: es → serves (after h cb server es₁) e = some source → source ≠ server →
        steered (after h cb server (es₁ ++ [e])).state = steered (after h cb server es₁).state) ↔
    ∀ source, .arrived source ∈ (after h cb server es).state.log → source = server := by
  constructor
  · rintro ⟨-, hsteered⟩ source hm
    by_contra hne
    obtain ⟨es₁, e, source, hes, hs, hne, hchanged⟩ := first_foreign ⟨source, hm, hne⟩
    exact hchanged (hsteered es₁ e source hes hs hne)
  · intro hserver
    refine ⟨fun destination data hm => (routed_run h cb server es).1.to_server hserver hm, fun es₁ e source hes hs hne => ?_⟩
    exact serves_server (fun source hm => hserver source ((log_grows hes server).subset hm)) hs hne

/-! ## What datagrams from elsewhere do -/

theorem payloadLen_toNat {body : Bytes} (hbody : body.length ≤ 65497) : (UInt16.ofNat body.length).toNat = body.length := by
  rw [UInt16.toNat_ofNat']
  exact Nat.mod_eq_of_lt (by omega)

/-- An authentication response, whatever `stale` bytes follow it in the buffer. -/
theorem onPacket_authResponse {body : Bytes} {j : Json} {id : Int} (hbody : body.length ≤ 65497)
    (hj : h.parse body = some j) (hok : j.valueBool "ok" false = .ok true)
    (hid : j.valueNumber h.trunc "player_id" 0 = .ok id) (sid : UInt16) (seq : UInt32) (f : UInt8) (stale : Bytes) :
    let p := Packet.build .authResponse sid seq body (UInt16.ofNat body.length) f
    ∃ rest, onPacket h cb (p ++ stale) p.length = .ok (.setPlayerId (.ofInt id) :: .connected :: rest) := by
  intro p
  have hlen := payloadLen_toNat hbody
  let hdr : PacketHeader := ⟨PacketType.authResponse.code, sid, seq, UInt16.ofNat body.length, f⟩
  have hhdr : Packet.parseHeader p = .ok hdr := by
    have hbuild := Packet.parseHeader_build .authResponse sid seq body (UInt16.ofNat body.length) f []
    rwa [List.append_nil] at hbuild
  have hread : readBytes (Packet.payload (p ++ stale)) hdr.payloadLen.toNat = .ok body := by
    rw [Packet.payload_build, hlen, List.take_length, readBytes_of_le (by simp), List.take_left]
  have hauth : ifType hdr .authResponse (p ++ stale) (authResponse h cb) =
      .ok (.setPlayerId (.ofInt id) :: .connected :: callIf cb (.connect true "")) := by
    rw [ifType, if_pos rfl, hread]
    show Except.ok (authResponse h cb body) = _
    rw [authResponse, hj]
    simp only [hok, hid]
    rfl
  have hinfo : ifType hdr .serverInfo (p ++ stale) (serverInfo h) = .ok [] := by
    rw [ifType, if_neg]
    show ¬ PacketType.authResponse.code = PacketType.serverInfo.code
    decide
  refine ⟨callIf cb (.connect true "") ++ callIf cb (.packet hdr.type p), ?_⟩
  rw [onPacket, List.take_left, hhdr]
  show (ifType hdr .authResponse (p ++ stale) (authResponse h cb) >>= fun auth =>
    ifType hdr .serverInfo (p ++ stale) (serverInfo h) >>= fun info =>
      Except.ok (auth ++ info ++ callIf cb (.packet hdr.type p))) = _
  rw [hauth, hinfo]
  show Except.ok (_ ++ [] ++ _) = _
  rw [List.append_nil]
  rfl

/-- Whoever sends an authentication response, the client takes its number and is connected. -/
theorem authenticated_by (source : Endpoint) {body : Bytes} {j : Json} {id : Int} (hbody : body.length ≤ 65497)
    (hj : h.parse body = some j) (hok : j.valueBool "ok" false = .ok true)
    (hid : j.valueNumber h.trunc "player_id" 0 = .ok id) (sid : UInt16) (seq : UInt32) (f : UInt8) :
    let p := Packet.build .authResponse sid seq body (UInt16.ofNat body.length) f
    let s := (after h cb server ([.turn .io (.arrives source p), .turn .io .datagram] ++ List.replicate 3 (.turn .io .go))).state
    s.client.playerId = .ofInt id ∧ s.connected = true ∧ s.udpEp = source := by
  intro p s
  have hp : p.length = 10 + body.length := by simp [p, Packet.build, payloadLen_toNat hbody]
  have htake : p.take udpRecvBufSize = p := List.take_of_length_le (by rw [hp, udpRecvBufSize]; omega)
  have hsize : 10 ≤ p.length := by omega
  obtain ⟨rest, hrest⟩ : ∃ rest, onPacket h cb (p ++ h.memory.drop p.length) p.length =
      .ok (.setPlayerId (.ofInt id) :: .connected :: rest) := onPacket_authResponse hbody hj hok hid sid seq f _
  simp [s, after, Crew.run, Crew.next, Crew.outcome, rules, act, step, complete, doAction, htake, hsize, hrest,
    Shared.mark, Threads.init, Shared.init, List.replicate]

namespace Sample

def stranger : Endpoint := ⟨[192, 0, 2, 7], 9⟩

/-- A vehicle update, a datagram from elsewhere, another vehicle update. -/
def redirected : List Event :=
  [.start .owner (.sendVehicleUpdate .zero), .turn .owner .go, .turn .owner .go, .turn .io (.arrives stranger []),
    .start .owner (.sendVehicleUpdate .zero), .turn .owner .go, .turn .owner .go]

end Sample

/-- An empty datagram is enough. -/
theorem sent_elsewhere : ¬ ∀ (h : Host) (cb : Callbacks) (server : Endpoint) (es : List Event),
    (∀ destination data, .sent destination data ∈ (after h cb server es).state.log → destination = server) ∧
      ∀ es₁ e source, es₁ ++ [e] <+: es → serves (after h cb server es₁) e = some source → source ≠ server →
        steered (after h cb server (es₁ ++ [e])).state = steered (after h cb server es₁).state := by
  intro hall
  have hserver := (hall Sample.host Sample.callbacks Sample.gameServer Sample.redirected).1
  have hlog : (after Sample.host Sample.callbacks Sample.gameServer Sample.redirected).state.log =
      [.sent Sample.gameServer (buildVehicleUpdate 0 1 .zero), .arrived Sample.stranger, .sent Sample.stranger (buildVehicleUpdate 0 2 .zero)] :=
    rfl
  rw [hlog] at hserver
  exact absurd (hserver Sample.stranger _ (List.mem_cons_of_mem _ (List.mem_cons_of_mem _ (List.mem_singleton_self _)))) (by decide)

end NovaMP.NetworkClient
