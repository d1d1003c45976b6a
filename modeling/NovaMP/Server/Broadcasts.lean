/-
  NovaMP.Server.Broadcasts — `TCPServer` called by several threads at once
  (`servers/src/network/tcp_server.cpp`).

  Every function takes `m_sessions_mutex` for its whole body (`onSessionClose` and the
  accept handler for one block). A step of a thread is one acquisition or release of the
  mutex, one pass of the loop of `sendAll`, or one access to `m_sessions`. The handlers
  of asio and the callbacks are calls that some thread makes.

  - `Stage`: what a thread that broadcasts has sent so far.
  - `broadcasts_ordered`: after any interleaving, two broadcasts were started in one order
    on all sessions, and each finished one exactly once on every session that was
    registered all the while (`Ordered`).
  - `disconnect` waits for ever for the mutex it holds, and so do all threads after it;
    what they have sent by then is in order.
-/

import NovaMP.Lib.Scripts
import NovaMP.Server.State

namespace NovaMP.TCPServer

open Lib

/-! ## The session table, step by step -/

/-- `m_next_session_id++` and `make_shared<TCPSession>`. -/
def makeSession (tcp : TCPServer) (ip : String) : TCPServer :=
  { tcp with
    nextSessionId := tcp.nextSessionId + 1
    objects := tcp.objects ++ [⟨tcp.nextSessionId, ip, true⟩]
    own := fun sid i h => by
      obtain ⟨t, ht, hid⟩ := tcp.own sid i h
      have hi : i < tcp.objects.length := (List.getElem?_eq_some_iff.mp ht).1
      exact ⟨t, by rw [List.getElem?_append_left hi, ht], hid⟩ }

/-- `m_sessions[sid] = session`. The table may be rehashed, so `order` is any order of
    the entries. -/
def insertSession (tcp : TCPServer) (object : Nat) (order : List (Sigma fun _ : UInt16 => Nat)) : Option TCPServer :=
  match ht : tcp.objects[object]? with
  | none => none
  | some t =>
    if h : order.Perm (tcp.sessions.insert t.id object).entries then
      have hnodup : order.NodupKeys := (List.perm_nodupKeys h).mpr (tcp.sessions.insert t.id object).nodupKeys
      some { tcp with
        sessions := ⟨order, hnodup⟩
        own := fun sid i hl => by
          rw [@AList.perm_lookup _ _ _ sid ⟨order, hnodup⟩ (tcp.sessions.insert t.id object) h, Table.lookup_insert'] at hl
          split at hl
          · rename_i hsid
            cases hl
            exact ⟨t, ht, hsid.symm⟩
          · exact tcp.own sid i hl }
    else none

/-! ## The threads -/

inductive Request where
  | send (sid : UInt16) (packet : Bytes)
  | sendAll (packet : Bytes) (exclude : UInt16)
  | accept (ip : String)
  /-- `TCPSession::close` -/
  | close (object : Nat)
  | disconnect (sid : UInt16)
  | getRemoteIP (sid : UInt16)
  deriving DecidableEq

/-- `call` is the number of the call of `send` or `sendAll` that the instruction is of. -/
inductive Instr where
  | lock
  | unlock
  | make (ip : String)
  | insert (object : Nat)
  | find (sid : UInt16) (packet : Bytes) (call : Nat)
  /-- The pass of the loop for the entry `i`. -/
  | next (exclude : UInt16) (packet : Bytes) (call i : Nat)
  | ret (call : Nat)
  | shut (object : Nat)
  | erase (sid : UInt16)
  | drop (sid : UInt16)
  | look (sid : UInt16)
  deriving DecidableEq

def Instr.call : Instr → Option Nat
  | .find _ _ n | .next _ _ n _ | .ret n => some n
  | _ => none

structure Call (κ : Type) where
  thread : κ
  request : Request

/-- An `async_write` of the packet of a call on a session. -/
structure Start where
  object : Nat
  call : Nat
  packet : Bytes
  deriving DecidableEq

structure Hub (κ : Type) where
  tcp : TCPServer
  /-- Who has `m_sessions_mutex`. -/
  holder : Option κ
  /-- The calls of `send` and `sendAll`. -/
  calls : List (Call κ)
  /-- The calls that have returned. -/
  finished : List Nat
  /-- The oldest first. -/
  started : List Start

variable {κ : Type}

def Hub.init : Hub κ := ⟨empty, none, [], [], []⟩

/-- A call of `send` or `sendAll`, whose body is one instruction under the mutex. -/
def calling (k : κ) (r : Request) (body : Nat → Instr) (s : Hub κ) : List Instr × Hub κ :=
  ([.lock, body s.calls.length, .unlock, .ret s.calls.length], { s with calls := s.calls ++ [⟨k, r⟩] })

def start (k : κ) (r : Request) (s : Hub κ) : Option (List Instr × Hub κ) :=
  match r with
  | .send sid packet => some (calling k r (.find sid packet) s)
  | .sendAll packet exclude => some (calling k r (.next exclude packet · 0) s)
  | .accept ip => some ([.make ip], s)
  | .close object => some ([.shut object], s)
  | .disconnect sid => some ([.lock, .drop sid, .unlock], s)
  | .getRemoteIP sid => some ([.lock, .look sid, .unlock], s)

/-- `TCPSession::send` -/
def write (s : Hub κ) (object n : Nat) (packet : Bytes) : Hub κ :=
  { s with started := s.started ++ [⟨object, n, packet⟩] }

def act (k : κ) (i : Instr) (order : List (Sigma fun _ : UInt16 => Nat)) (s : Hub κ) : Option (List Instr × Hub κ) :=
  match i with
  | .lock => if s.holder.isNone then some ([], { s with holder := some k }) else none
  | .unlock => some ([], { s with holder := none })
  | .make ip => some ([.lock, .insert s.tcp.objects.length, .unlock], { s with tcp := s.tcp.makeSession ip })
  | .insert object => (s.tcp.insertSession object order).map fun tcp => ([], { s with tcp := tcp })
  | .find sid packet n =>
    match s.tcp.sessions.lookup sid with
    | some object => some ([], write s object n packet)
    | none => some ([], s)
  | .next exclude packet n i =>
    match s.tcp.sessions.entries[i]? with
    | some e => some ([.next exclude packet n (i + 1)], if e.1 ≠ exclude then write s e.2 n packet else s)
    | none => some ([], s)
  | .ret n => some ([], { s with finished := s.finished ++ [n] })
  | .shut object =>
    match s.tcp.objects[object]? with
    | some t => some ([.lock, .erase t.id, .unlock], { s with tcp := s.tcp.closeSocket object })
    | none => some ([], s)
  | .erase sid => some ([], { s with tcp := s.tcp.eraseSession sid })
  | .drop sid =>
    match s.tcp.sessions.lookup sid with
    | some object => some ([.shut object], s)
    | none => some ([], s)
  | .look _ => some ([], s)

def rules (κ : Type) : Rules κ Request Instr (List (Sigma fun _ : UInt16 => Nat)) (Hub κ) := ⟨start, act⟩

abbrev Threads (κ : Type) := Crew κ Instr (Hub κ)

abbrev Event (κ : Type) := Crew.Event κ Request (List (Sigma fun _ : UInt16 => Nat))

def Threads.init : Threads κ := ⟨Hub.init, fun _ => []⟩

/-! ## What an instruction does -/

/-- What an instruction can do. -/
inductive Acts (k : κ) (s : Hub κ) : Instr → List Instr → Hub κ → Prop
  | lock : s.holder = none → Acts k s .lock [] { s with holder := some k }
  | unlock : Acts k s .unlock [] { s with holder := none }
  | make (ip : String) :
    Acts k s (.make ip) [.lock, .insert s.tcp.objects.length, .unlock] { s with tcp := s.tcp.makeSession ip }
  | insert {object : Nat} {order : List (Sigma fun _ : UInt16 => Nat)} {tcp : TCPServer} :
    s.tcp.insertSession object order = some tcp → Acts k s (.insert object) [] { s with tcp := tcp }
  | found {sid : UInt16} {packet : Bytes} {n object : Nat} : Acts k s (.find sid packet n) [] (write s object n packet)
  | unknown {sid : UInt16} {packet : Bytes} {n : Nat} : Acts k s (.find sid packet n) [] s
  | pass {exclude : UInt16} {packet : Bytes} {n i : Nat} {entry : Sigma fun _ : UInt16 => Nat} :
    s.tcp.sessions.entries[i]? = some entry → Acts k s (.next exclude packet n i) [.next exclude packet n (i + 1)]
      (if entry.1 ≠ exclude then write s entry.2 n packet else s)
  | through {exclude : UInt16} {packet : Bytes} {n i : Nat} : s.tcp.sessions.entries[i]? = none →
    Acts k s (.next exclude packet n i) [] s
  | ret (n : Nat) : Acts k s (.ret n) [] { s with finished := s.finished ++ [n] }
  | shut {object : Nat} (t : TCPSession) :
    Acts k s (.shut object) [.lock, .erase t.id, .unlock] { s with tcp := s.tcp.closeSocket object }
  | gone {object : Nat} : Acts k s (.shut object) [] s
  | erase (sid : UInt16) : Acts k s (.erase sid) [] { s with tcp := s.tcp.eraseSession sid }
  | drop {sid : UInt16} (object : Nat) : Acts k s (.drop sid) [.shut object] s
  | absent {sid : UInt16} : Acts k s (.drop sid) [] s
  | look (sid : UInt16) : Acts k s (.look sid) [] s

theorem act_cases {k : κ} {i : Instr} {order : List (Sigma fun _ : UInt16 => Nat)} {s s' : Hub κ} {push : List Instr}
    (h : act k i order s = some (push, s')) : Acts k s i push s' := by
  unfold act at h
  cases i with
  | lock =>
    dsimp only at h
    split at h <;> cases h
    exact .lock (Option.isNone_iff_eq_none.mp ‹_›)
  | unlock =>
    cases h
    exact .unlock
  | make ip =>
    cases h
    exact .make ip
  | insert object =>
    obtain ⟨tcp, htcp, hs⟩ := Option.map_eq_some_iff.mp h
    cases hs
    exact .insert htcp
  | find sid packet n =>
    dsimp only at h
    split at h <;> cases h
    · exact .found
    · exact .unknown
  | next exclude packet n i =>
    dsimp only at h
    split at h <;> cases h
    · exact .pass ‹_›
    · exact .through ‹_›
  | ret n =>
    cases h
    exact .ret n
  | shut object =>
    dsimp only at h
    split at h <;> cases h
    · exact .shut _
    · exact .gone
  | erase sid =>
    cases h
    exact .erase sid
  | drop sid =>
    dsimp only at h
    split at h <;> cases h
    · exact .drop _
    · exact .absent
  | look sid =>
    cases h
    exact .look sid

/-! ## The mutex -/

def use : Instr → Use
  | .lock => .takes
  | .unlock => .frees
  | .insert _ | .find _ _ _ | .next _ _ _ _ | .erase _ | .drop _ | .look _ => .inside
  | .make _ | .ret _ | .shut _ => .outside

theorem guarded_block {held : Bool} {i : Instr} {is : List Instr} (hi : use i = .inside) (h : Guarded use held is) :
    Guarded use held (.lock :: i :: .unlock :: is) := by
  cases held with
  | true => exact .inl rfl
  | false =>
    refine .inr ?_
    rw [Guarded, hi]
    exact ⟨rfl, rfl, h⟩

theorem start_locks {k : κ} {r : Request} {s s' : Hub κ} {is : List Instr} (h : start k r s = some (is, s')) :
    Guarded use false is ∧ s'.holder = s.holder := by
  cases r <;> cases h
  · exact ⟨guarded_block rfl rfl, rfl⟩
  · exact ⟨guarded_block rfl rfl, rfl⟩
  · exact ⟨rfl, rfl⟩
  · exact ⟨rfl, rfl⟩
  · exact ⟨guarded_block rfl rfl, rfl⟩
  · exact ⟨guarded_block rfl rfl, rfl⟩

theorem acts_inside {k : κ} {i : Instr} {s s' : Hub κ} {push : List Instr} (h : Acts k s i push s') (hi : use i = .inside) :
    s'.holder = s.holder ∧ ∀ is, Guarded use true is → Guarded use true (push ++ is) := by
  cases h with
  | insert _ | found | unknown | through _ | erase _ | absent | look _ => exact ⟨rfl, fun _ hg => hg⟩
  | pass _ => exact ⟨by split <;> rfl, fun _ hg => ⟨rfl, hg⟩⟩
  | drop _ => exact ⟨rfl, fun _ hg => hg⟩
  | lock _ | unlock | make _ | ret _ | shut _ | gone => cases hi

theorem acts_outside {k : κ} {i : Instr} {s s' : Hub κ} {push : List Instr} (h : Acts k s i push s') (hi : use i = .outside) :
    s'.holder = s.holder ∧ ∀ held is, Guarded use held is → Guarded use held (push ++ is) := by
  cases h with
  | make _ | shut _ => exact ⟨rfl, fun _ _ hg => guarded_block rfl hg⟩
  | ret _ | gone => exact ⟨rfl, fun _ _ hg => hg⟩
  | lock _ | unlock | insert _ | found | unknown | pass _ | through _ | erase _ | drop _ | absent | look _ => cases hi

theorem locks : Locks use (rules κ) Hub.holder where
  start _ _ _ _ _ h := start_locks h
  takes k i _ s push s' hi h := by
    cases act_cases h <;> cases hi
    exact ⟨rfl, ‹_›, rfl⟩
  frees k i _ s push s' hi h := by
    cases act_cases h <;> cases hi
    exact ⟨rfl, rfl⟩
  inside _ _ _ _ _ _ hi h := acts_inside (act_cases h) hi
  outside _ _ _ _ _ _ hi h := acts_outside (act_cases h) hi

/-! ## What a step of one thread leaves alone -/

/-- The call `n`, made by `k`, has not returned. -/
def Mine (s : Hub κ) (k : κ) (n : Nat) (r : Request) : Prop := s.calls[n]? = some ⟨k, r⟩ ∧ n ∉ s.finished

/-- What `sendAll` sends for these entries. -/
def sendsOf (entries : List (Sigma fun _ : UInt16 => Nat)) (exclude : UInt16) (packet : Bytes) (n : Nat) : List Start :=
  (entries.filter (·.1 ≠ exclude)).map fun e => ⟨e.2, n, packet⟩

def Unstarted (s : Hub κ) (n : Nat) : Prop := ∀ t ∈ s.started, t.call ≠ n

/-- The loop has gone through `i` entries, and nothing else was started meanwhile. -/
def InLoop (s : Hub κ) (exclude : UInt16) (packet : Bytes) (n i : Nat) : Prop :=
  ∃ earlier, (∀ t ∈ earlier, t.call ≠ n) ∧
    s.started = earlier ++ sendsOf (s.tcp.sessions.entries.take i) exclude packet n

/-- A step of `k`: the log grows by starts of a call of `k`, a call of `k` may return,
    and while another thread has the mutex the log and the table stay. -/
structure StepOf (k : κ) (s s' : Hub κ) : Prop where
  calls : s.calls <+: s'.calls
  finished : ∀ n ∈ s'.finished, n ∈ s.finished ∨ ∃ r, Mine s k n r
  started : ∃ more, s'.started = s.started ++ more ∧ ∀ t ∈ more, ∃ r, Mine s k t.call r
  waits : ∀ k', k' ≠ k → s.holder = some k' → s'.started = s.started ∧ s'.tcp.sessions = s.tcp.sessions

/-- A step that does not touch the calls. -/
theorem StepOf.of_quiet {k : κ} {s s' : Hub κ} (hcalls : s.calls <+: s'.calls) (hfin : s'.finished = s.finished)
    (hstart : s'.started = s.started) (htable : s.holder = some k ∨ s'.tcp.sessions = s.tcp.sessions) :
    StepOf k s s' where
  calls := hcalls
  finished n hn := .inl (hfin ▸ hn)
  started := ⟨[], by rw [hstart, List.append_nil], by simp⟩
  waits k' hne hk' := by
    refine ⟨hstart, htable.resolve_left fun hk => ?_⟩
    rw [hk] at hk'
    exact hne (Option.some.inj hk').symm

theorem start_stepOf {k : κ} {r : Request} {s s' : Hub κ} {is : List Instr} (h : start k r s = some (is, s')) :
    StepOf k s s' := by
  cases r <;> cases h
  · exact .of_quiet (List.prefix_append _ _) rfl rfl (.inr rfl)
  · exact .of_quiet (List.prefix_append _ _) rfl rfl (.inr rfl)
  all_goals exact .of_quiet (List.prefix_refl _) rfl rfl (.inr rfl)

/-- A thread that writes for its own call holds the mutex. -/
theorem write_stepOf {k : κ} {s : Hub κ} {object n : Nat} {packet : Bytes} {r : Request} (hheld : s.holder = some k)
    (hmine : Mine s k n r) : StepOf k s (write s object n packet) where
  calls := List.prefix_refl _
  finished n hn := .inl hn
  started := ⟨[⟨object, n, packet⟩], rfl, by simpa using ⟨r, hmine⟩⟩
  waits k' hne hk' := by
    rw [hheld] at hk'
    exact absurd (Option.some.inj hk').symm hne

theorem StepOf.refl (k : κ) (s : Hub κ) : StepOf k s s := .of_quiet (List.prefix_refl _) rfl rfl (.inr rfl)

variable {k k' : κ} {s s' : Hub κ} {n : Nat}

/-- A call belongs to one thread. -/
theorem Mine.unique {r r' : Request} (h : Mine s k n r) (h' : Mine s k' n r') : k = k' := by
  have hc := h.1.symm.trans h'.1
  exact congrArg Call.thread (Option.some.inj hc)

theorem Mine.step {r : Request} (hst : StepOf k s s') (hne : k' ≠ k) (h : Mine s k' n r) : Mine s' k' n r := by
  refine ⟨?_, fun hn => ?_⟩
  · obtain ⟨more, hmore⟩ := hst.calls
    rw [← hmore, List.getElem?_append_left (List.getElem?_eq_some_iff.mp h.1).1]
    exact h.1
  · rcases hst.finished n hn with hn | ⟨r', hm⟩
    · exact h.2 hn
    · exact hne (h.unique hm)

theorem Unstarted.step (hst : StepOf k s s') (hnot : ∀ r, ¬ Mine s k n r) (h : Unstarted s n) : Unstarted s' n := by
  obtain ⟨more, hmore, hmine⟩ := hst.started
  intro t ht he
  rw [hmore] at ht
  rcases List.mem_append.mp ht with ht | ht
  · exact h t ht he
  · obtain ⟨r, hm⟩ := hmine t ht
    exact hnot r (he ▸ hm)

theorem InLoop.step {exclude : UInt16} {packet : Bytes} {i : Nat} (hst : StepOf k s s') (hne : k' ≠ k)
    (hheld : s.holder = some k') (h : InLoop s exclude packet n i) : InLoop s' exclude packet n i := by
  obtain ⟨hstarted, hsessions⟩ := hst.waits k' hne hheld
  obtain ⟨earlier, hearlier, hlog⟩ := h
  exact ⟨earlier, hearlier, by rw [hstarted, hsessions, hlog]⟩

theorem StepOf.known (hst : StepOf k s s') (h : ∀ t ∈ s.started, t.call < s.calls.length) :
    ∀ t ∈ s'.started, t.call < s'.calls.length := by
  obtain ⟨more, hmore, hmine⟩ := hst.started
  intro t ht
  refine lt_of_lt_of_le ?_ hst.calls.length_le
  rw [hmore] at ht
  rcases List.mem_append.mp ht with ht | ht
  · exact h t ht
  · obtain ⟨r, hm⟩ := hmine t ht
    exact (List.getElem?_eq_some_iff.mp hm.1).1

/-- One more pass of the loop. -/
theorem InLoop.pass {exclude : UInt16} {packet : Bytes} {i : Nat} {entry : Sigma fun _ : UInt16 => Nat}
    (h : InLoop s exclude packet n i) (he : s.tcp.sessions.entries[i]? = some entry) :
    InLoop (if entry.1 ≠ exclude then write s entry.2 n packet else s) exclude packet n (i + 1) := by
  obtain ⟨earlier, hearlier, hlog⟩ := h
  refine ⟨earlier, hearlier, ?_⟩
  split
  · rename_i hne
    show s.started ++ [⟨entry.2, n, packet⟩] = earlier ++ sendsOf (s.tcp.sessions.entries.take (i + 1)) exclude packet n
    rw [List.take_add_one, he, hlog, sendsOf, sendsOf, List.filter_append, List.map_append, ← List.append_assoc]
    simp [hne]
  · rename_i heq
    rw [List.take_add_one, he, hlog, sendsOf, sendsOf, List.filter_append, List.map_append, ← List.append_assoc]
    simp [heq]

/-! ## The order of broadcasts -/

/-- The session got the call `a` and later the call `b`. -/
def Before (s : Hub κ) (object a b : Nat) : Prop :=
  [(object, a), (object, b)].Sublist (s.started.map fun t => (t.object, t.call))

def InProgress (s : Hub κ) (n : Nat) : Prop := n < s.calls.length ∧ n ∉ s.finished

/-- What a session has got of a call. -/
def got (s : Hub κ) (object n : Nat) : List Start := s.started.filter fun t => t.object = object ∧ t.call = n

theorem before_calls {object a b : Nat} (h : Before s object a b) : [a, b].Sublist (s.started.map (·.call)) := by
  have hmap := h.map (fun p : Nat × Nat => p.2)
  rw [List.map_map] at hmap
  exact hmap

/-- Of the entries of a table only one is of the session, so the session gets one packet. -/
theorem got_one {tcp : TCPServer} {sid exclude : UInt16} {object : Nat} {packet : Bytes} (hl : tcp.sessions.lookup sid = some object)
    (hne : sid ≠ exclude) :
    ((sendsOf tcp.sessions.entries exclude packet n).filter fun t => t.object = object) = [⟨object, n, packet⟩] := by
  have hmem := Table.lookup_iff_mem.mp hl
  have honly : (tcp.sessions.entries.filter fun e => decide (e.2 = object) && decide (e.1 ≠ exclude)) = [⟨sid, object⟩] := by
    have hkeys : (tcp.sessions.entries.map (·.1)).Nodup := tcp.sessions.nodupKeys
    rw [← Table.filter_key (·.1) hkeys hmem]
    refine List.filter_congr fun e he => ?_
    have hiff : e.2 = object ∧ e.1 ≠ exclude ↔ e.1 = sid := by
      constructor
      · rintro ⟨rfl, -⟩
        obtain ⟨t, ht, hid⟩ := tcp.own sid e.2 hl
        obtain ⟨t', ht', hid'⟩ := tcp.own e.1 e.2 (Table.lookup_iff_mem.mpr he)
        rw [ht] at ht'
        cases ht'
        exact hid'.symm.trans hid
      · rintro rfl
        have hl' := Table.lookup_iff_mem.mpr he
        rw [hl] at hl'
        exact ⟨(Option.some.inj hl').symm, hne⟩
    rw [← Bool.decide_and]
    exact decide_eq_decide.mpr hiff
  rw [sendsOf, List.filter_map, List.filter_filter]
  have hcomp : ((fun t : Start => decide (t.object = object)) ∘ fun e : (Sigma fun _ : UInt16 => Nat) => (⟨e.2, n, packet⟩ : Start)) =
      fun e => decide (e.2 = object) := rfl
  rw [hcomp, honly]
  rfl

variable [DecidableEq κ]

/-- The state after the events. -/
def after (es : List (Event κ)) : Hub κ := (Crew.run (rules κ) Threads.init es).state

/-- No two sessions get two calls in different orders, and a finished `sendAll` gave its
    packet once to each session that had its id in `m_sessions` from the call to the
    return, if that is not the excluded one. -/
structure Ordered (es : List (Event κ)) : Prop where
  agree : ∀ a b x y, a ≠ b → Before (after es) x a b → ¬ Before (after es) y b a
  once : ∀ n k packet exclude object sid, (after es).calls[n]? = some ⟨k, .sendAll packet exclude⟩ →
    n ∈ (after es).finished → sid ≠ exclude →
    (∀ es₁, es₁ <+: es → InProgress (after es₁) n → (after es₁).tcp.sessions.lookup sid = some object) →
      got (after es) object n = [⟨object, n, packet⟩]

/-! ## Where a thread is -/

/-- A broadcast has gone to all sessions of some moment while it was in progress. -/
def Delivered (es : List (Event κ)) (s : Hub κ) (n : Nat) : Prop :=
  ∃ c, s.calls[n]? = some c ∧ ∀ packet exclude, c.request = .sendAll packet exclude →
    ∃ es₁, es₁ <+: es ∧ InProgress (after es₁) n ∧
      (s.started.filter fun t => t.call = n) = sendsOf (after es₁).tcp.sessions.entries exclude packet n

/-- The script of a thread, and what it has done so far. -/
inductive Stage (es : List (Event κ)) (s : Hub κ) (k : κ) : List Instr → Prop
  /-- It is not in a call of `send` or `sendAll`. -/
  | other {is : List Instr} : (∀ i ∈ is, i.call = none) → Stage es s k is
  | asking {n : Nat} {sid : UInt16} {packet : Bytes} : Mine s k n (.send sid packet) → Unstarted s n →
      Stage es s k [.lock, .find sid packet n, .unlock, .ret n]
  | finding {n : Nat} {sid : UInt16} {packet : Bytes} : Mine s k n (.send sid packet) → Unstarted s n →
      Stage es s k [.find sid packet n, .unlock, .ret n]
  | waiting {n : Nat} {exclude : UInt16} {packet : Bytes} : Mine s k n (.sendAll packet exclude) → Unstarted s n →
      Stage es s k [.lock, .next exclude packet n 0, .unlock, .ret n]
  | looping {n i : Nat} {exclude : UInt16} {packet : Bytes} : Mine s k n (.sendAll packet exclude) →
      InLoop s exclude packet n i → Stage es s k [.next exclude packet n i, .unlock, .ret n]
  | leaving {n : Nat} {r : Request} : Mine s k n r → Delivered es s n → Stage es s k [.unlock, .ret n]
  | returning {n : Nat} {r : Request} : Mine s k n r → Delivered es s n → Stage es s k [.ret n]

structure Inv (es : List (Event κ)) (q : Threads κ) : Prop where
  stage : ∀ k, Stage es q.state k (q.script k)
  blocks : InBlocks (q.state.started.map (·.call))
  known : ∀ t ∈ q.state.started, t.call < q.state.calls.length
  done : ∀ n ∈ q.state.finished, Delivered es q.state n

/-! ## The invariant -/

theorem guarded_run (es : List (Event κ)) : AllGuarded use Hub.holder (Crew.run (rules κ) Threads.init es) := by
  have h0 : AllGuarded use Hub.holder (Threads.init : Threads κ) := fun _ => rfl
  exact run_guarded locks h0 es

variable {es : List (Event κ)} {e : Event κ} {r : Request} {is : List Instr}

/-- What is delivered stays so as long as nothing more of the call is started. -/
theorem Delivered.mono (h : Delivered es s n) (hcalls : s.calls <+: s'.calls)
    (hlog : (s'.started.filter fun t => t.call = n) = s.started.filter fun t => t.call = n) :
    Delivered (es ++ [e]) s' n := by
  obtain ⟨c, hc, hall⟩ := h
  obtain ⟨more, hmore⟩ := hcalls
  refine ⟨c, ?_, fun packet exclude hreq => ?_⟩
  · rw [← hmore, List.getElem?_append_left (List.getElem?_eq_some_iff.mp hc).1]
    exact hc
  · obtain ⟨es₁, hpre, hin, hsent⟩ := hall packet exclude hreq
    exact ⟨es₁, hpre.trans (List.prefix_append es [e]), hin, hlog.trans hsent⟩

theorem Delivered.step (hst : StepOf k s s') (hnot : ∀ r, ¬ Mine s k n r) (h : Delivered es s n) :
    Delivered (es ++ [e]) s' n := by
  obtain ⟨more, hmore, hmine⟩ := hst.started
  refine h.mono hst.calls ?_
  rw [hmore, List.filter_append, List.append_right_eq_self, List.filter_eq_nil_iff]
  intro t ht he
  obtain ⟨r, hm⟩ := hmine t ht
  exact hnot r (of_decide_eq_true he ▸ hm)

/-- The other threads stay where they are. -/
theorem Stage.step (hst : StepOf k s s') (hne : k' ≠ k)
    (hheld : ∀ i is', is = i :: is' → use i = .inside → s.holder = some k') (h : Stage es s k' is) :
    Stage (es ++ [e]) s' k' is := by
  have hnot : ∀ {n r}, Mine s k' n r → ∀ r', ¬ Mine s k n r' := fun hm _ hm' => hne (hm.unique hm')
  cases h with
  | other hnone => exact .other hnone
  | asking hm hu => exact .asking (hm.step hst hne) (hu.step hst (hnot hm))
  | finding hm hu => exact .finding (hm.step hst hne) (hu.step hst (hnot hm))
  | waiting hm hu => exact .waiting (hm.step hst hne) (hu.step hst (hnot hm))
  | looping hm hl => exact .looping (hm.step hst hne) (hl.step hst hne (hheld _ _ rfl rfl))
  | leaving hm hd => exact .leaving (hm.step hst hne) (hd.step hst (hnot hm))
  | returning hm hd => exact .returning (hm.step hst hne) (hd.step hst (hnot hm))

/-! ## The steps of a thread -/

theorem start_stage (h : start k r s = some (is, s')) (hlog : ∀ t ∈ s.started, t.call < s.calls.length)
    (hfin : ∀ n ∈ s.finished, n < s.calls.length) : Stage (es ++ [e]) s' k is := by
  have hnew : ∀ r, Mine { s with calls := s.calls ++ [⟨k, r⟩] } k s.calls.length r := fun r =>
    ⟨by simp, fun hn => absurd (hfin _ hn) (lt_irrefl _)⟩
  have hun : ∀ r, Unstarted { s with calls := s.calls ++ [⟨k, r⟩] } s.calls.length := fun r t ht he =>
    absurd (hlog t ht) (he ▸ lt_irrefl _)
  cases r <;> cases h
  · exact .asking (hnew _) (hun _)
  · exact .waiting (hnew _) (hun _)
  all_goals exact .other (by simp [Instr.call])

theorem acts_stepOf {i : Instr} {push : List Instr} (h : Acts k s i push s') (hstage : Stage es s k (i :: is))
    (hheld : use i = .inside → s.holder = some k) : StepOf k s s' := by
  cases h with
  | lock _ | unlock | make _ | shut _ => exact .of_quiet (List.prefix_refl _) rfl rfl (.inr rfl)
  | insert _ | erase _ => exact .of_quiet (List.prefix_refl _) rfl rfl (.inl (hheld rfl))
  | unknown | through _ | gone | drop _ | absent | look _ => exact .refl k s
  | found =>
    cases hstage with
    | other hnone => cases hnone _ List.mem_cons_self
    | finding hm _ => exact write_stepOf (hheld rfl) hm
  | pass _ =>
    cases hstage with
    | other hnone => cases hnone _ List.mem_cons_self
    | looping hm _ =>
      split
      · exact write_stepOf (hheld rfl) hm
      · exact .refl k s
  | ret n =>
    cases hstage with
    | other hnone => cases hnone _ List.mem_cons_self
    | returning hm _ =>
      refine ⟨List.prefix_refl _, ?_, ⟨[], by simp, by simp⟩, fun _ _ _ => ⟨rfl, rfl⟩⟩
      intro m hn
      rcases List.mem_append.mp hn with hn | hn
      · exact .inl hn
      · obtain rfl := List.mem_singleton.mp hn
        exact .inr ⟨_, hm⟩

theorem Stage.of_other {i : Instr} {push : List Instr} (h : ∀ i' ∈ i :: is, i'.call = none) (hpush : ∀ i' ∈ push, i'.call = none) :
    Stage es s k (push ++ is) := by
  refine .other fun i' hi' => ?_
  rcases List.mem_append.mp hi' with hi' | hi'
  · exact hpush i' hi'
  · exact h i' (List.mem_cons_of_mem i hi')

/-- The loop ends as all entries have had their turn. -/
theorem InLoop.delivered {exclude : UInt16} {packet : Bytes} {i : Nat} (hs : after es = s) (hm : Mine s k n (.sendAll packet exclude))
    (h : InLoop s exclude packet n i) (he : s.tcp.sessions.entries[i]? = none) : Delivered (es ++ [e]) s n := by
  obtain ⟨earlier, hearlier, hlog⟩ := h
  refine ⟨_, hm.1, fun packet' exclude' hreq => ?_⟩
  cases hreq
  refine ⟨es, List.prefix_append es [e], ?_, ?_⟩
  · rw [hs]
    exact ⟨(List.getElem?_eq_some_iff.mp hm.1).1, hm.2⟩
  · have hfirst : (earlier.filter fun t => t.call = n) = [] := by
      rw [List.filter_eq_nil_iff]
      intro t ht hc
      exact hearlier t ht (of_decide_eq_true hc)
    rw [hs, hlog, List.take_of_length_le (List.getElem?_eq_none_iff.mp he), List.filter_append, hfirst, List.nil_append,
      List.filter_eq_self]
    intro t ht
    obtain ⟨entry, -, rfl⟩ := List.mem_map.mp ht
    exact decide_eq_true rfl

theorem acts_stage {i : Instr} {push : List Instr} (h : Acts k s i push s') (hs : after es = s)
    (hstage : Stage es s k (i :: is)) : Stage (es ++ [e]) s' k (push ++ is) := by
  cases hstage with
  | other hnone =>
    refine Stage.of_other hnone ?_
    cases h with
    | found | unknown | pass _ | through _ | ret _ => cases hnone _ List.mem_cons_self
    | lock _ | unlock | make _ | insert _ | shut _ | gone | erase _ | drop _ | absent | look _ => simp [Instr.call]
  | asking hm hu =>
    cases h
    exact .finding hm hu
  | waiting hm hu =>
    cases h
    exact .looping hm ⟨s.started, hu, (List.append_nil _).symm⟩
  | finding hm hu =>
    -- What is delivered is said of broadcasts only.
    cases h with
    | found => exact .leaving hm ⟨_, hm.1, fun _ _ hreq => by cases hreq⟩
    | unknown => exact .leaving hm ⟨_, hm.1, fun _ _ hreq => by cases hreq⟩
  | looping hm hl =>
    cases h with
    | pass he =>
      refine .looping ?_ (hl.pass he)
      split <;> exact hm
    | through he => exact .leaving hm (hl.delivered hs hm he)
  | leaving hm hd =>
    cases h
    exact .returning hm (hd.mono (List.prefix_refl _) rfl)
  | returning hm hd =>
    cases h
    exact .other (by simp)

/-- A call that writes has its block at the end of the log. -/
theorem acts_blocks {i : Instr} {push : List Instr} (h : Acts k s i push s') (hstage : Stage es s k (i :: is))
    (hb : InBlocks (s.started.map (·.call))) : InBlocks (s'.started.map (·.call)) := by
  cases h with
  | lock _ | unlock | make _ | insert _ | unknown | through _ | ret _ | shut _ | gone | erase _ | drop _ | absent | look _ =>
    exact hb
  | found =>
    cases hstage with
    | other hnone => cases hnone _ List.mem_cons_self
    | finding _ hu =>
      rw [write, List.map_append]
      refine .first hb fun hmem => ?_
      obtain ⟨t, ht, hn⟩ := List.mem_map.mp hmem
      exact hu t ht hn
  | pass _ =>
    cases hstage with
    | other hnone => cases hnone _ List.mem_cons_self
    | looping _ hl =>
      obtain ⟨earlier, hearlier, hlog⟩ := hl
      split
      · rw [hlog, List.map_append] at hb
        rw [write, List.map_append, hlog, List.map_append]
        refine hb.concat (fun hmem => ?_) (fun b hmem => ?_)
        · obtain ⟨t, ht, hn⟩ := List.mem_map.mp hmem
          exact hearlier t ht hn
        · obtain ⟨t, ht, rfl⟩ := List.mem_map.mp hmem
          obtain ⟨entry, -, rfl⟩ := List.mem_map.mp ht
          rfl
      · exact hb

/-- Only a return adds to the finished calls. -/
theorem acts_done {i : Instr} {push : List Instr} (h : Acts k s i push s') (hstage : Stage es s k (i :: is))
    (hn : n ∈ s'.finished) (hnew : n ∉ s.finished) : Delivered (es ++ [e]) s' n := by
  cases h with
  | ret m =>
    obtain rfl : n = m := List.mem_singleton.mp ((List.mem_append.mp hn).resolve_left hnew)
    cases hstage with
    | other hnone => cases hnone _ List.mem_cons_self
    | returning _ hd => exact hd.mono (List.prefix_refl _) rfl
  | pass _ =>
    split at hn <;> exact absurd hn hnew
  | lock _ | unlock | make _ | insert _ | found | unknown | through _ | shut _ | gone | erase _ | drop _ | absent | look _ =>
    exact absurd hn hnew

/-- A finished call stays delivered, whoever makes the step. -/
theorem Delivered.step_finished (hst : StepOf k s s') (hn : n ∈ s.finished) (h : Delivered es s n) :
    Delivered (es ++ [e]) s' n := h.step hst fun _ hm => hm.2 hn

theorem Stage.wait (h : Stage es s k is) : Stage (es ++ [e]) s k is := by
  have hwait : ∀ {n}, Delivered es s n → Delivered (es ++ [e]) s n := fun hd => hd.mono (List.prefix_refl _) rfl
  cases h with
  | other hnone => exact .other hnone
  | asking hm hu => exact .asking hm hu
  | finding hm hu => exact .finding hm hu
  | waiting hm hu => exact .waiting hm hu
  | looping hm hl => exact .looping hm hl
  | leaving hm hd => exact .leaving hm (hwait hd)
  | returning hm hd => exact .returning hm (hwait hd)

theorem Inv.wait {q : Threads κ} (h : Inv es q) : Inv (es ++ [e]) q where
  stage k := (h.stage k).wait
  blocks := h.blocks
  known := h.known
  done n hn := (h.done n hn).mono (List.prefix_refl _) rfl

/-- A thread makes a step, and the others stay where they are. -/
theorem stages_put {q : Threads κ} (hg : AllGuarded use Hub.holder q) (hst : StepOf k q.state s)
    (hothers : ∀ k', Stage es q.state k' (q.script k')) (hk : Stage (es ++ [e]) s k is) (k' : κ) :
    Stage (es ++ [e]) s k' ((q.put k is s).script k') := by
  by_cases he : k' = k
  · subst he
    rw [Crew.put_self]
    exact hk
  · rw [Crew.put_ne q he]
    exact (hothers k').step hst he fun i is' hi hu => hg.holder_of_inside hi (.inl hu)

theorem Inv.start {q : Threads κ} (h : Inv es q) (hg : AllGuarded use Hub.holder q)
    (hr : start k r q.state = some (is, s)) : Inv (es ++ [e]) (q.put k is s) := by
  have hst : StepOf k q.state s := start_stepOf hr
  have hfin : ∀ n ∈ q.state.finished, n < q.state.calls.length := by
    intro n hn
    obtain ⟨c, hc, -⟩ := h.done n hn
    exact (List.getElem?_eq_some_iff.mp hc).1
  have hlog : s.started = q.state.started ∧ s.finished = q.state.finished := by
    cases r <;> cases hr <;> exact ⟨rfl, rfl⟩
  refine ⟨stages_put hg hst h.stage (start_stage hr h.known hfin), ?_, hst.known h.known, ?_⟩
  · rw [Crew.put_state, hlog.1]
    exact h.blocks
  · intro n hn
    rw [Crew.put_state, hlog.2] at hn
    exact (h.done n hn).step_finished hst hn

theorem Inv.turn {q : Threads κ} {i : Instr} {order : List (Sigma fun _ : UInt16 => Nat)} {push : List Instr}
    (h : Inv es q) (hg : AllGuarded use Hub.holder q) (hs : after es = q.state) (hk : q.script k = i :: is)
    (hr : act k i order q.state = some (push, s)) : Inv (es ++ [e]) (q.put k (push ++ is) s) := by
  have hstage : Stage es q.state k (i :: is) := hk ▸ h.stage k
  have ha := act_cases hr
  have hst := acts_stepOf ha hstage fun hu => hg.holder_of_inside hk (.inl hu)
  refine ⟨stages_put hg hst h.stage (acts_stage ha hs hstage), acts_blocks ha hstage h.blocks, hst.known h.known, ?_⟩
  intro n hn
  by_cases hold : n ∈ q.state.finished
  · exact (h.done n hold).step_finished hst hold
  · exact acts_done ha hstage hn hold

theorem inv_run (es : List (Event κ)) : Inv es (Crew.run (rules κ) Threads.init es) := by
  have h0 : Inv [] (Threads.init : Threads κ) := ⟨fun _ => .other (by simp [Threads.init]), .nil, by simp [Threads.init, Hub.init],
    by simp [Threads.init, Hub.init]⟩
  refine Crew.run_keeps h0 (fun _ _ _ _ h => h.wait) ?_ ?_ es
  · intro es q k r is s hrun h _ hr
    exact h.start (hrun ▸ guarded_run es) hr
  · intro es q k c i is push s hrun h hk hr
    have hs : after es = q.state := congrArg Crew.state hrun
    exact h.turn (hrun ▸ guarded_run es) hs hk hr

/-! ## Broadcasts are in order -/

/-- Whatever the threads call and however they take turns, broadcasts are in order. -/
theorem broadcasts_ordered (es : List (Event κ)) : Ordered es where
  agree a b x y hne hab hba := by
    have hblocks := (inv_run es).blocks
    exact hblocks.not_both hne (before_calls hab) (before_calls hba)
  once n k packet exclude object sid hcall hfin hne hall := by
    have hdone : Delivered es (after es) n := (inv_run es).done n hfin
    obtain ⟨c, hc, hsent⟩ := hdone
    have hcall' : c = ⟨k, .sendAll packet exclude⟩ := Option.some.inj (hc.symm.trans hcall)
    obtain ⟨es₁, hpre, hin, hlog⟩ := hsent packet exclude (hcall' ▸ rfl)
    rw [got, List.filter_congr (fun t _ => Bool.decide_and _ _), ← List.filter_filter, hlog]
    exact got_one (hall es₁ hpre hin) hne

end NovaMP.TCPServer
