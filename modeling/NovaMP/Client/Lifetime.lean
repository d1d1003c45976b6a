/-
  NovaMP.Client.Lifetime — the threads of a BeamMP client
  (`connect`, `disconnect`, `readLoop` and `send` in `client/src/compat/beammp_client.cpp`).

  The owner calls `connect`, `disconnect` and the send functions; each `connect` that
  succeeds starts a thread for `readLoop` and one for `m_ioc.run()`. An instruction is
  one access to `m_connected`, one system call, one join or one call of a callback, and
  threads take turns in any way (`Lib.Scripts`). The environment chooses the frames and
  which reads, writes and connects fail; a closed socket gives no frames. The callbacks
  return and call nothing of the client. An exception out of `readLoop` ends the process
  (`aborted`).

  Four places call the disconnect callback or clear `m_connected`, and only `disconnect`
  looks whether it was set. A kick calls the callback and lets the loop end, which calls
  it again; so does a `disconnect` that finds the flag set, as it waits for the loop.

  - `balance_run`: each thread has called the callback once for each kick it handled and
    each such `disconnect`, and a reader once more at its end.
  - `ended_once_iff`: so each connection that has ended has called it once, by its reader,
    exactly if there was no kick and no such `disconnect`.
  - `kicked_twice`: a kick.
-/

import NovaMP.Client.BeamMP
import NovaMP.Lib.Scripts

namespace NovaMP.BeamMP

open Lib

/-! ## The threads -/

inductive Thread where
  | owner
  /-- The thread that was started as the `i`-th. -/
  | spawned (i : Nat)
  deriving DecidableEq

/-- What a thread was started for: `readLoop` or `m_ioc.run()`. -/
inductive Job where
  | reader
  | runner
  deriving DecidableEq

inductive Request where
  | connect (key : Bytes)
  | disconnect
  | send (code : Code) (data : Bytes)
  /-- A new thread runs for the first time. -/
  | begin
  deriving DecidableEq

inductive Instr where
  /-- The test of `while (m_connected)`. -/
  | loop
  /-- The reads of one frame. -/
  | read
  | handle (p : Packet)
  | clearSplit
  | act (a : Action)
  | write (packet : Bytes)
  | run
  | finish
  /-- `m_connected.exchange(false)` -/
  | exchange
  | shutdown
  | close
  | stop
  /-- The loop that joins, at the thread `i` of `m_threads`. -/
  | join (i : Nat)
  | clear
  /-- `disconnect` is about to return. -/
  | returned
  | connectTest (key : Bytes)
  | setup (key : Bytes)
  | resolve
  | asioConnect
  | setConnected
  | spawn (job : Job)
  deriving DecidableEq

/-- What a system call gives. -/
inductive Result where
  | ok
  | fail (what : Bytes)
  | frame (f : Packet)
  deriving DecidableEq

/-- What the history is asked about. -/
inductive Mark where
  | handled (k : Thread) (p : Packet)
  /-- `exchange` found `was`. -/
  | exchanged (k : Thread) (was : Bool)
  | called (k : Thread) (c : Callback)
  deriving DecidableEq

structure Shared where
  client : BeamMPClient
  /-- `m_sock` is open. -/
  isOpen : Bool
  /-- Every thread ever started. -/
  born : List Job
  /-- The threads that have run. -/
  begun : List (Nat × Job)
  finished : List Nat
  /-- `m_threads` -/
  threads : List Nat
  joined : List Nat
  aborted : Bool
  log : List Mark

def Shared.init : Shared := ⟨⟨false, 0, [], [], [], false⟩, false, [], [], [], [], [], false, []⟩

namespace Shared

variable (s : Shared)

def setClient (c : BeamMPClient) : Shared := { s with client := c }

def setConnected (b : Bool) : Shared := s.setClient { s.client with connected := b }

def mark (m : Mark) : Shared := { s with log := s.log ++ [m] }

end Shared

/-! ## The steps -/

variable (h : Host) (cb : Callbacks)

def calls (c : Callback) : List Instr := (callIf cb c).map .act

def start (k : Thread) (r : Request) (s : Shared) : Option (List Instr × Shared) :=
  if s.aborted then none
  else
    match k, r with
    | .owner, .connect key => some ([.connectTest key], s)
    | .owner, .disconnect => some ([.exchange], s)
    | .owner, .send code data => some ([.act (.send code data)], s)
    | .spawned i, .begin =>
      if i ∈ s.begun.map (·.1) then none
      else
        match s.born[i]? with
        | some .reader => some ([.loop, .act .disconnected] ++ calls cb (.disconnect (utf8 "connection closed")) ++ [.finish],
            { s with begun := s.begun ++ [(i, .reader)] })
        | some .runner => some ([.run, .finish], { s with begun := s.begun ++ [(i, .runner)] })
        | none => none
    | _, _ => none

def doAction (k : Thread) (a : Action) (s : Shared) : List Instr × Shared :=
  match a with
  | .setMapName name => ([], s.setClient { s.client with mapName := name })
  | .setPlayerId id => ([], s.setClient { s.client with playerId := id })
  | .send code data => (if s.client.connected then [.write (buildPacket code.byte data)] else [], s)
  | .disconnected => ([], s.setConnected false)
  | .call c => ([], s.mark (.called k c))

/-- A frame was read. -/
def received (f : Packet) (s : Shared) : List Instr × Shared :=
  let buf := s.client.splitBuf ++ f.data
  if f.code = Code.split.byte then ([.loop], s.setClient { s.client with splitBuf := buf, inSplit := true })
  else if f.code = Code.splitFinish.byte then
    (match buf with
      | [] => [.clearSplit, .loop]
      | code :: data => [.handle ⟨code, data⟩, .clearSplit, .loop],
      s.setClient { s.client with splitBuf := buf })
  else ([.handle f, .loop], s)

/-- `disconnect` after it has found `m_connected` set. -/
def disconnecting : List Instr :=
  [.shutdown, .close, .stop, .join 0, .clear] ++ calls cb (.disconnect (utf8 "disconnected")) ++ [.returned]

def step (k : Thread) (i : Instr) (o : Result) (s : Shared) : Option (List Instr × Shared) :=
  match i with
  | .loop => some (if s.client.connected then [.read] else [], s)
  | .read =>
    match o with
    | .frame f => if s.isOpen ∧ f.data.length < 2 ^ 24 then some (received f s) else none
    | .fail _ => some ([], s)
    | .ok => none
  | .handle p =>
    match handlePacket h cb s.client.privateKey p with
    | .ok as => some (as.map .act, s.mark (.handled k p))
    | .error _ => some ([], { s.mark (.handled k p) with aborted := true })
  | .clearSplit => some ([], s.setClient { s.client with splitBuf := [], inSplit := false })
  | .act a => some (doAction k a s)
  | .write _ =>
    match o with
    | .ok => some ([], s)
    | .fail _ => some ([.act .disconnected], s)
    | .frame _ => none
  -- Nothing is ever posted to `m_ioc`, so `run` returns.
  | .run => some ([], s)
  | .finish =>
    match k with
    | .spawned i => some ([], { s with finished := s.finished ++ [i] })
    | .owner => none
  | .exchange =>
    some (if s.client.connected then disconnecting cb else [.returned],
      (s.setConnected false).mark (.exchanged k s.client.connected))
  | .shutdown | .close => some ([], { s with isOpen := false })
  | .stop => some ([], s)
  | .join i =>
    match s.threads[i]? with
    | some t => if t ∈ s.finished then some ([.join (i + 1)], { s with joined := s.joined ++ [t] }) else none
    | none => some ([], s)
  | .clear => some ([], { s with threads := [] })
  | .returned => some ([], s)
  | .connectTest key => some (if s.client.connected then [.exchange, .setup key] else [.setup key], s)
  | .setup key =>
    some ([.resolve],
      s.setClient { s.client with privateKey := key, splitBuf := [], inSplit := false, playerId := 0, mapName := [] })
  | .resolve =>
    match o with
    | .ok => some ([.asioConnect], s)
    | .fail what => some (calls cb (.connect false what), s)
    | .frame _ => none
  | .asioConnect =>
    match o with
    | .ok => some ([.setConnected, .spawn .reader, .spawn .runner], { s with isOpen := true })
    | .fail what => some (calls cb (.connect false what), { s with isOpen := false })
    | .frame _ => none
  | .setConnected => some ([], s.setConnected true)
  | .spawn job => some ([], { s with born := s.born ++ [job], threads := s.threads ++ [s.born.length] })

/-- Nothing happens any more once the process has ended. -/
def act (k : Thread) (i : Instr) (o : Result) (s : Shared) : Option (List Instr × Shared) :=
  if s.aborted then none else step h cb k i o s

def rules : Rules Thread Request Instr Result Shared := ⟨start cb, act h cb⟩

abbrev Threads := Crew Thread Instr Shared

abbrev Event := Crew.Event Thread Request Result

def Threads.init : Threads := ⟨Shared.init, fun _ => []⟩

/-- The client after the events. -/
def after (es : List Event) : Threads := Crew.run (rules h cb) Threads.init es

/-! ## Counting the calls of the callback -/

def Mark.thread : Mark → Thread
  | .handled k _ | .exchanged k _ | .called k _ => k

/-- The disconnect callback was called. -/
def Mark.isCall : Mark → Bool
  | .called _ (.disconnect _) => true
  | _ => false

/-- A kick was handled, or `disconnect` found `m_connected` set. -/
def Mark.isEnd : Mark → Bool
  | .handled _ p => p.code = Code.authKick.byte
  | .exchanged _ was => was
  | .called _ _ => false

/-- The instruction calls the disconnect callback. -/
def Instr.notifies : Instr → Bool
  | .act (.call (.disconnect _)) => true
  | _ => false

def count (p : Mark → Bool) (k : Thread) (log : List Mark) : Nat := log.countP fun m => m.thread = k ∧ p m

/-- What an instruction of `k` adds to the log: it calls the callback, or has it called
    later, once for each kick and each `disconnect` that found the flag set. -/
structure Notes (k : Thread) (i : Instr) (push : List Instr) (s s' : Shared) : Prop where
  log : ∃ marks, s'.log = s.log ++ marks ∧ (∀ m ∈ marks, m.thread = k) ∧
    push.countP Instr.notifies + marks.countP Mark.isCall = marks.countP Mark.isEnd + (if i.notifies then 1 else 0)
  begun : s'.begun = s.begun
  born : s.born <+: s'.born

variable {h : Host} {cb : Callbacks} {k : Thread} {i : Instr} {o : Result} {s s' : Shared} {push : List Instr}

theorem Notes.quiet (hlog : s'.log = s.log) (hbegun : s'.begun = s.begun) (hborn : s.born <+: s'.born)
    (hi : i.notifies = false) (hpush : push.countP Instr.notifies = 0) : Notes k i push s s' :=
  ⟨⟨[], by simpa using hlog, by simp, by simp [hpush, hi]⟩, hbegun, hborn⟩

theorem calls_notifies (hcb : cb.disconnect = true) (c : Callback) :
    (calls cb c).countP Instr.notifies = if (Mark.called .owner c).isCall then 1 else 0 := by
  have hhas : ∀ reason, cb.has (.disconnect reason) = true := fun _ => hcb
  cases c with
  | disconnect reason =>
    rw [calls, callIf, if_pos (hhas reason)]
    rfl
  | connect _ _ | chat _ | vehicle _ | spawn _ _ _ | delete _ _ =>
    rw [calls, callIf]
    split <;> rfl

theorem actions_notify (hcb : cb.disconnect = true) {key : Bytes} {p : Packet} {as : List Action}
    (ha : Handles cb key p as) : (as.map Instr.act).countP Instr.notifies = if p.code = Code.authKick.byte then 1 else 0 := by
  have hcalls : ∀ c, ((callIf cb c).map Instr.act).countP Instr.notifies = if (Mark.called .owner c).isCall then 1 else 0 :=
    calls_notifies hcb
  cases ha with
  | map hcode => rw [if_neg (by rw [hcode]; decide)]; rfl
  | accepted hcode _ _ =>
    rw [if_neg (by rw [hcode]; decide), List.map_append, List.countP_append, hcalls]
    rfl
  | swallowed hcode _ _ => rw [if_neg (by rw [hcode]; decide)]; rfl
  | rejected hcode _ =>
    rw [if_neg (by rw [hcode]; decide), hcalls]
    rfl
  | kick hcode =>
    rw [if_pos hcode, List.map_cons, List.countP_cons, hcalls]
    rfl
  | @tell c hord _ hc =>
    rw [if_neg hord.2.2, hcalls]
    cases c with
    | disconnect _ => cases hc
    | _ => rfl
  | reply hord _ => rw [if_neg hord.2.2]; rfl
  | ignore hord _ => rw [if_neg hord.2.2]; rfl

/-- A packet at which `handlePacket` throws is no kick. -/
theorem not_kick_of_error {key : Bytes} {p : Packet} {f : Fault} (hf : handlePacket h cb key p = .error f) :
    p.code ≠ Code.authKick.byte := by
  intro hcode
  have hinfo : p.code ≠ Code.serverInfo.byte := by rw [hcode]; decide
  obtain ⟨as, has⟩ : ∃ as, handlePacket h cb key p = .ok as := handlePacket_other _ hinfo
  rw [hf] at has
  cases has

theorem received_notes (k : Thread) (f : Packet) (s : Shared) : Notes k .read (received f s).1 s (received f s).2 := by
  unfold received
  dsimp only
  split
  · exact .quiet rfl rfl (List.prefix_refl _) rfl rfl
  split
  · exact .quiet rfl rfl (List.prefix_refl _) rfl (by split <;> rfl)
  · exact .quiet rfl rfl (List.prefix_refl _) rfl rfl

theorem doAction_notes (k : Thread) (a : Action) (s : Shared) : Notes k (.act a) (doAction k a s).1 s (doAction k a s).2 := by
  cases a with
  | setMapName _ | setPlayerId _ | disconnected => exact .quiet rfl rfl (List.prefix_refl _) rfl rfl
  | send code data =>
    refine .quiet rfl rfl (List.prefix_refl _) rfl ?_
    show (if s.client.connected then [Instr.write _] else []).countP Instr.notifies = 0
    split <;> rfl
  | call c =>
    refine ⟨⟨[.called k c], rfl, by simp [Mark.thread], ?_⟩, rfl, List.prefix_refl _⟩
    cases c <;> rfl

theorem step_notes (hcb : cb.disconnect = true) (hr : step h cb k i o s = some (push, s')) : Notes k i push s s' := by
  unfold step at hr
  cases i with
  | loop | connectTest _ =>
    cases hr
    exact .quiet rfl rfl (List.prefix_refl _) rfl (by split <;> rfl)
  | read =>
    dsimp only at hr
    split at hr
    · rename_i f
      split at hr
      · have hnotes := received_notes k f s
        rw [Option.some.inj hr] at hnotes
        exact hnotes
      · cases hr
    · cases hr
      exact .quiet rfl rfl (List.prefix_refl _) rfl rfl
    · cases hr
  | handle p =>
    dsimp only at hr
    split at hr <;> cases hr
    · rename_i as ha
      refine ⟨⟨[.handled k p], rfl, by simp [Mark.thread], ?_⟩, rfl, List.prefix_refl _⟩
      rw [actions_notify hcb (handles ha)]
      by_cases hcode : p.code = Code.authKick.byte <;> simp [Mark.isCall, Mark.isEnd, Instr.notifies, hcode]
    · rename_i f hf
      refine ⟨⟨[.handled k p], rfl, by simp [Mark.thread], ?_⟩, rfl, List.prefix_refl _⟩
      simp [Mark.isCall, Mark.isEnd, Instr.notifies, not_kick_of_error hf]
  | act a =>
    have hnotes := doAction_notes k a s
    rw [Option.some.inj hr] at hnotes
    exact hnotes
  | exchange =>
    cases hr
    refine ⟨⟨[.exchanged k s.client.connected], rfl, by simp [Mark.thread], ?_⟩, rfl, List.prefix_refl _⟩
    -- A flag that is set is cleared, and the callback stands among what is left to do.
    cases s.client.connected with
    | false => rfl
    | true =>
      have hcalls := calls_notifies hcb (.disconnect (utf8 "disconnected"))
      simp only [disconnecting, if_true, List.countP_append, hcalls]
      rfl
  | clearSplit | run | shutdown | close | stop | clear | returned | setup _ | setConnected =>
    cases hr
    exact .quiet rfl rfl (List.prefix_refl _) rfl rfl
  | spawn job =>
    cases hr
    exact .quiet rfl rfl (List.prefix_append _ _) rfl rfl
  | write _ =>
    dsimp only at hr
    split at hr <;> cases hr <;> exact .quiet rfl rfl (List.prefix_refl _) rfl rfl
  | resolve | asioConnect =>
    dsimp only at hr
    split at hr <;> cases hr
    · exact .quiet rfl rfl (List.prefix_refl _) rfl rfl
    · exact .quiet rfl rfl (List.prefix_refl _) rfl (calls_notifies hcb _)
  | finish =>
    dsimp only at hr
    split at hr <;> cases hr
    exact .quiet rfl rfl (List.prefix_refl _) rfl rfl
  | join _ =>
    dsimp only at hr
    split at hr
    · split at hr <;> cases hr
      exact .quiet rfl rfl (List.prefix_refl _) rfl rfl
    · cases hr
      exact .quiet rfl rfl (List.prefix_refl _) rfl rfl

/-! ## The balance of a thread -/

/-- A reader that has begun calls the callback once more. -/
def due (s : Shared) : Thread → Nat
  | .owner => 0
  | .spawned i => if (i, Job.reader) ∈ s.begun then 1 else 0

/-- What a thread has called and will call for certain is what it is to call. -/
structure Balanced (q : Threads) : Prop where
  balance : ∀ k, count Mark.isCall k q.state.log + (q.script k).countP Instr.notifies =
    due q.state k + count Mark.isEnd k q.state.log
  born : ∀ e ∈ q.state.begun, q.state.born[e.1]? = some e.2

theorem count_append_self {p : Mark → Bool} {log marks : List Mark} (hm : ∀ m ∈ marks, m.thread = k) :
    count p k (log ++ marks) = count p k log + marks.countP p := by
  rw [count, List.countP_append, ← count]
  congr 1
  refine List.countP_congr fun m hmem => ?_
  simp [hm m hmem]

theorem count_append_other {p : Mark → Bool} {log marks : List Mark} {k' : Thread} (hm : ∀ m ∈ marks, m.thread = k)
    (hne : k' ≠ k) : count p k' (log ++ marks) = count p k' log := by
  have hnone : count p k' marks = 0 := by
    rw [count, List.countP_eq_zero]
    intro m hmem
    simp [hm m hmem, Ne.symm hne]
  rw [count, List.countP_append, ← count, ← count, hnone, Nat.add_zero]

theorem due_congr (hbegun : s'.begun = s.begun) (k : Thread) : due s' k = due s k := by
  cases k with
  | owner => rfl
  | spawned i => rw [due, due, hbegun]

theorem Balanced.turn {q : Threads} {is : List Instr} (hq : Balanced q) (hk : q.script k = i :: is)
    (hn : Notes k i push q.state s) : Balanced (q.put k (push ++ is) s) := by
  obtain ⟨marks, hlog, hmarks, hcount⟩ := hn.log
  refine ⟨fun k' => ?_, fun e he => ?_⟩
  · rw [Crew.put_state, due_congr hn.begun, hlog]
    by_cases hne : k' = k
    · subst hne
      have hbal := hq.balance k'
      rw [hk, List.countP_cons] at hbal
      rw [Crew.put_self, count_append_self hmarks, count_append_self hmarks, List.countP_append]
      omega
    · rw [Crew.put_ne q hne, count_append_other hmarks hne, count_append_other hmarks hne]
      exact hq.balance k'
  · rw [Crew.put_state, hn.begun] at he
    obtain ⟨more, hmore⟩ := hn.born
    have hborn := hq.born e he
    rw [Crew.put_state, ← hmore, List.getElem?_append_left (List.getElem?_eq_some_iff.mp hborn).1]
    exact hborn

/-- A thread starts with no calls to make, except a reader. -/
theorem start_due (hcb : cb.disconnect = true) {r : Request} {is : List Instr} (hr : start cb k r s = some (is, s')) :
    s'.log = s.log ∧ s'.born = s.born ∧ is.countP Instr.notifies + due s k = due s' k ∧
      (∀ k', k' ≠ k → due s' k' = due s k') ∧ ∀ e ∈ s'.begun, e ∈ s.begun ∨ s.born[e.1]? = some e.2 := by
  unfold start at hr
  split at hr
  · cases hr
  split at hr
  · cases hr
    exact ⟨rfl, rfl, rfl, fun _ _ => rfl, fun _ he => .inl he⟩
  · cases hr
    exact ⟨rfl, rfl, rfl, fun _ _ => rfl, fun _ he => .inl he⟩
  · cases hr
    exact ⟨rfl, rfl, rfl, fun _ _ => rfl, fun _ he => .inl he⟩
  · rename_i i
    split at hr
    · cases hr
    rename_i hnew
    have hnot : ∀ job, (i, job) ∉ s.begun := fun job hmem => hnew (List.mem_map_of_mem hmem)
    have hother : ∀ job k', k' ≠ Thread.spawned i → due { s with begun := s.begun ++ [(i, job)] } k' = due s k' := by
      intro job k' hne
      cases k' with
      | owner => rfl
      | spawned j =>
        have hji : j ≠ i := fun he => hne (congrArg _ he)
        simp [due, hji]
    have hmem : ∀ job, s.born[i]? = some job → ∀ e ∈ s.begun ++ [(i, job)], e ∈ s.begun ∨ s.born[e.1]? = some e.2 := by
      intro job hjob e he
      rcases List.mem_append.mp he with he | he
      · exact .inl he
      · rw [List.mem_singleton.mp he]
        exact .inr hjob
    split at hr
    · rename_i hjob
      cases hr
      refine ⟨rfl, rfl, ?_, hother _, hmem _ hjob⟩
      have hcalls := calls_notifies hcb (.disconnect (utf8 "connection closed"))
      simp only [List.countP_append, hcalls, due, hnot, if_false]
      simp [Instr.notifies, Mark.isCall]
    · rename_i hjob
      cases hr
      refine ⟨rfl, rfl, ?_, hother _, hmem _ hjob⟩
      simp [due, hnot, Instr.notifies]
    · cases hr
  · cases hr

theorem Balanced.start {q : Threads} (hcb : cb.disconnect = true) {r : Request} {is : List Instr} (hq : Balanced q)
    (hk : q.script k = []) (hr : start cb k r q.state = some (is, s)) : Balanced (q.put k is s) := by
  obtain ⟨hlog, hborn, hdue, hother, hbegun⟩ := start_due hcb hr
  refine ⟨fun k' => ?_, fun e he => ?_⟩
  · rw [Crew.put_state, hlog]
    by_cases hne : k' = k
    · subst hne
      have hbal := hq.balance k'
      rw [hk, List.countP_nil] at hbal
      rw [Crew.put_self]
      omega
    · rw [Crew.put_ne q hne, hother k' hne]
      exact hq.balance k'
  · rw [Crew.put_state, hborn]
    exact (hbegun e he).elim (hq.born e) id

theorem act_eq_some (hr : act h cb k i o s = some (push, s')) : s.aborted = false ∧ step h cb k i o s = some (push, s') := by
  unfold act at hr
  split at hr
  · cases hr
  · rename_i hrunning
    exact ⟨Bool.eq_false_iff.mpr hrunning, hr⟩

theorem balance_run (hcb : cb.disconnect = true) (es : List Event) : Balanced (after h cb es) := by
  have h0 : Balanced Threads.init := ⟨fun k => by cases k <;> rfl, by simp [Threads.init, Shared.init]⟩
  refine Crew.run_keeps (I := fun _ q => Balanced q) h0 (fun _ _ _ _ hq => hq) ?_ ?_ es
  · intro es q k r is s _ hq hk hr
    exact hq.start hcb hk hr
  · intro es q k c i is push s _ hq hk hr
    exact hq.turn hk (step_notes hcb (act_eq_some hr).2)

/-! ## Connections that have ended -/

/-- Every thread has ended and the owner is in no call; the process goes on. -/
structure Ended (q : Threads) : Prop where
  running : q.state.aborted = false
  idle : ∀ k, q.script k = []
  begun : ∀ i job, q.state.born[i]? = some job → (i, job) ∈ q.state.begun

/-- The thread is the reader of a connection; each `connect` that succeeds starts one. -/
def IsReader (s : Shared) : Thread → Prop
  | .owner => False
  | .spawned i => s.born[i]? = some .reader

/-- The reader of each connection has called the callback once, and nobody else has. -/
def OncePerConnection (s : Shared) : Prop :=
  ∀ k, (IsReader s k → count Mark.isCall k s.log = 1) ∧ (¬ IsReader s k → count Mark.isCall k s.log = 0)

/-- `connect` has succeeded once. -/
def OneConnection (s : Shared) : Prop := ∃ r : Nat, ∀ i : Nat, s.born[i]? = some .reader ↔ i = r

theorem count_eq (p : Mark → Bool) (k : Thread) (log : List Mark) :
    count p k log = (log.filter p).countP fun m => m.thread = k := by
  rw [count, List.countP_filter]
  refine List.countP_congr fun m _ => ?_
  simp

theorem count_le (p : Mark → Bool) (k : Thread) (log : List Mark) : count p k log ≤ log.countP p := by
  have hle : (log.filter p).countP (fun m => m.thread = k) ≤ (log.filter p).length := List.countP_le_length
  rw [count_eq, List.countP_eq_length_filter (p := p)]
  exact hle

theorem count_add_le (p : Mark → Bool) {k k' : Thread} (hne : k ≠ k') (log : List Mark) :
    count p k log + count p k' log ≤ log.countP p := by
  rw [count_eq, count_eq, List.countP_eq_length_filter (p := p),
    List.length_eq_countP_add_countP (fun m : Mark => decide (m.thread = k)) (l := log.filter p)]
  refine Nat.add_le_add_left (List.countP_mono_left fun m _ hm => ?_) _
  have hk' : m.thread = k' := of_decide_eq_true hm
  simp [hk', Ne.symm hne]

theorem count_pos {p : Mark → Bool} {m : Mark} {log : List Mark} (hm : m ∈ log) (hp : p m = true) :
    0 < count p m.thread log := by
  rw [count, List.countP_pos_iff]
  exact ⟨m, hm, by simp [hp]⟩

/-- In the end a thread has called the callback for each end it has met, and the reader
    once more. -/
theorem Balanced.ended (hq : Balanced q) (hended : Ended q) (k : Thread) :
    count Mark.isCall k q.state.log = due q.state k + count Mark.isEnd k q.state.log := by
  have hbal := hq.balance k
  rw [hended.idle k, List.countP_nil, Nat.add_zero] at hbal
  exact hbal

theorem due_reader (hended : Ended q) {k : Thread} (hk : IsReader q.state k) : due q.state k = 1 := by
  cases k with
  | owner => exact hk.elim
  | spawned r => rw [due, if_pos (hended.begun r .reader hk)]

theorem Balanced.due_other (hq : Balanced q) {k : Thread} (hk : ¬ IsReader q.state k) : due q.state k = 0 := by
  cases k with
  | owner => rfl
  | spawned i => rw [due, if_neg fun hmem => hk (hq.born (i, .reader) hmem)]

/-- Each reader calls the callback at the end of its loop, so any end that was met is a call
    too many. -/
theorem Balanced.once_iff (hq : Balanced q) (hended : Ended q) :
    OncePerConnection q.state ↔ ∀ m ∈ q.state.log, m.isEnd = false := by
  constructor
  · intro honce m hm
    by_contra hend
    have hpos := count_pos hm (Bool.eq_true_of_not_eq_false hend)
    have hself := hq.ended hended m.thread
    by_cases hk : IsReader q.state m.thread
    · rw [(honce m.thread).1 hk, due_reader hended hk] at hself
      omega
    · rw [(honce m.thread).2 hk, hq.due_other hk] at hself
      omega
  · intro hnone k
    have hends : count Mark.isEnd k q.state.log = 0 := by
      rw [count, List.countP_eq_zero]
      intro m hm
      simp [hnone m hm]
    rw [hq.ended hended, hends]
    exact ⟨fun hk => due_reader hended hk, fun hk => hq.due_other hk⟩

theorem isReader_iff {s : Shared} {r : Nat} (hr : ∀ i : Nat, s.born[i]? = some .reader ↔ i = r) {k : Thread} :
    IsReader s k ↔ k = .spawned r := by
  cases k with
  | owner => exact iff_of_false id nofun
  | spawned i => exact (hr i).trans ⟨congrArg _, fun h => by cases h; rfl⟩

/-- Of one connection, all calls are its reader's if there is one at most. -/
theorem Balanced.one_call_iff (hq : Balanced q) (hended : Ended q) {r : Nat}
    (hr : ∀ i : Nat, q.state.born[i]? = some .reader ↔ i = r) :
    q.state.log.countP Mark.isCall = 1 ↔ OncePerConnection q.state := by
  have hread := hq.ended hended (.spawned r)
  rw [due_reader hended ((isReader_iff hr).mpr rfl)] at hread
  constructor
  · intro hcalls k
    refine ⟨fun hk => ?_, fun hk => ?_⟩
    · have hle := count_le Mark.isCall (.spawned r) q.state.log
      rw [(isReader_iff hr).mp hk]
      omega
    · have hle := count_add_le Mark.isCall (mt (isReader_iff hr).mpr hk) q.state.log
      omega
  · intro honce
    have honly : ∀ m ∈ q.state.log, m.isCall = true → m.thread = .spawned r := by
      intro m hm hcall
      by_contra hk
      have hpos := count_pos hm hcall
      rw [(honce m.thread).2 fun h => hk ((isReader_iff hr).mp h)] at hpos
      exact absurd hpos (lt_irrefl 0)
    have hall : q.state.log.countP Mark.isCall = count Mark.isCall (.spawned r) q.state.log := by
      refine List.countP_congr fun m hm => ?_
      constructor
      · intro hcall
        simp [honly m hm hcall, hcall]
      · intro hboth
        exact (of_decide_eq_true hboth).2
    rw [hall, (honce (.spawned r)).1 ((isReader_iff hr).mpr rfl)]

/-- Each connection has called the callback once exactly if no kick was handled and no
    `disconnect` found the flag set; with one connection, that is one call in all. -/
theorem ended_once_iff (h : Host) (cb : Callbacks) (hcb : cb.disconnect = true) (es : List Event)
    (hended : Ended (after h cb es)) :
    (OncePerConnection (after h cb es).state ↔ ∀ m ∈ (after h cb es).state.log, m.isEnd = false) ∧
      (OneConnection (after h cb es).state →
        ((after h cb es).state.log.countP Mark.isCall = 1 ↔ ∀ m ∈ (after h cb es).state.log, m.isEnd = false)) := by
  have hq := balance_run (h := h) hcb es
  refine ⟨hq.once_iff hended, fun hone => ?_⟩
  obtain ⟨r, hr⟩ := hone
  exact (hq.one_call_iff hended hr).trans (hq.once_iff hended)

/-! ## Two ends -/

namespace Endings

def turns (n : Nat) (k : Thread) : List Event := List.replicate n (.turn k .ok)

def connecting : List Event := .start .owner (.connect [1]) :: turns 7 .owner ++ [.start (.spawned 0) .begin, .start (.spawned 1) .begin]

/-- The server closes. -/
def closed : List Event :=
  connecting ++ [.turn (.spawned 0) .ok, .turn (.spawned 0) (.fail [])] ++ turns 3 (.spawned 0) ++ turns 2 (.spawned 1)

/-- The server kicks the client. -/
def kicked : List Event :=
  connecting ++ [.turn (.spawned 0) .ok, .turn (.spawned 0) (.frame ⟨Code.authKick.byte, []⟩)] ++ turns 7 (.spawned 0) ++
    turns 2 (.spawned 1)

def run (es : List Event) : Threads := after Sample.host Sample.callbacks es

theorem oneConnection {s : Shared} (hborn : s.born = [.reader, .runner]) : OneConnection s := by
  refine ⟨0, fun i => ?_⟩
  rw [hborn]
  rcases i with _ | _ | i <;> simp

theorem ended {es : List Event} (hthreads : ∀ e ∈ es, e.thread = .owner ∨ e.thread = .spawned 0 ∨ e.thread = .spawned 1)
    (howner : (run es).script .owner = []) (hreader : (run es).script (.spawned 0) = [])
    (hrunner : (run es).script (.spawned 1) = []) (hborn : (run es).state.born = [.reader, .runner])
    (hbegun : (run es).state.begun = [(0, .reader), (1, .runner)]) (hrunning : (run es).state.aborted = false) :
    Ended (run es) := by
  refine ⟨hrunning, fun k => ?_, fun i job hjob => ?_⟩
  · by_cases hk : k = .owner ∨ k = .spawned 0 ∨ k = .spawned 1
    · rcases hk with rfl | rfl | rfl
      · exact howner
      · exact hreader
      · exact hrunner
    · have hnever : ∀ e ∈ es, e.thread ≠ k := fun e he hek => hk (hek ▸ hthreads e he)
      exact Crew.run_other hnever Threads.init
  · rw [hborn] at hjob
    rw [hbegun]
    rcases i with _ | _ | i <;> simp at hjob <;> simp [hjob]

theorem ended_closed : Ended (run closed) := ended (by decide) rfl rfl rfl rfl rfl rfl

theorem ended_kicked : Ended (run kicked) := ended (by decide) rfl rfl rfl rfl rfl rfl

end Endings

theorem ended_once_closed : OncePerConnection (Endings.run Endings.closed).state ∧
    (Endings.run Endings.closed).state.log.countP Mark.isCall = 1 := by
  have hiff := ended_once_iff Sample.host Sample.callbacks rfl Endings.closed Endings.ended_closed
  have hnone : ∀ m ∈ (Endings.run Endings.closed).state.log, m.isEnd = false := by decide
  exact ⟨hiff.1.mpr hnone, (hiff.2 (Endings.oneConnection rfl)).mpr hnone⟩

/-- A kick calls the callback, and so does the end of the loop. -/
theorem kicked_twice : ¬ ∀ (h : Host) (cb : Callbacks) (es : List Event), cb.disconnect = true → Ended (after h cb es) →
    OneConnection (after h cb es).state → (after h cb es).state.log.countP Mark.isCall = 1 := by
  intro hall
  have hone := hall Sample.host Sample.callbacks Endings.kicked rfl Endings.ended_kicked (Endings.oneConnection rfl)
  have htwo : (Endings.run Endings.kicked).state.log.countP Mark.isCall = 2 := rfl
  exact absurd (htwo.symm.trans hone) (by decide)

end NovaMP.BeamMP
