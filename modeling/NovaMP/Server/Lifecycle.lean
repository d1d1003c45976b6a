/-
  NovaMP.Server.Lifecycle — the threads of the server, and how they end
  (`run`, `stop` and the loops in `servers/src/game_server.cpp`, `Console::run` in
  `console/console.cpp`, `signal_handler` in `main.cpp`).

  `run` starts a thread for each loop, one for the console and some for `m_ioc.run()`, and
  joins them all. `stop` clears `m_running` and stops `m_ioc`; the console, a command that
  comes over RCON and a signal handler call it. An instruction is one access to
  `m_running`, one call or one join, and threads take turns in any way (`Lib.Scripts`).
  A call comes back when it does (`Input.returns`), or never: that holds for the rounds of
  the loops, for plugins' handlers, for `waitpid` in `HeadlessLauncher::terminate` and for
  `AIAuthority::negotiationLoop`, which is not in the repository. Calls do not throw, and
  a signal handler runs as a thread of its own.

  - `act_cases`: the turns that something comes of.
  - `At`: a thread that `run` has started goes on, or has a reason not to (`Live`).
  - `MainAt`: the main thread, which starts the others and joins them.
-/

import NovaMP.Lib.Scripts
import NovaMP.Server.Rcon

namespace NovaMP.Lifecycle

open Lib

/-! ## The threads -/

inductive Signal where
  | interrupt
  | terminate
  deriving DecidableEq

inductive Thread where
  | main
  | vehicleSync
  | aiTraffic
  | heartbeat
  | negotiation
  | console
  | io (i : Nat)
  | signal (s : Signal)
  deriving DecidableEq

inductive Instr where
  | setRunning
  | create (k : Thread)
  | fireInit
  /-- The loop that joins, at the thread `i` of `m_threads`. -/
  | join (i : Nat)
  | returned
  /-- The test of `while (m_running)`. -/
  | loop
  | sleep
  /-- `if (!m_running) break` -/
  | recheck
  | getline
  /-- `m_ioc.run()` looks for a handler. -/
  | ioRun
  /-- A call of no account here: a round of a loop, a handler, a command that is no `stop`. -/
  | call
  /-- `m_running.exchange(false)` -/
  | exchange
  | fireShutdown
  /-- The plugins' handlers of it. -/
  | onShutdown
  | terminate
  | stopIoc
  | finish
  deriving DecidableEq

/-- What comes from outside as an instruction is run. -/
inductive Input where
  | nothing
  | line (l : Bytes)
  | eof
  | handler
  /-- The handler of an RCON read. -/
  | command (l : Bytes)
  | returns
  deriving DecidableEq

structure Shared where
  /-- `m_running` -/
  running : Bool
  /-- `m_ioc` has been stopped. -/
  stopped : Bool
  /-- `m_threads` -/
  threads : List Thread
  begun : List Thread
  finished : List Thread
  fired : List String
  /-- The threads whose `exchange` has found the flag set. -/
  stops : List Thread
  /-- What the console has read. -/
  lines : List Bytes
  eof : Bool
  returned : Bool

def Shared.init : Shared := ⟨false, false, [], [], [], [], [], [], false, false⟩

/-- What decides which threads there are: the configuration, and `hardware_concurrency()`. -/
structure Setup where
  aiEnabled : Bool
  masterRegister : Bool
  hardware : Nat

namespace Setup

variable (c : Setup)

def ioThreads : List Thread := (List.range (max 2 c.hardware)).map .io

/-- `run()` between `m_running = true` and the joins. The calls are for the bridge and its
    game, and plugins' handlers. -/
def setup : List Instr :=
  [.create .vehicleSync] ++ (if c.aiEnabled then [.create .aiTraffic] else []) ++
    (if c.masterRegister then [.create .heartbeat] else []) ++
    (if c.aiEnabled then [.call, .create .negotiation] else []) ++ [.create .console] ++ c.ioThreads.map .create ++
    [.fireInit, .call]

def run : List Instr := .setRunning :: (c.setup ++ [.join 0, .returned])

end Setup

/-! ## The steps -/

/-- The body of a thread, without its end. -/
def body : Thread → List Instr
  | .vehicleSync | .aiTraffic => [.loop]
  | .heartbeat => [.call, .loop]
  | .negotiation => [.call]
  | .console => [.getline]
  | .io _ => [.ioRun]
  | .main | .signal _ => []

/-- A pass of the loop of a thread. -/
def pass : Thread → List Instr
  | .heartbeat => [.sleep, .recheck]
  | _ => [.call, .sleep, .loop]

def start (c : Setup) (k : Thread) (_ : Unit) (s : Shared) : Option (List Instr × Shared) :=
  match k with
  | .main => if .main ∈ s.begun then none else some (c.run, { s with begun := .main :: s.begun })
  | .signal _ => some ([.exchange], s)
  | k => if k ∈ s.threads ∧ k ∉ s.begun then some (body k ++ [.finish], { s with begun := k :: s.begun }) else none

/-- What the console or an RCON session does with a line. -/
def dispatched (l : Bytes) : List Instr := if Console.dispatch l then [.call] else [.exchange]

def act (k : Thread) (i : Instr) (c : Input) (s : Shared) : Option (List Instr × Shared) :=
  match i, c with
  | .setRunning, .nothing => some ([], { s with running := true })
  | .create k', .nothing => some ([], { s with threads := s.threads ++ [k'] })
  | .fireInit, .nothing => some ([], { s with fired := s.fired ++ ["onInit"] })
  | .join i, .nothing =>
    match s.threads[i]? with
    | none => some ([], s)
    | some t => if t ∈ s.finished then some ([.join (i + 1)], s) else none
  | .returned, .nothing => some ([], { s with returned := true })
  | .loop, .nothing => some (if s.running then pass k else [], s)
  | .sleep, .nothing => some ([], s)
  | .recheck, .nothing => some (if s.running then [.call, .loop] else [], s)
  | .getline, .line l =>
    some (dispatched l ++ if Console.dispatch l then [.getline] else [], { s with lines := s.lines ++ [l] })
  | .getline, .eof => some ([], { s with eof := true })
  | .ioRun, .nothing => if s.stopped then some ([], s) else none
  | .ioRun, .handler => if s.stopped then none else some ([.call, .ioRun], s)
  | .ioRun, .command l => if s.stopped then none else some (dispatched l ++ [.ioRun], s)
  | .call, .returns => some ([], s)
  | .exchange, .nothing =>
    if s.running then
      some ([.fireShutdown, .onShutdown, .terminate, .stopIoc], { s with running := false, stops := k :: s.stops })
    else some ([], s)
  | .fireShutdown, .nothing => some ([], { s with fired := s.fired ++ ["onShutdown"] })
  | .onShutdown, .returns => some ([], s)
  | .terminate, .returns => some ([], s)
  | .stopIoc, .nothing => some ([], { s with stopped := true })
  | .finish, .nothing => some ([], { s with finished := k :: s.finished })
  | _, _ => none

def rules (c : Setup) : Rules Thread Unit Instr Input Shared := ⟨start c, act⟩

abbrev Threads := Crew Thread Instr Shared

abbrev Event := Crew.Event Thread Unit Input

def Threads.init : Threads := ⟨Shared.init, fun _ => []⟩

def after (c : Setup) (es : List Event) : Threads := Crew.run (rules c) Threads.init es

/-- What only comes back when the code it calls does. -/
def Instr.calls : Instr → Bool
  | .call | .onShutdown | .terminate => true
  | _ => false

/-- A line, a handler or a command, of which any number may come. -/
def Input.brings : Input → Bool
  | .line _ | .handler | .command _ => true
  | .nothing | .eof | .returns => false

/-! ## What a turn does -/

/-- The turns that something comes of. -/
inductive Acts (k : Thread) (s : Shared) : Instr → Input → List Instr → Shared → Prop
  | setRunning : Acts k s .setRunning .nothing [] { s with running := true }
  | create (k' : Thread) : Acts k s (.create k') .nothing [] { s with threads := s.threads ++ [k'] }
  | sleep : Acts k s .sleep .nothing [] s
  | fireInit : Acts k s .fireInit .nothing [] { s with fired := s.fired ++ ["onInit"] }
  | joined {i : Nat} : s.threads.length ≤ i → Acts k s (.join i) .nothing [] s
  | join {i : Nat} {t : Thread} : s.threads[i]? = some t → t ∈ s.finished → Acts k s (.join i) .nothing [.join (i + 1)] s
  | returned : Acts k s .returned .nothing [] { s with returned := true }
  | leaves {i : Instr} : i ∈ [.loop, .recheck] → s.running = false → Acts k s i .nothing [] s
  | loop : s.running = true → Acts k s .loop .nothing (pass k) s
  | recheck : s.running = true → Acts k s .recheck .nothing [.call, .loop] s
  | line {l : Bytes} : Console.dispatch l = true →
      Acts k s .getline (.line l) [.call, .getline] { s with lines := s.lines ++ [l] }
  | stopLine {l : Bytes} : Console.dispatch l = false →
      Acts k s .getline (.line l) [.exchange] { s with lines := s.lines ++ [l] }
  | eof : Acts k s .getline .eof [] { s with eof := true }
  | ioEnds : s.stopped = true → Acts k s .ioRun .nothing [] s
  | handler {c : Input} : c.brings = true → Acts k s .ioRun c [.call, .ioRun] s
  | stopCommand {l : Bytes} : Console.dispatch l = false → Acts k s .ioRun (.command l) [.exchange, .ioRun] s
  | returns {i : Instr} : i.calls = true → Acts k s i .returns [] s
  | stop : s.running = true → Acts k s .exchange .nothing [.fireShutdown, .onShutdown, .terminate, .stopIoc]
      { s with running := false, stops := k :: s.stops }
  | noStop : s.running = false → Acts k s .exchange .nothing [] s
  | fireShutdown : Acts k s .fireShutdown .nothing [] { s with fired := s.fired ++ ["onShutdown"] }
  | stopIoc : Acts k s .stopIoc .nothing [] { s with stopped := true }
  | finish : Acts k s .finish .nothing [] { s with finished := k :: s.finished }

variable {k : Thread} {i : Instr} {is push : List Instr} {c : Input} {s s' : Shared}

theorem act_cases (h : act k i c s = some (push, s')) : Acts k s i c push s' := by
  -- what is left is the outcome itself, or an outcome that depends on the state
  cases i <;> cases c <;> first | cases h | skip
  case setRunning.nothing => exact .setRunning
  case create.nothing => exact .create _
  case fireInit.nothing => exact .fireInit
  case join.nothing i =>
    simp only [act] at h
    split at h
    · cases h
      exact .joined (List.getElem?_eq_none_iff.mp ‹_›)
    · split at h
      · cases h
        exact .join ‹_› ‹_›
      · cases h
  case returned.nothing => exact .returned
  case loop.nothing =>
    by_cases hr : s.running = true
    · rw [if_pos hr]
      exact .loop hr
    · rw [if_neg hr]
      exact .leaves (by decide) (Bool.eq_false_iff.mpr hr)
  case sleep.nothing => exact .sleep
  case recheck.nothing =>
    by_cases hr : s.running = true
    · rw [if_pos hr]
      exact .recheck hr
    · rw [if_neg hr]
      exact .leaves (by decide) (Bool.eq_false_iff.mpr hr)
  case getline.line l =>
    by_cases hd : Console.dispatch l = true
    · rw [dispatched, if_pos hd, if_pos hd]
      exact .line hd
    · rw [dispatched, if_neg hd, if_neg hd]
      exact .stopLine (Bool.eq_false_iff.mpr hd)
  case getline.eof => exact .eof
  case ioRun.nothing =>
    simp only [act] at h
    split at h
    · cases h
      exact .ioEnds ‹_›
    · cases h
  case ioRun.handler =>
    simp only [act] at h
    split at h
    · cases h
    · cases h
      exact .handler rfl
  case ioRun.command l =>
    simp only [act] at h
    split at h
    · cases h
    · cases h
      by_cases hd : Console.dispatch l = true
      · rw [dispatched, if_pos hd]
        exact .handler rfl
      · rw [dispatched, if_neg hd]
        exact .stopCommand (Bool.eq_false_iff.mpr hd)
  case call.returns => exact .returns rfl
  case exchange.nothing =>
    simp only [act] at h
    split at h
    · cases h
      exact .stop ‹_›
    · cases h
      exact .noStop (Bool.eq_false_iff.mpr ‹_›)
  case fireShutdown.nothing => exact .fireShutdown
  case onShutdown.returns => exact .returns rfl
  case terminate.returns => exact .returns rfl
  case stopIoc.nothing => exact .stopIoc
  case finish.nothing => exact .finish

/-! ## The threads that `run` starts -/

/-- The console's input has ended, or has said `stop`. -/
def Ended (s : Shared) : Prop := s.eof = true ∨ ∃ l ∈ s.lines, Console.dispatch l = false

/-- What a thread other than the main one is made of, but for its end. -/
def Thread.runs : Thread → List Instr
  | .main => []
  | .vehicleSync | .aiTraffic => [.loop, .call, .sleep]
  | .heartbeat => [.loop, .call, .sleep, .recheck]
  | .negotiation => [.call]
  | .console => [.getline, .call, .exchange, .fireShutdown, .onShutdown, .terminate, .stopIoc]
  | .io _ => [.ioRun, .call, .exchange, .fireShutdown, .onShutdown, .terminate, .stopIoc]
  | .signal _ => [.exchange, .fireShutdown, .onShutdown, .terminate, .stopIoc]

/-- The thread goes on, or has a reason not to. -/
def Live (s : Shared) : Thread → List Instr → Prop
  | .vehicleSync, is | .aiTraffic, is => .loop ∈ is ∨ s.stops ≠ []
  | .heartbeat, is => .loop ∈ is ∨ .recheck ∈ is ∨ s.stops ≠ []
  | .console, is => ¬ Ended s ∧ (is = [.getline] ∨ is = [.call, .getline]) ∨ Ended s ∧ .getline ∉ is
  | .io _, is => .ioRun ∈ is ∨ s.stopped = true
  | .main, _ | .negotiation, _ | .signal _, _ => True

theorem body_live (hnew : k = .console → ¬ Ended s) : Live s k (body k) ∧ ∀ i ∈ body k, i ∈ k.runs := by
  cases k with
  | console => exact ⟨.inl ⟨hnew rfl, .inl rfl⟩, by decide⟩
  | main | vehicleSync | aiTraffic | heartbeat | negotiation | io _ | signal _ => simp [Live, body, Thread.runs]

theorem ended_line {l : Bytes} (h : ¬ Ended s) (hd : Console.dispatch l = true) :
    ¬ Ended { s with lines := s.lines ++ [l] } := by
  rintro (heof | ⟨l', hl', hstop⟩)
  · exact h (.inl heof)
  · rcases List.mem_append.mp hl' with hl' | hl'
    · exact h (.inr ⟨l', hl', hstop⟩)
    · rw [List.mem_singleton.mp hl', hd] at hstop
      cases hstop

theorem ended_stopLine {l : Bytes} (hd : Console.dispatch l = false) : Ended { s with lines := s.lines ++ [l] } :=
  .inr ⟨l, List.mem_append_right _ (List.mem_singleton_self l), hd⟩

/-- A turn of the console. -/
theorem console_turn (hi : i ∈ Thread.console.runs) (h : Live s .console (i :: is)) (ha : Acts .console s i c push s') :
    Live s' .console (push ++ is) ∧ ∀ j ∈ push, j ∈ Thread.console.runs := by
  rcases h with ⟨hnew, his⟩ | ⟨hend, hno⟩
  · rcases his with his | his
    · cases his
      cases ha with
      | line hd => exact ⟨.inl ⟨ended_line hnew hd, .inr rfl⟩, by decide⟩
      | stopLine hd => exact ⟨.inr ⟨ended_stopLine hd, by decide⟩, by decide⟩
      | eof => exact ⟨.inr ⟨.inl rfl, by decide⟩, by decide⟩
      | returns hq => cases hq
      | leaves hq _ => exact absurd hq (by decide)
    · cases his
      cases ha with
      | returns _ => exact ⟨.inl ⟨hnew, .inl rfl⟩, by decide⟩
      | leaves hq _ => exact absurd hq (by decide)
  · have hrest : .getline ∉ is := fun h => hno (List.mem_cons_of_mem _ h)
    have hpush : .getline ∉ push ∧ (∀ j ∈ push, j ∈ Thread.console.runs) ∧ Ended s' := by
      cases ha with
      | line _ => exact absurd List.mem_cons_self hno
      | stopLine _ => exact absurd List.mem_cons_self hno
      | eof => exact absurd List.mem_cons_self hno
      | stop _ => exact ⟨by decide, by decide, hend⟩
      | returns _ | noStop _ | fireShutdown | stopIoc => exact ⟨List.not_mem_nil, fun _ h => absurd h List.not_mem_nil, hend⟩
      | _ => simp_all [Thread.runs]
    exact ⟨.inr ⟨hpush.2.2, fun h => (List.mem_append.mp h).elim hpush.1 hrest⟩, hpush.2.1⟩

/-- A turn of a signal handler. -/
theorem signal_turn {n : Signal} (hi : i ∈ (Thread.signal n).runs) (ha : Acts (.signal n) s i c push s') :
    ∀ j ∈ push, j ∈ (Thread.signal n).runs := by
  cases ha with
  | stop _ => exact fun j hj => List.mem_cons_of_mem _ hj
  | noStop _ | fireShutdown | stopIoc | returns _ | leaves _ _ => exact fun _ h => absurd h List.not_mem_nil
  | _ => simp [Thread.runs] at hi

/-- A turn of a thread that `run` has started. -/
theorem live_turn (hi : i ∈ k.runs) (hflag : s.running = false → s.stops ≠ []) (h : Live s k (i :: is))
    (ha : Acts k s i c push s') : Live s' k (push ++ is) ∧ ∀ j ∈ push, j ∈ k.runs := by
  cases k with
  | main => cases hi
  | console => exact console_turn hi h ha
  | vehicleSync | aiTraffic =>
    cases ha with
    | leaves _ hr => exact ⟨.inr (hflag hr), fun _ h => absurd h List.not_mem_nil⟩
    | loop _ => exact ⟨.inl (List.mem_append_left _ (by decide)), by decide⟩
    | sleep =>
      exact ⟨h.imp_left fun hmem => (List.mem_cons.mp hmem).resolve_left (by decide), fun _ h => absurd h List.not_mem_nil⟩
    | returns hq =>
      refine ⟨h.imp_left fun hmem => (List.mem_cons.mp hmem).resolve_left ?_, fun _ h => absurd h List.not_mem_nil⟩
      rintro rfl
      cases hq
    | _ => simp [Thread.runs] at hi
  | heartbeat =>
    cases ha with
    | leaves _ hr => exact ⟨.inr (.inr (hflag hr)), fun _ h => absurd h List.not_mem_nil⟩
    | loop _ => exact ⟨.inr (.inl (List.mem_append_left _ (by decide))), by decide⟩
    | recheck _ => exact ⟨.inl (List.mem_append_left _ (by decide)), by decide⟩
    | sleep =>
      exact ⟨h.imp (fun hmem => (List.mem_cons.mp hmem).resolve_left (by decide))
        (Or.imp_left fun hmem => (List.mem_cons.mp hmem).resolve_left (by decide)), fun _ h => absurd h List.not_mem_nil⟩
    | returns hq =>
      refine ⟨h.imp (fun hmem => (List.mem_cons.mp hmem).resolve_left ?_)
        (Or.imp_left fun hmem => (List.mem_cons.mp hmem).resolve_left ?_), fun _ h => absurd h List.not_mem_nil⟩
      · rintro rfl
        cases hq
      · rintro rfl
        cases hq
    | _ => simp [Thread.runs] at hi
  | negotiation =>
    cases ha with
    | returns _ => exact ⟨trivial, fun _ h => absurd h List.not_mem_nil⟩
    | leaves hq _ =>
      rw [List.mem_singleton.mp hi] at hq
      exact absurd hq (by decide)
    | _ => simp [Thread.runs] at hi
  | io n =>
    have hrest (hne : i ≠ .ioRun) : .ioRun ∈ is ∨ s.stopped = true :=
      h.imp_left fun hmem => (List.mem_cons.mp hmem).resolve_left hne.symm
    cases ha with
    | ioEnds hs => exact ⟨.inr hs, fun _ h => absurd h List.not_mem_nil⟩
    | handler _ => exact ⟨.inl (List.mem_append_left _ (by decide)), by simp [Thread.runs]⟩
    | stopCommand _ => exact ⟨.inl (List.mem_append_left _ (by decide)), by simp [Thread.runs]⟩
    | stop _ => exact ⟨(hrest (by decide)).imp_left (List.mem_append_right _), by simp [Thread.runs]⟩
    | stopIoc => exact ⟨.inr rfl, fun _ h => absurd h List.not_mem_nil⟩
    | noStop _ | fireShutdown => exact ⟨hrest (by decide), fun _ h => absurd h List.not_mem_nil⟩
    | returns hq =>
      refine ⟨hrest ?_, fun _ h => absurd h List.not_mem_nil⟩
      rintro rfl
      cases hq
    | leaves hq _ =>
      refine ⟨hrest ?_, fun _ h => absurd h List.not_mem_nil⟩
      rintro rfl
      exact absurd hq (by decide)
    | _ => simp [Thread.runs] at hi
  | signal n => exact ⟨trivial, signal_turn hi ha⟩

/-- A thread that `run` has started is in `m_threads`, and is at something of its own until
    it ends. -/
inductive At (s : Shared) (k : Thread) : List Instr → Prop
  | unborn : k ∉ s.begun → k ∉ s.finished → (k = .console → ¬ Ended s) → At s k []
  | working {is : List Instr} : k ∈ s.begun → k ∉ s.finished → k ∈ s.threads → (∀ i ∈ is, i ∈ k.runs) → Live s k is →
      At s k (is ++ [.finish])
  | finished : k ∈ s.begun → k ∈ s.finished → k ∈ s.threads → Live s k [] → At s k []

/-- What a turn of another thread leaves alone, or only adds to. -/
structure Later (s s' : Shared) (k : Thread) : Prop where
  begun : k ∈ s'.begun ↔ k ∈ s.begun
  finished : k ∈ s'.finished ↔ k ∈ s.finished
  threads : s.threads <+: s'.threads
  stops : s.stops ≠ [] → s'.stops ≠ []
  stopped : s.stopped = true → s'.stopped = true
  ended : k = .console → (Ended s' ↔ Ended s)

theorem Live.later (hl : Later s s' k) (h : Live s k is) : Live s' k is := by
  cases k with
  | main | negotiation | signal _ => trivial
  | vehicleSync | aiTraffic => exact Or.imp_right hl.stops h
  | heartbeat => exact Or.imp_right (Or.imp_right hl.stops) h
  | io _ => exact Or.imp_right hl.stopped h
  | console =>
    unfold Live
    rw [hl.ended rfl]
    exact h

theorem At.later (hl : Later s s' k) (h : At s k is) : At s' k is := by
  cases h with
  | unborn hb hf hnew =>
    exact .unborn (hl.begun.not.mpr hb) (hl.finished.not.mpr hf) fun hk => (hl.ended hk).not.mpr (hnew hk)
  | working hb hf ht hruns hlive =>
    exact .working (hl.begun.mpr hb) (hl.finished.not.mpr hf) (hl.threads.subset ht) hruns (hlive.later hl)
  | finished hb hf ht hlive => exact .finished (hl.begun.mpr hb) (hl.finished.mpr hf) (hl.threads.subset ht) (hlive.later hl)

theorem Acts.later {k' : Thread} (ha : Acts k' s i c push s') (hne : k ≠ k') (hline : k = .console → i ≠ .getline) :
    Later s s' k := by
  have hfin : ∀ l : List Thread, k ∈ k' :: l ↔ k ∈ l := fun l => by simp [hne]
  cases ha with
  | line _ => exact ⟨.rfl, .rfl, List.prefix_refl _, id, id, fun h => absurd rfl (hline h)⟩
  | stopLine _ => exact ⟨.rfl, .rfl, List.prefix_refl _, id, id, fun h => absurd rfl (hline h)⟩
  | eof => exact ⟨.rfl, .rfl, List.prefix_refl _, id, id, fun h => absurd rfl (hline h)⟩
  | create _ => exact ⟨.rfl, .rfl, List.prefix_append _ _, id, id, fun _ => .rfl⟩
  | stop _ => exact ⟨.rfl, .rfl, List.prefix_refl _, fun _ => List.cons_ne_nil _ _, id, fun _ => .rfl⟩
  | stopIoc => exact ⟨.rfl, .rfl, List.prefix_refl _, id, fun _ => rfl, fun _ => .rfl⟩
  | finish => exact ⟨.rfl, hfin _, List.prefix_refl _, id, id, fun _ => .rfl⟩
  | _ => exact ⟨.rfl, .rfl, List.prefix_refl _, id, id, fun _ => .rfl⟩

/-- A turn of the thread itself. -/
theorem At.turn (hflag : k ∈ s.threads → s.running = false → s.stops ≠ []) (h : At s k (i :: is))
    (ha : Acts k s i c push s') : At s' k (push ++ is) := by
  generalize hscript : i :: is = script at h
  cases h with
  | unborn _ _ _ => cases hscript
  | finished _ _ _ _ => cases hscript
  | @working is₀ hb hf ht hruns hlive =>
    cases is₀ with
    | nil =>
      cases hscript
      cases ha with
      | finish => exact .finished hb List.mem_cons_self ht hlive
      | returns hq => cases hq
      | leaves hq _ => exact absurd hq (by decide)
    | cons j is₀ =>
      cases hscript
      obtain ⟨hlive', hpush⟩ := live_turn (hruns i List.mem_cons_self) (hflag ht) hlive ha
      have hi : i ≠ .finish := by
        rintro rfl
        exact absurd (hruns _ List.mem_cons_self) (by cases k <;> simp [Thread.runs])
      have hsame : s'.begun = s.begun ∧ s'.finished = s.finished ∧ s.threads <+: s'.threads := by
        cases ha with
        | create _ => exact ⟨rfl, rfl, List.prefix_append _ _⟩
        | finish => exact absurd rfl hi
        | _ => exact ⟨rfl, rfl, List.prefix_refl _⟩
      have happend : push ++ is₀.append [.finish] = push ++ is₀ ++ [.finish] := (List.append_assoc _ _ _).symm
      rw [happend]
      refine .working (hsame.1 ▸ hb) (hsame.2.1 ▸ hf) (hsame.2.2.subset ht) (fun j hj => ?_) hlive'
      exact (List.mem_append.mp hj).elim (hpush j) fun hj => hruns j (List.mem_cons_of_mem _ hj)

/-! ## The main thread -/

def Instr.creates : Instr → Option Thread
  | .create k => some k
  | _ => none

/-- `m_threads` once all are started. -/
def Setup.threads (c : Setup) : List Thread := c.setup.filterMap Instr.creates

/-- What `run()` does between `m_running = true` and the joins. -/
def Instr.prepares : Instr → Bool
  | .create _ | .fireInit | .call => true
  | _ => false

/-- The flag is set, or a `stop` has cleared it. -/
def Flagged (s : Shared) : Prop := s.running = false → s.stops ≠ []

inductive MainAt (c : Setup) (s : Shared) : List Instr → Prop
  | unborn : .main ∉ s.begun → s.running = false → s.stops = [] → s.threads = [] → s.returned = false → MainAt c s []
  | begins : .main ∈ s.begun → s.running = false → s.stops = [] → s.threads = [] → s.returned = false → MainAt c s c.run
  | setup {is : List Instr} : .main ∈ s.begun → Flagged s → (∀ i ∈ is, i.prepares = true) →
      s.threads ++ is.filterMap Instr.creates = c.threads → s.returned = false → MainAt c s (is ++ [.join 0, .returned])
  | joining {i : Nat} : .main ∈ s.begun → Flagged s → s.threads = c.threads → (∀ t ∈ s.threads.take i, t ∈ s.finished) →
      s.returned = false → MainAt c s [.join i, .returned]
  | joined : .main ∈ s.begun → Flagged s → s.threads = c.threads → (∀ t ∈ c.threads, t ∈ s.finished) →
      s.returned = false → MainAt c s [.returned]
  | ended : .main ∈ s.begun → Flagged s → s.threads = c.threads → (∀ t ∈ c.threads, t ∈ s.finished) →
      s.returned = true → MainAt c s []

variable {setup : Setup}

theorem MainAt.flagged (h : MainAt setup s is) (ht : s.threads ≠ []) : Flagged s := by
  cases h with
  | unborn _ _ _ hno _ => exact absurd hno ht
  | begins _ _ _ hno _ => exact absurd hno ht
  | setup _ hf _ _ _ => exact hf
  | joining _ hf _ _ _ => exact hf
  | joined _ hf _ _ _ => exact hf
  | ended _ hf _ _ _ => exact hf

theorem setup_prepares (c : Setup) : ∀ i ∈ c.setup, i.prepares = true := by
  intro i hi
  simp only [Setup.setup, List.mem_append, List.mem_map, List.mem_ite_nil_right] at hi
  rcases hi with (((((hi | ⟨-, hi⟩) | ⟨-, hi⟩) | ⟨-, hi⟩) | hi) | ⟨_, _, rfl⟩) | hi
  · rw [List.mem_singleton.mp hi]; rfl
  · rw [List.mem_singleton.mp hi]; rfl
  · rw [List.mem_singleton.mp hi]; rfl
  · rcases List.mem_pair.mp hi with rfl | rfl <;> rfl
  · rw [List.mem_singleton.mp hi]; rfl
  · rfl
  · rcases List.mem_pair.mp hi with rfl | rfl <;> rfl

/-- A turn of the loop that joins. -/
theorem joining_turn {n : Nat} (hb : .main ∈ s.begun) (hf : Flagged s) (ht : s.threads = setup.threads)
    (hfin : ∀ t ∈ s.threads.take n, t ∈ s.finished) (hret : s.returned = false) (ha : Acts .main s (.join n) c push s') :
    MainAt setup s' (push ++ [.returned]) := by
  cases ha with
  | joined hn =>
    rw [List.take_of_length_le hn, ht] at hfin
    exact .joined hb hf ht hfin hret
  | @join _ t hget hmem =>
    refine .joining hb hf ht (fun t' ht' => ?_) hret
    rw [List.take_add_one, hget] at ht'
    rcases List.mem_append.mp ht' with ht' | ht'
    · exact hfin t' ht'
    · rw [List.mem_singleton.mp ht']
      exact hmem
  | returns hq => cases hq
  | leaves hq _ => exact absurd hq (by simp)

/-- A turn of the main thread. -/
theorem MainAt.turn (h : MainAt setup s (i :: is)) (ha : Acts .main s i c push s') : MainAt setup s' (push ++ is) := by
  generalize hscript : i :: is = script at h
  cases h with
  | unborn _ _ _ _ _ => cases hscript
  | ended _ _ _ _ _ => cases hscript
  | begins hb hr hs ht hret =>
    cases hscript
    cases ha with
    | setRunning => exact .setup hb (fun h => by cases h) (setup_prepares setup) (by rw [ht, List.nil_append]; rfl) hret
    | returns hq => cases hq
    | leaves hq _ => exact absurd hq (by decide)
  | @setup is₀ hb hf hprep hthreads hret =>
    cases is₀ with
    | nil =>
      cases hscript
      have ht : s.threads = setup.threads := by simpa using hthreads
      exact joining_turn hb hf ht (fun _ h => by simp at h) hret ha
    | cons j is₀ =>
      cases hscript
      have hrest : ∀ j ∈ is₀, j.prepares = true := fun j hj => hprep j (List.mem_cons_of_mem _ hj)
      have hi := hprep i List.mem_cons_self
      cases ha with
      | create k' =>
        refine .setup hb hf hrest ?_ hret
        rw [← hthreads, List.append_assoc]
        rfl
      | returns hq =>
        refine .setup hb hf hrest ?_ hret
        rw [← hthreads]
        cases i with
        | create _ => cases hq
        | _ => rfl
      | fireInit => exact .setup hb hf hrest hthreads hret
      | leaves hq _ =>
        simp only [List.mem_cons, List.not_mem_nil, or_false] at hq
        rcases hq with rfl | rfl <;> cases hi
      | _ => cases hi
  | joining hb hf ht hfin hret =>
    cases hscript
    exact joining_turn hb hf ht hfin hret ha
  | joined hb hf ht hfin hret =>
    cases hscript
    cases ha with
    | returned => exact .ended hb hf ht hfin rfl
    | returns hq => cases hq
    | leaves hq _ => exact absurd hq (by decide)

/-- A turn of another thread. -/
theorem MainAt.later (h : MainAt setup s is) {k : Thread} (hk : k ≠ .main) {i : Instr} {c : Input} {push : List Instr}
    (hi : i ∈ k.runs ∨ i = .finish) (ha : Acts k s i c push s') : MainAt setup s' is := by
  have hsame : s'.begun = s.begun ∧ s'.threads = s.threads ∧ s'.returned = s.returned ∧
      (∀ t ∈ s.finished, t ∈ s'.finished) ∧ (Flagged s → Flagged s') ∧
      (s.running = false → s'.running = false ∧ s'.stops = s.stops) := by
    cases ha with
    | stop hr =>
      exact ⟨rfl, rfl, rfl, fun _ h => h, fun _ _ => List.cons_ne_nil _ _, fun h => absurd (hr.symm.trans h) (by decide)⟩
    | finish => exact ⟨rfl, rfl, rfl, fun _ h => List.mem_cons_of_mem _ h, id, fun h => ⟨h, rfl⟩⟩
    | setRunning => cases k <;> simp [Thread.runs] at hi
    | create _ => cases k <;> simp [Thread.runs] at hi
    | returned => cases k <;> simp [Thread.runs] at hi
    | _ => exact ⟨rfl, rfl, rfl, fun _ h => h, id, fun h => ⟨h, rfl⟩⟩
  obtain ⟨hbegun, hthreads, hreturned, hfinished, hflagged, hoff⟩ := hsame
  cases h with
  | unborn hb hr hs ht hret =>
    obtain ⟨hr', hs'⟩ := hoff hr
    exact .unborn (hbegun ▸ hb) hr' (hs'.trans hs) (hthreads.trans ht) (hreturned.trans hret)
  | begins hb hr hs ht hret =>
    obtain ⟨hr', hs'⟩ := hoff hr
    exact .begins (hbegun ▸ hb) hr' (hs'.trans hs) (hthreads.trans ht) (hreturned.trans hret)
  | setup hb hf hprep ht hret => exact .setup (hbegun ▸ hb) (hflagged hf) hprep (hthreads ▸ ht) (hreturned.trans hret)
  | joining hb hf ht hfin hret =>
    exact .joining (hbegun ▸ hb) (hflagged hf) (hthreads.trans ht) (fun t h => hfinished t (hfin t (hthreads ▸ h)))
      (hreturned.trans hret)
  | joined hb hf ht hfin hret =>
    exact .joined (hbegun ▸ hb) (hflagged hf) (hthreads.trans ht) (fun t h => hfinished t (hfin t h)) (hreturned.trans hret)
  | ended hb hf ht hfin hret =>
    exact .ended (hbegun ▸ hb) (hflagged hf) (hthreads.trans ht) (fun t h => hfinished t (hfin t h)) (hreturned.trans hret)

end NovaMP.Lifecycle
