/-
  NovaMP.Server.Stopping — what a `stop` of the server comes to.

  `Console::run` looks at its input only, and `run` joins its thread. So a `stop` that
  comes over RCON or with a signal ends all threads but that of the console.

  - `Inv`: what each thread is at, and how far the `stop` has come that found the flag set.
  - `budget`: after a `stop` a thread only spends what it has left and what it is given.
  - `shutdown`: plugins hear of the shutdown once, `run` returns only after a whole `stop`
    and the end of the console, and once nothing is left to do after these, it has returned.
-/

import NovaMP.Server.Lifecycle

namespace NovaMP.Lifecycle

open Lib

variable {setup : Setup} {k : Thread} {i : Instr} {is push : List Instr} {c : Input} {s s' : Shared}

/-! ## The stop -/

/-- A part of `stop` after its `exchange`. -/
def Instr.stops : Instr → Bool
  | .fireShutdown | .onShutdown | .terminate | .stopIoc => true
  | _ => false

/-- No part of `stop` is left. -/
def Past (is : List Instr) : Prop := ∀ i ∈ is, i.stops = false

/-- How often plugins have heard of the shutdown. -/
def Shared.shutdowns (s : Shared) : Nat := s.fired.count "onShutdown"

/-- How far the thread has come whose `exchange` found the flag set. -/
inductive Part (s : Shared) : List Instr → Prop
  | fire {is : List Instr} : Past is → s.shutdowns = 0 → s.stopped = false →
      Part s (.fireShutdown :: .onShutdown :: .terminate :: .stopIoc :: is)
  | onShutdown {is : List Instr} : Past is → s.shutdowns = 1 → Part s (.onShutdown :: .terminate :: .stopIoc :: is)
  | terminate {is : List Instr} : Past is → s.shutdowns = 1 → Part s (.terminate :: .stopIoc :: is)
  | stopIoc {is : List Instr} : Past is → s.shutdowns = 1 → Part s (.stopIoc :: is)
  | done {is : List Instr} : Past is → s.shutdowns = 1 → s.stopped = true → Part s is

inductive StopAt (q : Threads) : Prop
  | idle : q.state.stops = [] → q.state.shutdowns = 0 → q.state.stopped = false → (∀ k, Past (q.script k)) → StopAt q
  | by_thread (k : Thread) : q.state.stops = [k] → q.state.running = false → (∀ k', k' ≠ k → Past (q.script k')) →
      Part q.state (q.script k) → StopAt q

theorem Past.tail (h : Past (i :: is)) : Past is := fun j hj => h j (List.mem_cons_of_mem _ hj)

/-- Only an `exchange` that finds the flag set brings parts of a `stop`. -/
theorem Acts.past (ha : Acts k s i c push s') (hi : s.running = true → i ≠ .exchange) : Past push := by
  cases ha with
  | stop hr => exact absurd rfl (hi hr)
  | loop _ => cases k <;> simp [Past, pass, Instr.stops]
  | _ => simp [Past, Instr.stops]

/-- A turn that is no part of a `stop`. -/
structure Apart (s s' : Shared) : Prop where
  stops : s'.stops = s.stops
  shutdowns : s'.shutdowns = s.shutdowns
  stopped : s'.stopped = s.stopped
  running : s.stops ≠ [] → s.running = false → s'.running = false

theorem Acts.apart (ha : Acts k s i c push s') (hi : i.stops = false) (hex : s.running = true → i ≠ .exchange)
    (hset : i = .setRunning → s.stops = []) : Apart s s' := by
  cases ha with
  | stop hr => exact absurd rfl (hex hr)
  | fireShutdown => cases hi
  | stopIoc => cases hi
  | setRunning => exact ⟨rfl, rfl, rfl, fun h => absurd (hset rfl) h⟩
  | fireInit => exact ⟨rfl, by simp [Shared.shutdowns], rfl, fun _ h => h⟩
  | _ => exact ⟨rfl, rfl, rfl, fun _ h => h⟩

/-- A part of the `stop` itself. -/
theorem Part.turn (h : Part s (i :: is)) (hi : i.stops = true) (ha : Acts k s i c push s') :
    s'.stops = s.stops ∧ s'.running = s.running ∧ Part s' (push ++ is) := by
  generalize hscript : i :: is = script at h
  cases h with
  | fire hpast hnone _ =>
    cases hscript
    cases ha with
    | fireShutdown =>
      refine ⟨rfl, rfl, .onShutdown hpast ?_⟩
      simpa [Shared.shutdowns] using hnone
    | returns hq => cases hq
    | leaves hq _ => exact absurd hq (by decide)
  | onShutdown hpast hone =>
    cases hscript
    cases ha with
    | returns _ => exact ⟨rfl, rfl, .terminate hpast hone⟩
    | leaves hq _ => exact absurd hq (by decide)
  | terminate hpast hone =>
    cases hscript
    cases ha with
    | returns _ => exact ⟨rfl, rfl, .stopIoc hpast hone⟩
    | leaves hq _ => exact absurd hq (by decide)
  | stopIoc hpast hone =>
    cases hscript
    cases ha with
    | stopIoc => exact ⟨rfl, rfl, .done hpast hone rfl⟩
    | returns hq => cases hq
    | leaves hq _ => exact absurd hq (by decide)
  | done hpast _ _ =>
    subst hscript
    rw [hpast i List.mem_cons_self] at hi
    cases hi

theorem Part.apart (ha : Apart s s') (h : Part s is) : Part s' is := by
  cases h with
  | fire hpast hn hs => exact .fire hpast (ha.shutdowns.trans hn) (ha.stopped.trans hs)
  | onShutdown hpast hn => exact .onShutdown hpast (ha.shutdowns.trans hn)
  | terminate hpast hn => exact .terminate hpast (ha.shutdowns.trans hn)
  | stopIoc hpast hn => exact .stopIoc hpast (ha.shutdowns.trans hn)
  | done hpast hn hs => exact .done hpast (ha.shutdowns.trans hn) (ha.stopped.trans hs)

/-- A thread whose next instruction is no part of a `stop` has none left. -/
theorem Part.past (h : Part s (i :: is)) (hi : i.stops = false) :
    Past (i :: is) ∧ s.shutdowns = 1 ∧ s.stopped = true := by
  generalize hscript : i :: is = script at h
  cases h with
  | fire _ _ _ => cases hscript; cases hi
  | onShutdown _ _ => cases hscript; cases hi
  | terminate _ _ => cases hscript; cases hi
  | stopIoc _ _ => cases hscript; cases hi
  | done hpast hone hstopped => exact ⟨hpast, hone, hstopped⟩

theorem past_put {q : Threads} (h : ∀ k, Past (q.script k)) {s : Shared} (hp : Past is) (k k' : Thread) :
    Past ((q.put k is s).script k') := by
  by_cases hk : k' = k
  · subst hk
    rw [Crew.put_self]
    exact hp
  · rw [Crew.put_ne q hk]
    exact h k'

theorem StopAt.turn {q : Threads} (h : StopAt q) (hk : q.script k = i :: is) (hset : i = .setRunning → q.state.stops = [])
    (ha : Acts k q.state i c push s') : StopAt (q.put k (push ++ is) s') := by
  have hconcat (hpush : Past push) (his : Past is) : Past (push ++ is) := fun j hj =>
    (List.mem_append.mp hj).elim (hpush j) (his j)
  cases h with
  | idle hs hnone hstopped hpast =>
    have hhead : Past (i :: is) := hk ▸ hpast k
    by_cases hex : i = .exchange ∧ q.state.running = true
    · obtain ⟨rfl, hr⟩ := hex
      cases ha with
      | stop _ =>
        refine .by_thread k (by rw [Crew.put_state, hs]) rfl (fun k' hk' => ?_) ?_
        · rw [Crew.put_ne q hk']
          exact hpast k'
        · rw [Crew.put_self, Crew.put_state]
          exact .fire hhead.tail hnone hstopped
      | noStop hr' => exact absurd (hr.symm.trans hr') (by decide)
      | returns hq => cases hq
      | leaves hq _ => exact absurd hq (by decide)
    · have hne : q.state.running = true → i ≠ .exchange := fun hr hi => hex ⟨hi, hr⟩
      have hap := ha.apart (hhead i List.mem_cons_self) hne hset
      exact .idle (hap.stops.trans hs) (hap.shutdowns.trans hnone) (hap.stopped.trans hstopped)
        (past_put hpast (hconcat (ha.past hne) hhead.tail) k)
  | by_thread k₀ hs hr hpast hpart =>
    have hne : q.state.running = true → i ≠ .exchange := fun h => absurd (hr.symm.trans h) (by decide)
    have hstops : q.state.stops ≠ [] := by simp [hs]
    by_cases hk₀ : k = k₀
    · subst hk₀
      rw [hk] at hpart
      have hothers : ∀ k', k' ≠ k → Past ((q.put k (push ++ is) s').script k') := fun k' hk' => by
        rw [Crew.put_ne q hk']
        exact hpast k' hk'
      by_cases hi : i.stops = true
      · obtain ⟨hsame, hrun, hpart'⟩ := hpart.turn hi ha
        refine .by_thread k (hsame.trans hs) (hrun.trans hr) hothers ?_
        rw [Crew.put_self]
        exact hpart'
      · have hi' : i.stops = false := Bool.eq_false_iff.mpr hi
        obtain ⟨hall, hone, hstopped⟩ := hpart.past hi'
        have hap := ha.apart hi' hne hset
        refine .by_thread k (hap.stops.trans hs) (hap.running hstops hr) hothers ?_
        rw [Crew.put_self]
        exact .done (hconcat (ha.past hne) hall.tail) (hap.shutdowns.trans hone) (hap.stopped.trans hstopped)
    · have hhead : Past (i :: is) := hk ▸ hpast k hk₀
      have hap := ha.apart (hhead i List.mem_cons_self) hne hset
      refine .by_thread k₀ (hap.stops.trans hs) (hap.running hstops hr) (fun k' hk' => ?_) ?_
      · by_cases hkk : k' = k
        · subst hkk
          rw [Crew.put_self]
          exact hconcat (ha.past hne) hhead.tail
        · rw [Crew.put_ne q hkk]
          exact hpast k' hk'
      · rw [Crew.put_ne q (Ne.symm hk₀)]
        exact hpart.apart hap

/-! ## All of it -/

/-- A thread that `run` starts. -/
def Thread.started : Thread → Bool
  | .main | .signal _ => false
  | _ => true

theorem ne_main_of_started (h : k.started = true) : k ≠ .main := by
  rintro rfl
  cases h

theorem ne_signal_of_started (h : k.started = true) (n : Signal) : k ≠ .signal n := by
  rintro rfl
  cases h

structure Inv (setup : Setup) (q : Threads) : Prop where
  main : MainAt setup q.state (q.script .main)
  workers : ∀ k, k.started = true → At q.state k (q.script k)
  signals : ∀ n, ∀ i ∈ q.script (.signal n), i ∈ (Thread.signal n).runs
  stop : StopAt q

theorem init_inv (setup : Setup) : Inv setup Threads.init where
  main := .unborn List.not_mem_nil rfl rfl rfl rfl
  workers _ _ := .unborn List.not_mem_nil List.not_mem_nil fun _ h => by rcases h with h | ⟨_, h, _⟩ <;> cases h
  signals _ _ hi := absurd hi List.not_mem_nil
  stop := .idle rfl rfl rfl fun _ _ hi => absurd hi List.not_mem_nil

/-- What a thread may be at, by what it is. -/
theorem Inv.runs {q : Threads} (h : Inv setup q) (hmain : k ≠ .main) (hk : q.script k = i :: is) : i ∈ k.runs ∨ i = .finish := by
  cases hstarted : k.started with
  | false =>
    cases k with
    | main => exact absurd rfl hmain
    | signal n => exact .inl (h.signals n i (hk ▸ List.mem_cons_self))
    | _ => cases hstarted
  | true =>
    have hat := h.workers k hstarted
    rw [hk] at hat
    generalize hscript : i :: is = script at hat
    cases hat with
    | unborn _ _ _ => cases hscript
    | finished _ _ _ _ => cases hscript
    | @working is₀ _ _ _ hruns _ =>
      cases is₀ with
      | nil => cases hscript; exact .inr rfl
      | cons j is₀ => cases hscript; exact .inl (hruns i List.mem_cons_self)

theorem MainAt.instr (h : MainAt setup s (i :: is)) : i ≠ .getline ∧ i ≠ .exchange ∧ (i = .setRunning → s.stops = []) := by
  generalize hscript : i :: is = script at h
  cases h with
  | unborn _ _ _ _ _ => cases hscript
  | ended _ _ _ _ _ => cases hscript
  | begins _ _ hs _ _ =>
    cases hscript
    exact ⟨by decide, by decide, fun _ => hs⟩
  | @setup is₀ _ _ hprep _ _ =>
    cases is₀ with
    | nil =>
      cases hscript
      exact ⟨by decide, by decide, fun h => by cases h⟩
    | cons j is₀ =>
      cases hscript
      have hi := hprep i List.mem_cons_self
      refine ⟨?_, ?_, ?_⟩ <;> rintro rfl <;> cases hi
  | joining _ _ _ _ _ =>
    cases hscript
    exact ⟨by simp, by simp, fun h => by cases h⟩
  | joined _ _ _ _ _ =>
    cases hscript
    exact ⟨by decide, by decide, fun h => by cases h⟩

theorem Inv.turn {q : Threads} (h : Inv setup q) (hk : q.script k = i :: is) (ha : Acts k q.state i c push s) :
    Inv setup (q.put k (push ++ is) s) := by
  have hruns : k ≠ .main → i ∈ k.runs ∨ i = .finish := fun hne => h.runs hne hk
  have hmain : k = .main → MainAt setup q.state (i :: is) := by
    rintro rfl
    exact hk ▸ h.main
  have hset : i = .setRunning → q.state.stops = [] := by
    intro hi
    by_cases hm : k = .main
    · exact (hmain hm).instr.2.2 hi
    · subst hi
      cases k <;> simp [Thread.runs] at hruns hm
  have hline : k ≠ .console → i ≠ .getline := by
    rintro hne rfl
    by_cases hm : k = .main
    · exact (hmain hm).instr.1 rfl
    · cases k <;> simp [Thread.runs] at hruns hm hne
  refine ⟨?_, fun k' hstarted => ?_, fun n => ?_, h.stop.turn hk hset ha⟩
  · by_cases hm : k = .main
    · subst hm
      rw [Crew.put_self]
      exact (hmain rfl).turn ha
    · rw [Crew.put_ne q (Ne.symm hm)]
      exact h.main.later hm (hruns hm) ha
  · by_cases hkk : k' = k
    · subst hkk
      rw [Crew.put_self]
      refine At.turn (fun ht => h.main.flagged ?_) (hk ▸ h.workers k' hstarted) ha
      exact List.ne_nil_of_mem ht
    · rw [Crew.put_ne q hkk]
      exact (h.workers k' hstarted).later (ha.later hkk fun hconsole => hline fun hk' => hkk (hconsole.trans hk'.symm))
  · by_cases hn : Thread.signal n = k
    · subst hn
      rw [Crew.put_self]
      have hi : ∀ j ∈ i :: is, j ∈ (Thread.signal n).runs := hk ▸ h.signals n
      intro j hj
      rcases List.mem_append.mp hj with hj | hj
      · exact signal_turn (hi i List.mem_cons_self) ha j hj
      · exact hi j (List.mem_cons_of_mem _ hj)
    · rw [Crew.put_ne q hn]
      exact h.signals n

/-- A thread runs for the first time, or a signal comes. -/
inductive Starts (setup : Setup) (k : Thread) (s : Shared) : List Instr → Shared → Prop
  | main : k = .main → .main ∉ s.begun → Starts setup k s setup.run { s with begun := .main :: s.begun }
  | signal {n : Signal} : k = .signal n → Starts setup k s [.exchange] s
  | thread : k.started = true → k ∈ s.threads → k ∉ s.begun →
      Starts setup k s (body k ++ [.finish]) { s with begun := k :: s.begun }

theorem start_cases {r : Unit} (h : start setup k r s = some (is, s')) : Starts setup k s is s' := by
  unfold start at h
  split at h
  · split at h
    · cases h
    · cases h
      exact .main rfl ‹_›
  · cases h
    exact .signal rfl
  · split at h
    · rename_i hmain hsignal hk
      cases h
      refine .thread ?_ hk.1 hk.2
      cases k with
      | main => exact absurd rfl hmain
      | signal n => exact absurd rfl (hsignal n)
      | _ => rfl
    · cases h

theorem Starts.past (h : Starts setup k s is s') : Past is := by
  cases h with
  | main _ _ =>
    intro i hi
    rcases List.mem_cons.mp hi with rfl | hi
    · rfl
    rcases List.mem_append.mp hi with hi | hi
    · have hprep := setup_prepares setup i hi
      cases i <;> first | rfl | cases hprep
    · rcases List.mem_pair.mp hi with rfl | rfl <;> rfl
  | signal _ => simp [Past, Instr.stops]
  | thread _ _ _ => cases k <;> simp [Past, body, Instr.stops]

theorem StopAt.start {q : Threads} (h : StopAt q) (hk : q.script k = []) (hp : Past is) (hs : Apart q.state s)
    (hr : s.running = q.state.running) : StopAt (q.put k is s) := by
  cases h with
  | idle hstops hnone hstopped hpast =>
    exact .idle (hs.stops.trans hstops) (hs.shutdowns.trans hnone) (hs.stopped.trans hstopped) (past_put hpast hp k)
  | by_thread k₀ hstops hrun hpast hpart =>
    refine .by_thread k₀ (hs.stops.trans hstops) (hr.trans hrun) (fun k' hk' => ?_) ?_
    · by_cases hkk : k' = k
      · subst hkk
        rw [Crew.put_self]
        exact hp
      · rw [Crew.put_ne q hkk]
        exact hpast k' hk'
    · by_cases hkk : k₀ = k
      · subst hkk
        rw [hk] at hpart
        rw [Crew.put_self]
        cases hpart with
        | done _ hone hstopped => exact .done hp (hs.shutdowns.trans hone) (hs.stopped.trans hstopped)
      · rw [Crew.put_ne q hkk]
        exact hpart.apart hs

/-- The other threads do not notice. -/
theorem later_begun {k' : Thread} (hne : k' ≠ k) : Later s { s with begun := k :: s.begun } k' :=
  ⟨by simp [hne], .rfl, List.prefix_refl _, id, id, fun _ => .rfl⟩

theorem MainAt.begun (hne : k ≠ .main) (h : MainAt setup s is) : MainAt setup { s with begun := k :: s.begun } is := by
  cases h with
  | unborn hb hr hs ht hret => exact .unborn (by simp [Ne.symm hne, hb]) hr hs ht hret
  | begins hb hr hs ht hret => exact .begins (List.mem_cons_of_mem _ hb) hr hs ht hret
  | setup hb hf hprep ht hret => exact .setup (List.mem_cons_of_mem _ hb) hf hprep ht hret
  | joining hb hf ht hfin hret => exact .joining (List.mem_cons_of_mem _ hb) hf ht hfin hret
  | joined hb hf ht hfin hret => exact .joined (List.mem_cons_of_mem _ hb) hf ht hfin hret
  | ended hb hf ht hfin hret => exact .ended (List.mem_cons_of_mem _ hb) hf ht hfin hret

theorem Inv.start {q : Threads} (h : Inv setup q) (hk : q.script k = []) (hst : Starts setup k q.state is s) :
    Inv setup (q.put k is s) := by
  have hpast := hst.past
  cases hst with
  | main hmain hb =>
    subst hmain
    refine ⟨?_, fun k' hstarted => ?_, fun n => ?_, h.stop.start hk hpast ⟨rfl, rfl, rfl, fun _ h => h⟩ rfl⟩
    · have hat := h.main
      rw [Crew.put_self]
      generalize q.script .main = script at hat hk
      cases hat with
      | unborn _ hr hs ht hret => exact .begins List.mem_cons_self hr hs ht hret
      | ended hb' _ _ _ _ => exact absurd hb' hb
      | setup _ _ _ _ _ => simp at hk
      | begins _ _ _ _ _ | joining _ _ _ _ _ | joined _ _ _ _ _ => cases hk
    · have hne := ne_main_of_started hstarted
      rw [Crew.put_ne q hne]
      exact (h.workers k' hstarted).later (later_begun hne)
    · rw [Crew.put_ne q (by simp)]
      exact h.signals n
  | @signal n hsignal =>
    subst hsignal
    refine ⟨?_, fun k' hstarted => ?_, fun m => ?_, h.stop.start hk hpast ⟨rfl, rfl, rfl, fun _ h => h⟩ rfl⟩
    · rw [Crew.put_ne q (by simp)]
      exact h.main
    · rw [Crew.put_ne q (ne_signal_of_started hstarted n)]
      exact h.workers k' hstarted
    · by_cases hmn : Thread.signal m = .signal n
      · rw [hmn, Crew.put_self]
        simp [Thread.runs]
      · rw [Crew.put_ne q hmn]
        exact h.signals m
  | thread hstarted ht hb =>
    have hmain := ne_main_of_started hstarted
    refine ⟨?_, fun k' hstarted' => ?_, fun n => ?_, h.stop.start hk hpast ⟨rfl, rfl, rfl, fun _ h => h⟩ rfl⟩
    · rw [Crew.put_ne q (Ne.symm hmain)]
      exact h.main.begun hmain
    · by_cases hkk : k' = k
      · subst hkk
        have hat := h.workers k' hstarted
        rw [Crew.put_self]
        generalize q.script k' = script at hat hk
        cases hat with
        | unborn _ hf hnew =>
          obtain ⟨hlive, hruns⟩ := body_live hnew
          exact .working List.mem_cons_self hf ht hruns (hlive.later ⟨by simp, .rfl, List.prefix_refl _, id, id, fun _ => .rfl⟩)
        | finished hb' _ _ _ => exact absurd hb' hb
        | working _ _ _ _ _ => simp at hk
      · rw [Crew.put_ne q hkk]
        exact (h.workers k' hstarted').later (later_begun hkk)
    · rw [Crew.put_ne q (ne_signal_of_started hstarted n).symm]
      exact h.signals n

theorem Inv.next {q : Threads} (h : Inv setup q) (e : Event) : Inv setup (Crew.next (rules setup) q e) := by
  obtain ⟨-, hsame⟩ | ⟨k, r, is, s, -, hk, hr, hnext⟩ | ⟨k, c, i, is, push, s, -, hk, hr, hnext⟩ :=
    Crew.next_cases (R := rules setup) q e
  · rw [hsame]
    exact h
  · rw [hnext]
    exact h.start hk (start_cases (r := r) hr)
  · rw [hnext]
    exact h.turn hk (act_cases hr)

theorem inv_run (setup : Setup) (es : List Event) : Inv setup (after setup es) := by
  induction es using List.reverseRecOn with
  | nil => exact init_inv setup
  | append_singleton es e ih =>
    rw [after, Crew.run_concat]
    exact ih.next e

/-! ## The end -/

/-- Nothing comes from outside: no line, no handler, no signal, and no call comes back. -/
def Own : Event → Prop
  | .start (.signal _) _ => False
  | .start _ _ => True
  | .turn _ c => c = .nothing

/-- No call is under way, and no thread can go on by itself. -/
structure Settled (setup : Setup) (q : Threads) : Prop where
  calls : ∀ k i is, q.script k = i :: is → i.calls = false
  rests : ∀ e, Own e → Crew.outcome (rules setup) q e = none

/-- What the instruction has still to do once the flag is cleared; `n` threads are joined. -/
def Instr.cost (n : Nat) : Instr → Nat
  | .join i => n - i + 1
  | _ => 1

/-- The turns that a thread has left at most, if it is given nothing more. -/
def left (setup : Setup) (q : Threads) (k : Thread) : Nat := ((q.script k).map (Instr.cost setup.threads.length)).sum

def turnOf (k : Thread) : Event → Bool
  | .start _ _ => false
  | .turn k' _ => k' = k

/-- The thread is started, or it is given something. -/
def given (k : Thread) : Event → Bool
  | .start k' _ => k' = k
  | .turn k' c => k' = k && c.brings

/-- How the server ends. -/
structure Shutdown (setup : Setup) (q : Threads) : Prop where
  /-- Plugins hear of it once. -/
  once : q.state.shutdowns ≤ 1
  /-- `run` returns after a whole `stop`, and the end of the console. -/
  whole : q.state.returned = true → q.state.shutdowns = 1 ∧ q.state.stopped = true ∧ Ended q.state
  /-- After a `stop`, whatever comes, a thread takes the turns it has left and no more than
      three for each line, handler or command it is given and for each start. -/
  bounded : q.state.stops ≠ [] → ∀ k es,
    Crew.effects (rules setup) (turnOf k) q es ≤ left setup q k + 3 * es.countP (given k)
  /-- Then `run` has returned, if the console has ended. -/
  complete : Settled setup q → (q.state.returned = true ↔ q.state.stops ≠ [] ∧ Ended q.state)

theorem MainAt.threads_le (h : MainAt setup s is) : s.threads.length ≤ setup.threads.length := by
  cases h with
  | unborn _ _ _ ht _ => rw [ht]; exact Nat.zero_le _
  | begins _ _ _ ht _ => rw [ht]; exact Nat.zero_le _
  | setup _ _ _ ht _ => rw [← ht, List.length_append]; exact Nat.le_add_right _ _
  | joining _ _ ht _ _ => rw [ht]
  | joined _ _ ht _ _ => rw [ht]
  | ended _ _ ht _ _ => rw [ht]

theorem StopAt.not_running {q : Threads} (h : StopAt q) (hs : q.state.stops ≠ []) : q.state.running = false := by
  cases h with
  | idle hnone _ _ _ => exact absurd hnone hs
  | by_thread _ _ hr _ _ => exact hr

/-- A turn costs what it was to cost, or it was given something. -/
theorem Acts.cost_le {n : Nat} (ha : Acts k s i c push s') (hr : s.running = false) (hn : s.threads.length ≤ n) :
    1 + (push.map (Instr.cost n)).sum ≤ i.cost n + if c.brings then 3 else 0 := by
  cases ha with
  | @join i t hget _ =>
    have hi : i < s.threads.length := (List.getElem?_eq_some_iff.mp hget).1
    show 1 + (n - (i + 1) + 1 + 0) ≤ n - i + 1 + 0
    omega
  | joined _ => exact Nat.le_add_left _ _
  | loop h => exact absurd (hr.symm.trans h) (by decide)
  | recheck h => exact absurd (hr.symm.trans h) (by decide)
  | stop h => exact absurd (hr.symm.trans h) (by decide)
  | handler hc => rw [if_pos hc]; exact Nat.le_of_ble_eq_true rfl
  | returns hq => cases i <;> first | exact Nat.le_refl _ | cases hq
  | leaves hq _ => cases i <;> first | exact Nat.le_refl _ | exact absurd hq (by simp)
  | _ => simp [Instr.cost, Input.brings]

/-- The instructions that wait, as far as the thread can tell. -/
theorem waits_of_none (h : act k i .nothing s = none) :
    i = .getline ∨ i.calls = true ∨ (i = .ioRun ∧ s.stopped = false) ∨
      ∃ n t, i = .join n ∧ s.threads[n]? = some t ∧ t ∉ s.finished := by
  cases i with
  | getline => exact .inl rfl
  | call | onShutdown | terminate => exact .inr (.inl rfl)
  | ioRun =>
    simp only [act] at h
    split at h
    · cases h
    · exact .inr (.inr (.inl ⟨rfl, Bool.eq_false_iff.mpr ‹_›⟩))
  | join n =>
    simp only [act] at h
    split at h
    · cases h
    · rename_i t hget
      split at h
      · cases h
      · exact .inr (.inr (.inr ⟨n, t, rfl, hget, ‹_›⟩))
  | exchange =>
    simp only [act] at h
    split at h <;> cases h
  | _ => cases h

theorem outcome_turn {q : Threads} (hk : q.script k = i :: is) :
    Crew.outcome (rules setup) q (.turn k c) = (act k i c q.state).map fun p => (k, p.1 ++ is, p.2) := by
  simp [Crew.outcome, hk, rules]

theorem outcome_start {q : Threads} (hk : q.script k = []) :
    Crew.outcome (rules setup) q (.start k ()) = (start setup k () q.state).map fun p => (k, p.1, p.2) := by
  simp [Crew.outcome, hk, rules]

namespace Settled

variable {q : Threads}

/-- A thread that is at something waits. -/
theorem waits (h : Settled setup q) (hk : q.script k = i :: is) : act k i .nothing q.state = none := by
  have hrest := h.rests (.turn k .nothing) rfl
  rw [outcome_turn hk] at hrest
  exact Option.map_eq_none_iff.mp hrest

/-- The `stop` has come to its end. -/
theorem stopped (h : Settled setup q) (hq : Inv setup q) (hs : q.state.stops ≠ []) : q.state.stopped = true := by
  cases hq.stop with
  | idle hnone _ _ _ => exact absurd hnone hs
  | by_thread k _ _ _ hpart =>
    generalize hscript : q.script k = script at hpart
    cases hpart with
    | done _ _ hstopped => exact hstopped
    | fire _ _ _ => exact absurd (h.waits hscript) (by simp [act])
    | onShutdown _ _ => exact absurd (h.calls k _ _ hscript) (by decide)
    | terminate _ _ => exact absurd (h.calls k _ _ hscript) (by decide)
    | stopIoc _ _ => exact absurd (h.waits hscript) (by simp [act])

/-- A thread that `run` has started has ended. -/
theorem finished (h : Settled setup q) (hq : Inv setup q) (hs : q.state.stops ≠ []) (hend : Ended q.state)
    (hstarted : k.started = true) (hk : k ∈ q.state.threads) : k ∈ q.state.finished := by
  have hat := hq.workers k hstarted
  generalize hscript : q.script k = script at hat
  cases hat with
  | finished _ hf _ _ => exact hf
  | unborn hb _ _ =>
    have hrest := h.rests (.start k ()) (by cases k <;> first | exact trivial | cases hstarted)
    rw [outcome_start hscript] at hrest
    have hstart : start setup k () q.state = some (body k ++ [.finish], { q.state with begun := k :: q.state.begun }) := by
      cases k <;> first | exact if_pos ⟨hk, hb⟩ | cases hstarted
    rw [hstart] at hrest
    cases hrest
  | @working is _ _ _ hruns hlive =>
    cases is with
    | nil => exact absurd (h.waits hscript) (by simp [act])
    | cons i is =>
      have hi := hruns i List.mem_cons_self
      rcases waits_of_none (h.waits hscript) with rfl | hcalls | ⟨rfl, hno⟩ | ⟨n, t, rfl, -, -⟩
      · cases k with
        | console =>
          rcases hlive with ⟨hnew, -⟩ | ⟨-, hget⟩
          · exact absurd hend hnew
          · exact absurd List.mem_cons_self hget
        | _ => simp [Thread.runs] at hi
      · exact absurd (h.calls k _ _ hscript) (by rw [hcalls]; decide)
      · rw [h.stopped hq hs] at hno
        cases hno
      · cases k <;> simp [Thread.runs] at hi

end Settled

theorem threads_started (c : Setup) : ∀ k ∈ c.threads, k.started = true := by
  intro k hk
  obtain ⟨i, hi, hcreates⟩ := List.mem_filterMap.mp hk
  simp only [Setup.setup, List.mem_append, List.mem_map, List.mem_ite_nil_right] at hi
  rcases hi with (((((hi | ⟨-, hi⟩) | ⟨-, hi⟩) | ⟨-, hi⟩) | hi) | ⟨_, hio, rfl⟩) | hi
  · rw [List.mem_singleton.mp hi] at hcreates; cases hcreates; rfl
  · rw [List.mem_singleton.mp hi] at hcreates; cases hcreates; rfl
  · rw [List.mem_singleton.mp hi] at hcreates; cases hcreates; rfl
  · rcases List.mem_pair.mp hi with rfl | rfl <;> cases hcreates
    rfl
  · rw [List.mem_singleton.mp hi] at hcreates; cases hcreates; rfl
  · cases hcreates
    obtain ⟨n, -, rfl⟩ := List.mem_map.mp hio
    rfl
  · rcases List.mem_pair.mp hi with rfl | rfl <;> cases hcreates

theorem console_mem (c : Setup) : .console ∈ c.threads :=
  List.mem_filterMap.mpr ⟨.create .console, by simp [Setup.setup], rfl⟩

theorem io_mem (c : Setup) : .io 0 ∈ c.threads :=
  List.mem_filterMap.mpr ⟨.create (.io 0), by simp [Setup.setup, Setup.ioThreads], rfl⟩

theorem MainAt.finished (h : MainAt setup s is) (hret : s.returned = true) : ∀ t ∈ setup.threads, t ∈ s.finished := by
  cases h with
  | ended _ _ _ hfin _ => exact hfin
  | unborn _ _ _ _ hno => exact absurd (hret.symm.trans hno) (by decide)
  | begins _ _ _ _ hno => exact absurd (hret.symm.trans hno) (by decide)
  | setup _ _ _ _ hno => exact absurd (hret.symm.trans hno) (by decide)
  | joining _ _ _ _ hno => exact absurd (hret.symm.trans hno) (by decide)
  | joined _ _ _ _ hno => exact absurd (hret.symm.trans hno) (by decide)

/-- A thread that has ended had a reason to. -/
theorem At.reason (h : At s k is) (hf : k ∈ s.finished) : Live s k [] := by
  cases h with
  | finished _ _ _ hlive => exact hlive
  | unborn _ hno _ => exact absurd hf hno
  | working _ hno _ _ _ => exact absurd hf hno

theorem StopAt.shutdowns_le {q : Threads} (h : StopAt q) : q.state.shutdowns ≤ 1 := by
  cases h with
  | idle _ hnone _ _ => omega
  | by_thread k _ _ _ hpart =>
    generalize q.script k = script at hpart
    cases hpart <;> omega

/-- Once `m_ioc` is stopped, the `stop` is over. -/
theorem StopAt.of_stopped {q : Threads} (h : StopAt q) (hs : q.state.stopped = true) :
    q.state.stops ≠ [] ∧ q.state.shutdowns = 1 := by
  cases h with
  | idle _ _ hno _ => exact absurd (hs.symm.trans hno) (by decide)
  | by_thread k hstops _ _ hpart =>
    refine ⟨by simp [hstops], ?_⟩
    generalize q.script k = script at hpart
    cases hpart with
    | fire _ _ hno => exact absurd (hs.symm.trans hno) (by decide)
    | onShutdown _ hone | terminate _ hone | stopIoc _ hone | done _ hone _ => exact hone

theorem whole_stop {q : Threads} (h : Inv setup q) (hret : q.state.returned = true) :
    q.state.shutdowns = 1 ∧ q.state.stopped = true ∧ Ended q.state := by
  have hfin := h.main.finished hret
  have hio := (h.workers (.io 0) rfl).reason (hfin _ (io_mem setup))
  have hconsole := (h.workers .console rfl).reason (hfin _ (console_mem setup))
  have hstopped : q.state.stopped = true := hio.resolve_left List.not_mem_nil
  refine ⟨(h.stop.of_stopped hstopped).2, hstopped, ?_⟩
  rcases hconsole with ⟨-, hnil | hnil⟩ | ⟨hend, -⟩
  · cases hnil
  · cases hnil
  · exact hend

theorem stops_next {q : Threads} (hs : q.state.stops ≠ []) (e : Event) :
    (Crew.next (rules setup) q e).state.stops ≠ [] := by
  obtain ⟨-, hsame⟩ | ⟨k, r, is, s, -, -, hr, hnext⟩ | ⟨k, c, i, is, push, s, -, -, hr, hnext⟩ :=
    Crew.next_cases (R := rules setup) q e
  · rw [hsame]
    exact hs
  · rw [hnext, Crew.put_state]
    cases start_cases (r := r) hr <;> exact hs
  · rw [hnext, Crew.put_state]
    cases act_cases hr with
    | stop _ => exact List.cons_ne_nil _ _
    | _ => exact hs

/-- What a thread starts with, once the flag has been set and cleared. -/
theorem Starts.cost_le {q : Threads} (h : Inv setup q) (hs : q.state.stops ≠ []) (hst : Starts setup k q.state is s) (n : Nat) :
    (is.map (Instr.cost n)).sum ≤ 3 := by
  cases hst with
  | main _ hb =>
    have hmain := h.main
    generalize q.script .main = script at hmain
    cases hmain with
    | unborn _ _ hnone _ _ => exact absurd hnone hs
    | _ hb' => exact absurd hb' hb
  | signal _ => exact Nat.le_of_ble_eq_true rfl
  | thread _ _ _ => cases k <;> simp [body, Instr.cost]

/-- A turn of the thread takes one from what it has left, and a start or something that is
    given to it adds three at most. -/
theorem budget {q : Threads} (h : Inv setup q) (hs : q.state.stops ≠ []) (k : Thread) (e : Event) :
    (if turnOf k e ∧ Crew.outcome (rules setup) q e ≠ none then 1 else 0) + left setup (Crew.next (rules setup) q e) k ≤
      left setup q k + if given k e then 3 else 0 := by
  have hother {k' : Thread} (hne : k' ≠ k) (is : List Instr) (s : Shared) : left setup (q.put k' is s) k = left setup q k := by
    rw [left, left, Crew.put_ne q hne.symm]
  obtain ⟨hnone, hsame⟩ | ⟨k', r, is, s, rfl, hk, hr, hnext⟩ | ⟨k', c, i, is, push, s, rfl, hk, hr, hnext⟩ :=
    Crew.next_cases (R := rules setup) q e
  · rw [hsame, if_neg fun hacts => hacts.2 hnone, Nat.zero_add]
    exact Nat.le_add_right _ _
  · rw [hnext]
    by_cases hkk : k' = k
    · subst hkk
      have hcost := (start_cases (r := r) hr).cost_le h hs setup.threads.length
      rw [left, Crew.put_self]
      simpa [turnOf, given] using Nat.le_add_left_of_le hcost
    · simp [hother hkk, turnOf]
  · rw [hnext]
    by_cases hkk : k' = k
    · subst hkk
      have hcost := (act_cases hr).cost_le (h.stop.not_running hs) h.main.threads_le
      have hacts : (if turnOf k' (.turn k' c) = true ∧ Crew.outcome (rules setup) q (.turn k' c) ≠ none then 1 else 0) ≤ 1 := by
        split <;> decide
      have hgiven : given k' (.turn k' c) = c.brings := by simp [given]
      rw [left, left, Crew.put_self, hk, hgiven, List.map_append, List.sum_append, List.map_cons, List.sum_cons]
      omega
    · simp [hother hkk, turnOf, hkk]

theorem complete_stop {q : Threads} (h : Inv setup q) (hset : Settled setup q) :
    q.state.returned = true ↔ q.state.stops ≠ [] ∧ Ended q.state := by
  constructor
  · intro hret
    obtain ⟨-, hstopped, hend⟩ := whole_stop h hret
    exact ⟨(h.stop.of_stopped hstopped).1, hend⟩
  · rintro ⟨hs, hend⟩
    have hmain := h.main
    generalize hscript : q.script .main = script at hmain
    -- the main thread can only be waiting for a thread, and all have ended
    have hjoins (n : Nat) (t : Thread) (hget : q.state.threads[n]? = some t) (hno : t ∉ q.state.finished)
        (hthreads : q.state.threads = setup.threads) : False := by
      have hmem := List.mem_of_getElem? hget
      exact hno (hset.finished h hs hend (threads_started setup t (hthreads ▸ hmem)) hmem)
    cases hmain with
    | ended _ _ _ _ hret => exact hret
    | unborn _ _ hnone _ _ => exact absurd hnone hs
    | begins _ _ hnone _ _ => exact absurd hnone hs
    | @setup is _ _ hprep hthreads _ =>
      cases is with
      | nil =>
        rcases waits_of_none (hset.waits hscript) with h | h | ⟨h, -⟩ | ⟨n, t, -, hget, hno⟩
        · cases h
        · cases h
        · cases h
        · exact (hjoins n t hget hno (by simpa using hthreads)).elim
      | cons i is =>
        have hi := hprep i List.mem_cons_self
        rcases waits_of_none (hset.waits hscript) with rfl | hcalls | ⟨rfl, -⟩ | ⟨n, t, rfl, -, -⟩
        · cases hi
        · exact absurd (hset.calls _ _ _ hscript) (by rw [hcalls]; decide)
        · cases hi
        · cases hi
    | joining _ _ hthreads _ _ =>
      rcases waits_of_none (hset.waits hscript) with h | h | ⟨h, -⟩ | ⟨n, t, -, hget, hno⟩
      · cases h
      · cases h
      · cases h
      · exact (hjoins n t hget hno hthreads).elim
    | joined _ _ _ _ _ => exact absurd (hset.waits hscript) (by simp [act])

/-- For every configuration and every order in which the threads take turns, lines come
    in, calls come back and signals arrive: plugins hear of the shutdown at most once. `run`
    returns only after a whole `stop` and the end of the console. After a `stop` a thread
    takes no more turns than it has left and is given. Once nothing can go on and every call
    has come back, `run` has returned exactly if the console's input has ended or said
    `stop`; over RCON or by a signal alone the server does not end. -/
theorem shutdown (setup : Setup) (es : List Event) : Shutdown setup (after setup es) where
  once := (inv_run setup es).stop.shutdowns_le
  whole := whole_stop (inv_run setup es)
  bounded hs k es' := by
    have hkeep : ∀ q e, Inv setup q ∧ q.state.stops ≠ [] → Inv setup (Crew.next (rules setup) q e) ∧
        (Crew.next (rules setup) q e).state.stops ≠ [] := fun _ e hq => ⟨hq.1.next e, stops_next hq.2 e⟩
    exact Crew.effects_le (f := (left setup · k)) hkeep (fun _ e hq => budget hq.1 hq.2 k e) ⟨inv_run setup es, hs⟩ es'
  complete := complete_stop (inv_run setup es)

/-- A server without AI and master gets a signal; whatever can go on does so. -/
def signalled : List Event :=
  .start .main () :: List.replicate 6 (.turn .main .nothing) ++ [.turn .main .returns, .start .vehicleSync (),
      .start .console (), .start (.io 0) (), .start (.io 1) (), .start (.signal .terminate) ()] ++
    [.nothing, .nothing, .returns, .returns, .nothing].map (.turn (.signal .terminate)) ++
    [.turn .vehicleSync .nothing, .turn .vehicleSync .nothing, .turn (.io 0) .nothing, .turn (.io 0) .nothing,
      .turn (.io 1) .nothing, .turn (.io 1) .nothing, .turn .main .nothing, .turn .main .nothing]

/-- The end of the console's input does the rest. -/
example : (after ⟨false, false, 0⟩ signalled).state.returned = false ∧
    (after ⟨false, false, 0⟩ (signalled ++ [.turn .console .eof, .turn .console .nothing] ++
      List.replicate 6 (.turn .main .nothing))).state.returned = true := by decide +kernel

end NovaMP.Lifecycle
