/-
  NovaMP.Server.HeadlessLauncher — the BeamNG process the server starts
  (`servers/src/headless_launcher.cpp`, POSIX build).

  `launch` looks for the executable, forks and keeps the child's id; `terminate` sends
  SIGTERM to the id and waits for the child; `isRunning` polls it. A poll that finds the
  child exited reaps it, and the id stays in `m_pid`: the next `terminate` signals
  whoever has got the id since. A second `launch` overwrites the id of a child that still
  runs, and nothing waits for that child then. The server itself launches once and
  never polls.

  A `Run` interleaves the calls with what happens to the processes besides, also between
  the two system calls of `terminate`. `waitpid` starts again after a signal, as
  `std::signal` sets the handlers, and SIGTERM counts as sent whether or not it is
  permitted.

  - `detectBeamNGPath_found`: what is launched exists.
  - `run_inv`: what the history says of the processes (`Inv`).
  - `own_only_iff`: `terminate` only signals own children and leaves none behind
    (`OwnOnly`) exactly if it is not called after a poll has taken the child and another
    process its id, and no child has been forgotten (`Careful`).
  - `once_own_only`: so it is in a run that launches once and never polls.
  - `reused_id_signalled`: the run in which a stranger is signalled.
-/

import NovaMP.Lib.Processes
import NovaMP.Server.Rates

namespace NovaMP

open Lib

/-- `m_pid` and `m_exe_path`. -/
structure HeadlessLauncher where
  pid : Int := -1
  exePath : String := ""

namespace HeadlessLauncher

/-! ## Looking for the executable -/

/-- `fs::exists` (`none` throws) and the environment's `HOME`. -/
structure Machine where
  found : String → Option Bool
  home : Option String

def candidates : List String :=
  ["/home/user/.steam/steam/steamapps/common/BeamNG.drive/BeamNG.drive.x86_64",
    "/opt/steam/steamapps/common/BeamNG.drive/BeamNG.drive.x86_64"]

def homePath (home : String) : String := home ++ "/.steam/steam/steamapps/common/BeamNG.drive/BeamNG.drive.x86_64"

def firstFound (m : Machine) : List String → Option String
  | [] => some ""
  | p :: ps => (m.found p).bind fun b => if b then some p else firstFound m ps

def detectLinux (m : Machine) : Option String := firstFound m (candidates ++ m.home.toList.map homePath)

variable (cfg : Config.ServerConfig)

/-- The path, or `""`; `none` if it throws. -/
def detectBeamNGPath (m : Machine) : Option String :=
  if cfg.beamngExePath = "" then detectLinux m
  else (m.found cfg.beamngExePath).bind fun b => if b then some cfg.beamngExePath else detectLinux m

theorem firstFound_found {m : Machine} {ps : List String} {path : String} (h : firstFound m ps = some path)
    (hne : path ≠ "") : m.found path = some true := by
  induction ps with
  | nil => exact absurd (Option.some.inj h).symm hne
  | cons p ps ih =>
    obtain ⟨b, hb, hrest⟩ := Option.bind_eq_some_iff.mp h
    cases b with
    | true =>
      cases hrest
      exact hb
    | false => exact ih hrest

/-- What is launched exists. -/
theorem detectBeamNGPath_found {m : Machine} {path : String} (h : detectBeamNGPath cfg m = some path) (hne : path ≠ "") :
    m.found path = some true := by
  unfold detectBeamNGPath at h
  split at h
  · exact firstFound_found h hne
  · obtain ⟨b, hb, hrest⟩ := Option.bind_eq_some_iff.mp h
    cases b with
    | true =>
      cases hrest
      exact hb
    | false => exact firstFound_found hrest hne

/-! ## The calls -/

variable (l : HeadlessLauncher) (ps : Processes)

/-- The result with the lines of `progress`, `none` if it throws. `forked` is what `fork`
    returns to the parent. -/
def launch (m : Machine) (forked : Option Pid) : Option (Bool × List String) × HeadlessLauncher × Processes :=
  match detectBeamNGPath cfg m with
  | none => (none, l, ps)
  | some path =>
    let l := { l with exePath := path }
    if path = "" then (some (false, ["BeamNG.drive not found — cannot launch headless instance."]), l, ps)
    else
      let found := "Found BeamNG.drive at: " ++ path
      match forked with
      | none => (some (false, [found, "fork() failed — cannot launch headless BeamNG."]), l, ps)
      | some id =>
        (some (true, [found, "Headless BeamNG launched (PID=" ++ toString id.val ++ ")."]),
          { l with pid := id }, ps.start id .own)

def isRunning : Bool × Processes :=
  if l.pid ≤ 0 then (false, ps)
  else
    let polled := ps.poll l.pid
    (polled.1 == 0, polled.2)

/-- The launcher, what `terminate` has still to do, and the processes SIGTERM was sent to. -/
structure World where
  launcher : HeadlessLauncher
  procs : Processes
  waiting : Bool
  signalled : List Process

/-- Up to `waitpid`. -/
def World.terminate (s : World) : World :=
  if 0 < s.launcher.pid then
    { s with signalled := (s.procs.find s.launcher.pid).toList ++ s.signalled, waiting := true }
  else s

/-- From `waitpid` on, once it returns. -/
def World.waited (s : World) (procs : Processes) : World :=
  { s with launcher := { s.launcher with pid := -1 }, procs := procs, waiting := false }

/-! ## Runs -/

inductive Event where
  | launch (m : Machine) (forked : Option Pid)
  | isRunning
  | terminate
  | waited
  | outside

/-- The calls come one after another, and the id `fork` returns is free. -/
inductive Step : World → Event → World → Prop
  | launch (s : World) (m : Machine) (forked : Option Pid) : s.waiting = false →
      (∀ id ∈ forked, s.procs.find id = none) →
      Step s (.launch m forked) { s with
        launcher := (launch cfg s.launcher s.procs m forked).2.1
        procs := (launch cfg s.launcher s.procs m forked).2.2 }
  | isRunning (s : World) : s.waiting = false →
      Step s .isRunning { s with procs := (isRunning s.launcher s.procs).2 }
  | terminate (s : World) : s.waiting = false → Step s .terminate s.terminate
  | waited (s : World) (procs : Processes) : s.waiting = true → s.procs.wait s.launcher.pid = some procs →
      Step s .waited (s.waited procs)
  | outside (s : World) (procs : Processes) : Processes.Change s.procs procs → Step s .outside { s with procs := procs }

structure Moment where
  before : World
  event : Event
  after : World

/-- The first launcher has started nothing. The history is newest first. -/
inductive Run : List Moment → World → Prop
  | init (ps : Processes) : (∀ id, ps.own id = false) → Run [] ⟨{}, ps, false, []⟩
  | step {h : List Moment} {s s' : World} {e : Event} : Run h s → Step cfg s e s' → Run (⟨s, e, s'⟩ :: h) s'

/-- `terminate` returns. -/
def Moment.ends (m : Moment) : Bool :=
  match m.event with
  | .waited => true
  | .terminate => m.before.launcher.pid ≤ 0
  | _ => false

/-- Only own processes that have not been waited for are signalled, and none is left when
    `terminate` returns. -/
structure OwnOnly (h : List Moment) (s : World) : Prop where
  signalled : ∀ p ∈ s.signalled, p.origin = .own
  noneLeft : ∀ m ∈ h, m.ends = true → ∀ id, m.after.procs.own id = false

/-! ## What the history says -/

/-- The child a `launch` starts. -/
def Event.started : Event → Option Pid
  | .launch m forked => (detectBeamNGPath cfg m).bind fun path => if path = "" then none else forked
  | _ => none

/-- Since the last child was started, `isRunning` has been called after its exit. -/
def polledAway : List Moment → Bool
  | [] => false
  | m :: h =>
    match m.event with
    | .launch _ _ => (m.event.started cfg).isNone && polledAway h
    | .isRunning => polledAway h || m.before.procs.exited m.before.launcher.pid
    | .waited => false
    | _ => polledAway h

/-- A child has been started while the one before had been taken neither by `terminate`
    nor by a poll. -/
def forgotten : List Moment → Bool
  | [] => false
  | m :: h =>
    forgotten h || ((m.event.started cfg).isSome && decide (0 < m.before.launcher.pid) && !polledAway cfg h)

/-- At each moment of the history, with what came before. -/
def Along (P : Moment → List Moment → Prop) : List Moment → Prop
  | [] => True
  | m :: h => P m h ∧ Along P h

/-- `terminate` is not called with the id of a child a poll has taken, unless the id is
    free, and does not return when a child has been forgotten. -/
def Careful (h : List Moment) : Prop :=
  Along (fun m earlier =>
    (m.event = .terminate → polledAway cfg earlier = true → m.before.procs.find m.before.launcher.pid = none) ∧
    (m.ends = true → forgotten cfg earlier = false)) h

/-! ## What a call does -/

variable {cfg} {m : Machine} {forked : Option Pid} {h : List Moment} {s s' : World} {e : Event} {id : Int}

theorem launch_failed (hs : (Event.launch m forked).started cfg = none) :
    (launch cfg l ps m forked).2.1.pid = l.pid ∧ (launch cfg l ps m forked).2.2 = ps := by
  unfold launch
  cases hpath : detectBeamNGPath cfg m with
  | none => exact ⟨rfl, rfl⟩
  | some path =>
    rw [Event.started, hpath, Option.bind_some] at hs
    dsimp only
    by_cases hempty : path = ""
    · rw [if_pos hempty]
      exact ⟨rfl, rfl⟩
    · rw [if_neg hempty] at hs ⊢
      rw [hs]
      exact ⟨rfl, rfl⟩

theorem launch_forked {child : Pid} (hs : (Event.launch m forked).started cfg = some child) :
    forked = some child ∧ (launch cfg l ps m forked).2.1.pid = child ∧
      (launch cfg l ps m forked).2.2 = ps.start child .own := by
  obtain ⟨path, hpath, hforked⟩ := Option.bind_eq_some_iff.mp hs
  by_cases hempty : path = ""
  · rw [if_pos hempty] at hforked
    cases hforked
  · rw [if_neg hempty] at hforked
    unfold launch
    rw [hpath, hforked]
    dsimp only
    rw [if_neg hempty]
    exact ⟨rfl, rfl, rfl⟩

variable {l ps}

theorem forgotten_unstarted (hs : e.started cfg = none) : forgotten cfg (⟨s, e, s'⟩ :: h) = forgotten cfg h := by
  simp [forgotten, hs]

/-- `isRunning` takes the child if it has exited. -/
theorem own_isRunning_iff :
    (isRunning l ps).2.own id = true ↔ ps.own id = true ∧ (id = l.pid → ps.exited l.pid = false) := by
  unfold isRunning
  split
  · rename_i hpid
    refine (and_iff_left_of_imp fun _ _ => ?_).symm
    exact Processes.exited_nonpos hpid
  · exact Processes.own_poll_iff

/-! ## The invariant -/

/-- The id is an own process's unless a poll has taken it, and the other own processes are
    forgotten ones. -/
structure Inv (cfg : Config.ServerConfig) (h : List Moment) (s : World) : Prop where
  slot : s.procs.own s.launcher.pid = true ↔ 0 < s.launcher.pid ∧ polledAway cfg h = false
  others : forgotten cfg h = true ↔ ∃ id, id ≠ s.launcher.pid ∧ s.procs.own id = true
  waiting : s.waiting = true → 0 < s.launcher.pid

theorem run_start (hnone : ∀ id, ps.own id = false) : Inv cfg [] ⟨{}, ps, false, []⟩ :=
  ⟨by simp [polledAway, hnone], by simp [forgotten, hnone], nofun⟩

theorem Inv.any_own_iff (hi : Inv cfg h s) : (∃ id, s.procs.own id = true) ↔
    forgotten cfg h = true ∨ 0 < s.launcher.pid ∧ polledAway cfg h = false := by
  rw [hi.others, ← hi.slot]
  constructor
  · rintro ⟨id, hid⟩
    by_cases heq : id = s.launcher.pid
    · exact .inr (heq ▸ hid)
    · exact .inl ⟨id, heq, hid⟩
  · rintro (⟨id, -, hid⟩ | hid)
    · exact ⟨id, hid⟩
    · exact ⟨_, hid⟩

theorem Inv.launch (hi : Inv cfg h s) (hfree : s.waiting = false) (hfresh : ∀ id ∈ forked, s.procs.find id = none) :
    Inv cfg (⟨s, .launch m forked, s'⟩ :: h) { s with
      launcher := (launch cfg s.launcher s.procs m forked).2.1
      procs := (launch cfg s.launcher s.procs m forked).2.2 } := by
  cases hs : (Event.launch m forked).started cfg with
  | none =>
    obtain ⟨hpid, hprocs⟩ := launch_failed s.launcher s.procs hs
    refine ⟨?_, ?_, ?_⟩
    · simpa [polledAway, hs, hpid, hprocs] using hi.slot
    · simpa [forgotten, hs, hpid, hprocs] using hi.others
    · simp [hfree]
  | some child =>
    obtain ⟨hforked, hpid, hprocs⟩ := launch_forked s.launcher s.procs hs
    have hnew : s.procs.own child = false := Processes.own_of_find_none (hfresh child hforked)
    refine ⟨?_, ?_, ?_⟩
    · simp [polledAway, hs, hpid, hprocs, Processes.own_start_iff, child.2]
    · -- all own processes there were are forgotten now
      have hothers : (∃ id, id ≠ child.val ∧ (s.procs.start child .own).own id = true) ↔ ∃ id, s.procs.own id = true := by
        refine exists_congr fun id => ?_
        rw [Processes.own_start_iff]
        constructor
        · rintro ⟨hne, heq | ho⟩
          · exact absurd heq hne
          · exact ho
        · intro ho
          refine ⟨?_, .inr ho⟩
          rintro rfl
          rw [hnew] at ho
          cases ho
      dsimp only
      rw [hpid, hprocs, hothers, hi.any_own_iff]
      simp [forgotten, hs]
    · simp [hfree]

theorem Inv.isRunning (hi : Inv cfg h s) : Inv cfg (⟨s, .isRunning, s'⟩ :: h)
    { s with procs := (isRunning s.launcher s.procs).2 } := by
  refine ⟨?_, ?_, hi.waiting⟩
  · simp [polledAway, own_isRunning_iff, hi.slot, and_assoc]
  · rw [forgotten_unstarted rfl, hi.others]
    refine exists_congr fun id => and_congr_right fun hne => ?_
    rw [own_isRunning_iff]
    exact (and_iff_left fun heq => absurd heq hne).symm

theorem Inv.terminate (hi : Inv cfg h s) : Inv cfg (⟨s, .terminate, s'⟩ :: h) s.terminate := by
  have hpolled : polledAway cfg (⟨s, .terminate, s'⟩ :: h) = polledAway cfg h := rfl
  have hothers : forgotten cfg (⟨s, .terminate, s'⟩ :: h) = true ↔ ∃ id, id ≠ s.launcher.pid ∧ s.procs.own id = true := by
    rw [forgotten_unstarted rfl]
    exact hi.others
  unfold World.terminate
  split
  · rename_i hpid
    exact ⟨hpolled ▸ hi.slot, hothers, fun _ => hpid⟩
  · exact ⟨hpolled ▸ hi.slot, hothers, hi.waiting⟩

/-- When `terminate` returns, own processes are left if some are forgotten. -/
theorem own_waited_iff (hi : Inv cfg h s) (hwait : s.procs.wait s.launcher.pid = some ps) :
    (∃ id, ps.own id = true) ↔ forgotten cfg h = true := by
  rw [hi.others]
  refine exists_congr fun id => ?_
  rw [Processes.own_wait_iff hwait, and_comm]

theorem Inv.waited (hi : Inv cfg h s) (hwait : s.procs.wait s.launcher.pid = some ps) :
    Inv cfg (⟨s, .waited, s'⟩ :: h) (s.waited ps) := by
  have hnone : ps.own (-1) = false := Processes.own_nonpos (by decide)
  refine ⟨?_, ?_, nofun⟩
  · exact iff_of_false (by simp [World.waited, hnone]) (by simp [World.waited])
  · rw [forgotten_unstarted rfl, ← own_waited_iff hi hwait]
    refine exists_congr fun id => (and_iff_right_of_imp ?_).symm
    rintro ho rfl
    exact absurd ho (by simp [World.waited, hnone])

theorem Inv.outside (hi : Inv cfg h s) (hc : Processes.Change s.procs ps) :
    Inv cfg (⟨s, .outside, s'⟩ :: h) { s with procs := ps } := by
  refine ⟨?_, ?_, hi.waiting⟩
  · rw [Processes.own_change_iff hc]
    exact hi.slot
  · rw [forgotten_unstarted rfl, hi.others]
    exact exists_congr fun id => and_congr_right fun _ => (Processes.own_change_iff hc).symm

theorem step_inv (hs : Step cfg s e s') (hi : Inv cfg h s) : Inv cfg (⟨s, e, s'⟩ :: h) s' := by
  cases hs with
  | launch m forked hfree hfresh => exact hi.launch hfree hfresh
  | isRunning _ => exact hi.isRunning
  | terminate _ => exact hi.terminate
  | waited procs _ hwait => exact hi.waited hwait
  | outside procs hc => exact hi.outside hc

theorem run_inv (hr : Run cfg h s) : Inv cfg h s := by
  induction hr with
  | init ps hnone => exact run_start hnone
  | step _ hs ih => exact step_inv hs ih

/-! ## What `terminate` signals and leaves -/

theorem terminate_signalled (hi : Inv cfg h s) : (∀ p ∈ s.terminate.signalled, p.origin = .own) ↔
    (∀ p ∈ s.signalled, p.origin = .own) ∧ (polledAway cfg h = true → s.procs.find s.launcher.pid = none) := by
  unfold World.terminate
  by_cases hpid : 0 < s.launcher.pid
  · rw [if_pos hpid]
    dsimp only
    rw [List.forall_mem_append, and_comm]
    refine and_congr_right fun _ => ?_
    cases hf : s.procs.find s.launcher.pid with
    | none => simp
    | some p =>
      have hown : s.procs.own s.launcher.pid = true ↔ p.origin = .own := by simp [Processes.own, hf]
      rw [Option.toList_some, List.forall_mem_singleton, ← hown, hi.slot, and_iff_right hpid]
      simp
  · rw [if_neg hpid, Processes.find_nonpos (by omega)]
    simp

theorem step_signalled (hs : Step cfg s e s') (hi : Inv cfg h s) : (∀ p ∈ s'.signalled, p.origin = .own) ↔
    (∀ p ∈ s.signalled, p.origin = .own) ∧
      (e = .terminate → polledAway cfg h = true → s.procs.find s.launcher.pid = none) := by
  cases hs with
  | terminate _ => simpa using terminate_signalled hi
  | launch _ _ _ _ | isRunning _ | waited _ _ _ | outside _ _ => exact (and_iff_left nofun).symm

theorem step_noneLeft (hs : Step cfg s e s') (hi : Inv cfg h s) (hend : Moment.ends ⟨s, e, s'⟩ = true) :
    (∀ id, s'.procs.own id = false) ↔ forgotten cfg h = false := by
  have hany : ∀ qs : Processes, (∀ id, qs.own id = false) ↔ ¬ ∃ id, qs.own id = true := fun qs => by simp
  rw [hany, ← Bool.not_eq_true]
  refine not_congr ?_
  cases hs with
  | waited procs _ hwait => exact own_waited_iff hi hwait
  | terminate _ =>
    have hpid : s.launcher.pid ≤ 0 := of_decide_eq_true hend
    have hsame : s.terminate = s := if_neg (by omega)
    rw [hsame, hi.any_own_iff, or_iff_left]
    exact fun hpos => absurd hpos.1 (by omega)
  | launch _ _ _ _ | isRunning _ | outside _ _ => cases hend

theorem start_ownOnly : OwnOnly [] ⟨{}, ps, false, []⟩ where
  signalled _ hp := absurd hp List.not_mem_nil
  noneLeft _ hm := absurd hm List.not_mem_nil

theorem step_ownOnly (hs : Step cfg s e s') (hi : Inv cfg h s) : OwnOnly (⟨s, e, s'⟩ :: h) s' ↔
    OwnOnly h s ∧ (e = .terminate → polledAway cfg h = true → s.procs.find s.launcher.pid = none) ∧
      (Moment.ends ⟨s, e, s'⟩ = true → forgotten cfg h = false) := by
  have hleft := forall_congr' fun hend => step_noneLeft hs hi hend
  constructor
  · intro hown
    obtain ⟨hbefore, hterminate⟩ := (step_signalled hs hi).mp hown.signalled
    refine ⟨⟨hbefore, ?_⟩, hterminate, hleft.mp (hown.noneLeft _ List.mem_cons_self)⟩
    exact fun m hm => hown.noneLeft m (List.mem_cons_of_mem _ hm)
  · rintro ⟨hown, hterminate, hend⟩
    exact ⟨(step_signalled hs hi).mpr ⟨hown.signalled, hterminate⟩,
      List.forall_mem_cons.mpr ⟨hleft.mpr hend, hown.noneLeft⟩⟩

/-! ## A server that launches once -/

theorem polledAway_of_unpolled (hpoll : ∀ m ∈ h, m.event ≠ .isRunning) : polledAway cfg h = false := by
  induction h with
  | nil => rfl
  | cons m h ih =>
    obtain ⟨hm, hrest⟩ := List.forall_mem_cons.mp hpoll
    have hbefore := ih hrest
    obtain ⟨before, e, after⟩ := m
    cases e with
    | isRunning => exact absurd rfl hm
    | launch _ _ | terminate | waited | outside => simp [polledAway, hbefore]

variable (cfg) in
/-- The children started. -/
def launches (h : List Moment) : Nat := h.countP fun m => (m.event.started cfg).isSome

theorem launches_cons {m : Moment} :
    launches cfg (m :: h) = launches cfg h + if (m.event.started cfg).isSome then 1 else 0 := List.countP_cons

theorem launched_of_pos (hr : Run cfg h s) (hpid : 0 < s.launcher.pid) : 0 < launches cfg h := by
  induction hr with
  | init ps _ => cases hpid
  | step hr hs ih =>
    rw [launches_cons]
    cases hs with
    | launch m forked _ _ =>
      cases hstarted : (Event.launch m forked).started cfg with
      | none =>
        rw [(launch_failed _ _ hstarted).1] at hpid
        exact Nat.lt_of_lt_of_le (ih hpid) (Nat.le_add_right _ _)
      | some child => simp
    | isRunning _ => exact ih hpid
    | terminate _ =>
      refine ih ?_
      unfold World.terminate at hpid
      split at hpid
      · exact hpid
      · exact hpid
    | waited procs _ _ => exact absurd hpid (by simp [World.waited])
    | outside procs _ => exact ih hpid

theorem launches_of_forgotten (hr : Run cfg h s) (hf : forgotten cfg h = true) : 2 ≤ launches cfg h := by
  induction hr with
  | init ps _ => cases hf
  | step hr hs ih =>
    rw [launches_cons]
    rcases Bool.or_eq_true_iff.mp hf with hf | hf
    · exact Nat.le_add_right_of_le (ih hf)
    · simp only [Bool.and_eq_true, decide_eq_true_eq] at hf
      have hpos := launched_of_pos hr hf.1.2
      rw [if_pos hf.1.1]
      omega

/-- The server starts one child at most and never polls. -/
theorem once_own_only (hr : Run cfg h s) (hpoll : ∀ m ∈ h, m.event ≠ .isRunning) (honce : launches cfg h ≤ 1) :
    OwnOnly h s := by
  induction hr with
  | init ps _ => exact start_ownOnly
  | step hr hs ih =>
    obtain ⟨-, hpoll⟩ := List.forall_mem_cons.mp hpoll
    rw [launches_cons] at honce
    have hbefore := Nat.le_of_add_right_le honce
    refine (step_ownOnly hs (run_inv hr)).mpr ⟨ih hpoll hbefore, ?_, ?_⟩
    · intro _ hpolled
      rw [polledAway_of_unpolled hpoll] at hpolled
      cases hpolled
    · intro _
      by_contra hf
      have htwo := launches_of_forgotten hr (Bool.not_eq_false _ ▸ hf)
      omega

/-! ## Careful calls -/

/-- Signals and waits hit own children only exactly if the calls are careful. -/
theorem own_only_iff (hr : Run cfg h s) : OwnOnly h s ↔ Careful cfg h := by
  induction hr with
  | init ps _ => exact iff_of_true start_ownOnly trivial
  | step hr hs ih =>
    rw [step_ownOnly hs (run_inv hr), ih, and_comm]
    rfl

/-! ## Two runs -/

def there : Machine := ⟨fun _ => some true, none⟩

def hundred : Pid := ⟨100, by decide⟩

/-- The child runs alone. -/
def alone : Processes := Processes.start ⟨∅, nofun⟩ hundred .own

def idle : World := ⟨{}, ⟨∅, nofun⟩, false, []⟩

def launched (path : String) : World := ⟨⟨hundred, path⟩, alone, false, []⟩

/-- Whatever the configuration, the first launch starts a child. -/
theorem run_launched (cfg : Config.ServerConfig) :
    ∃ path, Run cfg [⟨idle, .launch there (some hundred), launched path⟩] (launched path) := by
  have hstarted : (Event.launch there (some hundred)).started cfg = some hundred := by
    by_cases hexe : cfg.beamngExePath = ""
    · simp [Event.started, detectBeamNGPath, detectLinux, firstFound, candidates, there, hexe]
    · simp [Event.started, detectBeamNGPath, there, hexe]
  obtain ⟨-, hpid, hprocs⟩ := launch_forked idle.launcher idle.procs hstarted
  have hrun : Run cfg _ _ := .step (.init idle.procs fun _ => rfl) (.launch idle there (some hundred) rfl fun _ _ => rfl)
  refine ⟨(launch cfg idle.launcher idle.procs there (some hundred)).2.1.exePath, ?_⟩
  have hlaunched : launched (launch cfg idle.launcher idle.procs there (some hundred)).2.1.exePath = { idle with
      launcher := (launch cfg idle.launcher idle.procs there (some hundred)).2.1
      procs := (launch cfg idle.launcher idle.procs there (some hundred)).2.2 } := by
    rw [launched, ← hpid, hprocs]
    rfl
  rw [hlaunched]
  exact hrun

/-- A child is launched and terminated. -/
theorem own_only_terminated : ∃ cfg, Config.load Config.ownType (.ok (Config.fileWith [])) = .ok cfg ∧
    ∃ h s, Run cfg h s ∧ s.signalled = [⟨.own, false⟩] ∧ s.waiting = false ∧ OwnOnly h s := by
  obtain ⟨cfg, hcfg⟩ := Config.load_fileWith []
  obtain ⟨path, hrun⟩ := run_launched cfg
  have hterminated := hrun.step (.terminate (launched path) rfl)
  have hexited := hterminated.step (.outside (launched path).terminate _ (.exits alone 100))
  have hwaited := hexited.step (.waited _ ((alone.exit 100).reap 100) rfl rfl)
  refine ⟨cfg, hcfg, _, _, hwaited, rfl, rfl, (own_only_iff hwaited).mpr ?_⟩
  simp [Careful, Along, Moment.ends, forgotten, polledAway, Event.started, idle]

/-- A stranger that has got the id of a child a poll has taken is signalled. -/
theorem reused_id_signalled : ∃ cfg, Config.load Config.ownType (.ok (Config.fileWith [])) = .ok cfg ∧
    ∃ h s, Run cfg h s ∧ (⟨.foreign, false⟩ : Process) ∈ s.signalled ∧ ¬ OwnOnly h s := by
  obtain ⟨cfg, hcfg⟩ := Config.load_fileWith []
  obtain ⟨path, hrun⟩ := run_launched cfg
  have hexited := hrun.step (.outside (launched path) _ (.exits alone 100))
  have hpolled := hexited.step (.isRunning _ rfl)
  have hreused := hpolled.step (.outside _ _ (.begins _ hundred .foreign rfl nofun))
  have hterminated := hreused.step (.terminate _ rfl)
  refine ⟨cfg, hcfg, _, _, hterminated, List.mem_singleton.mpr rfl, fun hown => ?_⟩
  cases hown.signalled ⟨.foreign, false⟩ (List.mem_singleton.mpr rfl)

end HeadlessLauncher

end NovaMP
