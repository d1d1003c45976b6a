/-
  NovaMP.Lib.Runs — the runs of a system that takes one event after another.

  A `System` has a first state, and a function for what an event makes of a state. In a
  `Run` each event comes in a state that allows it (`ok`).

  - `Run.invariant`: what holds first, and is kept by the events that are allowed, holds in
    every run.
  - `Run.mono`: a run is one under any weaker condition.
-/

namespace NovaMP.Lib

structure System (σ ε : Type) where
  init : σ
  step : σ → ε → σ

namespace System

variable {σ ε : Type} {S : System σ ε} {ok ok' : σ → ε → Prop} {s : σ}

inductive Run (S : System σ ε) (ok : σ → ε → Prop) : σ → Prop
  | init : Run S ok S.init
  | step {s : σ} (e : ε) : Run S ok s → ok s e → Run S ok (S.step s e)

theorem Run.next (hr : S.Run ok s) (e : ε) (h : ok s e) : S.Run ok (S.step s e) := .step e hr h

theorem Run.invariant {I : σ → Prop} (h0 : I S.init) (hs : ∀ s e, I s → ok s e → I (S.step s e))
    (hr : S.Run ok s) : I s := by
  induction hr with
  | init => exact h0
  | step e _ hok ih => exact hs _ e ih hok

theorem Run.mono (h : ∀ s e, ok s e → ok' s e) (hr : S.Run ok s) : S.Run ok' s := by
  induction hr with
  | init => exact .init
  | step e _ hok ih => exact .step e ih (h _ e hok)

end System

end NovaMP.Lib
