/-
  NovaMP.Lib.Exec — calls that read and change a state, may stop at a fault, and take
  non-recursive locks in nested scopes.

  `Exec L ε σ α` runs under the list of locks its caller holds. `withLock l m` runs `m`
  with `l` added to that list, so a lock is free again when its scope ends; taking a
  lock the running chain already holds stops the call with `Stop.deadlock`. `raise e`
  stops it with `Stop.fault e`. The state reached is kept in both cases.

  Every construct has an equation for its run (`run_*`), so what a call does is
  computed by rewriting; `run_each` turns a loop whose body always ends into a fold.
-/

import Mathlib.Data.List.Basic

namespace NovaMP.Lib

/-- Why a call stopped. -/
inductive Stop (L ε : Type) where
  | deadlock (l : L)
  | fault (e : ε)
  deriving DecidableEq, Repr

def Exec (L ε σ α : Type) := List L → σ → Except (Stop L ε) α × σ

namespace Exec

variable {L ε σ α β : Type}

instance : Monad (Exec L ε σ) where
  pure a := fun _ s => (.ok a, s)
  bind m f := fun H s =>
    match m H s with
    | (.ok a, s') => f a H s'
    | (.error e, s') => (.error e, s')

def state : Exec L ε σ σ := fun _ s => (.ok s, s)

def update (f : σ → σ) : Exec L ε σ Unit := fun _ s => (.ok (), f s)

def raise (e : ε) : Exec L ε σ α := fun _ s => (.error (.fault e), s)

def ofExcept : Except ε α → Exec L ε σ α
  | .ok a => pure a
  | .error e => raise e

/-- The locks held by the running chain of calls. -/
def heldLocks : Exec L ε σ (List L) := fun H s => (.ok H, s)

/-- A `lock_guard` scope. -/
def withLock [DecidableEq L] (l : L) (m : Exec L ε σ α) : Exec L ε σ α := fun H s =>
  if l ∈ H then (.error (.deadlock l), s) else m (l :: H) s

/-- `m` for each element, in order. -/
def each (m : β → Exec L ε σ Unit) : List β → Exec L ε σ Unit
  | [] => pure ()
  | b :: bs => do m b; each m bs

/-! ## Runs -/

variable {H : List L} {s t : σ}

@[simp] theorem run_pure (a : α) : (pure a : Exec L ε σ α) H s = (.ok a, s) := rfl

@[simp] theorem run_bind (m : Exec L ε σ β) (f : β → Exec L ε σ α) :
    (m >>= f) H s = match m H s with
      | (.ok b, t) => f b H t
      | (.error e, t) => (.error e, t) := rfl

@[simp] theorem run_state : (state : Exec L ε σ σ) H s = (.ok s, s) := rfl

@[simp] theorem run_update (f : σ → σ) : (update f : Exec L ε σ Unit) H s = (.ok (), f s) := rfl

@[simp] theorem run_ofExcept_ok (a : α) : (ofExcept (.ok a) : Exec L ε σ α) H s = (.ok a, s) := rfl

@[simp] theorem run_ofExcept_error (e : ε) :
    (ofExcept (.error e) : Exec L ε σ α) H s = (.error (.fault e), s) := rfl

@[simp] theorem run_withLock [DecidableEq L] (l : L) (m : Exec L ε σ α) :
    (withLock l m) H s = if l ∈ H then (.error (.deadlock l), s) else m (l :: H) s := rfl

@[simp] theorem run_ite (c : Prop) [Decidable c] (m n : Exec L ε σ α) :
    (if c then m else n : Exec L ε σ α) H s = if c then m H s else n H s := by
  split <;> rfl

theorem run_each {m : β → Exec L ε σ Unit} {f : σ → β → σ} (h : ∀ b s, m b H s = (.ok (), f s b))
    (bs : List β) (s : σ) : each m bs H s = (.ok (), bs.foldl f s) := by
  induction bs generalizing s with
  | nil => rfl
  | cons b bs ih => rw [each, run_bind, h b s, List.foldl_cons]; exact ih (f s b)

end Exec

end NovaMP.Lib
