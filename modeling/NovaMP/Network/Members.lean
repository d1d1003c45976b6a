/-
  NovaMP.Network.Members — members of JSON objects that are read with a default and a type
  (`j.value(key, default)`).

  - `Has`: an object whose member, if it is there, is as expected.
  - `value_ok_iff_has`, `valueBool_ok_iff`, `valueInt64_ok_iff`, `valueNumber_ok_iff_has`:
    a read returns exactly if the member has a type that converts.
  - `bind_returns_iff`: reads after each other.
-/

import NovaMP.Network.Values

namespace NovaMP

open Lib

namespace Json

/-! ## 64-bit integers -/

/-- `j.get<int64_t>()`: unlike for other integer types, no boolean is converted. -/
def getInt64 (trunc : UInt64 → Int) : Json → Except Fault Int
  | int n => .ok (n.bmod (2 ^ 64))
  | real bits => .ok (trunc bits)
  | _ => .error (.typeError 302)

/-- `j.value(key, default)` for a default of type `int64_t`. -/
def valueInt64 (trunc : UInt64 → Int) (j : Json) (key : String) (dflt : Int) : Except Fault Int := do
  match ← j.member key with
  | none => pure dflt
  | some v => v.getInt64 trunc

/-! ## Members of the expected types -/

/-- An object whose member, if it is there, is as expected. -/
def Has (j : Json) (key : String) (expected : Json → Prop) : Prop :=
  ∃ members, j = obj members ∧ ∀ v, members.lookup key = some v → expected v

def IsStr (v : Json) : Prop := ∃ s, v = str s

def IsBool (v : Json) : Prop := ∃ b, v = bool b

/-- What `get<int64_t>` converts. -/
def IsNum (v : Json) : Prop := (∃ n, v = int n) ∨ ∃ bits, v = real bits

/-- What `get<int>` converts. -/
def IsNumOrBool (v : Json) : Prop := (∃ n, v = int n) ∨ (∃ bits, v = real bits) ∨ ∃ b, v = bool b

theorem has_obj_iff {members : List (String × Json)} {key : String} {expected : Json → Prop} :
    (obj members).Has key expected ↔ ∀ v, members.lookup key = some v → expected v := by
  constructor
  · rintro ⟨_, hm, hall⟩
    cases hm
    exact hall
  · exact fun hall => ⟨members, rfl, hall⟩

/-- A member that is read with a default: what is done with it matters if it is there. -/
theorem has_iff {α : Type} {j : Json} {key : String} {f : Option Json → Except Fault α} {expected : Json → Prop}
    (hnone : ∃ a, f none = .ok a) (hsome : ∀ v, (∃ a, f (some v) = .ok a) ↔ expected v) :
    (∃ a, (j.member key >>= f) = .ok a) ↔ j.Has key expected := by
  cases j with
  | obj members =>
    rw [has_obj_iff]
    show (∃ a, f (members.lookup key) = .ok a) ↔ _
    cases members.lookup key with
    | none => exact iff_of_true hnone nofun
    | some v => simpa using hsome v
  | null | bool _ | int _ | real _ | str _ | arr _ =>
    refine iff_of_false ?_ ?_
    · rintro ⟨_, hok⟩
      cases hok
    · rintro ⟨_, hm, -⟩
      cases hm

/-- What `get<std::string>` converts, as `value` does with a member that is there. -/
def getString : Json → Except Fault String
  | str s => .ok s
  | _ => .error (.typeError 302)

theorem value_ok_iff_has {j : Json} {key dflt : String} : (∃ s, j.value key dflt = .ok s) ↔ j.Has key IsStr := by
  have hvalue : j.value key dflt = j.member key >>= fun m => m.elim (.ok dflt) getString := by
    cases j with
    | obj members =>
      show _ = (members.lookup key).elim (.ok dflt) getString
      unfold value
      dsimp only
      cases members.lookup key with
      | none => rfl
      | some v => cases v <;> rfl
    | null | bool _ | int _ | real _ | str _ | arr _ => rfl
  rw [hvalue]
  refine has_iff ⟨dflt, rfl⟩ fun v => ?_
  cases v <;> simp [getString, IsStr]

theorem valueBool_ok_iff {j : Json} {key : String} {dflt : Bool} :
    (∃ b, j.valueBool key dflt = .ok b) ↔ j.Has key IsBool := by
  refine has_iff ⟨dflt, rfl⟩ fun v => ?_
  cases v <;> simp [getBool, IsBool]

theorem valueInt64_ok_iff {trunc : UInt64 → Int} {j : Json} {key : String} {dflt : Int} :
    (∃ n, j.valueInt64 trunc key dflt = .ok n) ↔ j.Has key IsNum := by
  refine has_iff ⟨dflt, rfl⟩ fun v => ?_
  cases v <;> simp [getInt64, IsNum]

theorem valueNumber_ok_iff_has {trunc : UInt64 → Int} {j : Json} {key : String} {dflt : Int} :
    (∃ n, j.valueNumber trunc key dflt = .ok n) ↔ j.Has key IsNumOrBool := by
  refine has_iff ⟨dflt, rfl⟩ fun v => ?_
  cases v <;> simp [getNumber, IsNumOrBool]

end Json

/-! ## Reads after each other -/

theorem bind_eq_ok {ε α β : Type} {e : Except ε α} {f : α → Except ε β} {b : β} :
    (e >>= f) = .ok b ↔ ∃ a, e = .ok a ∧ f a = .ok b := by
  cases e <;> simp [bind, Except.bind]

/-- Two reads after each other return if the first does, and the second with its result. -/
theorem bind_returns_iff {ε α β : Type} {e : Except ε α} {f : α → Except ε β} :
    (∃ b, (e >>= f) = .ok b) ↔ (∃ a, e = .ok a) ∧ ∀ a, e = .ok a → ∃ b, f a = .ok b := by
  cases e with
  | error e => simp [bind, Except.bind]
  | ok a => simp [bind, Except.bind]

/-- Whether the second returns may be no matter of the first. -/
theorem bind_returns_and {ε α β : Type} {e : Except ε α} {f : α → Except ε β} {p : Prop}
    (hf : ∀ a, (∃ b, f a = .ok b) ↔ p) : (∃ b, (e >>= f) = .ok b) ↔ (∃ a, e = .ok a) ∧ p := by
  rw [bind_returns_iff]
  refine and_congr_right fun ⟨a, ha⟩ => ?_
  exact ⟨fun hall => (hf a).mp (hall a ha), fun hp a _ => (hf a).mpr hp⟩

theorem map_returns_iff {ε α β : Type} {e : Except ε α} {f : α → β} : (∃ b, e.map f = .ok b) ↔ ∃ a, e = .ok a := by
  cases e with
  | error e => simp [Except.map]
  | ok a => simp [Except.map]

end NovaMP
