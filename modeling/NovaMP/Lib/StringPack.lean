/-
  NovaMP.Lib.StringPack — Lua 5.3's `string.pack`, `string.unpack` and substrings.

  The options `B b H h I i f` in little-endian order, without alignment. A Lua number is
  an integer or a float; a float is held as the single-precision pattern `f` stores.

  Positions count from one.

  - `pack_length`: a packed string has the size of its format.
  - `unpack_short` / `unpack_long`: `unpack` raises exactly on a string shorter than that.
-/

import Mathlib.Algebra.Ring.Int.Defs
import NovaMP.Lib.Codec

namespace NovaMP.Lib.StringPack

inductive Value where
  | int (n : Int)
  | single (bits : UInt32)
  deriving DecidableEq, Repr

inductive PackError where
  /-- bad argument (number expected, got no value) -/
  | noValue
  /-- number has no integer representation -/
  | noInteger
  /-- integer overflow, unsigned overflow -/
  | overflow
  /-- data string too short -/
  | tooShort
  deriving DecidableEq, Repr

/-! ## Integers and floats -/

/-- `n` to `p` significant bits, ties to even. -/
def roundTo (p n : Nat) : Nat :=
  let unit := 2 ^ (n.log2 + 1 - p)
  let q := n / unit
  let r := n % unit
  if unit < 2 * r ∨ unit = 2 * r ∧ q % 2 = 1 then (q + 1) * unit else q * unit

/-- A Lua integer becomes a double, and the double a single. -/
def singleOfInt (n : Int) : UInt32 :=
  let m := roundTo 24 (roundTo 53 n.natAbs)
  if m = 0 then 0
  else
    let sign := if n < 0 then 2 ^ 31 else 0
    let fraction := m * 2 ^ 23 / 2 ^ m.log2 - 2 ^ 23
    UInt32.ofNat (sign + (m.log2 + 127) * 2 ^ 23 + fraction)

/-- The Lua integer a float is equal to. -/
def intOfSingle (bits : UInt32) : Option Int :=
  let exponent := bits.toNat / 2 ^ 23 % 256
  let fraction := bits.toNat % 2 ^ 23
  let signed (m : Nat) : Int := if bits.toNat < 2 ^ 31 then m else -m
  if exponent = 0 then if fraction = 0 then some 0 else none
  else if exponent = 255 then none
  else
    let m := 2 ^ 23 + fraction
    let scaled := m * 2 ^ exponent / 2 ^ 150
    if scaled * 2 ^ 150 ≠ m * 2 ^ exponent then none
    else if -(2 ^ 63) ≤ signed scaled ∧ signed scaled < 2 ^ 63 then some (signed scaled)
    else none

namespace Value

/-- `luaL_checkinteger` -/
def checkInteger : Value → Except PackError Int
  | int n => .ok n
  | single bits =>
    match intOfSingle bits with
    | some n => .ok n
    | none => .error .noInteger

/-- `(float)luaL_checknumber` -/
def checkSingle : Value → UInt32
  | int n => singleOfInt n
  | single bits => bits

end Value

/-! ## Formats -/

inductive Opt where
  /-- `B`, `H`, `I` -/
  | unsigned (size : Nat)
  /-- `b`, `h`, `i` -/
  | signed (size : Nat)
  /-- `f` -/
  | single
  deriving DecidableEq, Repr

/-- The options of a format; `none` where one is not among those above. -/
def options : List Char → Option (List Opt)
  | [] => some []
  | c :: cs => do
    let os ← options cs
    match c with
    | '<' | ' ' => some os
    | 'B' => some (.unsigned 1 :: os)
    | 'H' => some (.unsigned 2 :: os)
    | 'I' => some (.unsigned 4 :: os)
    | 'b' => some (.signed 1 :: os)
    | 'h' => some (.signed 2 :: os)
    | 'i' => some (.signed 4 :: os)
    | 'f' => some (.single :: os)
    | _ => none

def Opt.size : Opt → Nat
  | unsigned k => k
  | signed k => k
  | single => 4

def size (os : List Opt) : Nat := (os.map Opt.size).sum

/-! ## Packing -/

def Opt.put : Opt → Value → Except PackError Bytes
  | unsigned k, v =>
    match v.checkInteger with
    | .error e => .error e
    | .ok n => if 0 ≤ n ∧ n < 256 ^ k then .ok (leBytes k n.toNat) else .error .overflow
  | signed k, v =>
    match v.checkInteger with
    | .error e => .error e
    | .ok n => if -(256 ^ k) ≤ 2 * n ∧ 2 * n < 256 ^ k then .ok (leBytes k (n % 256 ^ k).toNat) else .error .overflow
  | single, v => .ok (leBytes 4 v.checkSingle.toNat)

/-- Values past the format are ignored. -/
def pack : List Opt → List Value → Except PackError Bytes
  | [], _ => .ok []
  | _ :: _, [] => .error .noValue
  | o :: os, v :: vs => do
    let b ← o.put v
    let bs ← pack os vs
    pure (b ++ bs)

def Opt.get : Opt → Bytes → Value
  | unsigned k, bs => .int (ofLE (bs.take k))
  | signed k, bs =>
    let n : Int := ofLE (bs.take k)
    .int (if 2 * n < 256 ^ k then n else n - 256 ^ k)
  | single, bs => .single (UInt32.ofNat (ofLE (bs.take 4)))

/-- The values; the position after them, which comes last in Lua, is left out. -/
def unpack : List Opt → Bytes → Except PackError (List Value)
  | [], _ => .ok []
  | o :: os, bs =>
    if bs.length < o.size then .error .tooShort
    else do
      let vs ← unpack os (bs.drop o.size)
      pure (o.get bs :: vs)

/-! ## Lengths -/

@[simp] theorem size_nil : size [] = 0 := rfl

@[simp] theorem size_cons (o : Opt) (os : List Opt) : size (o :: os) = o.size + size os := by simp [size]

theorem put_length {o : Opt} {v : Value} {b : Bytes} (h : o.put v = .ok b) : b.length = o.size := by
  cases o with
  | unsigned k =>
    simp only [Opt.put] at h
    split at h
    · cases h
    · split at h
      · cases h
        exact leBytes_length k _
      · cases h
  | signed k =>
    simp only [Opt.put] at h
    split at h
    · cases h
    · split at h
      · cases h
        exact leBytes_length k _
      · cases h
  | single =>
    cases h
    exact leBytes_length 4 _

/-- What is packed first, and the rest. -/
theorem pack_cons_inv {o : Opt} {os : List Opt} {v : Value} {vs : List Value} {bs : Bytes}
    (h : pack (o :: os) (v :: vs) = .ok bs) : ∃ b rest, o.put v = .ok b ∧ pack os vs = .ok rest ∧ bs = b ++ rest := by
  rw [pack] at h
  cases hb : o.put v with
  | error e => rw [hb] at h; cases h
  | ok b =>
    cases hrest : pack os vs with
    | error e => rw [hb, hrest] at h; cases h
    | ok rest =>
      rw [hb, hrest] at h
      cases h
      exact ⟨b, rest, rfl, rfl, rfl⟩

theorem pack_length {os : List Opt} {vs : List Value} {bs : Bytes} (h : pack os vs = .ok bs) : bs.length = size os := by
  induction os generalizing vs bs with
  | nil => cases h; rfl
  | cons o os ih =>
    cases vs with
    | nil => cases h
    | cons v vs =>
      obtain ⟨b, rest, hb, hrest, rfl⟩ := pack_cons_inv h
      rw [List.length_append, put_length hb, ih hrest, size_cons]

theorem unpack_short {os : List Opt} {bs : Bytes} (h : bs.length < size os) : unpack os bs = .error .tooShort := by
  induction os generalizing bs with
  | nil => exact absurd h (Nat.not_lt_zero _)
  | cons o os ih =>
    rw [unpack]
    by_cases ho : bs.length < o.size
    · rw [if_pos ho]
    · have hrest : (bs.drop o.size).length < size os := by
        rw [size_cons] at h
        rw [List.length_drop]
        omega
      rw [if_neg ho, ih hrest]
      rfl

theorem unpack_long {os : List Opt} {bs : Bytes} (h : size os ≤ bs.length) : ∃ vs, unpack os bs = .ok vs := by
  induction os generalizing bs with
  | nil => exact ⟨[], rfl⟩
  | cons o os ih =>
    rw [size_cons] at h
    have hrest : size os ≤ (bs.drop o.size).length := by
      rw [List.length_drop]
      omega
    obtain ⟨vs, hvs⟩ := ih hrest
    refine ⟨o.get bs :: vs, ?_⟩
    have ho : ¬ bs.length < o.size := by omega
    rw [unpack, if_neg ho, hvs]
    rfl

/-! ## Unsigned integers -/

theorem put_unsigned {k n : Nat} (h : n < 256 ^ k) : (Opt.unsigned k).put (.int n) = .ok (leBytes k n) := by
  have hint : (n : Int) < 256 ^ k := by exact_mod_cast h
  simp [Opt.put, Value.checkInteger, hint]

theorem pack_cons {o : Opt} {os : List Opt} {v : Value} {vs : List Value} {b bs : Bytes} (hb : o.put v = .ok b)
    (hbs : pack os vs = .ok bs) : pack (o :: os) (v :: vs) = .ok (b ++ bs) := by
  rw [pack, hb, hbs]
  rfl

theorem pack_error {o : Opt} {os : List Opt} {v : Value} {vs : List Value} {b : Bytes} {e : PackError}
    (hb : o.put v = .ok b) (hbs : pack os vs = .error e) : pack (o :: os) (v :: vs) = .error e := by
  rw [pack, hb, hbs]
  rfl

/-- What is unpacked first, and the rest. -/
theorem unpack_cons_inv {o : Opt} {os : List Opt} {b bs : Bytes} {vs : List Value} (hb : b.length = o.size)
    (h : unpack (o :: os) (b ++ bs) = .ok vs) : ∃ rest, unpack os bs = .ok rest ∧ vs = o.get (b ++ bs) :: rest := by
  rw [unpack, if_neg (by rw [List.length_append, hb]; omega), ← hb, List.drop_left] at h
  cases hrest : unpack os bs with
  | error e => rw [hrest] at h; cases h
  | ok rest =>
    rw [hrest] at h
    cases h
    exact ⟨rest, rfl, rfl⟩

/-- An unsigned integer that has been packed is unpacked again. -/
theorem get_put_unsigned {k : Nat} {n : Int} {b : Bytes} (h : (Opt.unsigned k).put (.int n) = .ok b) (bs : Bytes) :
    (Opt.unsigned k).get (b ++ bs) = .int n := by
  simp only [Opt.put, Value.checkInteger] at h
  split at h
  · rename_i hfits
    cases h
    have hnat : n.toNat < 256 ^ k := by
      rw [Int.toNat_lt hfits.1]
      exact_mod_cast hfits.2
    rw [Opt.get, List.take_left' (leBytes_length k _), ofLE_leBytes, Nat.mod_eq_of_lt hnat, Int.toNat_of_nonneg hfits.1]
  · cases h

/-- `string.unpack(format, s, pos)` where the first value is an integer. -/
def unpackInteger (os : List Opt) (s : Bytes) (pos : Nat) : Except PackError Int := do
  let vs ← unpack os (s.drop (pos - 1))
  match vs with
  | .int n :: _ => pure n
  | _ => .error .noInteger

theorem unpackInteger_unsigned {k pos : Nat} {s : Bytes} (h : k ≤ (s.drop (pos - 1)).length) :
    unpackInteger [.unsigned k] s pos = .ok (ofLE ((s.drop (pos - 1)).take k)) := by
  rw [unpackInteger, unpack, if_neg (by simpa [Opt.size] using h)]
  rfl

/-! ## Substrings -/

/-- `s:sub(i, j)` for `i ≥ 1` -/
def sub (s : Bytes) (i j : Nat) : Bytes := (s.take j).drop (i - 1)

/-- `s:sub(i)` for `i ≥ 1` -/
def subFrom (s : Bytes) (i : Nat) : Bytes := s.drop (i - 1)

/-- `string.byte(s, i)` -/
def byte (s : Bytes) (i : Nat) : Option UInt8 := s[i - 1]?

theorem sub_append (before mid rest : Bytes) :
    sub (before ++ (mid ++ rest)) (before.length + 1) (before.length + mid.length) = mid := by
  rw [sub, Nat.add_sub_cancel, ← List.append_assoc, List.take_left' (by rw [List.length_append]), List.drop_left' rfl]

theorem subFrom_append (before rest : Bytes) : subFrom (before ++ rest) (before.length + 1) = rest := by
  rw [subFrom, Nat.add_sub_cancel, List.drop_left' rfl]

end NovaMP.Lib.StringPack
