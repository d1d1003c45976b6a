/-
  NovaMP.Lib.Codec — fixed-width byte encodings.

  A `Codec α` is a bijection between `α` and the byte strings of one length, with the
  proofs in the structure. Packed structs are built from the codecs of their fields:
  `prod` puts two fields next to each other without padding, `congr` renames a tuple
  into a record. Integers are little-endian.

  - `leBytes` / `ofLE`: the little-endian bytes of a number and back
    (`ofLE_leBytes`, `leBytes_ofLE`).
  - `take_encode_append`, `drop_encode_append`: a field read at its offset out of a
    longer string.
  - `ofInt16_eq_iff`, `ofInt8_eq_iff`: a cast to fewer bits keeps the integers that fit.
  - `read_offsets`: the fields of a string of fields are found at their `offsets`.
-/

import Mathlib.Algebra.Ring.Int.Defs
import Mathlib.Algebra.Ring.Nat
import Mathlib.Logic.Equiv.Defs
import Mathlib.Data.List.Basic

namespace NovaMP.Lib

abbrev Bytes := List UInt8

/-! ## Little-endian numbers -/

/-- The `k` lowest bytes of `n`, lowest first. -/
def leBytes : Nat → Nat → Bytes
  | 0, _ => []
  | k + 1, n => UInt8.ofNat n :: leBytes k (n / 256)

def ofLE : Bytes → Nat
  | [] => 0
  | b :: bs => b.toNat + 256 * ofLE bs

@[simp] theorem leBytes_length (k n : Nat) : (leBytes k n).length = k := by
  induction k generalizing n with
  | zero => rfl
  | succ k ih => simp [leBytes, ih]

theorem ofLE_lt (bs : Bytes) : ofLE bs < 256 ^ bs.length := by
  induction bs with
  | nil => simp [ofLE]
  | cons b bs ih =>
    have hb : b.toNat < 256 := b.toNat_lt
    simp only [ofLE, List.length_cons, Nat.pow_succ]
    omega

theorem ofLE_leBytes (k n : Nat) : ofLE (leBytes k n) = n % 256 ^ k := by
  induction k generalizing n with
  | zero => simp [leBytes, ofLE, Nat.mod_one]
  | succ k ih =>
    have hlow : (UInt8.ofNat n).toNat = n % 256 := by simp
    rw [leBytes, ofLE, ih, hlow, Nat.pow_succ, Nat.mul_comm (256 ^ k), Nat.mod_mul]

theorem leBytes_ofLE (bs : Bytes) : leBytes bs.length (ofLE bs) = bs := by
  induction bs with
  | nil => rfl
  | cons b bs ih =>
    have hb : b.toNat < 256 := b.toNat_lt
    have hlow : UInt8.ofNat (b.toNat + 256 * ofLE bs) = b := by
      apply UInt8.toNat_inj.mp
      simp only [UInt8.toNat_ofNat']
      omega
    have hrest : (b.toNat + 256 * ofLE bs) / 256 = ofLE bs := by omega
    simp only [List.length_cons, leBytes, ofLE, hlow, hrest, ih]

/-! ## Codecs -/

/-- `T a[3]` -/
structure Arr3 (α : Type) where
  a0 : α
  a1 : α
  a2 : α
  deriving DecidableEq, Repr

/-- `T a[4]` -/
structure Arr4 (α : Type) where
  a0 : α
  a1 : α
  a2 : α
  a3 : α
  deriving DecidableEq, Repr

structure Codec (α : Type) where
  size : Nat
  encode : α → Bytes
  decode : Bytes → α
  encode_length : ∀ a, (encode a).length = size
  decode_encode : ∀ a, decode (encode a) = a
  encode_decode : ∀ bs, bs.length = size → encode (decode bs) = bs

namespace Codec

variable {α β : Type}

def u8 : Codec UInt8 where
  size := 1
  encode b := [b]
  decode bs := bs.headD 0
  encode_length _ := rfl
  decode_encode _ := rfl
  encode_decode bs h := by
    obtain ⟨b, rfl⟩ := List.length_eq_one_iff.mp h
    rfl

def u16 : Codec UInt16 where
  size := 2
  encode n := leBytes 2 n.toNat
  decode bs := UInt16.ofNat (ofLE bs)
  encode_length _ := leBytes_length _ _
  decode_encode n := by
    have hn : n.toNat < 256 ^ 2 := n.toNat_lt
    rw [ofLE_leBytes, Nat.mod_eq_of_lt hn, UInt16.ofNat_toNat]
  encode_decode bs h := by
    have hlt : ofLE bs < 2 ^ 16 := by simpa [h] using ofLE_lt bs
    rw [UInt16.toNat_ofNat', Nat.mod_eq_of_lt hlt, ← h, leBytes_ofLE]

def u32 : Codec UInt32 where
  size := 4
  encode n := leBytes 4 n.toNat
  decode bs := UInt32.ofNat (ofLE bs)
  encode_length _ := leBytes_length _ _
  decode_encode n := by
    have hn : n.toNat < 256 ^ 4 := n.toNat_lt
    rw [ofLE_leBytes, Nat.mod_eq_of_lt hn, UInt32.ofNat_toNat]
  encode_decode bs h := by
    have hlt : ofLE bs < 2 ^ 32 := by simpa [h] using ofLE_lt bs
    rw [UInt32.toNat_ofNat', Nat.mod_eq_of_lt hlt, ← h, leBytes_ofLE]

def i8 : Codec Int8 where
  size := 1
  encode b := [b.toUInt8]
  decode bs := (bs.headD 0).toInt8
  encode_length _ := rfl
  decode_encode b := by simp
  encode_decode bs h := by
    obtain ⟨b, rfl⟩ := List.length_eq_one_iff.mp h
    simp

/-- Two fields next to each other, without padding. -/
def prod (A : Codec α) (B : Codec β) : Codec (α × β) where
  size := A.size + B.size
  encode p := A.encode p.1 ++ B.encode p.2
  decode bs := (A.decode (bs.take A.size), B.decode (bs.drop A.size))
  encode_length p := by simp [A.encode_length, B.encode_length]
  decode_encode p := by
    have hA := A.encode_length p.1
    simp [← hA, A.decode_encode, B.decode_encode]
  encode_decode bs h := by
    have hA : (bs.take A.size).length = A.size := by simp; omega
    have hB : (bs.drop A.size).length = B.size := by simp; omega
    simp [A.encode_decode _ hA, B.encode_decode _ hB]

/-- The same bytes read as a record instead of a tuple. -/
def congr (e : α ≃ β) (A : Codec α) : Codec β where
  size := A.size
  encode b := A.encode (e.symm b)
  decode bs := e (A.decode bs)
  encode_length b := A.encode_length _
  decode_encode b := by simp [A.decode_encode]
  encode_decode bs h := by simp [A.encode_decode bs h]

def arr3 (A : Codec α) : Codec (Arr3 α) :=
  (A.prod (A.prod A)).congr
    ⟨fun t => ⟨t.1, t.2.1, t.2.2⟩, fun v => (v.a0, v.a1, v.a2), fun _ => rfl, fun _ => rfl⟩

def arr4 (A : Codec α) : Codec (Arr4 α) :=
  (A.prod (A.prod (A.prod A))).congr
    ⟨fun t => ⟨t.1, t.2.1, t.2.2.1, t.2.2.2⟩, fun v => (v.a0, v.a1, v.a2, v.a3), fun _ => rfl, fun _ => rfl⟩

variable (A : Codec α)

@[simp] theorem length_encode (a : α) : (A.encode a).length = A.size := A.encode_length a

@[simp] theorem decode_encode' (a : α) : A.decode (A.encode a) = a := A.decode_encode a

theorem take_encode_append (a : α) (rest : Bytes) : (A.encode a ++ rest).take A.size = A.encode a := by
  rw [← A.encode_length a, List.take_left']
  rfl

theorem drop_encode_append (a : α) (rest : Bytes) : (A.encode a ++ rest).drop A.size = rest := by
  rw [← A.encode_length a, List.drop_left']
  rfl

end Codec

/-! ## Narrowing -/

theorem toNat_ofInt16 (n : Int) : ((UInt16.ofInt n).toNat : Int) = n % 2 ^ 16 := by
  rw [UInt16.ofInt, UInt16.toNat_ofNat']
  omega

theorem toNat_ofInt8 (n : Int) : ((UInt8.ofInt n).toNat : Int) = n % 2 ^ 8 := by
  rw [UInt8.ofInt, UInt8.toNat_ofNat']
  omega

theorem ofInt16_eq_iff {n : Int} : ((UInt16.ofInt n).toNat : Int) = n ↔ 0 ≤ n ∧ n < 2 ^ 16 := by
  rw [toNat_ofInt16]
  omega

theorem ofInt8_eq_iff {n : Int} : ((UInt8.ofInt n).toNat : Int) = n ↔ 0 ≤ n ∧ n < 2 ^ 8 := by
  rw [toNat_ofInt8]
  omega

@[simp] theorem ofInt16_toNat (a : UInt16) : UInt16.ofInt a.toNat = a := by
  have hlt := a.toNat_lt
  have hcast := ofInt16_eq_iff (n := a.toNat) |>.mpr ⟨by omega, by omega⟩
  exact UInt16.toNat_inj.mp (by omega)

@[simp] theorem ofInt8_toNat (a : UInt8) : UInt8.ofInt a.toNat = a := by
  have hlt := a.toNat_lt
  have hcast := ofInt8_eq_iff (n := a.toNat) |>.mpr ⟨by omega, by omega⟩
  exact UInt8.toNat_inj.mp (by omega)

theorem ofInt16_natCast (n : Nat) : UInt16.ofInt n = .ofNat n := by
  rw [UInt16.ofInt, ← UInt16.toNat_inj, UInt16.toNat_ofNat', UInt16.toNat_ofNat']
  omega

/-! ## Fields at their offsets -/

/-- Fields next to each other, with the offset of each; the first one is at `n`. -/
def offsets (n : Nat) : List Bytes → List (Nat × Bytes)
  | [] => []
  | f :: fs => (n, f) :: offsets (n + f.length) fs

theorem read_offsets {fs : List Bytes} (before : Bytes) {x : Nat × Bytes} (h : x ∈ offsets before.length fs) :
    ((before ++ fs.flatten).drop x.1).take x.2.length = x.2 := by
  induction fs generalizing before with
  | nil => cases h
  | cons f fs ih =>
    rcases List.mem_cons.mp h with rfl | h
    · rw [List.flatten_cons, List.drop_left, List.take_left]
    · rw [← List.length_append] at h
      rw [List.flatten_cons, ← List.append_assoc]
      exact ih _ h

end NovaMP.Lib
