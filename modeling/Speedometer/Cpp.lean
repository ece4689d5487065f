/-
  Speedometer.Cpp

  The C++ the desktop sources are written in: 32- and 64-bit arithmetic with
  the operations C++17 leaves undefined, byte arrays, and the integer types a
  value can be cast to.

  An evaluation is a `Result`: `.error` when it runs into undefined behaviour,
  a failed `assert` or a thrown exception, `.ok` with its value otherwise.
-/

import Mathlib.Algebra.BigOperators.Fin
import Mathlib.Tactic.Ring
import Speedometer.Lib.LittleEndian

namespace Speedometer.Cpp

/-- Why an evaluation has no value. -/
inductive Fault
  /-- shift count negative or not below the width of the left operand -/
  | shiftCount
  /-- signed result outside the range of its type -/
  | signedOverflow
  /-- array index at or past the end of the array -/
  | arrayIndex
  /-- failed `assert` -/
  | assertion
  /-- `std::out_of_range`, thrown by `std::map::at` -/
  | outOfRange
deriving DecidableEq, Repr

abbrev Result := Except Fault

instance decEqResult {α : Type} [DecidableEq α] : DecidableEq (Result α)
  | .ok x, .ok y => decidable_of_iff (x = y) (by simp)
  | .error e, .error f => decidable_of_iff (e = f) (by simp)
  | .ok _, .error _ | .error _, .ok _ => isFalse (by simp)

/-- An evaluation goes on with the value of a step that has one. -/
@[simp] theorem ok_bind {α β : Type} (x : α) (f : α → Result β) :
    (Except.ok x >>= f) = f x := rfl

/-- The steps of an evaluation that has a value have values. -/
theorem bind_eq_ok {α β : Type} {x : Result α} {f : α → Result β} {y : β} :
    (x >>= f) = .ok y ↔ ∃ a, x = .ok a ∧ f a = .ok y := by
  cases x with
  | ok a => simp
  | error e => simp [bind, Except.bind]

/-! ## Fixed-width arithmetic -/

/-- The `int` holding the exact result `x` of a signed operation. -/
def int (x : Int) : Result (BitVec 32) :=
  if -2 ^ 31 ≤ x ∧ x < 2 ^ 31 then .ok (BitVec.ofInt 32 x) else .error .signedOverflow

/-- `x << n` on an unsigned type of `w` bits. -/
def shl {w : Nat} (x : BitVec w) (n : Nat) : Result (BitVec w) :=
  if n < w then .ok (x <<< n) else .error .shiftCount

/-- `x >> n` on an unsigned type of `w` bits. -/
def shr {w : Nat} (x : BitVec w) (n : Nat) : Result (BitVec w) :=
  if n < w then .ok (x >>> n) else .error .shiftCount

/-- `x << n` on `int`: for a non-negative `x` whose shifted value fits the
    unsigned type the result is that value converted back, otherwise undefined. -/
def shlInt (x : BitVec 32) (n : Nat) : Result (BitVec 32) :=
  if n < 32 then
    if 0 ≤ x.toInt ∧ x.toNat * 2 ^ n < 2 ^ 32 then .ok (x <<< n) else .error .signedOverflow
  else .error .shiftCount

/-- `a - b` on `size_t`, which wraps. -/
def sizeSub (a b : Nat) : Nat := if b ≤ a then a - b else a + 2 ^ 64 - b

theorem shl_ok {w n : Nat} (x : BitVec w) (h : n < w) : shl x n = .ok (x <<< n) := if_pos h

theorem shr_ok {w n : Nat} (x : BitVec w) (h : n < w) : shr x n = .ok (x >>> n) := if_pos h

theorem lt_of_shl_ok {w n : Nat} {x y : BitVec w} (h : shl x n = .ok y) : n < w := by
  unfold shl at h
  split at h
  · assumption
  · cases h

theorem lt_of_shlInt_ok {n : Nat} {x y : BitVec 32} (h : shlInt x n = .ok y) : n < 32 := by
  unfold shlInt at h
  split at h
  · assumption
  · cases h

theorem of_int_ok {x : Int} {y : BitVec 32} (h : int x = .ok y) :
    (-2 ^ 31 ≤ x ∧ x < 2 ^ 31) ∧ y = BitVec.ofInt 32 x := by
  unfold int at h
  split at h
  · rename_i hx
    exact ⟨hx, (Except.ok.inj h).symm⟩
  · cases h

theorem int_natCast {n : Nat} (h : n < 2 ^ 31) : int n = .ok (BitVec.ofNat 32 n) := by
  rw [int, if_pos (by omega), BitVec.ofInt_natCast]

/-- Wrapping at `w` bits keeps the low bits. -/
theorem bmod_emod_two_pow (x : Int) {len w : Nat} (h : len ≤ w) :
    x.bmod (2 ^ w) % 2 ^ len = x % 2 ^ len := by
  have hdvd : ((2 ^ len : Nat) : Int) ∣ ((2 ^ w : Nat) : Int) :=
    Int.natCast_dvd_natCast.mpr (Nat.pow_dvd_pow 2 h)
  have hcast : ((2 ^ len : Nat) : Int) = 2 ^ len := by push_cast; rfl
  rw [← hcast, ← Int.emod_emod_of_dvd _ hdvd, Int.bmod_emod, Int.emod_emod_of_dvd _ hdvd]

/-- An `int` and its bit pattern have the same low bits. -/
theorem toInt_emod (x : BitVec 32) {len : Nat} (h : len ≤ 32) :
    x.toInt % 2 ^ len = ((x.toNat % 2 ^ len : Nat) : Int) := by
  rw [BitVec.toInt_eq_toNat_bmod, bmod_emod_two_pow _ h]
  push_cast
  rfl

/-! ## Byte arrays -/

/-- `uint8_t buf[n]`. -/
abbrev Buf (n : Nat) := Vector (BitVec 8) n

namespace Buf

/-- The array as a little-endian number. -/
def toNat {n : Nat} (b : Buf n) : Nat := LittleEndian.leNat b.toList

/-- `b[i]`. -/
def load {n : Nat} (b : Buf n) (i : Nat) : Result (BitVec 8) :=
  if h : i < n then .ok b[i] else .error .arrayIndex

/-- The bytes that `memcpy(.., b + off, count)` copies. -/
def memcpy {n : Nat} (b : Buf n) (off count : Nat) : Result (List (BitVec 8)) :=
  if off + count ≤ n then .ok ((b.toList.drop off).take count) else .error .arrayIndex

/-- `bzero(b, n)`. -/
def zero (n : Nat) : Buf n := Vector.replicate n 0

/-- Writing the bytes `bs` at offset `off`, as `read` does into a buffer. -/
def write {n : Nat} (b : Buf n) (off : Nat) : List (BitVec 8) → Buf n
  | [] => b
  | x :: bs => write (b.setIfInBounds off x) (off + 1) bs

theorem load_ok {n i : Nat} (b : Buf n) (h : i < n) : b.load i = .ok b[i] := dif_pos h

theorem memcpy_ok {n off count : Nat} (b : Buf n) (h : off + count ≤ n) :
    b.memcpy off count = .ok ((b.toList.drop off).take count) := if_pos h

/-- Consecutive bytes as a number: each at its little-endian weight. -/
theorem leNat_take_drop {n off k : Nat} (b : Buf n) (h : off + k ≤ n) :
    LittleEndian.leNat ((b.toList.drop off).take k) =
      ∑ i : Fin k, b[off + i].toNat * 256 ^ (i : Nat) := by
  induction k with
  | zero => rfl
  | succ k ih =>
      have hlen : k < (b.toList.drop off).length := by
        rw [List.length_drop, Vector.length_toList]
        omega
      have hweight : 2 ^ (8 * k) = 256 ^ k := Nat.pow_mul 2 8 k
      rw [LittleEndian.leNat_take_succ hlen, ih (by omega), Fin.sum_univ_castSucc, hweight,
        Nat.mul_comm, Nat.add_comm, List.getElem_drop, Vector.getElem_toList]
      rfl

theorem toNat_lt {n : Nat} (b : Buf n) : b.toNat < 2 ^ (8 * n) := by
  have h := LittleEndian.leNat_lt b.toList
  rwa [Vector.length_toList] at h

theorem eq_of_toNat_eq {n : Nat} {a b : Buf n} (h : a.toNat = b.toNat) : a = b :=
  Vector.toList_inj.mp (LittleEndian.eq_of_leNat_eq (by simp) h)

theorem toList_write {n : Nat} (b : Buf n) (off : Nat) (bs : List (BitVec 8))
    (h : off + bs.length ≤ n) :
    (b.write off bs).toList = b.toList.take off ++ bs ++ b.toList.drop (off + bs.length) := by
  induction bs generalizing b off with
  | nil => simp [write]
  | cons x bs ih =>
      rw [List.length_cons] at h
      have hlen : (b.toList.take off).length = off := by
        rw [List.length_take, Vector.length_toList]
        omega
      have hset : (b.setIfInBounds off x).toList =
          b.toList.take off ++ x :: b.toList.drop (off + 1) := by
        rw [Vector.toList_setIfInBounds, List.set_eq_take_append_cons_drop,
          if_pos (by rw [Vector.length_toList]; omega)]
      have htake : (b.setIfInBounds off x).toList.take (off + 1) = b.toList.take off ++ [x] := by
        rw [hset, List.take_append, hlen, Nat.add_sub_cancel_left,
          List.take_of_length_le (by omega)]
        rfl
      have hdrop : (b.setIfInBounds off x).toList.drop (off + 1 + bs.length) =
          b.toList.drop (off + (bs.length + 1)) := by
        rw [hset, List.drop_append, hlen, List.drop_of_length_le (by omega), List.nil_append,
          Nat.add_assoc, Nat.add_sub_cancel_left, Nat.add_comm 1, List.drop_succ_cons,
          List.drop_drop]
        congr 1
        omega
      rw [write, ih _ _ (by omega), htake, hdrop, List.append_assoc (b.toList.take off)]
      rfl

/-- After a write the array begins with what was there before it and the bytes
    written. -/
theorem take_write {n : Nat} (b : Buf n) (off : Nat) (bs : List (BitVec 8))
    (h : off + bs.length ≤ n) :
    (b.write off bs).toList.take (off + bs.length) = b.toList.take off ++ bs := by
  have hlen : (b.toList.take off ++ bs).length = off + bs.length := by
    rw [List.length_append, List.length_take, Vector.length_toList, Nat.min_eq_left (by omega)]
  rw [toList_write b off bs h, ← hlen, List.take_left]

/-- A write of the whole array. -/
theorem write_toList {n : Nat} (b b' : Buf n) : b.write 0 b'.toList = b' := by
  apply Vector.toList_inj.mp
  rw [toList_write b 0 b'.toList (by simp), List.drop_of_length_le (by simp)]
  simp

end Buf

/-! ## Integer types -/

/-- The widths of the standard integer types. -/
inductive Width
  | w8 | w16 | w32 | w64
deriving DecidableEq, Repr

def Width.bits : Width → Nat
  | .w8 => 8
  | .w16 => 16
  | .w32 => 32
  | .w64 => 64

/-- The types a read value can have. -/
inductive IntType
  | bool
  | unsigned (w : Width)
  | signed (w : Width)
deriving DecidableEq, Repr

namespace IntType

/-- `std::is_signed_v<T>`. -/
def isSigned : IntType → Bool
  | bool | unsigned _ => false
  | signed _ => true

/-- The number of value bits of the type. -/
def bits : IntType → Nat
  | bool => 1
  | unsigned w | signed w => w.bits

/-- `static_cast<T>(x)` of a `uint64_t`, as the integer the result stands for. -/
def cast : IntType → BitVec 64 → Int
  | bool, x => if x = 0 then 0 else 1
  | unsigned w, x => (x.setWidth w.bits).toNat
  | signed w, x => (x.setWidth w.bits).toInt

/-- The value of type `T` whose low `len` bits are `raw`: zero-extended when `T`
    is unsigned, sign-extended from bit `len - 1` when it is signed. -/
def extend (T : IntType) (len raw : Nat) : Int :=
  if T.isSigned then (raw : Int).bmod (2 ^ len) else raw

/-- The low bits of an extended field are the field. -/
theorem extend_emod (T : IntType) {len raw : Nat} (h : raw < 2 ^ len) :
    T.extend len raw % 2 ^ len = raw := by
  have hcast : ((2 ^ len : Nat) : Int) = 2 ^ len := by push_cast; rfl
  unfold extend
  split
  · rw [← hcast, Int.bmod_emod, Int.emod_eq_of_lt (by omega) (by omega)]
  · exact Int.emod_eq_of_lt (by omega) (by omega)

/-- Different raw values of a field stand for different values of `T`. -/
theorem extend_inj (T : IntType) {len x y : Nat} (hx : x < 2 ^ len) (hy : y < 2 ^ len) :
    T.extend len x = T.extend len y ↔ x = y := by
  constructor
  · intro h
    have hmod : T.extend len x % 2 ^ len = T.extend len y % 2 ^ len := by rw [h]
    rw [extend_emod T hx, extend_emod T hy] at hmod
    exact Int.ofNat.inj hmod
  · intro h
    rw [h]

/-- The values a field of `len` bits read as type `T` can stand for. -/
def InRange (T : IntType) (len : Nat) (v : Int) : Prop :=
  if T.isSigned then -2 ^ (len - 1) ≤ v ∧ v < 2 ^ (len - 1) else 0 ≤ v ∧ v < 2 ^ len

instance (T : IntType) (len : Nat) (v : Int) : Decidable (T.InRange len v) :=
  inferInstanceAs (Decidable
    (if T.isSigned then -2 ^ (len - 1) ≤ v ∧ v < 2 ^ (len - 1) else 0 ≤ v ∧ v < 2 ^ len))

end IntType

end Speedometer.Cpp
