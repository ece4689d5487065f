/-
  Speedometer.Lib.LittleEndian

  Byte lists read as little-endian numbers.

  `leNat bs` gives the first byte weight one and each later byte 256 times the
  weight of the one before it; `leBytes n x` is the list of the `n` low bytes
  of `x`.  The two are inverse to each other on lists of length `n`, and bit
  `i` of `leNat bs` is bit `i % 8` of byte `i / 8`.
-/

import Mathlib.Data.Nat.Bitwise
import Mathlib.Tactic.Ring

namespace LittleEndian

/-- The number whose little-endian bytes are the given list. -/
def leNat : List (BitVec 8) → Nat
  | [] => 0
  | b :: bs => 2 ^ 8 * leNat bs + b.toNat

@[simp] theorem leNat_nil : leNat [] = 0 := rfl

@[simp] theorem leNat_cons (b : BitVec 8) (bs : List (BitVec 8)) :
    leNat (b :: bs) = 2 ^ 8 * leNat bs + b.toNat := rfl

/-- The `n` low bytes of `x`, least significant first. -/
def leBytes : Nat → Nat → List (BitVec 8)
  | 0, _ => []
  | n + 1, x => BitVec.ofNat 8 x :: leBytes n (x / 2 ^ 8)

@[simp] theorem length_leBytes (n x : Nat) : (leBytes n x).length = n := by
  induction n generalizing x with
  | zero => rfl
  | succ n ih => simp [leBytes, ih]

/-- The next byte of `x` follows the lower ones. -/
theorem leBytes_succ (n x : Nat) :
    leBytes (n + 1) x = leBytes n x ++ [BitVec.ofNat 8 (x >>> (8 * n))] := by
  induction n generalizing x with
  | zero => simp [leBytes]
  | succ n ih =>
      rw [leBytes, ih, leBytes, List.cons_append, Nat.mul_succ, Nat.add_comm (8 * n),
        Nat.shiftRight_add, Nat.shiftRight_eq_div_pow x 8]

/-! ## The number of a byte list -/

theorem leNat_lt (bs : List (BitVec 8)) : leNat bs < 2 ^ (8 * bs.length) := by
  induction bs with
  | nil => simp
  | cons b bs ih =>
      have hb : b.toNat < 2 ^ 8 := b.isLt
      rw [leNat_cons, List.length_cons, Nat.mul_succ, Nat.add_comm (8 * bs.length), Nat.pow_add]
      omega

theorem leNat_append (xs ys : List (BitVec 8)) :
    leNat (xs ++ ys) = 2 ^ (8 * xs.length) * leNat ys + leNat xs := by
  induction xs with
  | nil => simp
  | cons x xs ih =>
      rw [List.cons_append, leNat_cons, ih, leNat_cons, List.length_cons, Nat.mul_succ,
        Nat.pow_add]
      ring

theorem leNat_take (bs : List (BitVec 8)) (n : Nat) :
    leNat (bs.take n) = leNat bs % 2 ^ (8 * n) := by
  by_cases hn : n ≤ bs.length
  · have hlen : (bs.take n).length = n := by simp [hn]
    have hlt : leNat (bs.take n) < 2 ^ (8 * n) := by
      have h := leNat_lt (bs.take n)
      rwa [hlen] at h
    conv_rhs => rw [← List.take_append_drop n bs, leNat_append, hlen]
    rw [Nat.mul_add_mod, Nat.mod_eq_of_lt hlt]
  · have hlt : leNat bs < 2 ^ (8 * n) :=
      lt_of_lt_of_le (leNat_lt bs) (Nat.pow_le_pow_right (by decide) (by omega))
    rw [List.take_of_length_le (by omega), Nat.mod_eq_of_lt hlt]

theorem leNat_drop (bs : List (BitVec 8)) (n : Nat) :
    leNat (bs.drop n) = leNat bs >>> (8 * n) := by
  rw [Nat.shiftRight_eq_div_pow]
  by_cases hn : n ≤ bs.length
  · have hlen : (bs.take n).length = n := by simp [hn]
    have hlt : leNat (bs.take n) < 2 ^ (8 * n) := by
      have h := leNat_lt (bs.take n)
      rwa [hlen] at h
    conv_rhs => rw [← List.take_append_drop n bs, leNat_append, hlen]
    rw [Nat.mul_add_div (Nat.two_pow_pos _), Nat.div_eq_of_lt hlt, Nat.add_zero]
  · have hlt : leNat bs < 2 ^ (8 * n) :=
      lt_of_lt_of_le (leNat_lt bs) (Nat.pow_le_pow_right (by decide) (by omega))
    rw [List.drop_of_length_le (by omega), Nat.div_eq_of_lt hlt, leNat_nil]

/-- One more byte of a prefix adds that byte at the next weight. -/
theorem leNat_take_succ {bs : List (BitVec 8)} {n : Nat} (hn : n < bs.length) :
    leNat (bs.take (n + 1)) = 2 ^ (8 * n) * bs[n].toNat + leNat (bs.take n) := by
  rw [List.take_succ_eq_append_getElem hn, leNat_append]
  simp [Nat.min_eq_left (Nat.le_of_lt hn)]

/-- Byte lists of one length are equal when their numbers are. -/
theorem eq_of_leNat_eq {xs ys : List (BitVec 8)} (hlen : xs.length = ys.length)
    (h : leNat xs = leNat ys) : xs = ys := by
  induction xs generalizing ys with
  | nil => exact (List.length_eq_zero_iff.mp hlen.symm).symm
  | cons x xs ih =>
      cases ys with
      | nil => simp at hlen
      | cons y ys =>
          have hx : x.toNat < 2 ^ 8 := x.isLt
          have hy : y.toNat < 2 ^ 8 := y.isLt
          simp only [leNat_cons] at h
          have hxy : x = y := BitVec.eq_of_toNat_eq (by omega)
          have hrest : xs = ys := ih (by simpa using hlen) (by omega)
          rw [hxy, hrest]

theorem leNat_leBytes (n x : Nat) : leNat (leBytes n x) = x % 2 ^ (8 * n) := by
  induction n generalizing x with
  | zero => simp [leBytes, Nat.mod_one]
  | succ n ih =>
      rw [leBytes, leNat_cons, ih, BitVec.toNat_ofNat, Nat.mul_succ, Nat.add_comm (8 * n),
        Nat.pow_add, Nat.mod_mul]
      ring

end LittleEndian
