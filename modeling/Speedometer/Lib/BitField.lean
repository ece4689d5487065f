/-
  Speedometer.Lib.BitField

  Bit fields of natural numbers.

  `field x start len` reads the bits `[start, start + len)` of `x`, and
  `setField x start len v` overwrites them with the low `len` bits of `v`.
  Both are characterised bit by bit (`testBit_field`, `testBit_setField`); the
  algebra a packed record needs (read back, frame, what a number's fields say about
  it) follows from these two by extensionality.
-/

import Mathlib.Data.Nat.Bitwise
import Mathlib.Tactic.Ring

namespace BitField

/-- The bits `[start, start + len)` of `x`. -/
def field (x start len : Nat) : Nat := (x >>> start) % 2 ^ len

/-- `x` with the bits `[start, start + len)` replaced by the low `len` bits of
    `v`: the old field is xored out and the new one xored in. -/
def setField (x start len v : Nat) : Nat :=
  x ^^^ ((field x start len ^^^ v % 2 ^ len) <<< start)

/-- Two bit ranges `[s₁, s₁ + l₁)` and `[s₂, s₂ + l₂)` with no bit in common. -/
def Apart (s₁ l₁ s₂ l₂ : Nat) : Prop := s₁ + l₁ ≤ s₂ ∨ s₂ + l₂ ≤ s₁

instance (s₁ l₁ s₂ l₂ : Nat) : Decidable (Apart s₁ l₁ s₂ l₂) :=
  inferInstanceAs (Decidable (_ ∨ _))

/-- Bit `i` is one of the range `[start, start + len)`. -/
def Covers (start len i : Nat) : Prop := start ≤ i ∧ i < start + len

instance (start len i : Nat) : Decidable (Covers start len i) :=
  inferInstanceAs (Decidable (_ ∧ _))

theorem Apart.symm {s₁ l₁ s₂ l₂ : Nat} (h : Apart s₁ l₁ s₂ l₂) : Apart s₂ l₂ s₁ l₁ :=
  Or.symm h

/-! ## Bit characterisations -/

@[simp] theorem testBit_field (x start len i : Nat) :
    (field x start len).testBit i = (decide (i < len) && x.testBit (start + i)) := by
  simp [field]

/-- A covered bit is a bit of the field. -/
theorem testBit_of_covers {start len i : Nat} (h : Covers start len i) (x : Nat) :
    x.testBit i = (field x start len).testBit (i - start) := by
  have hi : start + (i - start) = i := Nat.add_sub_cancel' h.1
  have hlt : i - start < len := Nat.sub_lt_left_of_lt_add h.1 h.2
  rw [testBit_field, decide_eq_true hlt, Bool.true_and, hi]

theorem testBit_setField (x start len v i : Nat) :
    (setField x start len v).testBit i =
      if start ≤ i ∧ i < start + len then v.testBit (i - start) else x.testBit i := by
  simp only [setField, Nat.testBit_xor, Nat.testBit_shiftLeft, testBit_field,
    Nat.testBit_mod_two_pow, ge_iff_le]
  by_cases hs : start ≤ i
  · have hi : start + (i - start) = i := by omega
    by_cases hl : i < start + len
    · have hl' : i - start < len := by omega
      simp [hs, hl, hl', hi]
    · have hl' : ¬ i - start < len := by omega
      simp [hl, hl']
  · simp [hs]

theorem field_lt (x start len : Nat) : field x start len < 2 ^ len :=
  Nat.mod_lt _ (Nat.two_pow_pos len)

theorem field_lt_of_le (x start : Nat) {low len : Nat} (h : low ≤ len) :
    field x start low < 2 ^ len :=
  Nat.lt_of_lt_of_le (field_lt x start low) (Nat.pow_le_pow_right (by decide) h)

theorem setField_lt {x start len v n : Nat} (hx : x < 2 ^ n) (hn : start + len ≤ n) :
    setField x start len v < 2 ^ n := by
  apply Nat.lt_pow_two_of_testBit
  intro i hi
  rw [testBit_setField, if_neg (by omega)]
  exact Nat.testBit_lt_two_pow (lt_of_lt_of_le hx (Nat.pow_le_pow_right (by decide) hi))

/-! ## Field algebra -/

/-- A field reads back what was written to it. -/
theorem field_setField_self (x start len v : Nat) :
    field (setField x start len v) start len = v % 2 ^ len := by
  apply Nat.eq_of_testBit_eq
  intro i
  rw [testBit_field, testBit_setField, Nat.testBit_mod_two_pow]
  by_cases hi : i < len
  · simp [hi]
  · simp [hi]

/-- Writing a field leaves every range apart from it as it was. -/
theorem field_setField_apart {x s₁ l₁ s₂ l₂ v : Nat} (h : Apart s₁ l₁ s₂ l₂) :
    field (setField x s₁ l₁ v) s₂ l₂ = field x s₂ l₂ := by
  apply Nat.eq_of_testBit_eq
  intro i
  rw [testBit_field, testBit_field]
  by_cases hi : i < l₂
  · rw [testBit_setField, if_neg (by unfold Apart at h; omega)]
  · simp [hi]

/-- A bit that is not covered is not written. -/
theorem testBit_setField_of_not_covers {start len i : Nat} (h : ¬Covers start len i) (x v : Nat) :
    (setField x start len v).testBit i = x.testBit i := by
  rw [testBit_setField]
  exact if_neg h

/-- A number is determined by some of its fields and the bits outside of them. -/
theorem eq_of_fields {ι : Type} {start len : ι → Nat} {p : ι → Prop} {x y : Nat}
    (hin : ∀ k, p k → field x (start k) (len k) = field y (start k) (len k))
    (hout : ∀ i, (∀ k, p k → ¬Covers (start k) (len k) i) → x.testBit i = y.testBit i) :
    x = y := by
  apply Nat.eq_of_testBit_eq
  intro i
  by_cases h : ∃ k, p k ∧ Covers (start k) (len k) i
  · obtain ⟨k, hk, hi⟩ := h
    rw [testBit_of_covers hi x, testBit_of_covers hi y, hin k hk]
  · exact hout i fun k hk hi => h ⟨k, hk, hi⟩

/-- Cutting a field to its low bits changes nothing exactly if the bits cut off are zero. -/
theorem field_eq_field_iff {x start low len : Nat} (h : low ≤ len) :
    field x start low = field x start len ↔
      ∀ i, start + low ≤ i → i < start + len → x.testBit i = false := by
  constructor
  · intro heq i hlow hlen
    -- bit `i - start` of the shorter field is not there
    have hbit : (field x start low).testBit (i - start) = false := by
      rw [testBit_field, decide_eq_false (by omega), Bool.false_and]
    rw [testBit_of_covers ⟨by omega, hlen⟩ x, ← heq, hbit]
  · intro hzero
    apply Nat.eq_of_testBit_eq
    intro k
    rw [testBit_field, testBit_field]
    by_cases hk : k < low
    · have hk' : k < len := Nat.lt_of_lt_of_le hk h
      simp [hk, hk']
    · by_cases hk' : k < len
      · simp [hk, hzero (start + k) (by omega) (by omega)]
      · simp [hk, hk']

/-! ## The sign bit of a field -/

/-- Flipping bit `k` of a number below `2 ^ (k + 1)` moves it by `2 ^ k` towards the other half. -/
theorem xor_two_pow {x k : Nat} (h : x < 2 ^ (k + 1)) :
    x ^^^ 2 ^ k = if x < 2 ^ k then x + 2 ^ k else x - 2 ^ k := by
  have hlow : ∀ y, y < 2 ^ k → y ^^^ 2 ^ k = y + 2 ^ k := by
    intro y hy
    apply Nat.eq_of_testBit_eq
    intro i
    have hadd := Nat.testBit_two_pow_mul_add 1 hy i
    rw [Nat.mul_one, Nat.add_comm] at hadd
    rw [hadd, Nat.testBit_xor, Nat.testBit_two_pow]
    by_cases hi : i < k
    · have hne : k ≠ i := by omega
      simp [hi, hne]
    · have hy0 : y.testBit i = false :=
        Nat.testBit_lt_two_pow (lt_of_lt_of_le hy (Nat.pow_le_pow_right (by decide) (by omega)))
      by_cases hk : k = i
      · simp [hk, hy0]
      · have hone : (1 : Nat).testBit (i - k) = false :=
          Bool.eq_false_iff.mpr (Nat.testBit_one_eq_true_iff_self_eq_zero.not.mpr (by omega))
        simp [hi, hk, hy0, hone]
  split
  · exact hlow x ‹_›
  · have hx : x = (x - 2 ^ k) + 2 ^ k := by omega
    have hlt : x - 2 ^ k < 2 ^ k := by rw [Nat.pow_succ] at h; omega
    rw [hx, ← hlow _ hlt, Nat.xor_xor_cancel_right, hlow _ hlt, Nat.add_sub_cancel]

end BitField
