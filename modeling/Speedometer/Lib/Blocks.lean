/-
  Speedometer.Lib.Blocks

  Cutting a list into consecutive blocks of one size.

  `blocks n l` is the list of the whole blocks of `n` elements of `l`, counted
  from its first element; a rest of fewer than `n` elements belongs to none.
-/

import Mathlib.Data.List.Basic

namespace Blocks

variable {α : Type}

/-- The whole blocks of `n` elements of a list, from its start. -/
def blocks (n : Nat) (l : List α) : List (List α) :=
  (List.range (l.length / n)).map fun i => (l.drop (i * n)).take n

@[simp] theorem length_blocks (n : Nat) (l : List α) : (blocks n l).length = l.length / n := by
  simp [blocks]

@[simp] theorem blocks_nil (n : Nat) : blocks n ([] : List α) = [] := by simp [blocks]

/-- A list shorter than a block has none. -/
theorem blocks_of_length_lt {n : Nat} {l : List α} (h : l.length < n) : blocks n l = [] := by
  simp [blocks, Nat.div_eq_of_lt h]

/-- A list as long as a block is its only one. -/
theorem blocks_of_length_eq {n : Nat} {l : List α} (hn : 0 < n) (h : l.length = n) :
    blocks n l = [l] := by
  rw [blocks, h, Nat.div_self hn]
  simp [← h]

/-- The blocks of a prefix are the first blocks of the list. -/
theorem blocks_take {n t : Nat} {l : List α} (ht : t ≤ l.length) :
    blocks n (l.take t) = (blocks n l).take (t / n) := by
  have hle : t / n ≤ l.length / n := Nat.div_le_div_right ht
  rw [blocks, blocks, List.length_take, Nat.min_eq_left ht, ← List.map_take, List.take_range,
    Nat.min_eq_left hle]
  apply List.map_congr_left
  intro i hi
  have hblock : i * n + n ≤ t := by
    have h := Nat.mul_le_mul_right n (Nat.succ_le_of_lt (List.mem_range.mp hi))
    rw [Nat.succ_mul] at h
    exact Nat.le_trans h (Nat.div_mul_le_self t n)
  rw [List.drop_take, List.take_take, Nat.min_eq_left (by omega)]

/-- A prefix that ends inside a block has the blocks before it. -/
theorem blocks_take_add {n m r : Nat} {l : List α} (hr : r < n) (h : m * n + r ≤ l.length) :
    blocks n (l.take (m * n + r)) = blocks n (l.take (m * n)) := by
  rw [blocks_take h, blocks_take (by omega), Nat.mul_comm m n, Nat.mul_add_div (by omega),
    Nat.div_eq_of_lt hr, Nat.mul_div_cancel_left _ (by omega), Nat.add_zero]

/-- One more whole block. -/
theorem blocks_take_succ {n m : Nat} {l : List α} (hn : 0 < n) (h : m * n + n ≤ l.length) :
    blocks n (l.take (m * n + n)) =
      blocks n (l.take (m * n)) ++ [(l.drop (m * n)).take n] := by
  have hlt : m < l.length / n := by
    rw [Nat.lt_iff_add_one_le, Nat.le_div_iff_mul_le hn, Nat.succ_mul]
    exact h
  rw [blocks_take h, blocks_take (by omega), ← Nat.succ_mul, Nat.mul_div_cancel _ hn,
    Nat.mul_div_cancel _ hn, Nat.succ_eq_add_one,
    List.take_succ_eq_append_getElem (by rwa [length_blocks])]
  simp [blocks]

/-- Appending to a whole number of blocks keeps them. -/
theorem blocks_append {n : Nat} {l l' : List α} (hn : 0 < n) (h : l.length % n = 0) :
    blocks n (l ++ l') = blocks n l ++ blocks n l' := by
  obtain ⟨m, hm⟩ := Nat.dvd_of_mod_eq_zero h
  have hfirst : blocks n l = (blocks n (l ++ l')).take m := by
    have htake := blocks_take (n := n) (t := l.length) (l := l ++ l') (by simp)
    rwa [List.take_left, hm, Nat.mul_div_cancel_left _ hn] at htake
  have hsecond : blocks n l' = (blocks n (l ++ l')).drop m := by
    apply List.ext_getElem
    · rw [List.length_drop, length_blocks, length_blocks, List.length_append, hm,
        Nat.mul_add_div hn, Nat.add_sub_cancel_left]
    · intro i _ _
      have hidx : (m + i) * n = l.length + i * n := by rw [Nat.add_mul, hm, Nat.mul_comm]
      simp only [blocks, List.getElem_drop, List.getElem_map, List.getElem_range]
      have hnil : l.drop (l.length + i * n) = [] := List.drop_of_length_le (by omega)
      rw [hidx, List.drop_append, hnil, List.nil_append, Nat.add_sub_cancel_left]
  rw [hfirst, hsecond, List.take_append_drop]

/-- Appending the first `k` elements of a block after a whole number of them: one more block
    if these are all of its elements. -/
theorem blocks_append_take {n k : Nat} {l block : List α} (hn : 0 < n)
    (hblock : block.length = n) (hk : k ≤ n) (hwhole : 0 < k → l.length % n = 0) :
    blocks n (l ++ block.take k) = blocks n l ++ if k = n then [block] else [] := by
  have hlen : (block.take k).length = k := by
    rw [List.length_take, hblock, Nat.min_eq_left hk]
  rcases Nat.eq_zero_or_pos k with rfl | hpos
  · rw [List.take_zero, List.append_nil, if_neg (Nat.ne_of_lt hn), List.append_nil]
  · -- a boundary: the block begun now is cut on its own
    rw [blocks_append hn (hwhole hpos)]
    by_cases hfull : k = n
    · have hall : block.take k = block := List.take_of_length_le (by omega)
      rw [if_pos hfull, hall, blocks_of_length_eq hn hblock]
    · have hnone : blocks n (block.take k) = [] := blocks_of_length_lt (by omega)
      rw [if_neg hfull, hnone]

/-- Blocks put one after the other are the blocks of the result. -/
theorem blocks_flatten {n : Nat} {ls : List (List α)} (hn : 0 < n) (h : ∀ l ∈ ls, l.length = n) :
    blocks n ls.flatten = ls := by
  induction ls with
  | nil => simp
  | cons l ls ih =>
      have hl : l.length = n := h l List.mem_cons_self
      rw [List.flatten_cons, blocks_append hn (by rw [hl, Nat.mod_self]), blocks_of_length_eq hn hl,
        ih fun l' hl' => h l' (List.mem_cons_of_mem _ hl')]
      rfl

end Blocks
