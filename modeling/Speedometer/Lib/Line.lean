/-
  Speedometer.Lib.Line

  A line without delimiters: frames of one length, sent one after the other, and
  the queue a receiver takes their elements from.

  Positions count the elements sent since the line began.  A receiver that takes
  `n` elements from a position divisible by `n` has taken one frame
  (`slice_frame`), and the blocks of the line are its frames (`blocks_slice`).
  `whole` is the list of the frames that end up to a position; a receiver that drops
  frames and keeps the order of the others has a sublist of it.
-/

import Mathlib.Algebra.Ring.Nat
import Mathlib.Data.List.Basic
import Speedometer.Lib.Blocks

namespace Line

open Blocks

variable {α : Type} {n : Nat} [NeZero n]

/-- The element at a position of the line. -/
def elem (frames : Nat → Vector α n) (p : Nat) : α :=
  (frames (p / n)).get ⟨p % n, Nat.mod_lt p (Nat.pos_of_neZero n)⟩

/-- The elements at the `len` positions from `p` on. -/
def slice (frames : Nat → Vector α n) (p len : Nat) : List α :=
  (List.range len).map fun i => elem frames (p + i)

/-- Inside a frame the elements of the line are the frame's. -/
theorem elem_frame (frames : Nat → Vector α n) (j : Nat) {i : Nat} (hi : i < n) :
    elem frames (n * j + i) = (frames j)[i] := by
  have hdiv : (n * j + i) / n = j := by
    rw [Nat.mul_add_div (Nat.pos_of_neZero n), Nat.div_eq_of_lt hi, Nat.add_zero]
  have hmod : (n * j + i) % n = i := by rw [Nat.mul_add_mod, Nat.mod_eq_of_lt hi]
  simp only [elem, hdiv, hmod]
  rfl

/-- `n` elements from the start of a frame on are that frame. -/
theorem slice_frame (frames : Nat → Vector α n) {p : Nat} (hp : p % n = 0) :
    slice frames p n = (frames (p / n)).toList := by
  obtain ⟨j, rfl⟩ := Nat.dvd_of_mod_eq_zero hp
  rw [Nat.mul_div_cancel_left j (Nat.pos_of_neZero n)]
  apply List.ext_getElem
  · simp [slice]
  · intro i hi _
    simp only [slice, List.length_map, List.length_range] at hi
    simp only [slice, List.getElem_map, List.getElem_range, Vector.getElem_toList]
    exact elem_frame frames j hi

theorem slice_add (frames : Nat → Vector α n) (p a b : Nat) :
    slice frames p (a + b) = slice frames p a ++ slice frames (p + a) b := by
  simp [slice, List.range_add, Nat.add_assoc]

/-- The blocks of a line from its beginning are its frames. -/
theorem blocks_slice (frames : Nat → Vector α n) (k : Nat) :
    blocks n (slice frames 0 (n * k)) = (List.range k).map fun j => (frames j).toList := by
  have hn : 0 < n := Nat.pos_of_neZero n
  induction k with
  | zero => simp [slice]
  | succ k ih =>
      have hframe : slice frames (n * k) n = (frames k).toList := by
        rw [slice_frame frames (Nat.mul_mod_right n k), Nat.mul_div_cancel_left k hn]
      rw [Nat.mul_succ, slice_add, Nat.zero_add, hframe, blocks_append hn (by simp [slice]), ih,
        blocks_of_length_eq hn (by simp), List.range_succ, List.map_append]
      rfl

/-! ## The frames up to a position -/

/-- The frames that end at a position of the line or before it. -/
def whole (frames : Nat → Vector α n) (p : Nat) : List (Vector α n) :=
  (List.range (p / n)).map frames

omit [NeZero n] in
@[simp] theorem whole_zero (frames : Nat → Vector α n) : whole frames 0 = [] := by
  simp [whole]

omit [NeZero n] in
/-- Further down the line there are more of them. -/
theorem whole_sublist (frames : Nat → Vector α n) {p q : Nat} (h : p ≤ q) :
    (whole frames p).Sublist (whole frames q) :=
  (List.range_sublist.mpr (Nat.div_le_div_right h)).map frames

/-- One frame further there is one more. -/
theorem whole_add (frames : Nat → Vector α n) (p : Nat) :
    whole frames (p + n) = whole frames p ++ [frames (p / n)] := by
  rw [whole, Nat.add_div_right p (Nat.pos_of_neZero n), List.range_succ, List.map_append]
  rfl

/-- The whole frames up to a position are the blocks of the line up to it. -/
theorem map_whole (frames : Nat → Vector α n) (p : Nat) :
    (whole frames p).map Vector.toList = blocks n (slice frames 0 (n * (p / n))) := by
  rw [blocks_slice, whole, List.map_map]
  rfl

/-! ## The line of a list -/

/-- The elements of a list as a line; what lies past its end is not used. -/
def ofElems (l : List α) (d : α) (j : Nat) : Vector α n := Vector.ofFn fun i => l.getD (n * j + i) d

theorem elem_ofElems (l : List α) (d : α) (p : Nat) :
    elem (ofElems (n := n) l d) p = l.getD p d := by
  have hp : n * (p / n) + p % n = p := Nat.div_add_mod p n
  have hmod : p % n < n := Nat.mod_lt p (Nat.pos_of_neZero n)
  have helem := elem_frame (ofElems (n := n) l d) (p / n) hmod
  rw [hp] at helem
  rw [helem, ofElems, Vector.getElem_ofFn, hp]

theorem slice_ofElems {l : List α} {p len : Nat} (d : α) (h : p + len ≤ l.length) :
    slice (ofElems (n := n) l d) p len = (l.drop p).take len := by
  apply List.ext_getElem
  · simp only [slice, List.length_map, List.length_range, List.length_take, List.length_drop]
    omega
  · intro i hi _
    simp only [slice, List.length_map, List.length_range] at hi
    have hin : p + i < l.length := by omega
    simp [slice, elem_ofElems, List.getD, hin]

/-- Where both have elements, a longer list is the same line. -/
theorem slice_ofElems_of_grown {l l' : List α} {p len : Nat} (d : α) (hl : l <+: l')
    (h : p + len ≤ l.length) :
    slice (ofElems (n := n) l' d) p len = slice (ofElems (n := n) l d) p len := by
  obtain ⟨tail, rfl⟩ := hl
  have hlen : (l ++ tail).length = l.length + tail.length := List.length_append
  rw [slice_ofElems d h, slice_ofElems d (by omega), List.drop_append_of_le_length (by omega),
    List.take_append_of_le_length (by rw [List.length_drop]; omega)]

/-- The whole frames of a list are its blocks. -/
theorem map_whole_ofElems {l : List α} {p : Nat} (d : α) (h : p ≤ l.length) :
    (whole (ofElems (n := n) l d) p).map Vector.toList = blocks n (l.take p) := by
  have hle : n * (p / n) ≤ p := Nat.mul_div_le p n
  rw [map_whole, slice_ofElems d (by omega), List.drop_zero, blocks_take (by omega),
    blocks_take h, Nat.mul_div_cancel_left _ (Nat.pos_of_neZero n)]

/-- They are among the blocks of every longer list. -/
theorem map_whole_ofElems_sublist {l l' : List α} {p : Nat} (d : α) (h : p ≤ l.length)
    (hl : l <+: l') :
    ((whole (ofElems (n := n) l d) p).map Vector.toList).Sublist (blocks n l') := by
  have hle := Nat.le_trans h hl.length_le
  have htake : l.take p = l'.take p := by
    rw [List.prefix_iff_eq_take.mp hl, List.take_take, Nat.min_eq_left h]
  rw [map_whole_ofElems d h, htake, blocks_take hle]
  exact List.take_sublist _ _

/-- A receive queue: what has arrived, and the first position still in it. -/
structure Fifo where
  arrived : Nat
  first : Nat
  first_le : first ≤ arrived
deriving DecidableEq

namespace Fifo

/-- Nothing has arrived. -/
def empty : Fifo := ⟨0, 0, Nat.le_refl 0⟩

/-- One more element arrives. -/
def arrive (q : Fifo) : Fifo := ⟨q.arrived + 1, q.first, Nat.le_succ_of_le q.first_le⟩

/-- Everything that has arrived is discarded. -/
def clear (q : Fifo) : Fifo := ⟨q.arrived, q.arrived, Nat.le_refl _⟩

/-- The number of elements that can be taken. -/
def available (q : Fifo) : Nat := q.arrived - q.first

/-- Up to `k` elements are taken. -/
def take (q : Fifo) (k : Nat) : Fifo :=
  ⟨q.arrived, min (q.first + k) q.arrived, Nat.min_le_right _ _⟩

theorem first_le_take (q : Fifo) (k : Nat) : q.first ≤ (q.take k).first := by
  have hle := q.first_le
  simp only [take]
  omega

/-- Taking no more than there is moves the first position by as much. -/
theorem take_first {q : Fifo} {k : Nat} (hk : k ≤ q.available) :
    (q.take k).first = q.first + k := by
  have hle := q.first_le
  simp only [available] at hk
  simp only [take]
  omega

end Fifo
end Line
