/-
  Speedometer.Lib.History

  The values a cell has had, and streams of copies that are taken of it.

  An instant is a position in the history of the cell.  A writer copies the cell and sends
  the copy, whole or in part; `Copied` is about the copy, `Dated` about a stream it has been
  sent on: its blocks are values of the history, at instants that never go back.
-/

import Speedometer.Lib.Blocks

namespace History

open Blocks

/-! ## The copy -/

/-- A cell with its history, and the copy of it that was taken at the instant `snap`, which
    counts as long as it is held. -/
structure Copied {β : Type} (hist : List β) (cell : β) (snap : Nat) (held : Prop) (copy : β) :
    Prop where
  current : hist.getLast? = some cell
  copied : held → hist[snap]? = some copy
  snap_lt : snap < hist.length

namespace Copied

variable {β : Type} {hist : List β} {cell copy copy' : β} {snap : Nat} {held held' : Prop}

/-- Nothing has been copied yet. -/
theorem start (cell copy : β) (h : ¬held) : Copied [cell] cell 0 held copy where
  current := rfl
  copied := fun hheld => absurd hheld h
  snap_lt := Nat.zero_lt_one

/-- The latest instant is no earlier than that of the copy. -/
theorem le_last (h : Copied hist cell snap held copy) : snap ≤ hist.length - 1 :=
  Nat.le_sub_one_of_lt h.snap_lt

/-- The copy is given up. -/
theorem release (h : Copied hist cell snap held copy) (hno : ¬held') :
    Copied hist cell snap held' copy' where
  current := h.current
  copied := fun hheld => absurd hheld hno
  snap_lt := h.snap_lt

/-- A new copy is the value at the latest instant. -/
theorem take (h : Copied hist cell snap held copy) :
    Copied hist cell (hist.length - 1) held' cell where
  current := h.current
  copied := by
    intro _
    rw [← h.current, List.getLast?_eq_getElem?]
  snap_lt := Nat.sub_one_lt_of_lt h.snap_lt

/-- A new value of the cell adds an instant. -/
theorem store (h : Copied hist cell snap held copy) (b : β) :
    Copied (hist ++ [b]) b snap held copy where
  current := List.getLast?_concat
  copied := by
    intro hheld
    rw [List.getElem?_append_left h.snap_lt]
    exact h.copied hheld
  snap_lt := by
    rw [List.length_append]
    exact Nat.lt_add_right _ h.snap_lt

end Copied

/-! ## The stream -/

variable {α : Type} {n : Nat}

/-- The blocks of a stream are the values at the given instants, which never go back and
    are no later than `snap`. -/
structure Dated (hist : List (Vector α n)) (snap : Nat) (l : List α) (instants : List Nat) :
    Prop where
  blocks_eq : (blocks n l).map some = instants.map fun t => hist[t]?.map Vector.toList
  le : ∀ t ∈ instants, t ≤ snap
  sorted : instants.Pairwise (· ≤ ·)

namespace Dated

variable {hist : List (Vector α n)} {snap snap' : Nat} {l : List α} {instants : List Nat}

theorem nil (hist : List (Vector α n)) (snap : Nat) : Dated hist snap [] [] where
  blocks_eq := by simp
  le := by simp
  sorted := List.Pairwise.nil

theorem later (h : Dated hist snap l instants) (hle : snap ≤ snap') :
    Dated hist snap' l instants where
  blocks_eq := h.blocks_eq
  le := fun t ht => Nat.le_trans (h.le t ht) hle
  sorted := h.sorted

/-- Instants of earlier copies still name the same values. -/
theorem store (h : Dated hist snap l instants) (hlt : snap < hist.length) (b : Vector α n) :
    Dated (hist ++ [b]) snap l instants where
  blocks_eq := by
    rw [h.blocks_eq]
    apply List.map_congr_left
    intro t ht
    rw [List.getElem?_append_left (Nat.lt_of_le_of_lt (h.le t ht) hlt)]
  le := h.le
  sorted := h.sorted

/-- The copy is sent after a whole number of blocks, and all of it only if `k` is `n`. -/
theorem send (h : Dated hist snap l instants) (hn : 0 < n) {copy : Vector α n}
    (hcopy : hist[snap]? = some copy) {k : Nat} (hk : k ≤ n)
    (hwhole : 0 < k → l.length % n = 0) :
    Dated hist snap (l ++ copy.toList.take k) (instants ++ if k = n then [snap] else []) where
  blocks_eq := by
    rw [blocks_append_take hn Vector.length_toList hk hwhole, List.map_append, List.map_append,
      h.blocks_eq]
    by_cases hfull : k = n
    · simp [hfull, hcopy]
    · simp [hfull]
  le := by
    intro t ht
    rcases List.mem_append.mp ht with ht | ht
    · exact h.le t ht
    · simp only [List.mem_ite_nil_right, List.mem_singleton] at ht
      exact Nat.le_of_eq ht.2
  sorted := by
    rw [List.pairwise_append]
    refine ⟨h.sorted, by split <;> simp, ?_⟩
    intro t ht t' ht'
    simp only [List.mem_ite_nil_right, List.mem_singleton] at ht'
    exact ht'.2 ▸ h.le t ht

/-- Cutting the stream between two blocks keeps those before. -/
theorem cut {l l' : List α} (h : Dated hist snap (l ++ l') instants) (hn : 0 < n)
    (hwhole : l.length % n = 0) : Dated hist snap l (instants.take (l.length / n)) where
  blocks_eq := by
    have htake := h.blocks_eq
    rw [blocks_append hn hwhole, List.map_append] at htake
    have hlen : ((blocks n l).map some).length = l.length / n := by simp
    rw [List.map_take, ← htake, ← hlen, List.take_left]
  le := fun t ht => h.le t (List.mem_of_mem_take ht)
  sorted := h.sorted.sublist (List.take_sublist _ _)

end Dated
end History
