/-
  Speedometer.Lib.Descriptors

  The file descriptors a program has obtained, and what it has done with each.

  Numbers are reused once their descriptor is closed, so a table keeps one entry
  for each time a number was handed out, the latest first; an operation on a number
  concerns its latest entry.  `Held` is the table of a program that holds exactly
  one open descriptor and has closed all earlier ones once.
-/

namespace Descriptors

/-- A descriptor that was obtained: how often it was closed, and whether it was shut
    down. -/
structure Entry where
  fd : Int
  closes : Nat := 0
  shut : Bool := false
deriving DecidableEq, Repr

/-- All descriptors obtained, the latest first. -/
abbrev Table := List Entry

namespace Table

/-- The number is not that of an open descriptor. -/
def Fresh (t : Table) (fd : Int) : Prop := ∀ d ∈ t, d.fd = fd → 0 < d.closes

instance (t : Table) (fd : Int) : Decidable (t.Fresh fd) :=
  inferInstanceAs (Decidable (∀ d ∈ t, d.fd = fd → 0 < d.closes))

/-- A descriptor is obtained. -/
def add (t : Table) (fd : Int) : Table := { fd } :: t

/-- A change of the latest entry of a number. -/
def update (fd : Int) (f : Entry → Entry) : Table → Table
  | [] => []
  | d :: t => if d.fd = fd then f d :: t else d :: update fd f t

/-- `close(fd)`. -/
def close (t : Table) (fd : Int) : Table := t.update fd fun d => { d with closes := d.closes + 1 }

/-- `shutdown(fd, ...)`. -/
def shutdown (t : Table) (fd : Int) : Table := t.update fd fun d => { d with shut := true }

/-- Every descriptor has been closed exactly once. -/
def ClosedOnce (t : Table) : Prop := ∀ d ∈ t, d.closes = 1

instance (t : Table) : Decidable t.ClosedOnce :=
  inferInstanceAs (Decidable (∀ d ∈ t, d.closes = 1))

/-- The latest descriptor is open and has the given number; all others have been closed
    exactly once. -/
def Held (t : Table) (fd : Int) : Prop :=
  ∃ shut rest, t = ⟨fd, 0, shut⟩ :: rest ∧ ClosedOnce rest

/-- The latest descriptor has the given number and has been shut down. -/
def Shut (t : Table) (fd : Int) : Prop := ∃ d rest, t = d :: rest ∧ d.fd = fd ∧ d.shut = true

variable {t : Table} {fd : Int}

theorem ClosedOnce.add (h : t.ClosedOnce) (fd : Int) : (t.add fd).Held fd :=
  ⟨false, t, rfl, h⟩

theorem Held.close (h : t.Held fd) : (t.close fd).ClosedOnce := by
  obtain ⟨shut, rest, rfl, hrest⟩ := h
  simp only [Table.close, update, if_true]
  intro d hd
  rcases List.mem_cons.mp hd with rfl | hd
  · rfl
  · exact hrest d hd

theorem Held.shutdown_shut (h : t.Held fd) : (t.shutdown fd).Shut fd := by
  obtain ⟨shut, rest, rfl, hrest⟩ := h
  simp only [Table.shutdown, update, if_true]
  exact ⟨_, rest, rfl, rfl, rfl⟩

/-- A shutdown closes nothing. -/
theorem closes_shutdown (t : Table) (fd : Int) :
    (t.shutdown fd).map (·.closes) = t.map (·.closes) := by
  unfold shutdown
  induction t with
  | nil => rfl
  | cons d t ih =>
      simp only [update]
      split
      · rfl
      · simp only [List.map_cons, ih]

theorem ClosedOnce.shutdown (h : t.ClosedOnce) (fd : Int) : (t.shutdown fd).ClosedOnce := by
  intro d hd
  have hmem : d.closes ∈ (t.shutdown fd).map (·.closes) := List.mem_map_of_mem hd
  rw [closes_shutdown, List.mem_map] at hmem
  obtain ⟨d', hd', heq⟩ := hmem
  rw [← heq]
  exact h d' hd'

theorem Held.shutdown (h : t.Held fd) (fd' : Int) : (t.shutdown fd').Held fd := by
  obtain ⟨shut, rest, rfl, hrest⟩ := h
  simp only [Table.shutdown, update]
  split
  · exact ⟨true, rest, rfl, hrest⟩
  · exact ⟨shut, _, rfl, hrest.shutdown fd'⟩

/-! ### Parts of a table -/

theorem update_append_left {t t' : Table} {f : Entry → Entry} (h : ∃ d ∈ t, d.fd = fd) :
    update fd f (t ++ t') = update fd f t ++ t' := by
  induction t with
  | nil => simp at h
  | cons d t ih =>
      simp only [List.cons_append, update]
      split
      · rfl
      · rename_i hne
        obtain ⟨d', hd', heq⟩ := h
        have hmem : d' ∈ t := (List.mem_cons.mp hd').resolve_left fun h => hne (h ▸ heq)
        rw [ih ⟨d', hmem, heq⟩, List.cons_append]

theorem update_append_right {t t' : Table} {f : Entry → Entry} (h : ∀ d ∈ t, d.fd ≠ fd) :
    update fd f (t ++ t') = t ++ update fd f t' := by
  induction t with
  | nil => rfl
  | cons d t ih =>
      simp only [List.cons_append, update]
      rw [if_neg (h d List.mem_cons_self), ih fun d hd => h d (List.mem_cons_of_mem _ hd)]

theorem Held.mem (h : t.Held fd) : ∃ d ∈ t, d.fd = fd := by
  obtain ⟨shut, rest, rfl, -⟩ := h
  exact ⟨_, List.mem_cons_self, rfl⟩

/-- A change that keeps the numbers. -/
theorem map_fd_update {f : Entry → Entry} (hf : ∀ d, (f d).fd = d.fd) (t : Table) :
    (update fd f t).map (·.fd) = t.map (·.fd) := by
  induction t with
  | nil => rfl
  | cons d t ih =>
      simp only [update]
      split
      · rw [List.map_cons, List.map_cons, hf]
      · rw [List.map_cons, List.map_cons, ih]

/-- How many descriptors are open. -/
def opened (t : Table) : Nat := t.countP fun d => d.closes = 0

theorem ClosedOnce.opened (h : t.ClosedOnce) : t.opened = 0 := by
  refine List.countP_eq_zero.mpr fun d hd => ?_
  simp [h d hd]

theorem Held.opened (h : t.Held fd) : t.opened = 1 := by
  obtain ⟨shut, rest, rfl, hrest⟩ := h
  simpa [Table.opened, List.countP_cons] using hrest.opened

theorem Held.closes_le (h : t.Held fd) : ∀ d ∈ t, d.closes ≤ 1 := by
  obtain ⟨shut, rest, rfl, hrest⟩ := h
  intro d hd
  rcases List.mem_cons.mp hd with rfl | hd
  · exact Nat.zero_le _
  · exact Nat.le_of_eq (hrest d hd)

end Table
end Descriptors
