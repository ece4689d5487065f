/-
  Speedometer.Lib.Stopping

  A thread that ends after a flag has been stored, and the code that stores the flag and
  waits for the thread to end.

  Once the flag is stored every step of the thread lowers its rank, whatever the outside
  answers, and as long as the thread has not ended it has a step to take.  So the wait
  is over after a bounded number of steps in every interleaving (`Stored.length_le`,
  `Stored.returns`).
-/

import Speedometer.Lib.Run

namespace Stopping

open Transition

/-- A thread with its flag and the rank of its states. -/
structure Thread (σ ε : Type) where
  step : σ → ε → Option σ
  /-- the store of the flag -/
  stop : σ → σ
  stopped : σ → Prop
  ended : σ → Bool
  rank : σ → Nat
  stop_stopped : ∀ s, stopped (stop s)
  step_stopped : ∀ {s e t}, stopped s → step s e = some t → stopped t
  step_rank : ∀ {s e t}, stopped s → step s e = some t → rank t + 1 ≤ rank s
  step_ended : ∀ {s} e, ended s = true → step s e = none
  progress : ∀ {s}, ended s = false → ∃ e t, step s e = some t

/-- The next thing the code that stops the thread does. -/
inductive Loc
  | store
  | wait
  | done
deriving DecidableEq, Repr

/-- The steps that code still has to take after the store. -/
def Loc.left : Loc → Nat
  | .store | .wait => 1
  | .done => 0

/-- The thread, and the code that stops it. -/
structure State (σ : Type) where
  thread : σ
  loc : Loc := .store
deriving DecidableEq

/-- What can happen next. -/
inductive Ev (ε : Type)
  | main
  | thread (e : ε)
deriving DecidableEq, Repr

variable {σ ε : Type} (T : Thread σ ε)

/-- A step of the code that stops the thread, or of the thread. -/
def step (s : State σ) : Ev ε → Option (State σ)
  | .main =>
      match s.loc with
      | .store => some { thread := T.stop s.thread, loc := .wait }
      | .wait => if T.ended s.thread then some { s with loc := .done } else none
      | .done => none
  | .thread e =>
      match T.step s.thread e with
      | some thread => some { s with thread }
      | none => none

variable {T} {s t : State σ}

/-- What a step of the thread is. -/
theorem step_thread {e : ε} (hs : step T s (.thread e) = some t) :
    ∃ thread, T.step s.thread e = some thread ∧ t = { s with thread } := by
  simp only [step] at hs
  split at hs
  · rename_i thread hthread
    simp only [Option.some.injEq] at hs
    exact ⟨thread, hthread, hs.symm⟩
  · cases hs

/-- What the store of the flag and every step of the thread keep. -/
theorem thread_invariant {I : σ → Prop} (hstop : ∀ s, I s → I (T.stop s))
    (hstep : ∀ s e t, I s → T.step s e = some t → I t) {es : List (Ev ε)} (h₀ : I s.thread)
    (hrun : Run (step T) Always s es t) : I t.thread := by
  refine hrun.invariant (I := fun s => I s.thread) h₀ fun s e t hi _ hs => ?_
  cases e with
  | main =>
      simp only [step] at hs
      split at hs
      · simp only [Option.some.injEq] at hs
        subst hs
        exact hstop _ hi
      · obtain ⟨-, rfl⟩ := of_guard hs
        exact hi
      · cases hs
  | thread e =>
      obtain ⟨thread, hthread, rfl⟩ := step_thread hs
      exact hstep _ _ _ hi hthread

/-- The flag is stored before the wait begins, and the wait is over when the thread has
    ended. -/
structure Inv (T : Thread σ ε) (s : State σ) : Prop where
  stopped : s.loc ≠ .store → T.stopped s.thread
  ended : s.loc = .done → T.ended s.thread = true

theorem Inv.step (h : Inv T s) {e : Ev ε} (hs : Stopping.step T s e = some t) : Inv T t := by
  cases e with
  | main =>
      simp only [Stopping.step] at hs
      split at hs
      · simp only [Option.some.injEq] at hs
        subst hs
        exact ⟨fun _ => T.stop_stopped _, nofun⟩
      · rename_i hl
        obtain ⟨hended, rfl⟩ := of_guard hs
        exact ⟨fun _ => h.stopped (by simp [hl]), fun _ => hended⟩
      · cases hs
  | thread e =>
      obtain ⟨thread, hthread, rfl⟩ := step_thread hs
      refine ⟨fun hl => T.step_stopped (h.stopped hl) hthread, fun hl => ?_⟩
      rw [T.step_ended e (h.ended hl)] at hthread
      cases hthread

/-- Once the flag is stored a step of either lowers what is left. -/
theorem step_left (h : Inv T s) (hl : s.loc ≠ .store) {e : Ev ε} (hs : step T s e = some t) :
    t.loc ≠ .store ∧ T.rank t.thread + t.loc.left + 1 ≤ T.rank s.thread + s.loc.left := by
  cases e with
  | main =>
      simp only [step] at hs
      split at hs
      · rename_i hstore
        exact absurd hstore hl
      · rename_i hwait
        obtain ⟨-, rfl⟩ := of_guard hs
        exact ⟨nofun, by simp [hwait, Loc.left]⟩
      · cases hs
  | thread e =>
      obtain ⟨thread, hthread, rfl⟩ := step_thread hs
      have hrank := T.step_rank (h.stopped hl) hthread
      refine ⟨hl, ?_⟩
      simp only
      omega

/-- What holds once the flag is stored. -/
structure Stored (T : Thread σ ε) (s : State σ) : Prop extends Inv T s where
  stored : s.loc ≠ .store

theorem Stored.step (h : Stored T s) {e : Ev ε} (hs : Stopping.step T s e = some t) :
    Stored T t :=
  ⟨h.toInv.step hs, (step_left h.toInv h.stored hs).1⟩

/-- Once the flag is stored every run is bounded by the rank of the thread. -/
theorem Stored.length_le (h : Stored T s) {es : List (Ev ε)}
    (hrun : Run (Stopping.step T) Always s es t) :
    es.length + T.rank t.thread + t.loc.left ≤ T.rank s.thread + s.loc.left := by
  have hle := hrun.countP_le (I := Stored T) (p := fun _ => true)
    (φ := fun s => T.rank s.thread + s.loc.left) h (fun _ _ _ hi _ hs => hi.step hs)
    fun _ _ _ hi _ hs => (step_left hi.toInv hi.stored hs).2
  rw [List.countP_true] at hle
  omega

/-- A step of the thread of a kind. -/
def Ev.isThread (p : ε → Bool) : Ev ε → Bool
  | .main => false
  | .thread e => p e

/-- What the thread can do a bounded number of times after the flag it does so often in
    every run. -/
theorem Stored.countP_le (h : Stored T s) {p : ε → Bool} {φ : σ → Nat}
    (hφ : ∀ {s e t}, T.stopped s → T.step s e = some t →
      φ t + (if p e then 1 else 0) ≤ φ s) {es : List (Ev ε)}
    (hrun : Run (Stopping.step T) Always s es t) : es.countP (Ev.isThread p) ≤ φ s.thread := by
  have hle := hrun.countP_le (I := Stored T) (p := Ev.isThread p) (φ := fun s => φ s.thread) h
    (fun _ _ _ hi _ hs => hi.step hs) ?_
  · omega
  · intro s e t hi _ hs
    cases e with
    | main =>
        have hthread : t.thread = s.thread := by
          simp only [Stopping.step] at hs
          split at hs
          · rename_i hstore
            exact absurd hstore hi.stored
          · obtain ⟨-, rfl⟩ := of_guard hs
            rfl
          · cases hs
        simp [hthread, Ev.isThread]
    | thread e =>
        obtain ⟨thread, hthread, rfl⟩ := step_thread hs
        exact hφ (hi.stopped hi.stored) hthread

/-- Only when the wait is over nothing can happen any more. -/
theorem done_of_stuck (hstuck : ∀ e, step T s e = none) : s.loc = .done := by
  cases hl : s.loc with
  | done => rfl
  | store =>
      have h := hstuck .main
      simp [step, hl] at h
  | wait =>
      cases hended : T.ended s.thread with
      | true =>
          have h := hstuck .main
          simp [step, hl, hended] at h
      | false =>
          obtain ⟨e, thread, hthread⟩ := T.progress hended
          have h := hstuck (.thread e)
          simp [step, hthread] at h

/-- With a bound on the ranks: the wait is over after so many steps and one more, and then
    the thread has ended. -/
theorem Stored.returns (h : Stored T s) {n : Nat} (hrank : ∀ s, T.rank s ≤ n) {es : List (Ev ε)}
    (hrun : Run (Stopping.step T) Always s es t) :
    es.length ≤ n + 1 ∧
      ((∀ e, Stopping.step T t e = none) → t.loc = .done ∧ T.ended t.thread = true) := by
  refine ⟨?_, fun hstuck => ?_⟩
  · have hle := h.length_le hrun
    have hbound := hrank s.thread
    have hleft : s.loc.left ≤ 1 := by cases s.loc <;> decide
    omega
  · have hdone := done_of_stuck hstuck
    have hend : Stored T t := hrun.invariant h fun _ _ _ hi _ hs => hi.step hs
    exact ⟨hdone, hend.ended hdone⟩

/-- A run from before the store. -/
theorem stored_of_run {thread : σ} {es : List (Ev ε)}
    (hrun : Run (Stopping.step T) Always { thread } es s) (hstored : s.loc ≠ .store) :
    Stored T s :=
  ⟨hrun.invariant ⟨nofun, nofun⟩ fun _ _ _ hi _ hs => hi.step hs, hstored⟩

end Stopping
