/-
  Speedometer.Lib.Run

  Runs of a deterministic machine driven by events, and the induction rules
  over them.

  A machine is a function `step : σ → ε → Option σ`: the state after an event,
  or `none` when the event cannot happen in that state.  Interleavings of
  several parties, and whatever the outside decides, are in the choice of the
  events.  `Run step allowed s es t` is a run from `s` to `t` all of whose
  steps meet the condition `allowed`; `Always` is the condition every step
  meets.
-/

namespace Transition

variable {σ ε : Type}

/-- The condition that every step meets. -/
def Always : σ → ε → Prop := fun _ _ => True

/-- The events `es`, taken one after the other from `s` and each `allowed` where
    it is taken, lead to `t`. -/
inductive Run (step : σ → ε → Option σ) (allowed : σ → ε → Prop) (s : σ) : List ε → σ → Prop
  | nil : Run step allowed s [] s
  | snoc {es : List ε} {t u : σ} {e : ε} :
      Run step allowed s es t → allowed t e → step t e = some u →
      Run step allowed s (es ++ [e]) u

/-- The state after a list of events, if each can happen and is allowed. -/
def exec (step : σ → ε → Option σ) (allowed : σ → ε → Prop) [∀ s e, Decidable (allowed s e)] :
    σ → List ε → Option σ
  | s, [] => some s
  | s, e :: es =>
      if allowed s e then
        match step s e with
        | some t => exec step allowed t es
        | none => none
      else none

theorem exec_cons {step : σ → ε → Option σ} {allowed : σ → ε → Prop}
    [∀ s e, Decidable (allowed s e)] {s t : σ} {e : ε} {es : List ε} (hallow : allowed s e)
    (hstep : step s e = some t) : exec step allowed s (e :: es) = exec step allowed t es := by
  simp only [exec, if_pos hallow, hstep]

instance (s : σ) (e : ε) : Decidable (Always s e) := inferInstanceAs (Decidable True)

/-- A guarded step that was taken met its guard. -/
theorem of_guard {c : Prop} {_ : Decidable c} {s t : σ}
    (h : (if c then some s else none) = some t) : c ∧ s = t := by
  simpa only [Option.ite_none_right_eq_some, Option.some.injEq] using h

namespace Run

variable {step : σ → ε → Option σ} {allowed : σ → ε → Prop} {s t u : σ} {es fs : List ε}

theorem append (h₁ : Run step allowed s es t) (h₂ : Run step allowed t fs u) :
    Run step allowed s (es ++ fs) u := by
  induction h₂ with
  | nil => simpa using h₁
  | snoc _ hallow hstep ih =>
      rw [← List.append_assoc]
      exact snoc ih hallow hstep

theorem single {e : ε} (hallow : allowed s e) (hstep : step s e = some t) :
    Run step allowed s [e] t :=
  snoc nil hallow hstep

/-- What can be executed is a run. -/
theorem of_exec [∀ s e, Decidable (allowed s e)] (h : exec step allowed s es = some t) :
    Run step allowed s es t := by
  induction es generalizing s with
  | nil =>
      simp only [exec, Option.some.injEq] at h
      exact h ▸ nil
  | cons e es ih =>
      simp only [exec] at h
      split at h
      · rename_i hallow
        split at h
        · rename_i s' hstep
          exact append (single hallow hstep) (ih h)
        · cases h
      · cases h

/-- A run found by executing it, with what can be decided of its end. -/
theorem exists_of_exec [∀ s e, Decidable (allowed s e)] {p : σ → Prop} [DecidablePred p]
    (h : (exec step allowed s es).any (fun t => decide (p t)) = true) :
    ∃ t, Run step allowed s es t ∧ p t := by
  obtain ⟨t, ht, hp⟩ := (Option.any_eq_true _ _).mp h
  exact ⟨t, of_exec ht, of_decide_eq_true hp⟩

/-- A property of the start that every allowed step keeps holds at the end. -/
theorem invariant {I : σ → Prop} (h : Run step allowed s es t) (h₀ : I s)
    (hstep : ∀ t e u, I t → allowed t e → step t e = some u → I u) : I t := by
  induction h with
  | nil => exact h₀
  | snoc _ hallow hs ih => exact hstep _ _ _ ih hallow hs

/-- An invariant rule that may use a property already known of every state of the
    run. -/
theorem invariant_of {I J : σ → Prop} (h : Run step allowed s es t)
    (hJ : ∀ {fs u}, Run step allowed s fs u → J u) (h₀ : I s)
    (hstep : ∀ t e u, J t → I t → allowed t e → step t e = some u → I u) : I t := by
  induction h with
  | nil => exact h₀
  | snoc hrun hallow hs ih => exact hstep _ _ _ (hJ hrun) ih hallow hs

/-- A quantity that each event of a kind uses up, and that no event restores, bounds
    how many of them a run can have. -/
theorem countP_le {I : σ → Prop} {p : ε → Bool} {φ : σ → Nat} (h : Run step allowed s es t)
    (h₀ : I s) (hinv : ∀ t e u, I t → allowed t e → step t e = some u → I u)
    (hstep : ∀ t e u, I t → allowed t e → step t e = some u →
      φ u + (if p e then 1 else 0) ≤ φ t) :
    es.countP p + φ t ≤ φ s := by
  induction h with
  | nil => simp
  | @snoc es t u e hrun hallow hs ih =>
      have ht : I t := hrun.invariant h₀ hinv
      have hle := hstep t e u ht hallow hs
      rw [List.countP_append, List.countP_singleton]
      omega

/-- A quantity that each event of a kind adds to, and that no event lowers, counts them
    along a run. -/
theorem add_countP_le {I : σ → Prop} {p : ε → Bool} {φ : σ → Nat} (h : Run step allowed s es t)
    (h₀ : I s) (hinv : ∀ t e u, I t → allowed t e → step t e = some u → I u)
    (hstep : ∀ t e u, I t → allowed t e → step t e = some u →
      φ t + (if p e then 1 else 0) ≤ φ u) :
    φ s + es.countP p ≤ φ t := by
  induction h with
  | nil => simp
  | @snoc es t u e hrun hallow hs ih =>
      have ht : I t := hrun.invariant h₀ hinv
      have hle := hstep t e u ht hallow hs
      rw [List.countP_append, List.countP_singleton]
      omega

/-- A property of all events of a run can be taken into the condition on its steps. -/
theorem and_of_mem {p : ε → Prop} (h : Run step allowed s es t) (hp : ∀ e ∈ es, p e) :
    Run step (fun s e => allowed s e ∧ p e) s es t := by
  induction h with
  | nil => exact nil
  | @snoc es t u e _ hallow hs ih =>
      have hp' := List.forall_mem_append.mp hp
      exact snoc (ih hp'.1) ⟨hallow, hp'.2 e (List.mem_singleton_self e)⟩ hs

/-- A run meets every condition that its states and its own condition imply. -/
theorem imp_of {I : σ → Prop} {allowed' : σ → ε → Prop} (h : Run step allowed s es t) (h₀ : I s)
    (hinv : ∀ t e u, I t → allowed t e → step t e = some u → I u)
    (himp : ∀ t e, I t → allowed t e → allowed' t e) : Run step allowed' s es t := by
  induction h with
  | nil => exact nil
  | snoc hrun hallow hs ih => exact snoc ih (himp _ _ (hrun.invariant h₀ hinv) hallow) hs

/-- A run of one machine is a run of another when each of its steps is a step of the
    other or leaves the other's state alone.  `K` is a condition on the end of the run
    that all earlier states share. -/
theorem project {τ φ : Type} {step' : τ → φ → Option τ} {allowed' : τ → φ → Prop}
    {f : σ → τ} {g : ε → Option φ} {K : σ → Prop} (h : Run step allowed s es t) (hK : K t)
    (hback : ∀ t e u, step t e = some u → K u → K t)
    (hstep : ∀ t e u, K u → allowed t e → step t e = some u →
      match g e with
      | some e' => allowed' (f t) e' ∧ step' (f t) e' = some (f u)
      | none => f u = f t) :
    Run step' allowed' (f s) (es.filterMap g) (f t) := by
  induction h with
  | nil => exact nil
  | @snoc es t u e _ hallow hs ih =>
      have hrun := ih (hback _ _ _ hs hK)
      have he := hstep _ _ _ hK hallow hs
      rw [List.filterMap_append]
      cases hg : g e with
      | none =>
          rw [hg] at he
          simpa [hg, he] using hrun
      | some e' =>
          rw [hg] at he
          simpa [hg] using snoc hrun he.1 he.2

end Run
end Transition
