/-
  Speedometer.Client.Embedding

  A service as a part of a larger system, which decides what the service reads.

  `Embedding` is a system each of whose steps is one of the service, over the
  environment of the moment, or leaves the service alone.  It is a service itself
  (`Embedding.service`), so that what `Client.Window` proves of the tick holds of the
  tick on top of the whole system.
-/

import Speedometer.Client.Window

namespace Speedometer.Client

open Cpp Transition

/-- Services that differ in what they read only. -/
structure Family {ι τ φ : Type} (S : ι → Service τ φ) : Prop where
  com : ∀ i j, (S i).com = (S j).com
  frames : ∀ i j, (S i).frames = (S j).frames
  raising : ∀ i j, (S i).raising = (S j).raising

/-- A system with a service of the family in it. -/
structure Embedding {ι τ φ : Type} (S : ι → Service τ φ) (σ ε : Type) where
  step : σ → ε → Option σ
  /-- what the service reads -/
  env : σ → ι
  part : σ → τ
  setPart : σ → τ → σ
  /-- the event of the service that an event of the system is -/
  event : ε → Option φ
  family : Family S
  part_set : ∀ s t, part (setPart s t) = t
  env_set : ∀ s t, env (setPart s t) = env s
  step_event : ∀ {s e e' s'}, event e = some e' → step s e = some s' →
    (S (env s)).step (part s) e' = some (part s')
  step_other : ∀ {s e s'}, event e = none → step s e = some s' → part s' = part s
  inv_env : ∀ {s e s' t}, step s e = some s' → (S (env s)).Inv t → (S (env s')).Inv t

namespace Embedding

variable {ι τ φ σ ε : Type} {S : ι → Service τ φ} (E : Embedding S σ ε)

/-- What a step of the system does to the frames. -/
def kind (s : σ) (e : ε) : Kind :=
  match E.event e with
  | some e' => (S (E.env s)).kind (E.part s) e'
  | none => .other

/-- The system as a service. -/
def service : Service σ ε where
  step := E.step
  com := fun s => (S (E.env s)).com (E.part s)
  clearBuffer := fun s => E.setPart s ((S (E.env s)).clearBuffer (E.part s))
  kind := E.kind
  frames := fun s => (S (E.env s)).frames (E.part s)
  raising := fun s => (S (E.env s)).raising (E.part s)
  Inv := fun s => (S (E.env s)).Inv (E.part s)
  com_clear := by
    intro s
    rw [E.part_set, E.env_set, (S (E.env s)).com_clear]
  frames_clear := by
    intro s
    rw [E.part_set, E.env_set, (S (E.env s)).frames_clear]
  raising_clear := by
    intro s
    rw [E.part_set, E.env_set, (S (E.env s)).raising_clear]
  inv_clear := by
    intro s h
    rw [E.part_set, E.env_set]
    exact (S (E.env s)).inv_clear h
  inv_step := by
    intro s e s' h hs
    apply E.inv_env hs
    cases he : E.event e with
    | some e' => exact (S (E.env s)).inv_step h (E.step_event he hs)
    | none =>
        rw [E.step_other he hs]
        exact h
  step_commit := by
    intro s e s' h hs hk
    rw [E.family.frames (E.env s') (E.env s), E.family.com (E.env s') (E.env s)]
    cases he : E.event e with
    | some e' =>
        rw [kind, he] at hk
        exact (S (E.env s)).step_commit h (E.step_event he hs) hk
    | none =>
        rw [kind, he] at hk
        cases hk
  step_m_buffer := by
    intro s e s' h hs hk
    rw [E.family.frames (E.env s') (E.env s), E.family.com (E.env s') (E.env s)]
    cases he : E.event e with
    | some e' =>
        rw [kind, he] at hk
        exact (S (E.env s)).step_m_buffer h (E.step_event he hs) hk
    | none =>
        rw [E.step_other he hs]
        exact ⟨rfl, .inl rfl⟩
  step_drop := by
    intro s e s' hs hk
    rw [E.family.raising (E.env s') (E.env s), E.family.com (E.env s') (E.env s)]
    cases he : E.event e with
    | some e' =>
        rw [kind, he] at hk
        exact (S (E.env s)).step_drop (E.step_event he hs) hk
    | none =>
        rw [kind, he] at hk
        cases hk
  step_status := by
    intro s e s' h hs hk hstatus
    rw [E.family.frames (E.env s') (E.env s), E.family.com (E.env s') (E.env s)]
    cases he : E.event e with
    | some e' =>
        rw [kind, he] at hk
        simp only [kind, he]
        exact (S (E.env s)).step_status h (E.step_event he hs) hk hstatus
    | none =>
        rw [E.step_other he hs]
        exact ⟨hstatus, fun _ => rfl⟩
  step_up := by
    intro s e s' h hs hk hne hup
    rw [E.family.frames (E.env s') (E.env s)] at hne
    rw [E.family.com (E.env s') (E.env s), E.family.raising (E.env s') (E.env s)] at hup
    cases he : E.event e with
    | some e' =>
        rw [kind, he] at hk
        exact (S (E.env s)).step_up h (E.step_event he hs) hk hne hup
    | none =>
        rw [E.step_other he hs] at hup
        exact hup

end Embedding
end Speedometer.Client
