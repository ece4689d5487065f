/-
  Speedometer.Server.Shutdown

  `~TCPService` of the desktop server against `TCPService::run`.

  The destructor clears `m_is_running`, closes the listening socket and waits for
  the worker; the worker sets `m_is_running` after `listen`.  `shutdown_final`:
  when the worker's store comes first, the destructor's is final and the worker
  fails at most one more `accept`.  In the other order the worker takes the
  shutdown back and spins on the closed socket (`shutdown_undone`).
-/

import Speedometer.Lib.Run
import Speedometer.Server.TcpService

namespace Speedometer.Server

open Transition

/-- The next thing `~TCPService` does. -/
inductive Destructor
  /-- `m_is_running.store(false)`; not called yet -/
  | store
  /-- `if (m_sockfd != -1)` and `shutdown(m_sockfd, SHUT_RDWR)` -/
  | shutdown
  /-- `close(m_sockfd)` -/
  | close
  /-- `this->wait()` -/
  | wait
  /-- the destructor has returned -/
  | done
deriving DecidableEq, Repr

/-- A service that is being destroyed. -/
structure Shutdown where
  svc : TcpService.State := {}
  m_sockfd : Int
  dtor : Destructor := .store
  /-- the descriptor behind `m_sockfd` has not been closed -/
  isOpen : Bool := true
deriving DecidableEq

namespace Shutdown

/-- What can happen next: a step of the destructor or of the worker. -/
inductive Ev
  | dtor
  | worker (e : TcpService.Ev)
deriving DecidableEq, Repr

/-- A step of the destructor. -/
def stepDtor (s : Shutdown) : Option Shutdown :=
  match s.dtor with
  | .store => some { s with svc := { s.svc with m_is_running := false }, dtor := .shutdown }
  | .shutdown => some { s with dtor := if s.m_sockfd ≠ -1 then .close else .wait }
  | .close => some { s with isOpen := false, dtor := .wait }
  | .wait => if s.svc.loc = .done then some { s with dtor := .done } else none
  | .done => none

/-- Neither `listen` nor `accept` succeeds on a closed descriptor. -/
def Possible (s : Shutdown) : TcpService.Ev → Prop
  | .listen rc => rc = 0 → s.isOpen = true
  | .accept connfd => 0 ≤ connfd → s.isOpen = true
  | .tau | .send _ => True

instance (s : Shutdown) : (e : TcpService.Ev) → Decidable (s.Possible e)
  | .listen rc => inferInstanceAs (Decidable (rc = 0 → s.isOpen = true))
  | .accept connfd => inferInstanceAs (Decidable (0 ≤ connfd → s.isOpen = true))
  | .tau | .send _ => isTrue trivial

/-- A step of either thread. -/
def step (s : Shutdown) : Ev → Option Shutdown
  | .dtor => s.stepDtor
  | .worker e =>
      if s.Possible e then
        match TcpService.step s.svc e with
        | some svc => some { s with svc }
        | none => none
      else none

/-- The service as its constructor leaves it, the listening socket bound and the
    worker started. -/
def start (sockfd : Nat) : Shutdown where
  m_sockfd := sockfd

/-- The worker does not set the flag after the destructor has cleared it. -/
def SetsFirst (s : Shutdown) : Ev → Prop
  | .worker .tau => s.svc.loc = .setRunning → s.dtor = .store
  | _ => True

instance (s : Shutdown) : (e : Ev) → Decidable (s.SetsFirst e)
  | .worker .tau => inferInstanceAs (Decidable (s.svc.loc = .setRunning → s.dtor = .store))
  | .worker (.listen _) | .worker (.accept _) | .worker (.send _) | .dtor => isTrue trivial

/-- The event is a call of `accept`. -/
def Ev.isAccept : Ev → Bool
  | .worker (.accept _) => true
  | _ => false

/-! ## The flag stays cleared -/

/-- The invariant of a shutdown whose stores are in order. -/
structure Inv (s : Shutdown) : Prop where
  cleared : s.dtor ≠ .store → s.svc.m_is_running = false
  sockfd : s.m_sockfd ≠ -1
  closed : s.dtor = .wait ∨ s.dtor = .done → s.isOpen = false

variable {s t : Shutdown}

theorem start_inv (sockfd : Nat) : Inv (start sockfd) where
  cleared := fun h => absurd rfl h
  sockfd := by
    simp only [start]
    omega
  closed := by simp [start]

/-- What a step of the worker is. -/
theorem step_worker {e : TcpService.Ev} (hs : step s (.worker e) = some t) :
    s.Possible e ∧ ∃ svc, TcpService.step s.svc e = some svc ∧ t = { s with svc } := by
  simp only [step, Option.ite_none_right_eq_some] at hs
  obtain ⟨hposs, hs⟩ := hs
  split at hs
  · rename_i svc hsvc
    simp only [Option.some.injEq] at hs
    exact ⟨hposs, svc, hsvc, hs.symm⟩
  · cases hs

/-- Every step keeps the invariant, given the order of the stores. -/
theorem Inv.step (h : Inv s) {e : Ev} (hfirst : s.SetsFirst e) (hs : step s e = some t) :
    Inv t := by
  cases e with
  | dtor =>
      cases hd : s.dtor <;> simp only [Shutdown.step, stepDtor, hd, Option.some.injEq] at hs
      case store =>
          subst hs
          exact ⟨fun _ => rfl, h.sockfd, by simp⟩
      case shutdown =>
          subst hs
          exact ⟨fun _ => h.cleared (by simp [hd]), h.sockfd, by simp [h.sockfd]⟩
      case close =>
          subst hs
          exact ⟨fun _ => h.cleared (by simp [hd]), h.sockfd, fun _ => rfl⟩
      case wait =>
          obtain ⟨-, rfl⟩ := of_guard hs
          exact ⟨fun _ => h.cleared (by simp [hd]), h.sockfd, fun _ => h.closed (.inl hd)⟩
      case done => cases hs
  | worker e =>
      obtain ⟨-, svc, hsvc, rfl⟩ := step_worker hs
      refine ⟨?_, h.sockfd, h.closed⟩
      intro hd
      -- the one step that sets the flag is not taken once the destructor has run
      have hset : ¬(e = .tau ∧ s.svc.loc = .setRunning) := by
        rintro ⟨rfl, hl⟩
        exact hd (hfirst hl)
      have hkeep := (TcpService.step_effect hsvc).m_is_running
      rw [if_neg hset] at hkeep
      exact hkeep.trans (h.cleared hd)

/-! ## The worker comes to its end -/

/-- The destructor is waiting for the worker, or has returned. -/
def Waits (s : Shutdown) : Prop := s.Inv ∧ (s.dtor = .wait ∨ s.dtor = .done)

/-- The calls of `accept` a worker that is being waited for can still make. -/
def acceptsLeft (s : Shutdown) : Nat :=
  if s.svc.loc ∈ [.ifStopped, .fatalError, .done] then 0 else 1

theorem acceptsLeft_le_one (s : Shutdown) : s.acceptsLeft ≤ 1 := by
  simp only [acceptsLeft]
  split <;> omega

theorem Waits.step (h : s.Waits) {e : Ev} (hfirst : s.SetsFirst e) (hs : step s e = some t) :
    t.Waits := by
  refine ⟨h.1.step hfirst hs, ?_⟩
  cases e with
  | dtor =>
      rcases h.2 with hd | hd <;>
        simp only [Shutdown.step, stepDtor, hd, Option.ite_none_right_eq_some,
          Option.some.injEq] at hs
      · exact .inr (hs.2 ▸ rfl)
      · cases hs
  | worker e =>
      obtain ⟨-, svc, -, rfl⟩ := step_worker hs
      exact h.2

/-- A failed `accept` is the worker's last one: the test after it ends the loop. -/
theorem Waits.acceptsLeft_step (h : s.Waits) {e : Ev} (hs : Shutdown.step s e = some t) :
    t.acceptsLeft + (if e.isAccept then 1 else 0) ≤ s.acceptsLeft := by
  have hclosed : s.isOpen = false := h.1.closed h.2
  have hcleared : s.svc.m_is_running = false := by
    apply h.1.cleared
    rcases h.2 with hd | hd <;> simp [hd]
  have hone := acceptsLeft_le_one t
  cases e with
  | dtor =>
      rcases h.2 with hd | hd <;>
        simp only [Shutdown.step, stepDtor, hd, Option.ite_none_right_eq_some,
          Option.some.injEq] at hs
      · obtain ⟨-, rfl⟩ := hs
        exact Nat.le_refl _
      · cases hs
  | worker e =>
      obtain ⟨hposs, svc, hsvc, rfl⟩ := step_worker hs
      cases e with
      | accept connfd =>
          -- the descriptor is closed, so this one fails and leads to the test of the flag
          have hneg : ¬0 ≤ connfd := by
            intro h0
            have hopen := hposs h0
            rw [hclosed] at hopen
            cases hopen
          obtain ⟨hl, rfl⟩ := of_guard hsvc
          simp [acceptsLeft, hl, hneg, Ev.isAccept]
      | listen rc | send n =>
          simp only [TcpService.step, Option.ite_none_right_eq_some] at hsvc
          have hleft : s.acceptsLeft = 1 := by
            have hl := hsvc.1
            simp [acceptsLeft, hl]
          simpa [hleft, Ev.isAccept] using hone
      | tau =>
          simp only [TcpService.step] at hsvc
          by_cases hl : s.svc.loc = .ifStopped ∨ s.svc.loc = .fatalError
          · -- the flag is false: the loop is left
            have hdone : svc.loc = .done := by
              rcases hl with hl | hl <;>
                simp only [TcpService.stepTau, hl, Option.some.injEq] at hsvc <;> subst hsvc
              · simp [hcleared]
              · rfl
            simp [acceptsLeft, hdone, Ev.isAccept]
          · -- anywhere else one `accept` may still come
            have hleft : s.acceptsLeft = 1 := by
              have hdone : s.svc.loc ≠ .done := fun hd => by
                simp [TcpService.stepTau, hd] at hsvc
              simp only [not_or] at hl
              simp [acceptsLeft, hl.1, hl.2, hdone]
            simpa [hleft, Ev.isAccept] using hone

/-- When the worker does not set the flag after the destructor has cleared it, the flag
    stays cleared, and a worker that is being waited for fails at most one more `accept`. -/
theorem shutdown_final {sockfd : Nat} {es : List Ev}
    (h : Run step SetsFirst (start sockfd) es s) :
    (s.dtor ≠ .store → s.svc.m_is_running = false) ∧
    (s.dtor = .wait → ∀ fs t, Run step SetsFirst s fs t → fs.countP Ev.isAccept ≤ 1) := by
  have hinv : Inv s := h.invariant (start_inv sockfd) fun _ _ _ hi hl hs => hi.step hl hs
  refine ⟨hinv.cleared, ?_⟩
  intro hd fs t hrun
  have hwaits : s.Waits := ⟨hinv, .inl hd⟩
  have hcount := hrun.countP_le (p := Ev.isAccept) (φ := acceptsLeft) hwaits
    (fun _ _ _ hi hl hs => hi.step hl hs) (fun _ _ _ hi _ hs => hi.acceptsLeft_step hs)
  have hle := acceptsLeft_le_one s
  omega

theorem shutdown_final_idle :
    ∃ s, Run step SetsFirst (start 3)
        [.worker (.listen 0), .worker .tau, .dtor, .dtor, .dtor] s ∧
      s.dtor = .wait ∧ s.svc.m_is_running = false := by
  obtain ⟨s, hrun, hd⟩ : ∃ s, Run step SetsFirst (start 3)
      [.worker (.listen 0), .worker .tau, .dtor, .dtor, .dtor] s ∧ s.dtor = .wait :=
    Run.exists_of_exec (by decide)
  exact ⟨s, hrun, hd, (shutdown_final hrun).1 (by simp [hd])⟩

/-- When the worker sets the flag after the destructor has cleared it, the destructor
    waits while the worker comes back to the same state again and again, failing one
    `accept` after the other. -/
theorem shutdown_undone :
    ∃ es s, Run step Always (start 3) es s ∧ s.dtor = .wait ∧ s.svc.m_is_running = true ∧
      Run step Always s [.worker (.accept (-1)), .worker .tau] s := by
  let es : List Ev := [.worker (.listen 0), .dtor, .worker .tau, .dtor, .dtor,
    .worker (.accept (-1)), .worker .tau]
  obtain ⟨s, hrun, hd, hset, hloop⟩ : ∃ s, Run step Always (start 3) es s ∧ s.dtor = .wait ∧
      s.svc.m_is_running = true ∧
      exec step Always s [.worker (.accept (-1)), .worker .tau] = some s :=
    Run.exists_of_exec (by decide)
  exact ⟨es, s, hrun, hd, hset, Run.of_exec hloop⟩

end Shutdown
end Speedometer.Server
