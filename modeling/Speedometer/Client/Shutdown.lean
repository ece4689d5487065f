/-
  Speedometer.Client.Shutdown

  `~TCPService` of the desktop client against `TCPService::run`.

  The worker stores `m_status` and then tests `m_stop`; the destructor stores
  `m_stop` and then tests `m_status`, so one of them sees the other.
  `client_shutdown`: once the destructor has reached `join`, a worker still in
  `read` reads from a socket that has been shut down, and has few steps left; and
  when the destructor returns, every descriptor has been closed exactly once.
-/

import Speedometer.Client.TcpService
import Speedometer.Lib.Descriptors
import Speedometer.Lib.Run

namespace Speedometer.Client

open Cpp Descriptors Transition

/-- The next thing `~TCPService` does. -/
inductive Destructor
  /-- `m_stop = true`; not called yet -/
  | store
  /-- `if (m_status)` -/
  | ifStatus
  /-- the load of `m_sockfd` for `shutdown` -/
  | loadSockfd
  /-- `shutdown(fd, SHUT_RDWR)` -/
  | shutdown (fd : Int)
  /-- `m_worker.join()` -/
  | join
  /-- `if (m_sockfd >= 0)` -/
  | ifSockfd
  /-- `close(m_sockfd)` -/
  | close
  /-- the destructor has returned -/
  | done
deriving DecidableEq, Repr

/-- `join` has been reached. -/
def Destructor.Joining : Destructor → Prop
  | .join | .ifSockfd | .close | .done => True
  | .store | .ifStatus | .loadSockfd | .shutdown _ => False

/-- A service that is being destroyed, with the descriptors `run` has obtained. -/
structure Shutdown where
  svc : TcpService.State
  dtor : Destructor := .store
  fds : Table := []
deriving DecidableEq

namespace Shutdown

/-- What can happen next: a step of the destructor or of the worker. -/
inductive Ev
  | dtor
  | worker (e : TcpService.Ev)
deriving DecidableEq, Repr

def Ev.isWorker : Ev → Bool
  | .dtor => false
  | .worker _ => true

/-- A step of the destructor. -/
def stepDtor (s : Shutdown) : Option Shutdown :=
  match s.dtor with
  | .store => some { s with svc := { s.svc with m_stop := true }, dtor := .ifStatus }
  | .ifStatus => some { s with dtor := if s.svc.m_status then .loadSockfd else .join }
  | .loadSockfd => some { s with dtor := .shutdown s.svc.m_sockfd }
  | .shutdown fd => some { s with fds := s.fds.shutdown fd, dtor := .join }
  | .join => if s.svc.loc = .done then some { s with dtor := .ifSockfd } else none
  | .ifSockfd => some { s with dtor := if 0 ≤ s.svc.m_sockfd then .close else .done }
  | .close => some { s with fds := s.fds.close s.svc.m_sockfd, dtor := .done }
  | .done => none

/-- `socket` returns a number that is not in use. -/
def Possible (s : Shutdown) : TcpService.Ev → Prop
  | .socket fd => 0 ≤ fd → s.fds.Fresh fd
  | _ => True

instance (s : Shutdown) : (e : TcpService.Ev) → Decidable (s.Possible e)
  | .socket fd => inferInstanceAs (Decidable (0 ≤ fd → s.fds.Fresh fd))
  | .tau | .inetPton _ | .connect _ | .read _ => isTrue trivial

/-- The descriptors after a step of the worker. -/
def fdsAfter (s : Shutdown) : TcpService.Ev → Table
  | .socket fd => if 0 ≤ fd then s.fds.add fd else s.fds
  | .tau =>
      match s.svc.loc with
      | .closeFailed | .close => s.fds.close s.svc.m_sockfd
      | .shutdown => s.fds.shutdown s.svc.m_sockfd
      | _ => s.fds
  | _ => s.fds

/-- A step of either thread. -/
def step (s : Shutdown) : Ev → Option Shutdown
  | .dtor => s.stepDtor
  | .worker e =>
      if s.Possible e then
        match TcpService.step s.svc e with
        | some svc => some { s with svc, fds := s.fdsAfter e }
        | none => none
      else none

/-- The service when its worker starts, with any contents of the buffer. -/
def start (m_buffer : Buf SBUFLEN) : Shutdown where
  svc := { m_buffer }

/-! ## Who holds what -/

/-- No descriptor is open, and `m_sockfd` is none. -/
def Free (s : Shutdown) : Prop := s.fds.ClosedOnce ∧ s.svc.m_sockfd < 0

/-- `m_sockfd` is open, and the only one. -/
def Holds (s : Shutdown) : Prop := s.fds.Held s.svc.m_sockfd ∧ 0 ≤ s.svc.m_sockfd

/-- What the worker holds at each of its points. -/
def AtLoc (s : Shutdown) : Prop :=
  match s.svc.loc with
  | .inetPton | .socket | .sleep => s.svc.m_status = false ∧ s.Free
  | .whileRunning | .ifDisconnected =>
      (s.svc.m_status = true → s.Holds) ∧ (s.svc.m_status = false → s.Free)
  | .connect | .closeFailed | .setStatus | .shutdown | .close =>
      s.svc.m_status = false ∧ s.Holds
  | .whileReading | .read | .ifComplete | .commit | .clearStatus =>
      s.svc.m_status = true ∧ s.Holds
  | .resetFailed | .reset => s.svc.m_status = false ∧ s.fds.ClosedOnce
  | .done => s.Holds ∨ s.Free

/-- The invariant of a shutdown. -/
structure Inv (s : Shutdown) : Prop where
  stopped : s.dtor ≠ .store → s.svc.m_stop = true
  /-- a worker in `read` is seen connected, and what is shut down is what it reads -/
  load : s.svc.loc = .read → ∀ fd, s.dtor = .shutdown fd → fd = s.svc.m_sockfd
  read : s.svc.loc = .read → s.dtor.Joining → s.fds.Shut s.svc.m_sockfd
  joined : s.dtor = .ifSockfd ∨ s.dtor = .close ∨ s.dtor = .done → s.svc.loc = .done
  holds : s.dtor = .close → s.Holds
  atLoc : s.dtor ≠ .done → s.AtLoc
  closed : s.dtor = .done → s.fds.ClosedOnce

theorem start_inv (m_buffer : Buf SBUFLEN) : Inv (start m_buffer) where
  stopped := fun h => absurd rfl h
  load := by simp [start]
  read := by simp [start]
  joined := by simp [start]
  holds := by simp [start]
  atLoc := fun _ => ⟨rfl, by simp [start, Table.ClosedOnce], by simp [start]⟩
  closed := by simp [start]

variable {s t : Shutdown}

/-- What a step of the worker is. -/
theorem step_worker {e : TcpService.Ev} (hs : step s (.worker e) = some t) :
    ∃ svc, TcpService.step s.svc e = some svc ∧ t = { s with svc, fds := s.fdsAfter e } := by
  simp only [step, Option.ite_none_right_eq_some] at hs
  obtain ⟨-, hs⟩ := hs
  split at hs
  · rename_i svc hsvc
    simp only [Option.some.injEq] at hs
    exact ⟨svc, hsvc, hs.symm⟩
  · cases hs

/-- A worker that has returned takes no step. -/
theorem not_done {e : TcpService.Ev} {svc : TcpService.State}
    (hs : TcpService.step s.svc e = some svc) : s.svc.loc ≠ .done := by
  intro hl
  cases e <;> simp [TcpService.step, TcpService.stepTau, hl] at hs

/-- Steps that make no system call hand on what the worker holds. -/
theorem AtLoc.tau (h : s.AtLoc) {svc : TcpService.State}
    (hs : TcpService.stepTau s.svc = some svc) :
    AtLoc { s with svc, fds := s.fdsAfter .tau } := by
  unfold AtLoc at h
  cases hl : s.svc.loc <;> simp only [hl] at h <;>
    simp only [TcpService.stepTau, hl, Option.some.injEq] at hs
  case inetPton | socket | connect | read | done => cases hs
  case whileRunning =>
      subst hs
      simp only [fdsAfter, hl]
      cases s.svc.m_stop with
      | true =>
          -- the loop is left with the connection open, or without one
          cases hstatus : s.svc.m_status with
          | true => exact Or.inl (h.1 hstatus)
          | false => exact Or.inr (h.2 hstatus)
      | false => exact h
  case ifDisconnected =>
      subst hs
      simp only [fdsAfter, hl]
      cases hstatus : s.svc.m_status with
      | true => exact ⟨hstatus, h.1 hstatus⟩
      | false => exact ⟨hstatus, h.2 hstatus⟩
  case closeFailed | close =>
      subst hs
      simp only [fdsAfter, hl]
      -- `m_sockfd` still has the number, until the next step resets it
      exact ⟨h.1, h.2.1.close⟩
  case resetFailed =>
      subst hs
      simp only [fdsAfter, hl]
      exact ⟨h.1, h.2, by simp⟩
  case reset =>
      subst hs
      simp only [fdsAfter, hl]
      have hstatus : s.svc.m_status = false := h.1
      exact ⟨fun hyes => by simp [hstatus] at hyes, fun _ => ⟨h.2, by simp⟩⟩
  case sleep =>
      subst hs
      simp only [fdsAfter, hl]
      have hstatus : s.svc.m_status = false := h.1
      exact ⟨fun hyes => by simp [hstatus] at hyes, fun _ => h.2⟩
  case setStatus =>
      subst hs
      simp only [fdsAfter, hl]
      exact ⟨rfl, h.2⟩
  case whileReading =>
      subst hs
      simp only [fdsAfter, hl]
      by_cases hcond : s.svc.nread < SBUFLEN ∧ s.svc.m_stop = false
      · simp only [if_pos hcond]
        exact h
      · simp only [if_neg hcond]
        exact h
  case ifComplete =>
      subst hs
      simp only [fdsAfter, hl]
      by_cases hcond : s.svc.ok = true ∧ s.svc.nread = SBUFLEN
      · simp only [if_pos hcond]
        exact h
      · simp only [if_neg hcond]
        exact h
  case commit =>
      subst hs
      simp only [fdsAfter, hl]
      have hstatus : s.svc.m_status = true := h.1
      exact ⟨fun _ => h.2, fun hno => by simp [hstatus] at hno⟩
  case clearStatus =>
      subst hs
      simp only [fdsAfter, hl]
      exact ⟨rfl, h.2⟩
  case shutdown =>
      subst hs
      simp only [fdsAfter, hl]
      exact ⟨h.1, h.2.1.shutdown _, h.2.2⟩

/-- Every step of the worker hands on what it holds. -/
theorem AtLoc.worker (h : s.AtLoc) {e : TcpService.Ev} {svc : TcpService.State}
    (hs : TcpService.step s.svc e = some svc) : AtLoc { s with svc, fds := s.fdsAfter e } := by
  cases e with
  | tau => exact h.tau hs
  | inetPton rc =>
      obtain ⟨hl, rfl⟩ := of_guard hs
      simp only [AtLoc, hl] at h
      have hstatus : s.svc.m_status = false := h.1
      by_cases hrc : rc = 1
      · simp only [AtLoc, if_pos hrc]
        exact ⟨fun hyes => by simp [hstatus] at hyes, fun _ => h.2⟩
      · simp only [AtLoc, if_neg hrc]
        exact Or.inr h.2
  | socket fd =>
      obtain ⟨hl, rfl⟩ := of_guard hs
      simp only [AtLoc, hl] at h
      -- a failing `socket` ends the worker with no descriptor
      by_cases hfd : fd < 0
      · simp only [AtLoc, if_pos hfd, fdsAfter, if_neg (Int.not_le.mpr hfd)]
        exact Or.inr ⟨h.2.1, hfd⟩
      · simp only [AtLoc, if_neg hfd, fdsAfter, if_pos (Int.not_lt.mp hfd)]
        exact ⟨h.1, h.2.1.add fd, Int.not_lt.mp hfd⟩
  | connect rc =>
      obtain ⟨hl, rfl⟩ := of_guard hs
      simp only [AtLoc, hl] at h
      -- either way the descriptor is still open
      by_cases hrc : rc = 0
      · simp only [AtLoc, if_pos hrc]
        exact h
      · simp only [AtLoc, if_neg hrc]
        exact h
  | read res =>
      simp only [TcpService.step, Option.ite_none_right_eq_some] at hs
      obtain ⟨hl, hs⟩ := hs
      simp only [AtLoc, hl] at h
      cases res with
      | data bs =>
          obtain ⟨-, rfl⟩ := of_guard hs
          exact h
      | _ =>
          simp only [TcpService.stepRead, Option.some.injEq] at hs
          subst hs
          exact h

/-- A shutdown leaves who holds what as it is. -/
theorem AtLoc.shutdown (h : s.AtLoc) (fd : Int) (dtor : Destructor) :
    AtLoc { s with fds := s.fds.shutdown fd, dtor } := by
  have hheld : s.Holds → Holds { s with fds := s.fds.shutdown fd, dtor } :=
    fun hh => ⟨hh.1.shutdown fd, hh.2⟩
  have hfree : s.Free → Free { s with fds := s.fds.shutdown fd, dtor } :=
    fun hf => ⟨hf.1.shutdown fd, hf.2⟩
  unfold AtLoc at h ⊢
  cases hl : s.svc.loc <;> simp only [hl] at h ⊢
  case inetPton | socket | sleep => exact ⟨h.1, hfree h.2⟩
  case whileRunning | ifDisconnected =>
      exact ⟨fun hyes => hheld (h.1 hyes), fun hno => hfree (h.2 hno)⟩
  case resetFailed | reset => exact ⟨h.1, h.2.shutdown fd⟩
  case done => exact h.imp hheld hfree
  all_goals exact ⟨h.1, hheld h.2⟩

/-- Every step of the worker keeps the invariant. -/
theorem Inv.worker (h : Inv s) {e : TcpService.Ev} {svc : TcpService.State}
    (hs : TcpService.step s.svc e = some svc) :
    Inv { s with svc, fds := s.fdsAfter e } := by
  have hdone : s.dtor ≠ .ifSockfd ∧ s.dtor ≠ .close ∧ s.dtor ≠ .done := by
    refine ⟨fun hd => ?_, fun hd => ?_, fun hd => ?_⟩
    · exact not_done hs (h.joined (Or.inl hd))
    · exact not_done hs (h.joined (Or.inr (Or.inl hd)))
    · exact not_done hs (h.joined (Or.inr (Or.inr hd)))
  -- a worker enters `read` only before the destructor has stored `m_stop`
  have hstore : svc.loc = .read → s.dtor = .store := by
    intro hl
    by_contra hne
    have hstop := h.stopped hne
    rw [TcpService.to_read hs hl] at hstop
    cases hstop
  refine ⟨?_, ?_, ?_, ?_, ?_, fun _ => (h.atLoc hdone.2.2).worker hs, ?_⟩
  · intro hne
    show svc.m_stop = true
    rw [TcpService.step_m_stop hs]
    exact h.stopped hne
  · intro hl fd hd
    rw [hstore hl] at hd
    cases hd
  · intro hl hd
    rw [hstore hl] at hd
    exact absurd hd id
  · rintro (hd | hd | hd)
    · exact absurd hd hdone.1
    · exact absurd hd hdone.2.1
    · exact absurd hd hdone.2.2
  · exact fun hd => absurd hd hdone.2.1
  · exact fun hd => absurd hd hdone.2.2

/-- A worker in `read` is connected and holds its descriptor. -/
theorem Inv.reading (h : Inv s) (hl : s.svc.loc = .read) (hd : s.dtor ≠ .done) :
    s.svc.m_status = true ∧ s.Holds := by
  have hat := h.atLoc hd
  simp only [AtLoc, hl] at hat
  exact hat

/-- Every step of the destructor keeps the invariant. -/
theorem Inv.dtor (h : Inv s) (hs : s.stepDtor = some t) : Inv t := by
  cases hd : s.dtor <;> simp only [stepDtor, hd, Option.some.injEq] at hs
  case done => cases hs
  case store =>
      subst hs
      exact ⟨fun _ => rfl, by simp, fun _ hj => absurd hj id, by simp, by simp,
        fun _ => h.atLoc (by simp [hd]), by simp⟩
  case ifStatus =>
      -- a worker in `read` has set `m_status`, so its socket is about to be shut down
      subst hs
      refine ⟨fun _ => h.stopped (by simp [hd]), ?_, ?_, ?_, ?_,
        fun _ => h.atLoc (by simp [hd]), ?_⟩
      · intro _ fd hdtor
        split at hdtor <;> cases hdtor
      · intro hl hj
        have hstatus := (h.reading hl (by simp [hd])).1
        rw [if_pos hstatus] at hj
        exact absurd hj id
      · split <;> simp
      · split <;> simp
      · split <;> simp
  case loadSockfd =>
      subst hs
      -- the number read is that of the worker's socket
      refine ⟨fun _ => h.stopped (by simp [hd]), ?_, fun _ hj => absurd hj id, by simp, by simp,
        fun _ => h.atLoc (by simp [hd]), by simp⟩
      intro _ fd hfd
      cases hfd
      rfl
  case shutdown fd =>
      subst hs
      refine ⟨fun _ => h.stopped (by simp [hd]), by simp, ?_, by simp, by simp,
        fun _ => (h.atLoc (by simp [hd])).shutdown fd .join, by simp⟩
      intro hl _
      have hfd := h.load hl fd hd
      show (s.fds.shutdown fd).Shut s.svc.m_sockfd
      rw [hfd]
      exact (h.reading hl (by simp [hd])).2.1.shutdown_shut
  case join =>
      obtain ⟨hl, rfl⟩ := of_guard hs
      exact ⟨fun _ => h.stopped (by simp [hd]), by simp, fun hr => by simp [hl] at hr,
        fun _ => hl, by simp, fun _ => h.atLoc (by simp [hd]), by simp⟩
  case ifSockfd =>
      subst hs
      -- the worker has ended, so what it holds is what `m_sockfd` says
      have hl : s.svc.loc = .done := h.joined (Or.inl hd)
      have hat := h.atLoc (by simp [hd])
      simp only [AtLoc, hl] at hat
      refine ⟨fun _ => h.stopped (by simp [hd]), fun hr => by simp [hl] at hr,
        fun hr => by simp [hl] at hr, fun _ => hl, ?_, fun _ => h.atLoc (by simp [hd]), ?_⟩
      · intro hclose
        by_cases hfd : 0 ≤ s.svc.m_sockfd
        · exact hat.resolve_right fun hf => absurd hf.2 (Int.not_lt.mpr hfd)
        · simp [hfd] at hclose
      · intro hdone
        by_cases hfd : 0 ≤ s.svc.m_sockfd
        · simp [hfd] at hdone
        · exact (hat.resolve_left fun hh => hfd hh.2).1
  case close =>
      subst hs
      have hl : s.svc.loc = .done := h.joined (Or.inr (Or.inl hd))
      exact ⟨fun _ => h.stopped (by simp [hd]), fun hr => by simp [hl] at hr,
        fun hr => by simp [hl] at hr, fun _ => hl, by simp, by simp,
        fun _ => (h.holds hd).1.close⟩

theorem Inv.step (h : Inv s) {e : Ev} (hs : step s e = some t) : Inv t := by
  cases e with
  | dtor => exact h.dtor hs
  | worker e =>
      obtain ⟨svc, hsvc, rfl⟩ := step_worker hs
      exact h.worker hsvc

/-! ## The worker ends -/

/-- The most steps a worker can still take from each of its points once `m_stop` is set. -/
def stepsLeft : TcpService.Loc → Nat
  | .done => 0
  | .whileRunning => 1
  | .inetPton | .sleep | .commit | .reset => 2
  | .close | .resetFailed => 3
  | .shutdown | .closeFailed => 4
  | .clearStatus => 5
  | .ifComplete => 6
  | .whileReading => 7
  | .read | .setStatus => 8
  | .connect => 9
  | .socket => 10
  | .ifDisconnected => 11

theorem stepsLeft_step {svc svc' : TcpService.State} {e : TcpService.Ev}
    (hstop : svc.m_stop = true) (hs : TcpService.step svc e = some svc') :
    stepsLeft svc'.loc + 1 ≤ stepsLeft svc.loc := by
  cases e with
  | tau =>
      cases hl : svc.loc <;>
        simp only [TcpService.step, TcpService.stepTau, hl, Option.some.injEq] at hs
      case inetPton | socket | connect | read | done => cases hs
      case whileRunning | whileReading =>
          subst hs
          simp [hstop, stepsLeft]
      case ifDisconnected =>
          subst hs
          cases svc.m_status <;> simp [TcpService.State.enterReading, stepsLeft]
      case ifComplete =>
          subst hs
          by_cases hcond : svc.ok = true ∧ svc.nread = SBUFLEN <;> simp [hcond, stepsLeft]
      all_goals
        subst hs
        simp [TcpService.State.enterReading, stepsLeft]
  | read res =>
      simp only [TcpService.step, Option.ite_none_right_eq_some] at hs
      obtain ⟨hl, hs⟩ := hs
      cases res with
      | data bs =>
          obtain ⟨-, rfl⟩ := of_guard hs
          simp [hl, stepsLeft]
      | _ =>
          simp only [TcpService.stepRead, Option.some.injEq] at hs
          subst hs
          simp [hl, stepsLeft]
  | connect rc =>
      obtain ⟨hl, rfl⟩ := of_guard hs
      by_cases hrc : rc = 0 <;> simp [hl, hrc, stepsLeft]
  | inetPton rc =>
      obtain ⟨hl, rfl⟩ := of_guard hs
      by_cases hrc : rc = 1 <;> simp [hl, hrc, stepsLeft]
  | socket fd =>
      obtain ⟨hl, rfl⟩ := of_guard hs
      by_cases hfd : fd < 0 <;> simp [hl, hfd, stepsLeft]

theorem stepsLeft_le (loc : TcpService.Loc) : stepsLeft loc ≤ 11 := by
  cases loc <;> decide

/-- Once `m_stop` is set the worker takes few more steps. -/
theorem worker_ends (hstop : s.svc.m_stop = true) {es : List Ev}
    (h : Run step Always s es t) : es.countP Ev.isWorker ≤ 11 := by
  have hle := h.countP_le (I := fun s => s.svc.m_stop = true) (p := Ev.isWorker)
    (φ := fun s => stepsLeft s.svc.loc) hstop ?_ ?_
  · have hbound := stepsLeft_le s.svc.loc
    omega
  · intro s e t hstop _ hs
    cases e with
    | worker e =>
        obtain ⟨svc, hsvc, rfl⟩ := step_worker hs
        exact (TcpService.step_m_stop hsvc).trans hstop
    | dtor =>
        cases hd : s.dtor <;> simp [step, stepDtor, hd] at hs
        case join => exact hs.2 ▸ hstop
        case store => exact hs ▸ rfl
        all_goals exact hs ▸ hstop
  · intro s e t hstop _ hs
    cases e with
    | worker e =>
        obtain ⟨svc, hsvc, rfl⟩ := step_worker hs
        exact stepsLeft_step hstop hsvc
    | dtor =>
        have hloc : t.svc.loc = s.svc.loc := by
          cases hd : s.dtor <;> simp [step, stepDtor, hd] at hs
          case join => rw [← hs.2]
          all_goals rw [← hs]
        simp [Ev.isWorker, hloc]

/-! ## Shutdown -/

/-- In every interleaving: once `~TCPService` has reached `join`, a worker in `read` reads
    from a socket that has been shut down; the worker has at most 11 steps left once
    `m_stop` is set; and when the destructor has returned, every descriptor `run` ever
    obtained has been closed exactly once. -/
theorem client_shutdown {m_buffer : Buf SBUFLEN} {es : List Ev}
    (h : Run step Always (start m_buffer) es s) :
    (s.dtor.Joining → s.svc.loc = .read → s.fds.Shut s.svc.m_sockfd) ∧
    (s.dtor ≠ .store → ∀ {fs t}, Run step Always s fs t → fs.countP Ev.isWorker ≤ 11) ∧
    (s.dtor = .done → s.fds.ClosedOnce) := by
  have hinv : Inv s := h.invariant (start_inv m_buffer) fun _ _ _ hi _ hs => hi.step hs
  exact ⟨fun hj hl => hinv.read hl hj, fun hne _ _ hrun => worker_ends (hinv.stopped hne) hrun,
    hinv.closed⟩

/-- The service is destroyed while its worker is blocked in `read`. -/
def destroyReading : List Ev :=
  [.worker (.inetPton 1), .worker .tau, .worker .tau, .worker (.socket 5), .worker (.connect 0),
   .worker .tau, .worker .tau, .dtor, .dtor, .dtor, .dtor, .worker (.read .eof), .worker .tau,
   .worker .tau, .worker .tau, .worker .tau, .worker .tau, .worker .tau, .dtor, .dtor]

theorem client_shutdown_reading :
    ∃ s, Run step Always (start (Buf.zero SBUFLEN)) destroyReading s ∧ s.dtor = .done ∧
      s.fds.length = 1 ∧ s.fds.ClosedOnce := by
  obtain ⟨s, hrun, hd, hlen⟩ : ∃ s, Run step Always (start (Buf.zero SBUFLEN)) destroyReading s ∧
      s.dtor = .done ∧ s.fds.length = 1 := Run.exists_of_exec (by decide)
  exact ⟨s, hrun, hd, hlen, (client_shutdown hrun).2.2 hd⟩

end Shutdown
end Speedometer.Client
