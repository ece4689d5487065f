/-
  Speedometer.Client.TcpService

  The desktop client's `TCPService::run` as a state machine.

  `Loc` names the points of `run` between two steps that another thread can
  observe or that the operating system decides; `step` takes the worker from one
  to the next.  What comes back from a system call is in the event.
-/

import Speedometer.Client.ComService
import Speedometer.Lib.Run

namespace Speedometer.Client.TcpService

open Cpp Transition

/-- The next thing the worker does. -/
inductive Loc
  /-- `inet_pton` of the server address -/
  | inetPton
  /-- `while (!m_stop)` -/
  | whileRunning
  /-- `if (!m_status)` -/
  | ifDisconnected
  /-- `m_sockfd = socket(...)` -/
  | socket
  /-- `connect(m_sockfd, ...)` -/
  | connect
  /-- `close(m_sockfd)` after a failed `connect` -/
  | closeFailed
  /-- `m_sockfd = -1` after a failed `connect` -/
  | resetFailed
  /-- `sleep_for(...)`, then `continue` -/
  | sleep
  /-- `m_status = true` -/
  | setStatus
  /-- `while (nread < SBUFLEN && !m_stop)` -/
  | whileReading
  /-- `read(m_sockfd, tmpbuf + nread, SBUFLEN - nread)` -/
  | read
  /-- `if (ok && nread == SBUFLEN)` -/
  | ifComplete
  /-- `memcpy(m_buffer, tmpbuf, SBUFLEN)` under the lock -/
  | commit
  /-- `m_status = false` -/
  | clearStatus
  /-- `shutdown(m_sockfd, SHUT_RDWR)` -/
  | shutdown
  /-- `close(m_sockfd)` -/
  | close
  /-- `m_sockfd = -1` -/
  | reset
  /-- `run` has returned -/
  | done
deriving DecidableEq, Repr

/-- The outcome of a `read`. -/
inductive ReadResult
  /-- `n > 0`, with the bytes stored -/
  | data (bs : List (BitVec 8))
  /-- `n == 0` -/
  | eof
  /-- `n < 0` with `errno == EINTR` -/
  | eintr
  /-- `n < 0` with any other `errno` -/
  | error
deriving DecidableEq, Repr

/-- A step of the worker, with the result of the system call it makes, if any. -/
inductive Ev
  | tau
  | inetPton (rc : Int)
  | socket (fd : Int)
  | connect (rc : Int)
  | read (res : ReadResult)
deriving DecidableEq, Repr

/-- A `TCPService` and the locals of its worker. -/
structure State extends ComService where
  m_sockfd : Int := -1
  m_stop : Bool := false
  loc : Loc := .inetPton
  tmpbuf : Buf SBUFLEN := Buf.zero SBUFLEN
  nread : Nat := 0
  ok : Bool := true
deriving DecidableEq

/-- `size_t nread{0}; bool ok{true};` before the reading loop. -/
def State.enterReading (s : State) : State :=
  { s with nread := 0, ok := true, loc := .whileReading }

/-- A step whose outcome the program determines. -/
def stepTau (s : State) : Option State :=
  match s.loc with
  | .whileRunning => some { s with loc := if s.m_stop then .done else .ifDisconnected }
  | .ifDisconnected => some (if s.m_status then s.enterReading else { s with loc := .socket })
  | .closeFailed => some { s with loc := .resetFailed }
  | .resetFailed => some { s with m_sockfd := -1, loc := .sleep }
  | .sleep => some { s with loc := .whileRunning }
  | .setStatus => some { s with m_status := true }.enterReading
  | .whileReading =>
      some { s with loc := if s.nread < SBUFLEN ∧ s.m_stop = false then .read else .ifComplete }
  | .ifComplete =>
      some { s with loc := if s.ok ∧ s.nread = SBUFLEN then .commit else .clearStatus }
  | .commit => some { s with m_buffer := s.tmpbuf, loc := .whileRunning }
  | .clearStatus => some { s with m_status := false, loc := .shutdown }
  | .shutdown => some { s with loc := .close }
  | .close => some { s with loc := .reset }
  | .reset => some { s with m_sockfd := -1, loc := .whileRunning }
  | .inetPton | .socket | .connect | .read | .done => none

/-- The return of `read`. -/
def stepRead (s : State) : ReadResult → Option State
  | .data bs =>
      -- `read` stores at least one byte and at most as many as it was asked for
      if 0 < bs.length ∧ s.nread + bs.length ≤ SBUFLEN then
        some { s with tmpbuf := s.tmpbuf.write s.nread bs, nread := s.nread + bs.length,
                      loc := .whileReading }
      else none
  | .eintr => some { s with loc := .whileReading }
  | .eof | .error => some { s with ok := false, loc := .ifComplete }

/-- A step of `TCPService::run`. -/
def step (s : State) : Ev → Option State
  | .tau => stepTau s
  | .inetPton rc =>
      if s.loc = .inetPton then some { s with loc := if rc = 1 then .whileRunning else .done }
      else none
  | .socket fd =>
      if s.loc = .socket then
        some { s with m_sockfd := fd, loc := if fd < 0 then .done else .connect }
      else none
  | .connect rc =>
      if s.loc = .connect then
        some { s with loc := if rc = 0 then .setStatus else .closeFailed }
      else none
  | .read res => if s.loc = .read then stepRead s res else none

/-! ## What a step can do -/

/-- What a step does to what the worker shares with other threads, and what leads it to
    set `m_status`. -/
structure Effect (s : State) (e : Ev) (s' : State) : Prop where
  m_buffer : s'.m_buffer = if e = .tau ∧ s.loc = .commit then s.tmpbuf else s.m_buffer
  m_status : s'.m_status =
    if e = .tau ∧ s.loc = .setStatus then true
    else if e = .tau ∧ s.loc = .clearStatus then false
    else s.m_status
  to_setStatus : s'.loc = .setStatus → e = .connect 0

theorem step_effect {s s' : State} {e : Ev} (hs : step s e = some s') : Effect s e s' := by
  cases e with
  | tau =>
      cases hl : s.loc <;> simp only [step, stepTau, hl, Option.some.injEq] at hs
      case inetPton | socket | connect | read | done => cases hs
      -- the steps that test something, each way
      case whileRunning =>
          subst hs
          cases s.m_stop <;> refine ⟨?_, ?_, ?_⟩ <;> simp [hl]
      case ifDisconnected =>
          subst hs
          cases hst : s.m_status <;> refine ⟨?_, ?_, ?_⟩ <;> simp [hl, hst, State.enterReading]
      case whileReading =>
          subst hs
          by_cases hcond : s.nread < SBUFLEN ∧ s.m_stop = false <;>
            refine ⟨?_, ?_, ?_⟩ <;> simp [hl, hcond]
      case ifComplete =>
          subst hs
          by_cases hcond : s.ok = true ∧ s.nread = SBUFLEN <;>
            refine ⟨?_, ?_, ?_⟩ <;> simp [hl, hcond]
      all_goals
        subst hs
        refine ⟨?_, ?_, ?_⟩ <;> simp [hl, State.enterReading]
  | read res =>
      simp only [step, Option.ite_none_right_eq_some] at hs
      obtain ⟨-, hs⟩ := hs
      cases res with
      | data bs =>
          obtain ⟨-, rfl⟩ := of_guard hs
          refine ⟨?_, ?_, ?_⟩ <;> simp
      | _ =>
          simp only [stepRead, Option.some.injEq] at hs
          subst hs
          refine ⟨?_, ?_, ?_⟩ <;> simp
  | connect rc =>
      obtain ⟨-, rfl⟩ := of_guard hs
      by_cases hrc : rc = 0 <;> refine ⟨?_, ?_, ?_⟩ <;> simp [hrc]
  | inetPton rc =>
      obtain ⟨-, rfl⟩ := of_guard hs
      by_cases hrc : rc = 1 <;> refine ⟨?_, ?_, ?_⟩ <;> simp [hrc]
  | socket fd =>
      obtain ⟨-, rfl⟩ := of_guard hs
      by_cases hfd : fd < 0 <;> refine ⟨?_, ?_, ?_⟩ <;> simp [hfd]

/-- The worker does not touch `m_stop`. -/
theorem step_m_stop {s s' : State} {e : Ev} (hs : step s e = some s') : s'.m_stop = s.m_stop := by
  cases e with
  | tau =>
      cases hl : s.loc <;> simp only [step, stepTau, hl, Option.some.injEq] at hs
      case inetPton | socket | connect | read | done => cases hs
      case ifDisconnected =>
          subst hs
          cases s.m_status <;> rfl
      all_goals
        subst hs
        rfl
  | read res =>
      simp only [step, Option.ite_none_right_eq_some] at hs
      obtain ⟨-, hs⟩ := hs
      cases res with
      | data bs =>
          obtain ⟨-, rfl⟩ := of_guard hs
          rfl
      | _ =>
          simp only [stepRead, Option.some.injEq] at hs
          subst hs
          rfl
  | connect rc | inetPton rc | socket rc =>
      obtain ⟨-, rfl⟩ := of_guard hs
      rfl

/-- The worker calls `read` only after it has found `m_stop` false. -/
theorem to_read {s s' : State} {e : Ev} (hs : step s e = some s') (hl' : s'.loc = .read) :
    s.m_stop = false := by
  cases e with
  | tau =>
      cases hl : s.loc <;> simp only [step, stepTau, hl, Option.some.injEq] at hs
      case inetPton | socket | connect | read | done => cases hs
      case whileReading =>
          subst hs
          by_contra hstop
          simp [hstop] at hl'
      case whileRunning =>
          subst hs
          cases hstop : s.m_stop <;> simp [hstop] at hl'
      case ifDisconnected =>
          subst hs
          cases hstatus : s.m_status <;> simp [hstatus, State.enterReading] at hl'
      case ifComplete =>
          subst hs
          by_cases hcond : s.ok = true ∧ s.nread = SBUFLEN <;> simp [hcond] at hl'
      all_goals
        subst hs
        simp [State.enterReading] at hl'
  | read res =>
      simp only [step, Option.ite_none_right_eq_some] at hs
      obtain ⟨-, hs⟩ := hs
      cases res with
      | data bs =>
          obtain ⟨-, rfl⟩ := of_guard hs
          cases hl'
      | _ =>
          simp only [stepRead, Option.some.injEq] at hs
          subst hs
          cases hl'
  | connect rc =>
      obtain ⟨-, rfl⟩ := of_guard hs
      by_cases hrc : rc = 0 <;> simp [hrc] at hl'
  | inetPton rc =>
      obtain ⟨-, rfl⟩ := of_guard hs
      by_cases hrc : rc = 1 <;> simp [hrc] at hl'
  | socket fd =>
      obtain ⟨-, rfl⟩ := of_guard hs
      by_cases hfd : fd < 0 <;> simp [hfd] at hl'

end Speedometer.Client.TcpService
