/-
  Speedometer.Server.TcpService

  The desktop server's `TCPService::run` as a state machine, in the form of the
  client's: `Loc` is the next thing the worker does, `step` does it, and the
  result of a system call is in the event.
-/

import Speedometer.Server.ComService
import Speedometer.Lib.Run

namespace Speedometer.Server.TcpService

open Cpp Transition

/-- The next thing the worker does. -/
inductive Loc
  /-- `listen(m_sockfd, N_CONNS)` -/
  | listen
  /-- `m_is_running.store(true)` -/
  | setRunning
  /-- `accept(m_sockfd, ...)` -/
  | accept
  /-- `m_status.store(true)` -/
  | setStatus
  /-- `while (m_is_running)` -/
  | whileRunning
  /-- `msleep(INTERVAL)` -/
  | sleep
  /-- `memcpy(temp_buf, m_buf, ...)` under the lock -/
  | snapshot
  /-- `send(connfd, temp_buf, SBUFLEN, MSG_NOSIGNAL)` -/
  | send
  /-- `m_status.store(false)`, then `break` -/
  | clearStatus
  /-- `shutdown(connfd, SHUT_RDWR)` -/
  | shutdown
  /-- `close(connfd)` -/
  | close
  /-- `if (!m_is_running)` after a failed `accept` -/
  | ifStopped
  /-- `emit fatalErrorOccurred(...)` -/
  | fatalError
  /-- `run` has returned -/
  | done
deriving DecidableEq, Repr

/-- A step of the worker, with the result of the system call it makes, if any. -/
inductive Ev
  | tau
  | listen (rc : Int)
  | accept (connfd : Int)
  | send (bytes_sent : Int)
deriving DecidableEq, Repr

/-- A `TCPService` and the locals of its worker. -/
structure State extends ComService where
  m_is_running : Bool := false
  loc : Loc := .listen
  connfd : Int := -1
  temp_buf : Buf SBUFLEN := Buf.zero SBUFLEN
deriving DecidableEq

/-- A step whose outcome the program determines. -/
def stepTau (s : State) : Option State :=
  match s.loc with
  | .setRunning => some { s with m_is_running := true, loc := .accept }
  | .setStatus => some { s with m_status := true, loc := .whileRunning }
  | .whileRunning => some { s with loc := if s.m_is_running then .sleep else .shutdown }
  | .sleep => some { s with loc := .snapshot }
  | .snapshot => some { s with temp_buf := s.m_buf, loc := .send }
  | .clearStatus => some { s with m_status := false, loc := .shutdown }
  | .shutdown => some { s with loc := .close }
  | .close => some { s with loc := .accept }
  | .ifStopped => some { s with loc := if s.m_is_running then .accept else .done }
  | .fatalError => some { s with loc := .done }
  | .listen | .accept | .send | .done => none

/-- A step of `TCPService::run`. -/
def step (s : State) : Ev → Option State
  | .tau => stepTau s
  | .listen rc =>
      if s.loc = .listen then
        some { s with loc := if rc = 0 then .setRunning else .fatalError }
      else none
  | .accept connfd =>
      if s.loc = .accept then
        some { s with connfd, loc := if 0 ≤ connfd then .setStatus else .ifStopped }
      else none
  | .send bytes_sent =>
      -- `send` takes at most as many bytes as it was given
      if s.loc = .send ∧ bytes_sent ≤ SBUFLEN then
        some { s with loc := if bytes_sent ≤ 0 then .clearStatus else .whileRunning }
      else none

/-! ## What a step can do -/

/-- What a step does to what the worker shares with other threads and to its snapshot.
    The worker never writes `m_buf`, and it sends only what it has just copied. -/
structure Effect (s : State) (e : Ev) (s' : State) : Prop where
  m_buf : s'.m_buf = s.m_buf
  temp_buf : s'.temp_buf = if e = .tau ∧ s.loc = .snapshot then s.m_buf else s.temp_buf
  m_is_running : s'.m_is_running =
    if e = .tau ∧ s.loc = .setRunning then true else s.m_is_running
  to_send : s'.loc = .send → e = .tau ∧ s.loc = .snapshot

theorem step_effect {s s' : State} {e : Ev} (hs : step s e = some s') : Effect s e s' := by
  cases e with
  | tau =>
      cases hl : s.loc <;> simp only [step, stepTau, hl, Option.some.injEq] at hs
      case listen | accept | send | done => cases hs
      -- the steps that test `m_is_running`, each way
      case whileRunning | ifStopped =>
          subst hs
          cases hrun : s.m_is_running <;> refine ⟨?_, ?_, ?_, ?_⟩ <;> simp [hl, hrun]
      all_goals
        subst hs
        refine ⟨?_, ?_, ?_, ?_⟩ <;> simp [hl]
  | listen rc =>
      obtain ⟨-, rfl⟩ := of_guard hs
      by_cases hrc : rc = 0 <;> refine ⟨?_, ?_, ?_, ?_⟩ <;> simp [hrc]
  | accept connfd =>
      obtain ⟨-, rfl⟩ := of_guard hs
      by_cases hfd : 0 ≤ connfd <;> refine ⟨?_, ?_, ?_, ?_⟩ <;> simp [hfd]
  | send bytes_sent =>
      obtain ⟨-, rfl⟩ := of_guard hs
      by_cases hsent : bytes_sent ≤ 0 <;> refine ⟨?_, ?_, ?_, ?_⟩ <;> simp [hsent]

end Speedometer.Server.TcpService
