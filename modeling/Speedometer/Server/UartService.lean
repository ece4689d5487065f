/-
  Speedometer.Server.UartService

  The desktop server's `UARTService::run` as a state machine, in the form of
  `Server.TcpService`.  What `QSerialPort` returns is in the events.
-/

import Speedometer.Server.ComService
import Speedometer.Lib.Run

namespace Speedometer.Server.UartService

open Cpp Transition

/-- The next thing the worker does. -/
inductive Loc
  /-- the first `serial.open(WriteOnly)` -/
  | openPort
  /-- `while (m_isRunning)` -/
  | whileRunning
  /-- `if (serial.isOpen())` -/
  | ifOpen
  /-- `m_status.store(true)` -/
  | setStatus
  /-- `while (m_isRunning && m_status)` -/
  | whileSending
  /-- `memcpy(temp_buf, m_buf, ...)` under the lock -/
  | snapshot
  /-- `bytes_sent = serial.write(temp_buf, SBUFLEN)` -/
  | write
  /-- `write_success = serial.waitForBytesWritten(100)` -/
  | waitForBytesWritten
  /-- `if (bytes_sent < 0 || !write_success || serial.error() != NoError)` -/
  | ifFailed
  /-- `m_status.store(false)`, then `break` -/
  | clearStatus
  /-- `msleep(INTERVAL)` -/
  | sleep
  /-- `serial.close()` -/
  | close
  /-- `msleep(1000)` -/
  | sleepClosed
  /-- `serial.open(WriteOnly)` after the port was found closed -/
  | reopenPort
  /-- `run` has returned -/
  | done
deriving DecidableEq, Repr

/-- A step of the worker, with what the serial port answers, if it is asked. -/
inductive Ev
  | tau
  | openPort (ok : Bool)
  | write (bytes_sent : Int)
  | waitForBytesWritten (ok : Bool)
  | error (noError : Bool)
deriving DecidableEq, Repr

/-- A `UARTService` and the locals of its worker. -/
structure State extends ComService where
  m_isRunning : Bool := true
  loc : Loc := .openPort
  isOpen : Bool := false
  temp_buf : Buf SBUFLEN := Buf.zero SBUFLEN
  bytes_sent : Int := 0
  write_success : Bool := false
deriving DecidableEq

/-- A step whose outcome the program determines. -/
def stepTau (s : State) : Option State :=
  match s.loc with
  | .whileRunning => some { s with loc := if s.m_isRunning then .ifOpen else .done }
  | .ifOpen => some { s with loc := if s.isOpen then .setStatus else .sleepClosed }
  | .setStatus => some { s with m_status := true, loc := .whileSending }
  | .whileSending =>
      some { s with loc := if s.m_isRunning ∧ s.m_status then .snapshot else .close }
  | .snapshot => some { s with temp_buf := s.m_buf, loc := .write }
  | .clearStatus => some { s with m_status := false, loc := .close }
  | .sleep => some { s with loc := .whileSending }
  | .close => some { s with isOpen := false, loc := .whileRunning }
  | .sleepClosed => some { s with loc := .reopenPort }
  | .openPort | .write | .waitForBytesWritten | .ifFailed | .reopenPort | .done => none

/-- A step of `UARTService::run`. -/
def step (s : State) : Ev → Option State
  | .tau => stepTau s
  | .openPort ok =>
      if s.loc = .openPort ∨ s.loc = .reopenPort then
        some { s with isOpen := ok, loc := .whileRunning }
      else none
  | .write bytes_sent =>
      if s.loc = .write ∧ bytes_sent ≤ SBUFLEN then
        some { s with bytes_sent, loc := .waitForBytesWritten }
      else none
  | .waitForBytesWritten ok =>
      if s.loc = .waitForBytesWritten then
        some { s with write_success := ok, loc := .ifFailed }
      else none
  | .error noError =>
      if s.loc = .ifFailed then
        some { s with
          loc :=
            if s.bytes_sent < 0 ∨ s.write_success = false ∨ noError = false then .clearStatus
            else .sleep }
      else none

/-! ## What a step can do -/

/-- What a step does to `m_buf`, which the worker never writes, and to its snapshot. -/
structure Effect (s : State) (e : Ev) (s' : State) : Prop where
  m_buf : s'.m_buf = s.m_buf
  temp_buf : s'.temp_buf = if e = .tau ∧ s.loc = .snapshot then s.m_buf else s.temp_buf

theorem step_effect {s s' : State} {e : Ev} (hs : step s e = some s') : Effect s e s' := by
  cases e with
  | tau =>
      cases hl : s.loc <;> simp only [step, stepTau, hl, Option.some.injEq] at hs
      case openPort | write | waitForBytesWritten | ifFailed | reopenPort | done => cases hs
      all_goals
        subst hs
        refine ⟨?_, ?_⟩ <;> simp [hl]
  | _ =>
      obtain ⟨-, rfl⟩ := of_guard hs
      refine ⟨?_, ?_⟩ <;> simp

/-- The worker writes only what it has just copied. -/
theorem to_write {s s' : State} {e : Ev} (hs : step s e = some s') (hl' : s'.loc = .write) :
    e = .tau ∧ s.loc = .snapshot := by
  cases e with
  | tau =>
      cases hl : s.loc <;> simp only [step, stepTau, hl, Option.some.injEq] at hs
      case openPort | write | waitForBytesWritten | ifFailed | reopenPort | done => cases hs
      case snapshot => exact ⟨rfl, rfl⟩
      case whileRunning | ifOpen | whileSending =>
          subst hs
          simp only at hl'
          split at hl' <;> cases hl'
      all_goals
        subst hs
        cases hl'
  | error noError =>
      obtain ⟨-, rfl⟩ := of_guard hs
      simp only at hl'
      split at hl' <;> cases hl'
  | openPort ok | write bytes_sent | waitForBytesWritten ok =>
      obtain ⟨-, rfl⟩ := of_guard hs
      cases hl'

end Speedometer.Server.UartService
