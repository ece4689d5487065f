/-
  Speedometer.Client.UartService

  The desktop client's `UARTService::run` as a state machine, in the form of
  `Client.TcpService`.  What `QSerialPort` answers is in the events.
-/

import Speedometer.Client.ComService
import Speedometer.Lib.Run

namespace Speedometer.Client.UartService

open Cpp Transition

/-- The next thing the worker does. -/
inductive Loc
  /-- `while (!m_stop)` -/
  | whileRunning
  /-- `if (!m_status)` -/
  | ifDisconnected
  /-- `serial.open(ReadOnly)` -/
  | openPort
  /-- `serial.clear()` -/
  | clearPort
  /-- `serial.waitForReadyRead(3 * INTERVAL)` -/
  | waitForReadyRead
  /-- `SBUFLEN == serial.read(tmpbuf, SBUFLEN)` -/
  | read
  /-- `memcpy(m_buffer, tmpbuf, SBUFLEN)` under the lock -/
  | commit
  /-- `m_status = true` -/
  | setStatus
  /-- `m_status = false` after a failed wait or read -/
  | clearStatus
  /-- `serial.close()` after a failed wait or read -/
  | close
  /-- `msleep(CLIENT_RETRY_OPEN_INTERVAL)` -/
  | sleep
  /-- `serial.close()` after the loop -/
  | closeLast
  /-- `run` has returned -/
  | done
deriving DecidableEq, Repr

/-- A step of the worker, with what the serial port answers, if it is asked. -/
inductive Ev
  | tau
  | openPort (ok : Bool)
  | waitForReadyRead (ok : Bool)
  /-- `serial.read`: the bytes it stored, or `none` for `-1` -/
  | read (bs : Option (List (BitVec 8)))
deriving DecidableEq, Repr

/-- A `UARTService`, its serial port and the locals of its worker. -/
structure State extends ComService where
  m_stop : Bool := false
  isOpen : Bool := false
  loc : Loc := .whileRunning
  tmpbuf : Buf SBUFLEN := Buf.zero SBUFLEN
deriving DecidableEq

/-- A step whose outcome the program determines. -/
def stepTau (s : State) : Option State :=
  match s.loc with
  | .whileRunning => some { s with loc := if s.m_stop then .closeLast else .ifDisconnected }
  | .ifDisconnected => some { s with loc := if s.m_status then .waitForReadyRead else .openPort }
  | .clearPort => some { s with loc := .waitForReadyRead }
  | .commit => some { s with m_buffer := s.tmpbuf, loc := .setStatus }
  | .setStatus => some { s with m_status := true, loc := .whileRunning }
  | .clearStatus => some { s with m_status := false, loc := .close }
  | .close => some { s with isOpen := false, loc := .sleep }
  | .sleep => some { s with loc := .whileRunning }
  | .closeLast => some { s with isOpen := false, loc := .done }
  | .openPort | .waitForReadyRead | .read | .done => none

/-- A step of `UARTService::run`. -/
def step (s : State) : Ev → Option State
  | .tau => stepTau s
  | .openPort ok =>
      if s.loc = .openPort then
        some { s with isOpen := ok, loc := if ok then .clearPort else .sleep }
      else none
  | .waitForReadyRead ok =>
      if s.loc = .waitForReadyRead then
        some { s with loc := if ok then .read else .clearStatus }
      else none
  | .read (some bs) =>
      -- `read` stores at most as many bytes as it was asked for
      if s.loc = .read ∧ bs.length ≤ SBUFLEN then
        some { s with tmpbuf := s.tmpbuf.write 0 bs,
                      loc := if bs.length = SBUFLEN then .commit else .clearStatus }
      else none
  | .read none => if s.loc = .read then some { s with loc := .clearStatus } else none

/-! ## What a step can do -/

/-- The worker opens the port, clears it, or waits to do so, only with `m_status` false. -/
def Down (s : State) : Prop :=
  s.loc ∈ [.openPort, .clearPort, .close, .sleep] → s.m_status = false

/-- What a step does to what the worker shares with other threads, and what leads it to
    set `m_status`. -/
structure Effect (s : State) (e : Ev) (s' : State) : Prop where
  m_buffer : s'.m_buffer = if e = .tau ∧ s.loc = .commit then s.tmpbuf else s.m_buffer
  m_status : s'.m_status =
    if e = .tau ∧ s.loc = .setStatus then true
    else if e = .tau ∧ s.loc = .clearStatus then false
    else s.m_status
  to_setStatus : s'.loc = .setStatus → e = .tau ∧ s.loc = .commit
  down : Down s → Down s'

theorem step_effect {s s' : State} {e : Ev} (hs : step s e = some s') : Effect s e s' := by
  cases e with
  | tau =>
      cases hl : s.loc <;> simp only [step, stepTau, hl, Option.some.injEq] at hs
      case openPort | waitForReadyRead | read | done => cases hs
      case whileRunning =>
          subst hs
          cases s.m_stop <;> refine ⟨?_, ?_, ?_, ?_⟩ <;> simp [hl, Down]
      case ifDisconnected =>
          subst hs
          cases hst : s.m_status <;> refine ⟨?_, ?_, ?_, ?_⟩ <;> simp [hl, hst, Down]
      case close =>
          -- `m_status` was cleared just before, and `sleep` leads back to the loop
          subst hs
          exact ⟨by simp [hl], by simp [hl], by simp, fun h _ => h (by simp [hl])⟩
      all_goals
        subst hs
        refine ⟨?_, ?_, ?_, ?_⟩ <;> simp [hl, Down]
  | openPort ok =>
      obtain ⟨hl, rfl⟩ := of_guard hs
      exact ⟨by simp, by simp, by cases ok <;> simp, fun h _ => h (by simp [hl])⟩
  | waitForReadyRead ok =>
      obtain ⟨-, rfl⟩ := of_guard hs
      cases ok <;> refine ⟨?_, ?_, ?_, ?_⟩ <;> simp [Down]
  | read bs =>
      cases bs with
      | none =>
          obtain ⟨-, rfl⟩ := of_guard hs
          refine ⟨?_, ?_, ?_, ?_⟩ <;> simp [Down]
      | some bs =>
          obtain ⟨-, rfl⟩ := of_guard hs
          by_cases hfull : bs.length = SBUFLEN <;> refine ⟨?_, ?_, ?_, ?_⟩ <;> simp [hfull, Down]

/-! ## The buffer -/

/-- The same state with other contents of `m_buffer`. -/
def State.setBuffer (s : State) (m_buffer : Buf SBUFLEN) : State := { s with m_buffer }

/-- The worker never reads `m_buffer`. -/
theorem step_setBuffer {s t : State} {m_buffer : Buf SBUFLEN} {e : Ev}
    (hs : step (s.setBuffer m_buffer) e = some t) :
    ∃ t', step s e = some t' ∧ t = t'.setBuffer t.m_buffer := by
  cases e with
  | tau =>
      have hloc : (s.setBuffer m_buffer).loc = s.loc := rfl
      cases hl : s.loc <;> simp only [step, stepTau, hloc, hl, Option.some.injEq] at hs ⊢
      case openPort | waitForReadyRead | read | done => cases hs
      all_goals exact ⟨_, rfl, hs ▸ rfl⟩
  | openPort ok | waitForReadyRead ok =>
      obtain ⟨hl, rfl⟩ := of_guard hs
      exact ⟨_, if_pos hl, rfl⟩
  | read bs =>
      cases bs with
      | none | some bs =>
          obtain ⟨hl, rfl⟩ := of_guard hs
          exact ⟨_, if_pos hl, rfl⟩

end Speedometer.Client.UartService
