/-
  Speedometer.UartShutdown

  `~UARTService` of both desktop programs: the destructor stores the flag the worker's
  loops test, and waits for the worker to return.

  Every call the worker makes comes back, so the destructor returns after a bounded
  number of steps in every interleaving.  After the store the server writes at most one
  more packet and the client reads at most one, and the client has closed its port.
-/

import Speedometer.Lib.Stopping
import Speedometer.Client.UartService
import Speedometer.Server.UartService

namespace Speedometer

open Cpp Stopping Transition

/-! ## The server -/

namespace Server.UartService

/-- The most steps the worker can still take from each of its points once `m_isRunning` is
    false. -/
def stepsLeft : Loc → Nat
  | .done => 0
  | .whileRunning => 1
  | .openPort | .reopenPort | .close => 2
  | .sleepClosed | .whileSending | .clearStatus => 3
  | .setStatus | .sleep => 4
  | .ifOpen | .ifFailed => 5
  | .waitForBytesWritten => 6
  | .write => 7
  | .snapshot => 8

/-- The packets it can still write. -/
def writesLeft : Loc → Nat
  | .snapshot | .write => 1
  | _ => 0

def Ev.isWrite : Ev → Bool
  | .write _ => true
  | _ => false

variable {s t : State} {e : Ev}

/-- The worker does not touch `m_isRunning`. -/
theorem step_m_isRunning (hs : step s e = some t) : t.m_isRunning = s.m_isRunning := by
  cases e with
  | tau =>
      cases hl : s.loc <;> simp only [step, stepTau, hl, Option.some.injEq] at hs
      case openPort | write | waitForBytesWritten | ifFailed | reopenPort | done => cases hs
      all_goals
        subst hs
        rfl
  | _ =>
      obtain ⟨-, rfl⟩ := of_guard hs
      rfl

theorem step_left (hstop : s.m_isRunning = false) (hs : step s e = some t) :
    stepsLeft t.loc + 1 ≤ stepsLeft s.loc ∧
      writesLeft t.loc + (if e.isWrite then 1 else 0) ≤ writesLeft s.loc := by
  cases e with
  | tau =>
      cases hl : s.loc <;> simp only [step, stepTau, hl, Option.some.injEq] at hs
      case openPort | write | waitForBytesWritten | ifFailed | reopenPort | done => cases hs
      case ifOpen =>
          subst hs
          cases s.isOpen <;> simp [stepsLeft, writesLeft, Ev.isWrite]
      all_goals
        subst hs
        simp [hstop, stepsLeft, writesLeft, Ev.isWrite]
  | openPort ok =>
      obtain ⟨hl, rfl⟩ := of_guard hs
      rcases hl with hl | hl <;> simp [hl, stepsLeft, writesLeft, Ev.isWrite]
  | write bytes_sent =>
      obtain ⟨⟨hl, -⟩, rfl⟩ := of_guard hs
      simp [hl, stepsLeft, writesLeft, Ev.isWrite]
  | waitForBytesWritten ok =>
      obtain ⟨hl, rfl⟩ := of_guard hs
      simp [hl, stepsLeft, writesLeft, Ev.isWrite]
  | error noError =>
      obtain ⟨hl, rfl⟩ := of_guard hs
      simp only
      split <;> simp [hl, stepsLeft, writesLeft, Ev.isWrite]

theorem step_done (hl : s.loc = .done) : step s e = none := by
  cases e <;> simp [step, stepTau, hl]

/-- Whatever the port is asked, it answers. -/
theorem progress (hl : s.loc ≠ .done) : ∃ e t, step s e = some t := by
  cases h : s.loc with
  | done => exact absurd h hl
  | openPort | reopenPort => exact ⟨.openPort true, _, by simp [step, h]; rfl⟩
  | write => exact ⟨.write 0, _, by simp [step, h]; rfl⟩
  | waitForBytesWritten => exact ⟨.waitForBytesWritten true, _, by simp [step, h]; rfl⟩
  | ifFailed => exact ⟨.error true, _, by simp [step, h]; rfl⟩
  | _ => exact ⟨.tau, _, by simp only [step, stepTau, h]; rfl⟩

/-- The worker as a thread that `~UARTService` stops. -/
def worker : Thread State Ev where
  step := step
  stop := fun s => { s with m_isRunning := false }
  stopped := fun s => s.m_isRunning = false
  ended := fun s => s.loc = .done
  rank := fun s => stepsLeft s.loc
  stop_stopped := fun _ => rfl
  step_stopped := fun hstop hs => (step_m_isRunning hs).trans hstop
  step_rank := fun hstop hs => (step_left hstop hs).1
  step_ended := fun _ hl => step_done (of_decide_eq_true hl)
  progress := fun hl => progress (of_decide_eq_false hl)

/-- In every interleaving: once `~UARTService` has stored `m_isRunning`, destructor and
    worker together take at most 9 more steps, and the worker writes at most one packet;
    they come to rest only when the worker and the destructor have returned. -/
theorem server_uart_stops {m_buf : Buf SBUFLEN} {es fs : List (Stopping.Ev Ev)}
    {s t : Stopping.State State}
    (h : Run (Stopping.step worker) Always { thread := { m_buf } } es s) (hstored : s.loc ≠ .store)
    (hnext : Run (Stopping.step worker) Always s fs t) :
    fs.length ≤ 9 ∧ fs.countP (Ev.isThread Ev.isWrite) ≤ 1 ∧
      ((∀ e, Stopping.step worker t e = none) → t.loc = .done ∧ t.thread.loc = .done) := by
  have hst := stored_of_run h hstored
  have hbound : ∀ loc : Loc, stepsLeft loc ≤ 8 ∧ writesLeft loc ≤ 1 := by
    intro loc
    cases loc <;> decide
  obtain ⟨hlength, hdone⟩ := hst.returns (n := 8) (fun s => (hbound s.loc).1) hnext
  have hwrites := hst.countP_le (φ := fun s => writesLeft s.loc)
    (fun hstop hs => (step_left hstop hs).2) hnext
  exact ⟨hlength, Nat.le_trans hwrites (hbound s.thread.loc).2,
    fun hstuck => (hdone hstuck).imp_right of_decide_eq_true⟩

/-- The service is destroyed when the worker is about to take a snapshot. -/
def untilStore : List (Stopping.Ev Ev) :=
  [.thread (.openPort true), .thread .tau, .thread .tau, .thread .tau, .thread .tau, .main]

/-- It sends the packet and returns. -/
def afterStore : List (Stopping.Ev Ev) :=
  [.thread .tau, .thread (.write 3), .thread (.waitForBytesWritten true), .thread (.error true),
   .thread .tau, .thread .tau, .thread .tau, .thread .tau, .main]

theorem server_uart_stops_sending :
    ∃ s t, Run (Stopping.step worker) Always { thread := { m_buf := Buf.zero SBUFLEN } }
        untilStore s ∧ Run (Stopping.step worker) Always s afterStore t ∧ t.loc = .done ∧
      afterStore.length ≤ 9 ∧ afterStore.countP (Ev.isThread Ev.isWrite) ≤ 1 := by
  obtain ⟨s, hrun, hstored, hrest⟩ : ∃ s,
      Run (Stopping.step worker) Always { thread := { m_buf := Buf.zero SBUFLEN } } untilStore s ∧
      s.loc ≠ .store ∧ (exec (Stopping.step worker) Always s afterStore).any
        (fun t => decide (t.loc = .done)) = true := Run.exists_of_exec (by decide)
  obtain ⟨t, hnext, hdone⟩ := Run.exists_of_exec hrest
  have hstops := server_uart_stops hrun hstored hnext
  exact ⟨s, t, hrun, hnext, hdone, hstops.1, hstops.2.1⟩

end Server.UartService

/-! ## The client -/

namespace Client.UartService

/-- The most steps the worker can still take from each of its points once `m_stop` is
    true. -/
def stepsLeft : Loc → Nat
  | .done => 0
  | .closeLast => 1
  | .whileRunning => 2
  | .setStatus | .sleep => 3
  | .commit | .close => 4
  | .clearStatus => 5
  | .read => 6
  | .waitForReadyRead => 7
  | .clearPort => 8
  | .openPort => 9
  | .ifDisconnected => 10

/-- The packets it can still read. -/
def readsLeft : Loc → Nat
  | .ifDisconnected | .openPort | .clearPort | .waitForReadyRead | .read => 1
  | _ => 0

def Ev.isRead : Ev → Bool
  | .read _ => true
  | _ => false

variable {s t : State} {e : Ev}

/-- The worker does not touch `m_stop`, and returns with its port closed. -/
structure Kept (s t : State) : Prop where
  m_stop : t.m_stop = s.m_stop
  closed : t.loc = .done → t.isOpen = false

theorem step_kept (hs : step s e = some t) : Kept s t := by
  cases e with
  | tau =>
      cases hl : s.loc <;> simp only [step, stepTau, hl, Option.some.injEq] at hs
      case openPort | waitForReadyRead | read | done => cases hs
      case whileRunning =>
          subst hs
          exact ⟨rfl, by cases s.m_stop <;> simp⟩
      case ifDisconnected =>
          subst hs
          exact ⟨rfl, by cases s.m_status <;> simp⟩
      all_goals
        subst hs
        exact ⟨rfl, by simp⟩
  | openPort ok | waitForReadyRead ok =>
      obtain ⟨-, rfl⟩ := of_guard hs
      exact ⟨rfl, by cases ok <;> simp⟩
  | read bs =>
      cases bs with
      | none =>
          obtain ⟨-, rfl⟩ := of_guard hs
          exact ⟨rfl, fun hstored => by cases hstored⟩
      | some bs =>
          obtain ⟨-, rfl⟩ := of_guard hs
          exact ⟨rfl, by simp only; split <;> simp⟩

theorem step_left (hstop : s.m_stop = true) (hs : step s e = some t) :
    stepsLeft t.loc + 1 ≤ stepsLeft s.loc ∧
      readsLeft t.loc + (if e.isRead then 1 else 0) ≤ readsLeft s.loc := by
  cases e with
  | tau =>
      cases hl : s.loc <;> simp only [step, stepTau, hl, Option.some.injEq] at hs
      case openPort | waitForReadyRead | read | done => cases hs
      case ifDisconnected =>
          subst hs
          cases s.m_status <;> simp [stepsLeft, readsLeft, Ev.isRead]
      all_goals
        subst hs
        simp [hstop, stepsLeft, readsLeft, Ev.isRead]
  | openPort ok | waitForReadyRead ok =>
      obtain ⟨hl, rfl⟩ := of_guard hs
      cases ok <;> simp [hl, stepsLeft, readsLeft, Ev.isRead]
  | read bs =>
      cases bs with
      | none =>
          obtain ⟨hl, rfl⟩ := of_guard hs
          simp [hl, stepsLeft, readsLeft, Ev.isRead]
      | some bs =>
          obtain ⟨⟨hl, -⟩, rfl⟩ := of_guard hs
          simp only
          split <;> simp [hl, stepsLeft, readsLeft, Ev.isRead]

theorem step_done (hl : s.loc = .done) : step s e = none := by
  cases e with
  | read bs => cases bs <;> simp [step, hl]
  | _ => simp [step, stepTau, hl]

/-- Whatever the port is asked, it answers. -/
theorem progress (hl : s.loc ≠ .done) : ∃ e t, step s e = some t := by
  cases h : s.loc with
  | done => exact absurd h hl
  | openPort => exact ⟨.openPort true, _, by simp [step, h]; rfl⟩
  | waitForReadyRead => exact ⟨.waitForReadyRead true, _, by simp [step, h]; rfl⟩
  | read => exact ⟨.read none, _, by simp [step, h]; rfl⟩
  | _ => exact ⟨.tau, _, by simp only [step, stepTau, h]; rfl⟩

/-- The worker as a thread that `~UARTService` stops. -/
def worker : Thread State Ev where
  step := step
  stop := fun s => { s with m_stop := true }
  stopped := fun s => s.m_stop = true
  ended := fun s => s.loc = .done
  rank := fun s => stepsLeft s.loc
  stop_stopped := fun _ => rfl
  step_stopped := fun hstop hs => (step_kept hs).m_stop.trans hstop
  step_rank := fun hstop hs => (step_left hstop hs).1
  step_ended := fun _ hl => step_done (of_decide_eq_true hl)
  progress := fun hl => progress (of_decide_eq_false hl)

/-- In every interleaving: once `~UARTService` has stored `m_stop`, destructor and worker
    together take at most 11 more steps, and the worker reads at most one packet; they come
    to rest only when both have returned, with the port closed. -/
theorem client_uart_stops {m_buffer : Buf SBUFLEN} {es fs : List (Stopping.Ev Ev)}
    {s t : Stopping.State State}
    (h : Run (Stopping.step worker) Always { thread := { m_buffer } } es s)
    (hstored : s.loc ≠ .store) (hnext : Run (Stopping.step worker) Always s fs t) :
    fs.length ≤ 11 ∧ fs.countP (Ev.isThread Ev.isRead) ≤ 1 ∧
      ((∀ e, Stopping.step worker t e = none) →
        t.loc = .done ∧ t.thread.loc = .done ∧ t.thread.isOpen = false) := by
  have hst := stored_of_run h hstored
  have hbound : ∀ loc : Loc, stepsLeft loc ≤ 10 ∧ readsLeft loc ≤ 1 := by
    intro loc
    cases loc <;> decide
  obtain ⟨hlength, hdone⟩ := hst.returns (n := 10) (fun s => (hbound s.loc).1) hnext
  have hreads := hst.countP_le (φ := fun s => readsLeft s.loc)
    (fun hstop hs => (step_left hstop hs).2) hnext
  have hclosed : t.thread.loc = .done → t.thread.isOpen = false := by
    refine thread_invariant (I := fun s : State => s.loc = .done → s.isOpen = false)
      (fun _ hi => hi) (fun _ _ _ _ hs => (step_kept hs).closed) ?_ (h.append hnext)
    intro hdone
    cases hdone
  refine ⟨hlength, Nat.le_trans hreads (hbound s.thread.loc).2, fun hstuck => ?_⟩
  obtain ⟨hloc, hended⟩ := hdone hstuck
  have hl := of_decide_eq_true hended
  exact ⟨hloc, hl, hclosed hl⟩

/-- The service is destroyed before the port is opened; the worker reads a packet. -/
def beforeClose : List (Stopping.Ev Ev) :=
  [.thread .tau, .thread (.openPort true), .thread .tau, .thread (.waitForReadyRead true),
   .thread (.read (some [1, 2, 3])), .thread .tau, .thread .tau, .thread .tau, .thread .tau, .main]

theorem client_uart_stops_reading :
    ∃ s t, Run (Stopping.step worker) Always { thread := { m_buffer := Buf.zero SBUFLEN } }
        [.thread .tau, .main] s ∧ Run (Stopping.step worker) Always s beforeClose t ∧
      t.loc = .done ∧ beforeClose.length ≤ 11 ∧ beforeClose.countP (Ev.isThread Ev.isRead) ≤ 1 := by
  obtain ⟨s, hrun, hstored, hrest⟩ : ∃ s,
      Run (Stopping.step worker) Always { thread := { m_buffer := Buf.zero SBUFLEN } }
        [.thread .tau, .main] s ∧
      s.loc ≠ .store ∧ (exec (Stopping.step worker) Always s beforeClose).any
        (fun t => decide (t.loc = .done)) = true := Run.exists_of_exec (by decide)
  obtain ⟨t, hnext, hdone⟩ := Run.exists_of_exec hrest
  have hstops := client_uart_stops hrun hstored hnext
  exact ⟨s, t, hrun, hnext, hdone, hstops.1, hstops.2.1⟩

end Client.UartService
end Speedometer
