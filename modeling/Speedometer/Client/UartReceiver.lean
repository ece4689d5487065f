/-
  Speedometer.Client.UartReceiver

  Framing of the UART client: `UARTService::run` against a serial line of frames.

  Bytes arrive one at a time, are lost while the port is closed and discarded by
  `serial.clear()`; nothing on the line marks where a frame starts.
  `uart_commits_frames`: what the worker copies are whole frames as long as the
  `clear` at the start of each session fell between two frames.  A `clear` inside
  a frame shifts every frame of the session (`uart_commits_straddling`).  The frames
  copied keep the order of the line (`uart_commits_in_order`).
-/

import Speedometer.Client.UartService
import Speedometer.Lib.Line
import Speedometer.Lib.Run

namespace Speedometer.Client

open Cpp Line Transition

/-- The worker, the line it reads from and what it has committed. -/
structure UartReceiver where
  svc : UartService.State
  line : Fifo := .empty
  /-- the position on the line of the last `serial.clear()` -/
  clearedAt : Nat := 0
  /-- values copied into `m_buffer` since the port was last opened -/
  session : List (Buf SBUFLEN) := []
  /-- all values copied into `m_buffer` -/
  log : List (Buf SBUFLEN) := []
deriving DecidableEq

namespace UartReceiver

/-- What can happen next. -/
inductive Ev
  | arrive
  | stop
  | worker (e : UartService.Ev)
deriving DecidableEq, Repr

/-- What the port can answer: data is ready only when something has arrived, and
    `read` takes the bytes that arrived first. -/
def Answers (frames : Nat → Buf SBUFLEN) (r : UartReceiver) : UartService.Ev → Prop
  | .waitForReadyRead true => 0 < r.line.available
  | .read (some bs) => bs.length ≤ r.line.available ∧ bs = slice frames r.line.first bs.length
  | _ => True

instance (frames : Nat → Buf SBUFLEN) (r : UartReceiver) :
    (e : UartService.Ev) → Decidable (Answers frames r e)
  | .waitForReadyRead true => inferInstanceAs (Decidable (0 < r.line.available))
  | .read (some bs) => inferInstanceAs (Decidable
      (bs.length ≤ r.line.available ∧ bs = slice frames r.line.first bs.length))
  | .waitForReadyRead false | .read none | .tau | .openPort _ => isTrue trivial

/-- Recording a step of the worker that leads to `svc`. -/
def record (r : UartReceiver) (svc : UartService.State) : UartService.Ev → UartReceiver
  | .tau =>
      match r.svc.loc with
      | .clearPort => { r with svc, line := r.line.clear, clearedAt := r.line.arrived }
      | .commit =>
          { r with svc, session := r.session ++ [svc.m_buffer], log := r.log ++ [svc.m_buffer] }
      | .close | .closeLast => { r with svc, line := r.line.clear }
      | _ => { r with svc }
  | .openPort ok => { r with svc, session := if ok then [] else r.session }
  | .read (some bs) => { r with svc, line := r.line.take bs.length }
  | .read none | .waitForReadyRead _ => { r with svc }

@[simp] theorem record_svc (r : UartReceiver) (svc : UartService.State) (e : UartService.Ev) :
    (r.record svc e).svc = svc := by
  cases e with
  | tau =>
      simp only [record]
      split <;> rfl
  | read bs => cases bs <;> rfl
  | _ => rfl

/-- Nothing arrives while the worker takes a step. -/
theorem record_arrived (r : UartReceiver) (svc : UartService.State) (e : UartService.Ev) :
    (r.record svc e).line.arrived = r.line.arrived := by
  cases e with
  | tau =>
      simp only [record]
      split <;> rfl
  | read bs => cases bs <;> rfl
  | _ => rfl

/-- A step of the client, on a line of the given frames. -/
def step (frames : Nat → Buf SBUFLEN) (r : UartReceiver) : Ev → Option UartReceiver
  | .arrive =>
      -- bytes that arrive while the port is closed are lost
      some { r with line := if r.svc.isOpen then r.line.arrive else r.line.arrive.clear }
  | .stop => some { r with svc := { r.svc with m_stop := true } }
  | .worker e =>
      if Answers frames r e then
        match UartService.step r.svc e with
        | some svc => some (r.record svc e)
        | none => none
      else none

/-- The client before its first step, with any contents of the buffer. -/
def start (m_buffer : Buf SBUFLEN) : UartReceiver where
  svc := { m_buffer }

/-- A whole frame's worth of bytes is read only in sessions whose `serial.clear()`
    fell between two frames. -/
def ClearedBetween (r : UartReceiver) : Ev → Prop
  | .worker (.read (some bs)) => bs.length = SBUFLEN → r.clearedAt % SBUFLEN = 0
  | _ => True

instance (r : UartReceiver) : (e : Ev) → Decidable (r.ClearedBetween e)
  | .worker (.read (some bs)) =>
      inferInstanceAs (Decidable (bs.length = SBUFLEN → r.clearedAt % SBUFLEN = 0))
  | .worker (.read none) | .worker .tau | .worker (.openPort _) | .worker (.waitForReadyRead _)
  | .arrive | .stop => isTrue trivial

/-- The copy is the only thing that adds to the log. -/
theorem record_log {r : UartReceiver} {e : UartService.Ev}
    (h : ¬(e = .tau ∧ r.svc.loc = .commit)) (svc : UartService.State) :
    (r.record svc e).log = r.log := by
  cases e with
  | tau =>
      have hl : r.svc.loc ≠ .commit := fun hl => h ⟨rfl, hl⟩
      simp only [record]
      split <;> first | rfl | contradiction
  | read bs => cases bs <;> rfl
  | _ => rfl

/-! ## Invariant -/

/-- The worker has opened and cleared the port and every read since was a full one. -/
def InSession (r : UartReceiver) : Prop :=
  match r.svc.loc with
  | .waitForReadyRead | .read | .commit | .setStatus => True
  | .whileRunning | .ifDisconnected => r.svc.m_status = true
  | _ => False

/-- Full reads keep the position on the line where `serial.clear()` put it, up to
    whole frames. -/
structure Inv (r : UartReceiver) : Prop where
  opened : r.svc.loc = .clearPort → r.svc.isOpen = true
  session : r.InSession →
    r.svc.isOpen = true ∧ r.line.first % SBUFLEN = r.clearedAt % SBUFLEN

theorem start_inv (m_buffer : Buf SBUFLEN) : Inv (start m_buffer) where
  opened := by simp [start]
  session := by simp [start, InSession]

variable {frames : Nat → Buf SBUFLEN} {r r' : UartReceiver}

/-- What a step of the worker is. -/
theorem step_worker {e : UartService.Ev} (hs : step frames r (.worker e) = some r') :
    Answers frames r e ∧ ∃ svc, UartService.step r.svc e = some svc ∧ r' = r.record svc e := by
  simp only [step, Option.ite_none_right_eq_some] at hs
  obtain ⟨ha, hs⟩ := hs
  split at hs
  · rename_i svc hsvc
    simp only [Option.some.injEq] at hs
    exact ⟨ha, svc, hsvc, hs.symm⟩
  · cases hs

/-- Only what has arrived of a line matters. -/
theorem step_congr {frames' : Nat → Buf SBUFLEN} {e : Ev}
    (h : ∀ len, r.line.first + len ≤ r.line.arrived →
      slice frames r.line.first len = slice frames' r.line.first len)
    (hs : step frames r e = some r') : step frames' r e = some r' := by
  cases e with
  | arrive | stop => exact hs
  | worker e =>
      obtain ⟨ha, svc, hsvc, rfl⟩ := step_worker hs
      have ha' : Answers frames' r e := by
        cases e with
        | waitForReadyRead ok => cases ok <;> exact ha
        | read bs =>
            cases bs with
            | none => trivial
            | some bs =>
                obtain ⟨hle, hbs⟩ := ha
                have hfirst := r.line.first_le
                exact ⟨hle, hbs.trans (h _ (by simp only [Fifo.available] at hle; omega))⟩
        | _ => trivial
      simp only [step, if_pos ha', hsvc]

/-- The same state with other contents of `m_buffer`. -/
def setBuffer (r : UartReceiver) (m_buffer : Buf SBUFLEN) : UartReceiver :=
  { r with svc := r.svc.setBuffer m_buffer }

/-- What is in `m_buffer` when a step is taken matters to nothing else. -/
theorem step_setBuffer {m_buffer : Buf SBUFLEN} {e : Ev}
    (hs : step frames (r.setBuffer m_buffer) e = some r') :
    ∃ r'', step frames r e = some r'' ∧ r' = r''.setBuffer r'.svc.m_buffer := by
  cases e with
  | arrive | stop =>
      simp only [step, Option.some.injEq] at hs
      exact ⟨_, rfl, hs ▸ rfl⟩
  | worker e =>
      obtain ⟨ha, svc, hsvc, rfl⟩ := step_worker hs
      have ha' : Answers frames r e := by
        cases e with
        | waitForReadyRead ok => cases ok <;> exact ha
        | read bs => cases bs <;> exact ha
        | _ => trivial
      obtain ⟨svc', hsvc', heq⟩ := UartService.step_setBuffer hsvc
      refine ⟨r.record svc' e, by simp only [step, if_pos ha', hsvc'], ?_⟩
      rw [record_svc]
      cases e with
      | tau =>
          have hloc : (r.setBuffer m_buffer).svc.loc = r.svc.loc := rfl
          cases hl : r.svc.loc <;> simp only [record, hloc, hl]
          case commit =>
            -- the value copied is `tmpbuf` either way
            have hcopy : svc.m_buffer = svc'.m_buffer := by
              rw [(UartService.step_effect hsvc).m_buffer, (UartService.step_effect hsvc').m_buffer,
                if_pos ⟨rfl, hl⟩, if_pos ⟨rfl, hl⟩]
              rfl
            rw [hcopy] at heq ⊢
            rw [heq]
            rfl
          all_goals
            rw [heq]
            rfl
      | read bs =>
          cases bs with
          | none | some bs =>
              simp only [record]
              rw [heq]
              rfl
      | openPort ok | waitForReadyRead ok =>
          simp only [record]
          rw [heq]
          rfl

/-- Bytes that arrive while the port is open leave the position alone. -/
theorem Inv.arrive (h : Inv r) :
    Inv { r with line := if r.svc.isOpen then r.line.arrive else r.line.arrive.clear } where
  opened := h.opened
  session := by
    intro hin
    obtain ⟨hopen, hpos⟩ := h.session hin
    simp only [if_pos hopen]
    exact ⟨hopen, hpos⟩

/-- Moving the worker inside a session, or out of it. -/
theorem Inv.move (h : Inv r) {svc : UartService.State} {session log : List (Buf SBUFLEN)}
    (hloc : svc.loc ≠ .clearPort) (hopen : svc.isOpen = r.svc.isOpen)
    (hin : InSession { r with svc } → r.InSession) : Inv { r with svc, session, log } where
  opened := fun hl => absurd hl hloc
  session := fun hs => hopen ▸ h.session (hin hs)

/-- Steps that ask the port nothing. -/
theorem Inv.tau (h : Inv r) (hdown : UartService.Down r.svc) {svc : UartService.State}
    (hs : UartService.stepTau r.svc = some svc) : Inv (r.record svc .tau) := by
  cases hl : r.svc.loc <;> simp only [UartService.stepTau, hl, Option.some.injEq] at hs
  case openPort | waitForReadyRead | read | done => cases hs
  case whileRunning =>
      subst hs
      simp only [record, hl]
      cases hstop : r.svc.m_stop
      · exact h.move (by simp) rfl fun hin => by simpa [InSession, hl] using hin
      · exact h.move (by simp) rfl (by simp [InSession])
  case ifDisconnected =>
      subst hs
      simp only [record, hl]
      cases hstatus : r.svc.m_status
      · exact h.move (by simp) rfl (by simp [InSession])
      · exact h.move (by simp) rfl fun _ => by simp [InSession, hl, hstatus]
  case setStatus | commit =>
      subst hs
      simp only [record, hl]
      exact h.move (by simp) rfl fun _ => by simp [InSession, hl]
  case clearStatus =>
      subst hs
      simp only [record, hl]
      exact h.move (by simp) rfl (by simp [InSession])
  case sleep =>
      -- a session that has ended is not taken up again: `m_status` is false
      have hstatus := hdown (by simp [hl])
      subst hs
      simp only [record, hl]
      exact h.move (by simp) rfl fun hin => by simp [InSession, hstatus] at hin
  case clearPort =>
      -- the session begins, where `clear` has left the line
      subst hs
      simp only [record, hl]
      exact ⟨by simp, fun _ => ⟨h.opened hl, rfl⟩⟩
  case close | closeLast =>
      subst hs
      simp only [record, hl]
      exact ⟨by simp, by simp [InSession]⟩

/-- A full read keeps the position within a frame; any other ends the session. -/
theorem Inv.read (h : Inv r) {bs : List (BitVec 8)} (hl : r.svc.loc = .read)
    (hle : bs.length ≤ r.line.available) {loc : UartService.Loc}
    (hloc : loc = if bs.length = SBUFLEN then .commit else .clearStatus) :
    Inv
      { r with
        svc := { r.svc with tmpbuf := r.svc.tmpbuf.write 0 bs, loc }
        line := r.line.take bs.length } := by
  obtain ⟨hopen, hpos⟩ := h.session (by simp [InSession, hl])
  by_cases hfull : bs.length = SBUFLEN
  · rw [if_pos hfull] at hloc
    subst hloc
    refine ⟨by simp, fun _ => ⟨hopen, ?_⟩⟩
    simp only [Fifo.take_first hle]
    rw [hfull, Nat.add_mod_right, hpos]
  · rw [if_neg hfull] at hloc
    subst hloc
    exact ⟨by simp, by simp [InSession]⟩

theorem down_step (h : UartService.Down r.svc) {e : Ev} (hs : step frames r e = some r') :
    UartService.Down r'.svc := by
  cases e with
  | arrive | stop =>
      simp only [step, Option.some.injEq] at hs
      exact hs ▸ h
  | worker e =>
      obtain ⟨-, svc, hsvc, rfl⟩ := step_worker hs
      rw [record_svc]
      exact (UartService.step_effect hsvc).down h

/-- Every step keeps the invariant. -/
theorem Inv.step (h : Inv r) (hdown : UartService.Down r.svc) {e : Ev}
    (hs : step frames r e = some r') : Inv r' := by
  cases e with
  | arrive =>
      simp only [UartReceiver.step, Option.some.injEq] at hs
      exact hs ▸ h.arrive
  | stop =>
      simp only [UartReceiver.step, Option.some.injEq] at hs
      subst hs
      exact ⟨h.opened, h.session⟩
  | worker e =>
      obtain ⟨ha, svc, hsvc, rfl⟩ := step_worker hs
      cases e with
      | tau => exact h.tau hdown hsvc
      | openPort ok =>
          obtain ⟨-, rfl⟩ := of_guard hsvc
          cases ok with
          | true => exact ⟨fun _ => rfl, by simp [InSession]⟩
          | false => exact ⟨by simp, by simp [InSession]⟩
      | waitForReadyRead ok =>
          obtain ⟨hl, rfl⟩ := of_guard hsvc
          cases ok with
          | true => exact h.move (by simp) rfl fun _ => by simp [InSession, hl]
          | false => exact h.move (by simp) rfl (by simp [InSession])
      | read bs =>
          cases bs with
          | none =>
              obtain ⟨-, rfl⟩ := of_guard hsvc
              exact h.move (by simp) rfl (by simp [InSession])
          | some bs =>
              obtain ⟨⟨hl, -⟩, rfl⟩ := of_guard hsvc
              exact h.read hl ha.1 rfl

/-! ## Order -/

/-- The values committed, followed by the one that is about to be, are frames of the
    line in their order. -/
structure Ordered (frames : Nat → Buf SBUFLEN) (r : UartReceiver) : Prop where
  log : r.log.Sublist (whole frames r.line.first)
  pending : r.svc.loc = .commit →
    (r.log ++ [r.svc.tmpbuf]).Sublist (whole frames r.line.first)

theorem start_ordered (frames : Nat → Buf SBUFLEN) (m_buffer : Buf SBUFLEN) :
    Ordered frames (start m_buffer) where
  log := by simp [start]
  pending := by simp [start]

/-- A step that neither reads nor copies. -/
theorem Ordered.move (h : Ordered frames r) {svc : UartService.State} {line : Fifo}
    {clearedAt : Nat} {session : List (Buf SBUFLEN)} (hline : r.line.first ≤ line.first)
    (hloc : svc.loc ≠ .commit) : Ordered frames { r with svc, line, clearedAt, session } where
  log := h.log.trans (whole_sublist frames hline)
  pending := fun hl => absurd hl hloc

/-- Steps that ask the port nothing. -/
theorem Ordered.tau (h : Ordered frames r) {svc : UartService.State}
    (hs : UartService.stepTau r.svc = some svc) : Ordered frames (r.record svc .tau) := by
  have hclear : r.line.first ≤ r.line.clear.first := r.line.first_le
  cases hl : r.svc.loc <;> simp only [UartService.stepTau, hl, Option.some.injEq] at hs
  case openPort | waitForReadyRead | read | done => cases hs
  case commit =>
      -- the pending frame becomes the last one committed
      subst hs
      simp only [record, hl]
      exact ⟨h.pending hl, by simp⟩
  case clearPort | close | closeLast =>
      subst hs
      simp only [record, hl]
      exact h.move hclear (by simp)
  case whileRunning | ifDisconnected =>
      subst hs
      simp only [record, hl]
      refine h.move (Nat.le_refl _) ?_
      simp only
      split <;> simp
  all_goals
    subst hs
    simp only [record, hl]
    exact h.move (Nat.le_refl _) (by simp)

/-- A read in an aligned session takes the next frame of the line, or ends the session. -/
theorem Ordered.read (h : Ordered frames r) (hinv : Inv r) {bs : List (BitVec 8)}
    (hl : r.svc.loc = .read) (ha : Answers frames r (.read (some bs)))
    (hclear : r.ClearedBetween (.worker (.read (some bs)))) {loc : UartService.Loc}
    (hloc : loc = if bs.length = SBUFLEN then .commit else .clearStatus) :
    Ordered frames
      { r with
        svc := { r.svc with tmpbuf := r.svc.tmpbuf.write 0 bs, loc }
        line := r.line.take bs.length } := by
  by_cases hfull : bs.length = SBUFLEN
  · refine ⟨h.log.trans (whole_sublist frames (r.line.first_le_take _)), fun _ => ?_⟩
    have hzero : r.line.first % SBUFLEN = 0 :=
      (hinv.session (by simp [InSession, hl])).2.trans (hclear hfull)
    have hfirst : (r.line.take bs.length).first = r.line.first + SBUFLEN := by
      rw [Fifo.take_first ha.1, hfull]
    have hbs := ha.2
    rw [hfull, slice_frame frames hzero] at hbs
    simp only
    rw [hfirst, whole_add, hbs, Buf.write_toList]
    exact h.log.append (List.Sublist.refl _)
  · rw [if_neg hfull] at hloc
    subst hloc
    exact h.move (r.line.first_le_take _) (by simp)

/-- Every step keeps the order, given aligned clears. -/
theorem Ordered.step (h : Ordered frames r) (hinv : Inv r) {e : Ev}
    (hclear : r.ClearedBetween e) (hs : UartReceiver.step frames r e = some r') :
    Ordered frames r' := by
  cases e with
  | arrive =>
      simp only [UartReceiver.step, Option.some.injEq] at hs
      subst hs
      have hline : r.line.first ≤
          (if r.svc.isOpen then r.line.arrive else r.line.arrive.clear).first := by
        split
        · exact Nat.le_refl _
        · exact Nat.le_succ_of_le r.line.first_le
      exact ⟨h.log.trans (whole_sublist frames hline),
        fun hl => (h.pending hl).trans (whole_sublist frames hline)⟩
  | stop =>
      simp only [UartReceiver.step, Option.some.injEq] at hs
      subst hs
      exact ⟨h.log, h.pending⟩
  | worker e =>
      obtain ⟨ha, svc, hsvc, rfl⟩ := step_worker hs
      cases e with
      | tau => exact h.tau hsvc
      | openPort ok =>
          obtain ⟨-, rfl⟩ := of_guard hsvc
          refine h.move (Nat.le_refl _) ?_
          simp only
          split <;> simp
      | waitForReadyRead ok =>
          obtain ⟨-, rfl⟩ := of_guard hsvc
          refine h.move (Nat.le_refl _) ?_
          simp only
          split <;> simp
      | read bs =>
          cases bs with
          | none =>
              obtain ⟨-, rfl⟩ := of_guard hsvc
              exact h.move (Nat.le_refl _) (by simp)
          | some bs =>
              obtain ⟨⟨hl, -⟩, rfl⟩ := of_guard hsvc
              exact h.read hinv hl ha hclear rfl

/-- They have arrived in whole. -/
theorem Ordered.arrived (h : Ordered frames r) : r.log.Sublist (whole frames r.line.arrived) :=
  h.log.trans (whole_sublist frames r.line.first_le)

/-- What has been committed at the end of a run. -/
theorem ordered_of_run {m_buffer : Buf SBUFLEN} {es : List Ev}
    (h : Run (step frames) ClearedBetween (start m_buffer) es r) : Ordered frames r := by
  have hinv : ∀ {fs u}, Run (step frames) ClearedBetween (start m_buffer) fs u →
      Inv u ∧ UartService.Down u.svc := by
    intro fs u hrun
    exact hrun.invariant (I := fun u => Inv u ∧ UartService.Down u.svc)
      ⟨start_inv m_buffer, by simp [start, UartService.Down]⟩
      (fun _ _ _ hi _ hs => ⟨hi.1.step hi.2 hs, down_step hi.2 hs⟩)
  exact h.invariant_of (J := Inv) (I := Ordered frames) (fun hrun => (hinv hrun).1)
    (start_ordered frames m_buffer) (fun _ _ _ hj hi hc hs => hi.step hj hc hs)

/-! ## Results -/

/-- When the `clear` at the start of each session that reads a frame's worth of bytes
    fell between two frames, every value copied into `m_buffer` is one frame, which has
    arrived in whole. -/
theorem uart_commits_frames (frames : Nat → Buf SBUFLEN) {m_buffer : Buf SBUFLEN} {es : List Ev}
    (h : Run (step frames) ClearedBetween (start m_buffer) es r) :
    ∀ b ∈ r.log, b ∈ whole frames r.line.arrived :=
  fun _ hb => (ordered_of_run h).arrived.mem hb

/-- A line that repeats one frame. -/
def sameFrame (_ : Nat) : Buf SBUFLEN := (Buf.zero SBUFLEN).write 0 [1, 2, 3]

/-- The port is opened after `n` bytes have gone by; the next three bytes are read. -/
def openAfter (n : Nat) (bs : List (BitVec 8)) : List Ev :=
  List.replicate n .arrive ++
    [.worker .tau, .worker .tau, .worker (.openPort true), .worker .tau, .arrive, .arrive, .arrive,
     .worker (.waitForReadyRead true), .worker (.read (some bs)), .worker .tau, .worker .tau]

theorem uart_commits_frames_openAfter :
    ∃ r, Run (step sameFrame) ClearedBetween (start (Buf.zero SBUFLEN))
        (openAfter 3 [1, 2, 3]) r ∧
      r.log.length = 1 ∧ ∀ b ∈ r.log, b ∈ whole sameFrame r.line.arrived := by
  obtain ⟨r, hrun, hlog⟩ : ∃ r, Run (step sameFrame) ClearedBetween (start (Buf.zero SBUFLEN))
      (openAfter 3 [1, 2, 3]) r ∧ r.log.length = 1 := Run.exists_of_exec (by decide)
  exact ⟨r, hrun, hlog, uart_commits_frames sameFrame hrun⟩

/-- When the port is opened after the first byte of a frame, the worker copies the rest
    of that frame and the first byte of the next one. -/
theorem uart_commits_straddling :
    ∃ es r, Run (step sameFrame) Always (start (Buf.zero SBUFLEN)) es r ∧
      ∃ b ∈ r.log, ∀ j, b ≠ sameFrame j := by
  obtain ⟨r, hrun, b, hb, hne⟩ : ∃ r, Run (step sameFrame) Always (start (Buf.zero SBUFLEN))
      (openAfter 1 [2, 3, 1]) r ∧ ∃ b ∈ r.log, b ≠ sameFrame 0 := Run.exists_of_exec (by decide)
  exact ⟨_, r, hrun, b, hb, fun _ => hne⟩

/-- When the `clear` at the start of each session that reads a frame's worth of bytes
    fell between two frames, the values copied into `m_buffer` are frames that have
    arrived in whole, in their order and none of them twice. -/
theorem uart_commits_in_order (frames : Nat → Buf SBUFLEN) {m_buffer : Buf SBUFLEN}
    {es : List Ev} (h : Run (step frames) ClearedBetween (start m_buffer) es r) :
    r.log.Sublist (whole frames r.line.arrived) :=
  (ordered_of_run h).arrived

/-- A line whose frames begin with their number. -/
def numbered (j : Nat) : Buf SBUFLEN := (Buf.zero SBUFLEN).write 0 [BitVec.ofNat 8 j, 2, 3]

/-- The port is opened after the first frame; the two frames after it are read. -/
def twoFrames : List Ev :=
  openAfter 3 [1, 2, 3] ++ [.worker .tau, .worker .tau, .arrive, .arrive, .arrive,
    .worker (.waitForReadyRead true), .worker (.read (some [2, 2, 3])), .worker .tau]

theorem uart_commits_in_order_twoFrames :
    ∃ r, Run (step numbered) ClearedBetween (start (Buf.zero SBUFLEN)) twoFrames r ∧
      r.log = [numbered 1, numbered 2] ∧ r.log.Sublist (whole numbered r.line.arrived) := by
  obtain ⟨r, hrun, heq⟩ : ∃ r, Run (step numbered) ClearedBetween (start (Buf.zero SBUFLEN))
      twoFrames r ∧ r.log = [numbered 1, numbered 2] := Run.exists_of_exec (by decide)
  exact ⟨r, hrun, heq, uart_commits_in_order numbered hrun⟩

end UartReceiver
end Speedometer.Client
