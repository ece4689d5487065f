/-
  Speedometer.Client.Display

  What the desktop client displays: the tick of `Window` over the TCP and over the
  UART service.
-/

import Speedometer.Client.Receiver
import Speedometer.Client.UartReceiver
import Speedometer.Client.Window

namespace Speedometer.Client

open Cpp Blocks Transition

/-! ## The TCP service -/

namespace Receiver

/-- `clearBuffer()` on the service. -/
def clearBuffer (r : Receiver) : Receiver :=
  { r with svc := { r.svc with toComService := r.svc.toComService.clearBuffer } }

/-- What a step does to the frames. -/
def kind (r : Receiver) (e : Ev) : Kind :=
  if e = .worker .tau ∧ r.svc.loc = .commit then .commit
  else if e = .worker .tau ∧ r.svc.loc = .clearStatus then .drop
  else .other

/-- The invariant of the receiver; before `m_status` is set no frame has been copied. -/
structure Serves (streams : Nat → List (BitVec 8)) (r : Receiver) : Prop where
  inv : Inv streams r
  fresh : r.svc.loc = .setStatus → r.commits r.latest = []

variable {streams : Nat → List (BitVec 8)} {r r' : Receiver}

theorem kind_commit {e : Ev} (h : r.kind e = .commit) :
    e = .worker .tau ∧ r.svc.loc = .commit := Kind.of_commit h

theorem kind_drop {e : Ev} (h : r.kind e = .drop) :
    e = .worker .tau ∧ r.svc.loc = .clearStatus := Kind.of_drop h

/-- A step of the worker that is no copy. -/
theorem not_commit {e : TcpService.Ev} (h : r.kind (.worker e) ≠ .commit) :
    ¬(e = .tau ∧ r.svc.loc = .commit) := by
  rintro ⟨rfl, hl⟩
  exact h (if_pos ⟨rfl, hl⟩)

/-- A step of the worker that does not give up. -/
theorem not_drop {e : TcpService.Ev} (h : r.kind (.worker e) ≠ .drop) :
    ¬(e = .tau ∧ r.svc.loc = .clearStatus) := by
  rintro ⟨rfl, hl⟩
  exact h (by simp [kind, hl])

/-- Steps other than the copy keep the frames, or open a new connection. -/
theorem commits_record {e : TcpService.Ev} (hne : ¬(e = .tau ∧ r.svc.loc = .commit))
    (hfresh : r.commits r.conns = []) (svc : TcpService.State) :
    (r.record svc e).commits (r.record svc e).latest = r.commits r.latest ∨
      e = .connect 0 ∧ (r.record svc e).commits (r.record svc e).latest = [] := by
  cases e with
  | tau =>
      simp only [record, if_neg fun hl => hne ⟨rfl, hl⟩]
      exact .inl rfl
  | connect rc =>
      by_cases hrc : rc = 0
      · subst hrc
        exact .inr ⟨rfl, hfresh⟩
      · simp only [record, if_neg hrc]
        exact .inl rfl
  | read res =>
      cases res <;> exact .inl rfl
  | _ => exact .inl rfl

theorem serves_step (h : Serves streams r) {e : Ev} (hs : step streams r e = some r') :
    Serves streams r' := by
  refine ⟨h.inv.step hs, ?_⟩
  intro hl'
  cases e with
  | stop =>
      simp only [step, Option.some.injEq] at hs
      subst hs
      exact h.fresh hl'
  | worker e =>
      obtain ⟨-, svc, hsvc, rfl⟩ := step_worker hs
      rw [record_svc] at hl'
      have he := (TcpService.step_effect hsvc).to_setStatus hl'
      subst he
      exact h.inv.framed.commits_fresh r.conns (Nat.le_refl _)

end Receiver

/-- The TCP service over the given streams. -/
def tcpService (streams : Nat → List (BitVec 8)) : Service Receiver Receiver.Ev where
  step := Receiver.step streams
  com := fun r => r.svc.toComService
  clearBuffer := Receiver.clearBuffer
  kind := Receiver.kind
  frames := fun r => r.commits r.latest
  raising := fun _ => false
  Inv := Receiver.Serves streams
  com_clear := fun _ => rfl
  frames_clear := fun _ => rfl
  raising_clear := fun _ => rfl
  inv_clear := fun h => ⟨⟨h.inv.framed.move rfl, h.inv.atLoc.imp rfl rfl rfl rfl
    (fun hr => ⟨hr.connected, hr.status, hr.nread_le, hr.position⟩)
    (fun hb => ⟨hb.connected, hb.position⟩)⟩, h.fresh⟩
  inv_step := fun h hs => Receiver.serves_step h hs
  step_commit := by
    intro r e r' _ hs hk
    obtain ⟨rfl, hl⟩ := Receiver.kind_commit hk
    obtain ⟨-, svc, -, rfl⟩ := Receiver.step_worker hs
    simp [Receiver.record, hl, Receiver.latest]
  step_m_buffer := by
    intro r e r' h hs hk
    cases e with
    | stop =>
        simp only [Receiver.step, Option.some.injEq] at hs
        exact hs ▸ ⟨rfl, .inl rfl⟩
    | worker e =>
        obtain ⟨-, svc, hsvc, rfl⟩ := Receiver.step_worker hs
        have hne := Receiver.not_commit hk
        have hfresh := h.inv.framed.commits_fresh r.conns (Nat.le_refl _)
        refine ⟨?_, (Receiver.commits_record hne hfresh svc).imp_right And.right⟩
        rw [Receiver.record_svc]
        exact (TcpService.step_effect hsvc).m_buffer.trans (if_neg hne)
  step_drop := by
    intro r e r' hs hk
    obtain ⟨rfl, hl⟩ := Receiver.kind_drop hk
    obtain ⟨-, svc, hsvc, rfl⟩ := Receiver.step_worker hs
    rw [Receiver.record_svc]
    exact ⟨by rw [(TcpService.step_effect hsvc).m_status]; simp [hl], rfl⟩
  step_status := by
    intro r e r' h hs hk hstatus
    cases e with
    | stop =>
        simp only [Receiver.step, Option.some.injEq] at hs
        exact hs ▸ ⟨hstatus, fun _ => rfl⟩
    | worker e =>
        obtain ⟨-, svc, hsvc, rfl⟩ := Receiver.step_worker hs
        have hne := Receiver.not_drop hk
        refine ⟨?_, ?_⟩
        · rw [Receiver.record_svc, (TcpService.step_effect hsvc).m_status, if_neg hne, hstatus,
            ite_self]
        · intro hother
          have hne := Receiver.not_commit (by rw [hother]; decide)
          have hfresh := h.inv.framed.commits_fresh r.conns (Nat.le_refl _)
          apply (Receiver.commits_record hne hfresh svc).resolve_right
          -- the worker connects only while `m_status` is false
          rintro ⟨rfl, -⟩
          have hat := h.inv.atLoc
          simp only [TcpService.step, Option.ite_none_right_eq_some] at hsvc
          simp only [Receiver.AtLoc, hsvc.1] at hat
          rw [hat] at hstatus
          cases hstatus
  step_up := by
    intro r e r' h hs hk hne hup
    simp only [Bool.or_false] at hup ⊢
    cases e with
    | stop =>
        simp only [Receiver.step, Option.some.injEq] at hs
        subst hs
        exact hup
    | worker e =>
        obtain ⟨-, svc, hsvc, rfl⟩ := Receiver.step_worker hs
        rw [Receiver.record_svc, (TcpService.step_effect hsvc).m_status] at hup
        by_cases hset : e = .tau ∧ r.svc.loc = .setStatus
        · -- `m_status` is set before the first frame of the connection
          obtain ⟨rfl, hl⟩ := hset
          have hnone : (r.record svc .tau).commits (r.record svc .tau).latest = [] := by
            simp only [Receiver.record, hl, reduceCtorEq, if_false]
            exact h.fresh hl
          exact absurd hnone hne
        · rw [if_neg hset] at hup
          split at hup
          · cases hup
          · exact hup

theorem tcp_start_inv (streams : Nat → List (BitVec 8)) (m_buffer : Buf SBUFLEN) :
    (tcpService streams).Inv (Receiver.start m_buffer) :=
  ⟨Receiver.start_inv streams m_buffer, nofun⟩

/-! ## The UART service -/

namespace UartReceiver

/-- `clearBuffer()` on the service. -/
def clearBuffer (r : UartReceiver) : UartReceiver :=
  { r with svc := { r.svc with toComService := r.svc.toComService.clearBuffer } }

/-- What a step does to the frames. -/
def kind (r : UartReceiver) (e : Ev) : Kind :=
  if e = .worker .tau ∧ r.svc.loc = .commit then .commit
  else if e = .worker .tau ∧ r.svc.loc = .clearStatus then .drop
  else .other

variable {frames : Nat → Buf SBUFLEN} {r r' : UartReceiver}

theorem kind_commit {e : Ev} (h : r.kind e = .commit) :
    e = .worker .tau ∧ r.svc.loc = .commit := Kind.of_commit h

theorem kind_drop {e : Ev} (h : r.kind e = .drop) :
    e = .worker .tau ∧ r.svc.loc = .clearStatus := Kind.of_drop h

/-- A step of the worker that is no copy. -/
theorem not_commit {e : UartService.Ev} (h : r.kind (.worker e) ≠ .commit) :
    ¬(e = .tau ∧ r.svc.loc = .commit) := by
  rintro ⟨rfl, hl⟩
  exact h (if_pos ⟨rfl, hl⟩)

/-- A step of the worker that does not give up. -/
theorem not_drop {e : UartService.Ev} (h : r.kind (.worker e) ≠ .drop) :
    ¬(e = .tau ∧ r.svc.loc = .clearStatus) := by
  rintro ⟨rfl, hl⟩
  exact h (by simp [kind, hl])

/-- Steps other than the copy keep the frames, or open the port. -/
theorem session_record {e : UartService.Ev} (hne : ¬(e = .tau ∧ r.svc.loc = .commit))
    (svc : UartService.State) :
    (r.record svc e).session = r.session ∨
      e = .openPort true ∧ (r.record svc e).session = [] := by
  cases e with
  | tau =>
      have hl : r.svc.loc ≠ .commit := fun hl => hne ⟨rfl, hl⟩
      simp only [record]
      split <;> first | exact .inl rfl | contradiction
  | openPort ok =>
      cases ok
      · exact .inl rfl
      · exact .inr ⟨rfl, rfl⟩
  | read bs => cases bs <;> exact .inl rfl
  | _ => exact .inl rfl

end UartReceiver

/-- The UART service on a line of the given frames. -/
def uartService (frames : Nat → Buf SBUFLEN) : Service UartReceiver UartReceiver.Ev where
  step := UartReceiver.step frames
  com := fun r => r.svc.toComService
  clearBuffer := UartReceiver.clearBuffer
  kind := UartReceiver.kind
  frames := UartReceiver.session
  raising := fun r => r.svc.loc = .setStatus
  Inv := fun r => UartService.Down r.svc
  com_clear := fun _ => rfl
  frames_clear := fun _ => rfl
  raising_clear := fun _ => rfl
  inv_clear := fun h => h
  inv_step := fun h hs => UartReceiver.down_step h hs
  step_commit := by
    intro r e r' _ hs hk
    obtain ⟨rfl, hl⟩ := UartReceiver.kind_commit hk
    obtain ⟨-, svc, -, rfl⟩ := UartReceiver.step_worker hs
    simp [UartReceiver.record, hl]
  step_m_buffer := by
    intro r e r' _ hs hk
    cases e with
    | arrive | stop =>
        simp only [UartReceiver.step, Option.some.injEq] at hs
        exact hs ▸ ⟨rfl, .inl rfl⟩
    | worker e =>
        obtain ⟨-, svc, hsvc, rfl⟩ := UartReceiver.step_worker hs
        have hne := UartReceiver.not_commit hk
        refine ⟨?_, (UartReceiver.session_record hne svc).imp_right And.right⟩
        rw [UartReceiver.record_svc]
        exact (UartService.step_effect hsvc).m_buffer.trans (if_neg hne)
  step_drop := by
    intro r e r' hs hk
    obtain ⟨rfl, hl⟩ := UartReceiver.kind_drop hk
    obtain ⟨-, svc, hsvc, rfl⟩ := UartReceiver.step_worker hs
    rw [UartReceiver.record_svc]
    have heffect := UartService.step_effect hsvc
    refine ⟨by rw [heffect.m_status]; simp [hl], decide_eq_false fun hl' => ?_⟩
    have hcommit := (heffect.to_setStatus hl').2
    rw [hl] at hcommit
    cases hcommit
  step_status := by
    intro r e r' h hs hk hstatus
    cases e with
    | arrive | stop =>
        simp only [UartReceiver.step, Option.some.injEq] at hs
        exact hs ▸ ⟨hstatus, fun _ => rfl⟩
    | worker e =>
        obtain ⟨-, svc, hsvc, rfl⟩ := UartReceiver.step_worker hs
        have hne := UartReceiver.not_drop hk
        refine ⟨?_, ?_⟩
        · rw [UartReceiver.record_svc, (UartService.step_effect hsvc).m_status, if_neg hne, hstatus,
            ite_self]
        · intro hother
          have hne := UartReceiver.not_commit (by rw [hother]; decide)
          apply (UartReceiver.session_record hne svc).resolve_right
          -- the worker opens the port only while `m_status` is false
          rintro ⟨rfl, -⟩
          simp only [UartService.step, Option.ite_none_right_eq_some] at hsvc
          have hdown := h (by simp [hsvc.1])
          rw [hdown] at hstatus
          cases hstatus
  step_up := by
    intro r e r' _ hs hk _ hup
    cases e with
    | arrive | stop =>
        simp only [UartReceiver.step, Option.some.injEq] at hs
        subst hs
        exact hup
    | worker e =>
        obtain ⟨-, svc, hsvc, rfl⟩ := UartReceiver.step_worker hs
        rw [UartReceiver.record_svc, (UartService.step_effect hsvc).m_status] at hup
        have hraise : svc.loc ≠ .setStatus := by
          intro hl'
          obtain ⟨he, hl⟩ := (UartService.step_effect hsvc).to_setStatus hl'
          simp [UartReceiver.kind, he, hl] at hk
        simp only [hraise, decide_false, Bool.or_false] at hup
        by_cases hset : e = .tau ∧ r.svc.loc = .setStatus
        · -- `m_status` is set right after the copy of a frame
          simp [hset.2]
        · rw [if_neg hset] at hup
          split at hup
          · cases hup
          · simp [hup]

theorem uart_start_inv (frames : Nat → Buf SBUFLEN) (m_buffer : Buf SBUFLEN) :
    (uartService frames).Inv (UartReceiver.start m_buffer) := by
  simp [uartService, UartService.Down, UartReceiver.start]

/-! ## What a tick displays -/

/-- Over either service, the values of a connected tick are decoded from values `m_buffer`
    had during the tick, each from the same one as the signal before it or a later one,
    and all from one if the worker copies no frame during the tick. -/
theorem tick_values (streams : Nat → List (BitVec 8)) (frames : Nat → Buf SBUFLEN)
    (m_buffer : Buf SBUFLEN) :
    (∀ es s,
      Run (Window.step (tcpService streams)) Always (Window.start (Receiver.start m_buffer)) es s →
      s.loc = .setLightSignals → s.TickValues) ∧
    (∀ es s,
      Run (Window.step (uartService frames)) Always (Window.start (UartReceiver.start m_buffer))
        es s →
      s.loc = .setLightSignals → s.TickValues) :=
  ⟨fun _ _ h hl => Window.tickValues (tcp_start_inv streams m_buffer) h hl,
    fun _ _ h hl => Window.tickValues (uart_start_inv frames m_buffer) h hl⟩

/-- The client connects and the worker is about to read. -/
def connectRun : List (Window.Ev Receiver.Ev) :=
  [.worker (.worker (.inetPton 1)), .worker (.worker .tau), .worker (.worker .tau),
   .worker (.worker (.socket 5)), .worker (.worker (.connect 0)), .worker (.worker .tau),
   .worker (.worker .tau)]

/-- One frame is read and copied, and the worker is about to read the next one. -/
def frameRun (bs : List (BitVec 8)) : List (Window.Ev Receiver.Ev) :=
  .worker (.worker (.read (.data bs))) :: List.replicate 6 (.worker (.worker .tau))

/-- A frame with the left light on and one with the right light on. -/
def lightsStream : Nat → List (BitVec 8) := fun _ => [0, 0, 0x40, 0, 0, 0x80]

/-- The second frame is copied between the two reads of `getLightSignals`. -/
def lightsRun : List (Window.Ev Receiver.Ev) :=
  connectRun ++ frameRun [0, 0, 0x40] ++ [.timeout] ++ List.replicate 6 .tick ++
    frameRun [0, 0, 0x80] ++ [.tick]

theorem tick_values_lights :
    ∃ s, Run (Window.step (tcpService lightsStream)) Always
        (Window.start (Receiver.start (Buf.zero SBUFLEN))) lightsRun s ∧ s.TickValues := by
  obtain ⟨s, hrun, hl⟩ : ∃ s, Run (Window.step (tcpService lightsStream)) Always
      (Window.start (Receiver.start (Buf.zero SBUFLEN))) lightsRun s ∧
      s.loc = .setLightSignals := Run.exists_of_exec (by decide)
  exact ⟨s, hrun, (tick_values lightsStream UartReceiver.sameFrame _).1 _ _ hrun hl⟩

/-- The tick shows both lights on, which is what no value of `m_buffer` says. -/
theorem tick_mixes_frames :
    ∃ es s, Run (Window.step (tcpService lightsStream)) Always
        (Window.start (Receiver.start (Buf.zero SBUFLEN))) es s ∧
      s.loc = .setLightSignals ∧
      ¬∃ b ∈ s.held, ∀ sig : Getter, sig.read b = .ok (s.locals sig) := by
  obtain ⟨s, hrun, hl, hnone⟩ : ∃ s, Run (Window.step (tcpService lightsStream)) Always
      (Window.start (Receiver.start (Buf.zero SBUFLEN))) lightsRun s ∧
      s.loc = .setLightSignals ∧ ∀ b ∈ s.held, ¬(getLeftLight b = .ok (s.locals .leftLight) ∧
        getRightLight b = .ok (s.locals .rightLight)) := Run.exists_of_exec (by decide)
  refine ⟨_, s, hrun, hl, ?_⟩
  rintro ⟨b, hb, hread⟩
  exact hnone b hb ⟨hread .leftLight, hread .rightLight⟩

/-- Over either service: unless a tick clears the buffer after a frame of the connection
    was copied, or announced, later than its `getStatus()`, `m_buffer` is the latest frame
    whenever the connection is up and a frame has been copied since it was opened. -/
theorem frame_kept (streams : Nat → List (BitVec 8)) (frames : Nat → Buf SBUFLEN)
    (m_buffer : Buf SBUFLEN) :
    (∀ es s,
      Run (Window.step (tcpService streams)) Window.NoLateClear
        (Window.start (Receiver.start m_buffer)) es s →
      Window.FrameKept (tcpService streams) s) ∧
    (∀ es s,
      Run (Window.step (uartService frames)) Window.NoLateClear
        (Window.start (UartReceiver.start m_buffer)) es s →
      Window.FrameKept (uartService frames) s) :=
  ⟨fun _ _ h => Window.frameKept (tcp_start_inv streams m_buffer) rfl h,
    fun _ _ h => Window.frameKept (uart_start_inv frames m_buffer) rfl h⟩

/-- The tick clears the buffer before the client connects and the first frame comes. -/
def clearFirstRun : List (Window.Ev Receiver.Ev) :=
  [.timeout, .tick, .tick, .tick] ++ connectRun ++ frameRun [1, 2, 3]

theorem frame_kept_clearFirst :
    ∃ s, Run (Window.step (tcpService fun _ => [1, 2, 3])) Window.NoLateClear
        (Window.start (Receiver.start (Buf.zero SBUFLEN))) clearFirstRun s ∧
      s.svc.svc.m_status = true ∧ s.svc.log = [s.svc.svc.m_buffer] ∧
      Window.FrameKept (tcpService fun _ => [1, 2, 3]) s := by
  obtain ⟨s, hrun, hstatus, hlog⟩ : ∃ s, Run (Window.step (tcpService fun _ => [1, 2, 3]))
      Window.NoLateClear (Window.start (Receiver.start (Buf.zero SBUFLEN))) clearFirstRun s ∧
      s.svc.svc.m_status = true ∧ s.svc.log = [s.svc.svc.m_buffer] :=
    Run.exists_of_exec (by decide)
  exact ⟨s, hrun, hstatus, hlog, (frame_kept _ UartReceiver.sameFrame _).1 _ _ hrun⟩

/-- The tick sees the client unconnected, and clears the buffer only after the client has
    connected and the first frame has come. -/
def clearLateRun : List (Window.Ev Receiver.Ev) :=
  [.timeout, .tick, .tick] ++ connectRun ++ frameRun [1, 2, 3] ++ [.tick]

/-- The tick sees `m_status` false between the copy of a frame and `m_status = true`. -/
def clearUartRun : List (Window.Ev UartReceiver.Ev) :=
  [.worker (.worker .tau), .worker (.worker .tau), .worker (.worker (.openPort true)),
   .worker (.worker .tau), .worker .arrive, .worker .arrive, .worker .arrive,
   .worker (.worker (.waitForReadyRead true)), .worker (.worker (.read (some [1, 2, 3]))),
   .worker (.worker .tau), .timeout, .tick, .worker (.worker .tau), .tick, .tick]

/-- A tick can clear a frame of the live connection, over either service. -/
theorem frame_cleared :
    (∃ es s, Run (Window.step (tcpService fun _ => [1, 2, 3])) Always
        (Window.start (Receiver.start (Buf.zero SBUFLEN))) es s ∧
      ¬Window.FrameKept (tcpService fun _ => [1, 2, 3]) s) ∧
    (∃ es s, Run (Window.step (uartService UartReceiver.sameFrame)) Always
        (Window.start (UartReceiver.start (Buf.zero SBUFLEN))) es s ∧
      ¬Window.FrameKept (uartService UartReceiver.sameFrame) s) := by
  constructor
  · obtain ⟨s, hrun, hstatus, hne, hlost⟩ : ∃ s, Run (Window.step (tcpService fun _ => [1, 2, 3]))
        Always (Window.start (Receiver.start (Buf.zero SBUFLEN))) clearLateRun s ∧
        s.svc.svc.m_status = true ∧ s.svc.commits s.svc.latest ≠ [] ∧
        (s.svc.commits s.svc.latest).getLast? ≠ some s.svc.svc.m_buffer :=
      Run.exists_of_exec (by decide)
    exact ⟨_, s, hrun, fun hkept => hlost (hkept hstatus hne)⟩
  · obtain ⟨s, hrun, hstatus, hne, hlost⟩ : ∃ s, Run (Window.step (uartService
        UartReceiver.sameFrame)) Always (Window.start (UartReceiver.start (Buf.zero SBUFLEN)))
        clearUartRun s ∧ s.svc.svc.m_status = true ∧ s.svc.session ≠ [] ∧
        s.svc.session.getLast? ≠ some s.svc.svc.m_buffer := Run.exists_of_exec (by decide)
    exact ⟨_, s, hrun, fun hkept => hlost (hkept hstatus hne)⟩

/-- Over TCP, a tick during which `m_status` stays true displays values of whole blocks
    read from the open connection, when it reads the first signal only after a frame has
    been copied on that connection and not cleared. -/
theorem live_values {streams : Nat → List (BitVec 8)} {m_buffer : Buf SBUFLEN}
    {es : List (Window.Ev Receiver.Ev)} {s : Window Receiver}
    (h : Run (Window.step (tcpService streams)) (Window.FrameFirst (tcpService streams))
      (Window.start (Receiver.start m_buffer)) es s)
    (hl : s.loc = .setLightSignals) (hstayed : s.stayed = true) :
    s.svc.svc.m_status = true ∧
      ∀ sig : Getter, ∃ b : Buf SBUFLEN,
        b.toList ∈ blocks SBUFLEN ((streams s.svc.latest).take (s.svc.taken s.svc.latest)) ∧
        sig.read b = .ok (s.locals sig) := by
  have hsvc := tcp_start_inv streams m_buffer
  obtain ⟨hstatus, hvalue⟩ := Window.liveValues hsvc h hl hstayed
  have hinv := Window.inv_of_run hsvc h
  refine ⟨hstatus, ?_⟩
  intro sig
  obtain ⟨b, hb, hread⟩ := hvalue sig
  refine ⟨b, ?_, hread⟩
  -- the commits of the connection are whole blocks of what has been read from it
  rw [← hinv.svc.inv.framed.blocks_eq]
  exact List.mem_append_left _ (List.mem_map_of_mem hb)

/-- A connected tick after the first frame. -/
def liveRun : List (Window.Ev Receiver.Ev) :=
  connectRun ++ frameRun [0, 0, 0x40] ++ [.timeout] ++ List.replicate 7 .tick

theorem live_values_liveRun :
    ∃ s, Run (Window.step (tcpService lightsStream)) (Window.FrameFirst (tcpService lightsStream))
        (Window.start (Receiver.start (Buf.zero SBUFLEN))) liveRun s ∧
      s.svc.svc.m_status = true ∧
      ∀ sig : Getter, ∃ b : Buf SBUFLEN,
        b.toList ∈ blocks SBUFLEN ((lightsStream s.svc.latest).take (s.svc.taken s.svc.latest)) ∧
        sig.read b = .ok (s.locals sig) := by
  obtain ⟨s, hrun, hl, hstayed⟩ : ∃ s, Run (Window.step (tcpService lightsStream))
      (Window.FrameFirst (tcpService lightsStream))
      (Window.start (Receiver.start (Buf.zero SBUFLEN))) liveRun s ∧
      s.loc = .setLightSignals ∧ s.stayed = true := Run.exists_of_exec (by decide)
  exact ⟨s, hrun, live_values hrun hl hstayed⟩

/-- A tick after `connect` and before the first frame displays the buffer as it was before
    the connection: nothing has been read from it. -/
theorem stale_values :
    ∃ es s, Run (Window.step (tcpService lightsStream)) Always
        (Window.start (Receiver.start (Buf.zero SBUFLEN))) es s ∧
      s.loc = .setLightSignals ∧ s.stayed = true ∧
      blocks SBUFLEN ((lightsStream s.svc.latest).take (s.svc.taken s.svc.latest)) = [] := by
  have hrun : ∃ s, Run (Window.step (tcpService lightsStream)) Always
      (Window.start (Receiver.start (Buf.zero SBUFLEN)))
      (connectRun ++ [.timeout] ++ List.replicate 7 .tick) s ∧
      s.loc = .setLightSignals ∧ s.stayed = true ∧
      blocks SBUFLEN ((lightsStream s.svc.latest).take (s.svc.taken s.svc.latest)) = [] :=
    Run.exists_of_exec (by decide)
  exact ⟨_, hrun⟩

end Speedometer.Client
