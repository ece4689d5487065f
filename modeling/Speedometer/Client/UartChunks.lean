/-
  Speedometer.Client.UartChunks

  How the UART client takes frames that arrive in pieces, compared with the TCP
  client.

  `TCPService::run` collects a frame over as many reads as it takes.
  `UARTService::run` asks for a whole frame in one `serial.read` and takes anything
  less for a failure: it drops the bytes, clears `m_status` and closes the port.
  `uart_commits_all`: from a port that is open between two frames it commits every
  frame, as the TCP client does, exactly when every read returns a whole frame.
-/

import Speedometer.Client.Receiver
import Speedometer.Client.UartReceiver

namespace Speedometer.Client.UartReceiver

open Cpp Line Blocks Transition

/-! ## Chunks -/

/-- The port is open and nothing has arrived since it was cleared. -/
def opened (m_buffer : Buf SBUFLEN) : UartReceiver where
  svc := { m_buffer, isOpen := true, loc := .waitForReadyRead }

/-- Every wait succeeds and every read returns at least one byte. -/
def Chunked (_ : UartReceiver) : Ev → Prop
  | .worker (.waitForReadyRead ok) => ok = true
  | .worker (.read (some bs)) => 0 < bs.length
  | .worker (.read none) => False
  | _ => True

instance (r : UartReceiver) : (e : Ev) → Decidable (r.Chunked e)
  | .worker (.waitForReadyRead ok) => inferInstanceAs (Decidable (ok = true))
  | .worker (.read (some bs)) => inferInstanceAs (Decidable (0 < bs.length))
  | .worker (.read none) => isFalse id
  | .worker .tau | .worker (.openPort _) | .arrive | .stop => isTrue trivial

/-- A read that returns fewer bytes than a frame has. -/
def Ev.isPartial : Ev → Bool
  | .worker (.read (some bs)) => bs.length != SBUFLEN
  | _ => false

/-- `m_status` does not become false. -/
def Steady (frames : Nat → Buf SBUFLEN) (r : UartReceiver) (e : Ev) : Prop :=
  ∀ r', step frames r e = some r' → r.svc.m_status = true → r'.svc.m_status = true

/-- The frame that has been read but not been copied yet. -/
def pending (r : UartReceiver) : List (Buf SBUFLEN) :=
  if r.svc.loc = .commit then [r.svc.tmpbuf] else []

/-- Whole frames have arrived, nothing is left in the queue and the worker waits for
    more. -/
def Delivered (r : UartReceiver) : Prop :=
  r.line.arrived % SBUFLEN = 0 ∧ r.line.available = 0 ∧ r.svc.loc = .waitForReadyRead

instance (r : UartReceiver) : Decidable r.Delivered :=
  inferInstanceAs (Decidable
    (r.line.arrived % SBUFLEN = 0 ∧ r.line.available = 0 ∧ r.svc.loc = .waitForReadyRead))

/-! ## Whole reads -/

/-- As long as every read is a whole one the session goes on, and everything that has
    been taken from the line is committed or about to be. -/
structure Streaming (frames : Nat → Buf SBUFLEN) (r : UartReceiver) : Prop where
  running : r.InSession ∨ r.svc.m_stop = true ∧ r.svc.loc ∈ [.closeLast, .done]
  isOpen : r.InSession → r.svc.isOpen = true
  first : r.InSession → r.line.first = SBUFLEN * (r.log ++ r.pending).length
  frames : r.log ++ r.pending = (List.range (r.log ++ r.pending).length).map frames

variable {frames : Nat → Buf SBUFLEN} {r r' : UartReceiver}

theorem opened_streaming (frames : Nat → Buf SBUFLEN) (m_buffer : Buf SBUFLEN) :
    Streaming frames (opened m_buffer) where
  running := .inl trivial
  isOpen := fun _ => rfl
  first := fun _ => rfl
  frames := rfl

/-- Moving the worker inside a session while the pending frame stays. -/
theorem Streaming.move (h : Streaming frames r) {svc : UartService.State}
    (hin : r.InSession) (hin' : InSession { r with svc }) (hopen : svc.isOpen = r.svc.isOpen)
    (hp : pending { r with svc } = r.pending) : Streaming frames { r with svc } where
  running := .inl hin'
  isOpen := fun _ => hopen.trans (h.isOpen hin)
  first := by
    intro _
    rw [hp]
    exact h.first hin
  frames := by
    rw [hp]
    exact h.frames

/-- Copying moves the pending frame to the end of the log. -/
theorem Streaming.commit (h : Streaming frames r) (hl : r.svc.loc = .commit) :
    Streaming frames
      { r with
        svc := { r.svc with m_buffer := r.svc.tmpbuf, loc := .setStatus }
        session := r.session ++ [r.svc.tmpbuf]
        log := r.log ++ [r.svc.tmpbuf] } := by
  have hin : r.InSession := by simp [InSession, hl]
  have hp : r.pending = [r.svc.tmpbuf] := if_pos hl
  have hfirst := h.first hin
  have hframes := h.frames
  rw [hp] at hfirst hframes
  exact ⟨.inl trivial, fun _ => h.isOpen hin, fun _ => by simpa [pending] using hfirst,
    by simpa [pending] using hframes⟩

/-- A whole read takes the next frame. -/
theorem Streaming.read (h : Streaming frames r) (hl : r.svc.loc = .read) {bs : List (BitVec 8)}
    (hfull : bs.length = SBUFLEN) (ha : Answers frames r (.read (some bs))) :
    Streaming frames
      { r with
        svc := { r.svc with tmpbuf := r.svc.tmpbuf.write 0 bs, loc := .commit }
        line := r.line.take SBUFLEN } := by
  obtain ⟨hle, hbs⟩ := ha
  rw [hfull] at hle hbs
  have hin : r.InSession := by simp [InSession, hl]
  have hp : r.pending = [] := by simp [pending, hl]
  have hfirst := h.first hin
  have hframes := h.frames
  rw [hp, List.append_nil] at hfirst hframes
  -- the bytes read are the frame after the committed ones
  have htmpbuf : r.svc.tmpbuf.write 0 bs = frames r.log.length := by
    have hzero : r.line.first % SBUFLEN = 0 := by rw [hfirst, Nat.mul_mod_right]
    rw [hbs, slice_frame frames hzero, hfirst,
      Nat.mul_div_cancel_left _ (Nat.pos_of_neZero SBUFLEN), Buf.write_toList]
  refine ⟨.inl trivial, fun _ => h.isOpen hin, fun _ => ?_, ?_⟩
  · rw [Fifo.take_first hle, hfirst]
    simp [pending, Nat.mul_add]
  · simp only [pending, htmpbuf, if_pos, List.length_append, List.length_singleton,
      List.range_succ, List.map_append, List.map_singleton]
    rw [← hframes]

/-- Steps that ask the port nothing. -/
theorem Streaming.tau (h : Streaming frames r) {svc : UartService.State}
    (hs : UartService.stepTau r.svc = some svc) : Streaming frames (r.record svc .tau) := by
  obtain hin | ⟨hstop, hend⟩ := h.running
  · cases hl : r.svc.loc <;> simp only [UartService.stepTau, hl, Option.some.injEq] at hs
    case openPort | waitForReadyRead | read | done => cases hs
    case clearPort | clearStatus | close | sleep | closeLast => simp [InSession, hl] at hin
    case whileRunning =>
        subst hs
        have hstatus : r.svc.m_status = true := by simpa [InSession, hl] using hin
        simp only [record, hl]
        cases hstop : r.svc.m_stop with
        | false => exact h.move hin (by simpa [InSession]) rfl (by simp [pending, hl])
        | true =>
            -- the loop is left with everything taken committed
            have hframes := h.frames
            refine ⟨.inr ⟨rfl, by simp⟩, by simp [InSession], by simp [InSession], ?_⟩
            simpa [pending, hl] using hframes
    case ifDisconnected =>
        subst hs
        have hstatus : r.svc.m_status = true := by simpa [InSession, hl] using hin
        simp only [record, hl, hstatus, if_true]
        exact h.move hin (by simp [InSession]) rfl (by simp [pending, hl])
    case commit =>
        subst hs
        simp only [record, hl]
        exact h.commit hl
    case setStatus =>
        subst hs
        simp only [record, hl]
        exact h.move hin (by simp [InSession]) rfl (by simp [pending, hl])
  · -- after the loop
    have hframes := h.frames
    simp only [List.mem_cons, List.not_mem_nil, or_false] at hend
    rcases hend with hl | hl
    · simp only [UartService.stepTau, hl, Option.some.injEq] at hs
      subst hs
      simp only [record, hl]
      refine ⟨.inr ⟨hstop, by simp⟩, by simp [InSession], by simp [InSession], ?_⟩
      simpa [pending, hl] using hframes
    · simp [UartService.stepTau, hl] at hs

/-- Every step with whole reads keeps the session going. -/
theorem Streaming.step (h : Streaming frames r) {e : Ev} (hc : r.Chunked e)
    (hw : e.isPartial = false) (hs : step frames r e = some r') : Streaming frames r' := by
  cases e with
  | arrive =>
      simp only [UartReceiver.step, Option.some.injEq] at hs
      subst hs
      refine ⟨h.running, h.isOpen, fun hin => ?_, h.frames⟩
      rw [if_pos (h.isOpen hin)]
      exact h.first hin
  | stop =>
      simp only [UartReceiver.step, Option.some.injEq] at hs
      subst hs
      refine ⟨?_, h.isOpen, h.first, h.frames⟩
      rcases h.running with hin | ⟨-, hend⟩
      · exact .inl hin
      · exact .inr ⟨rfl, hend⟩
  | worker e =>
      obtain ⟨ha, svc, hsvc, rfl⟩ := step_worker hs
      cases e with
      | tau => exact h.tau hsvc
      | openPort ok =>
          -- the port is not opened again
          simp only [UartService.step, Option.ite_none_right_eq_some, Option.some.injEq] at hsvc
          rcases h.running with hin | ⟨-, hend⟩
          · simp [InSession, hsvc.1] at hin
          · simp [hsvc.1] at hend
      | waitForReadyRead ok =>
          obtain ⟨hl, rfl⟩ := of_guard hsvc
          have hok : ok = true := hc
          subst hok
          exact h.move (by simp [InSession, hl]) (by simp [InSession]) rfl (by simp [pending, hl])
      | read bs =>
          cases bs with
          | none => exact hc.elim
          | some bs =>
              have hfull : bs.length = SBUFLEN := by simpa [Ev.isPartial] using hw
              obtain ⟨⟨hl, -⟩, rfl⟩ := of_guard hsvc
              simp only [record, hfull, if_true]
              exact h.read hl hfull ha

/-- Inside a session `m_status` does not become false. -/
theorem Streaming.steady (h : Streaming frames r) (e : Ev) : Steady frames r e := by
  intro r' hs hstatus
  -- `m_status` is cleared on the way out of a session only
  have hl : r.svc.loc ≠ .clearStatus := by
    intro hl
    rcases h.running with hin | ⟨-, hend⟩
    · simp [InSession, hl] at hin
    · simp [hl] at hend
  cases e with
  | arrive | stop =>
      simp only [UartReceiver.step, Option.some.injEq] at hs
      subst hs
      exact hstatus
  | worker e =>
      obtain ⟨-, svc, hsvc, rfl⟩ := step_worker hs
      have hne : ¬(e = .tau ∧ r.svc.loc = .clearStatus) := fun hc => hl hc.2
      rw [record_svc, (UartService.step_effect hsvc).m_status, if_neg hne, hstatus, ite_self]

/-! ## What a partial read costs -/

/-- The bytes of the committed and the pending frames. -/
def kept (r : UartReceiver) : Nat := SBUFLEN * (r.log ++ r.pending).length

/-- A read adds the bytes of a frame if the worker goes on to copy it. -/
theorem kept_read (hl : r.svc.loc = .read) (svc : UartService.State) (line : Fifo) :
    kept { r with svc, line } = r.kept + if svc.loc = .commit then SBUFLEN else 0 := by
  by_cases hcommit : svc.loc = .commit <;> simp [kept, pending, hl, hcommit, Nat.mul_add]

/-- The line loses at least what the frames gain, and a partial read loses more. -/
theorem kept_step {e : Ev} (hc : r.Chunked e) (hs : step frames r e = some r') :
    r.line.first + r'.kept + (if e.isPartial then 1 else 0) ≤ r'.line.first + r.kept := by
  have hclear := r.line.first_le
  cases e with
  | arrive =>
      simp only [UartReceiver.step, Option.some.injEq] at hs
      subst hs
      -- what arrives at a closed port is lost
      cases r.svc.isOpen
      · show r.line.first + r.kept + 0 ≤ (r.line.arrived + 1) + r.kept
        omega
      · exact Nat.le_refl _
  | stop =>
      simp only [UartReceiver.step, Option.some.injEq] at hs
      subst hs
      exact Nat.le_refl _
  | worker e =>
      obtain ⟨ha, svc, hsvc, rfl⟩ := step_worker hs
      cases e with
      | tau =>
          cases hl : r.svc.loc <;>
            simp only [UartService.step, UartService.stepTau, hl, Option.some.injEq] at hsvc
          case openPort | waitForReadyRead | read | done => cases hsvc
          case whileRunning =>
              subst hsvc
              cases r.svc.m_stop <;> simp [record, hl, kept, pending, Ev.isPartial]
          case ifDisconnected =>
              subst hsvc
              cases r.svc.m_status <;> simp [record, hl, kept, pending, Ev.isPartial]
          -- `clear` drops what is queued; the others leave line and log alone
          all_goals
            subst hsvc
            simp [record, hl, kept, pending, Ev.isPartial, Fifo.clear, hclear]
      | openPort ok =>
          obtain ⟨hl, rfl⟩ := of_guard hsvc
          cases ok <;> simp [record, hl, kept, pending, Ev.isPartial]
      | waitForReadyRead ok =>
          obtain ⟨hl, rfl⟩ := of_guard hsvc
          cases ok <;> simp [record, hl, kept, pending, Ev.isPartial]
      | read bs =>
          cases bs with
          | none => exact hc.elim
          | some bs =>
              have hpos : 0 < bs.length := hc
              obtain ⟨⟨hl, -⟩, rfl⟩ := of_guard hsvc
              show r.line.first + kept { r with svc := _, line := _ } + _ ≤
                (r.line.take bs.length).first + r.kept
              rw [kept_read hl, Fifo.take_first ha.1]
              -- a whole read is kept whole, a partial one is dropped whole
              by_cases hfull : bs.length = SBUFLEN
              · simp only [Ev.isPartial, hfull, if_true, bne_self_eq_false, Bool.false_eq_true,
                  if_false]
                omega
              · simp only [Ev.isPartial, hfull, if_false, reduceCtorEq, bne_iff_ne, ne_eq,
                  not_false_eq_true, if_true]
                omega

/-! ## What is delivered -/

theorem Delivered.pending (hd : r.Delivered) : r.pending = [] := by
  simp [UartReceiver.pending, hd.2.2]

/-- Everything that has arrived has left the line. -/
theorem Delivered.first (hd : r.Delivered) :
    r.line.first = SBUFLEN * (r.line.arrived / SBUFLEN) := by
  have hle := r.line.first_le
  have havail : r.line.arrived - r.line.first = 0 := hd.2.1
  rw [Nat.mul_div_cancel' (Nat.dvd_of_mod_eq_zero hd.1)]
  omega

/-- With whole reads, every frame delivered is committed. -/
theorem Streaming.delivered (h : Streaming frames r) (hd : r.Delivered) :
    r.log = (List.range (r.line.arrived / SBUFLEN)).map frames := by
  have hfirst := h.first (by simp [InSession, hd.2.2])
  have hframes := h.frames
  rw [hd.pending, List.append_nil] at hfirst hframes
  rw [hd.first] at hfirst
  rw [Nat.eq_of_mul_eq_mul_left (Nat.pos_of_neZero SBUFLEN) hfirst]
  exact hframes

variable {m_buffer : Buf SBUFLEN} {es : List Ev}

/-- A run with whole reads keeps the session going and `m_status` steady. -/
theorem streaming_of_whole (h : Run (step frames) Chunked (opened m_buffer) es r)
    (hall : ∀ e ∈ es, e.isPartial = false) :
    Streaming frames r ∧ Run (step frames) (Steady frames) (opened m_buffer) es r := by
  have hrun := h.and_of_mem hall
  have hstep : ∀ t e u, Streaming frames t → t.Chunked e ∧ e.isPartial = false →
      step frames t e = some u → Streaming frames u := fun _ _ _ hi ha hs => hi.step ha.1 ha.2 hs
  exact ⟨hrun.invariant (opened_streaming frames m_buffer) hstep,
    hrun.imp_of (opened_streaming frames m_buffer) hstep fun _ e hi _ => hi.steady e⟩

/-- A partial read leaves fewer bytes in the log than have left the line, for good. -/
theorem whole_of_log (h : Run (step frames) Chunked (opened m_buffer) es r) (hd : r.Delivered)
    (hlog : r.log = (List.range (r.line.arrived / SBUFLEN)).map frames) :
    ∀ e ∈ es, e.isPartial = false := by
  have hcount := h.add_countP_le (I := fun r => r.kept ≤ r.line.first) (p := Ev.isPartial)
    (φ := fun r => r.line.first - r.kept) (Nat.le_refl 0)
    (fun _ _ _ hi hc hs => by have hle := kept_step hc hs; omega)
    (fun _ _ _ hi hc hs => by have hle := kept_step hc hs; omega)
  have hkept : r.kept = r.line.first := by
    rw [kept, hd.pending, List.append_nil, hlog, List.length_map, List.length_range, hd.first]
  rw [hkept, Nat.sub_self] at hcount
  have hnone : es.countP Ev.isPartial = 0 := by omega
  intro e he
  exact Bool.eq_false_iff.mpr (List.countP_eq_zero.mp hnone e he)

/-! ## Agreement with the TCP client -/

/-- The TCP client commits the frames of the line, however its reads cut it. -/
theorem tcp_commits {streams : Nat → List (BitVec 8)} {m_buffer : Buf SBUFLEN}
    {es : List Receiver.Ev} {t : Receiver} {k : Nat}
    (h : Run (Receiver.step streams) Always (Receiver.start m_buffer) es t) (hone : t.conns = 1)
    (hbytes : (streams 0).take (t.taken 0) = slice frames 0 (SBUFLEN * k))
    (hp : t.pending = []) : t.log = (List.range k).map frames := by
  obtain ⟨hblocks, hlog, -⟩ := Receiver.receiver_framing streams h
  have hzero := hblocks 0
  rw [hbytes, blocks_slice, hp, List.map_nil, ite_self, List.append_nil] at hzero
  have hcommits : t.commits 0 = (List.range k).map frames := by
    apply List.map_injective_iff.mpr (fun _ _ => Vector.toList_inj.mp)
    rw [hzero, List.map_map]
    rfl
  rw [hlog, hone, List.range_one, List.flatMap_singleton, hcommits]

/-- From a port that is open between two frames, over frames that arrive in any pieces.
    While every read is a whole one, the frames taken from the line are the ones
    committed or about to be, in order, and `m_status` never becomes false.  Once whole
    frames are delivered, all of them are committed, as the TCP client commits them on
    the same bytes, exactly if every read has returned a whole frame. -/
theorem uart_commits_all (h : Run (step frames) Chunked (opened m_buffer) es r) :
    ((∀ e ∈ es, e.isPartial = false) →
      r.log ++ r.pending = (List.range (r.log ++ r.pending).length).map frames ∧
      (r.svc.m_stop = false → r.line.first = SBUFLEN * (r.log ++ r.pending).length) ∧
      Run (step frames) (Steady frames) (opened m_buffer) es r) ∧
    (r.Delivered →
      ((r.log = (List.range (r.line.arrived / SBUFLEN)).map frames ∧
        Run (step frames) (Steady frames) (opened m_buffer) es r ∧
        ∀ {streams m_buffer' fs} {t : Receiver},
          Run (Receiver.step streams) Always (Receiver.start m_buffer') fs t → t.conns = 1 →
          (streams 0).take (t.taken 0) = slice frames 0 r.line.arrived → t.pending = [] →
          t.log = r.log) ↔
        ∀ e ∈ es, e.isPartial = false)) := by
  refine ⟨?_, ?_⟩
  · intro hall
    obtain ⟨hst, hsteady⟩ := streaming_of_whole h hall
    refine ⟨hst.frames, fun hstop => hst.first ?_, hsteady⟩
    rcases hst.running with hin | ⟨hstop', -⟩
    · exact hin
    · rw [hstop] at hstop'
      cases hstop'
  · intro hd
    constructor
    · rintro ⟨hlog, -, -⟩
      exact whole_of_log h hd hlog
    · intro hall
      obtain ⟨hst, hsteady⟩ := streaming_of_whole h hall
      have hlog := hst.delivered hd
      refine ⟨hlog, hsteady, ?_⟩
      intro streams m_buffer' fs t hrun hone hbytes ht
      rw [← Nat.mul_div_cancel' (Nat.dvd_of_mod_eq_zero hd.1)] at hbytes
      rw [tcp_commits hrun hone hbytes ht, hlog]

/-- One frame, read whole. -/
def wholeFrame : List Ev :=
  [.arrive, .arrive, .arrive, .worker (.waitForReadyRead true),
   .worker (.read (some [1, 2, 3])), .worker .tau, .worker .tau, .worker .tau, .worker .tau]

theorem uart_commits_all_wholeFrame :
    ∃ r, Run (step sameFrame) Chunked (opened (Buf.zero SBUFLEN)) wholeFrame r ∧
      r.log = (List.range 1).map sameFrame := by
  obtain ⟨r, hrun, hd, harrived⟩ : ∃ r, Run (step sameFrame) Chunked (opened (Buf.zero SBUFLEN))
      wholeFrame r ∧ r.Delivered ∧ r.line.arrived = 3 := Run.exists_of_exec (by decide)
  have hlog := (((uart_commits_all hrun).2 hd).mpr (by decide)).1
  rw [harrived] at hlog
  exact ⟨r, hrun, hlog⟩

/-- The next frame comes in two pieces: its first byte, and the rest while the port is
    closed. -/
def splitFrame : List Ev :=
  [.arrive, .worker (.waitForReadyRead true), .worker (.read (some [1])), .worker .tau,
   .worker .tau, .arrive, .arrive, .worker .tau, .worker .tau, .worker .tau,
   .worker (.openPort true), .worker .tau]

/-- Of two frames that are delivered, the one that came in pieces is not committed, and
    `m_status` has become false. -/
theorem uart_drops_splitFrame :
    ∃ es r, Run (step sameFrame) Chunked (opened (Buf.zero SBUFLEN)) es r ∧ r.Delivered ∧
      r.line.arrived = 6 ∧ r.log = [sameFrame 0] ∧ r.svc.m_status = false := by
  obtain ⟨r, hrun, hd, harrived, hlog, hstatus⟩ : ∃ r, Run (step sameFrame) Chunked
      (opened (Buf.zero SBUFLEN)) (wholeFrame ++ splitFrame) r ∧ r.Delivered ∧
      r.line.arrived = 6 ∧ r.log = [sameFrame 0] ∧ r.svc.m_status = false :=
    Run.exists_of_exec (by decide)
  exact ⟨_, r, hrun, hd, harrived, hlog, hstatus⟩

end Speedometer.Client.UartReceiver
