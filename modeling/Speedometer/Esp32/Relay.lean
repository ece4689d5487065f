/-
  Speedometer.Esp32.Relay

  Alignment of the ESP32 server's relay: the loop of `app_main` against a UART
  line of frames.

  Every packet is read right after a `uart_flush_input`, which discards whatever
  has arrived by then.  `relay_notifies_frames`: what is passed to
  `ble_gatts_notify_custom` is a frame as long as the flush before each full read
  fell between two frames.  A flush inside a frame makes the next packet straddle
  two frames (`relay_notifies_straddling`).  The frames passed on keep the order of
  the line (`relay_keeps_order`).
-/

import Speedometer.Esp32.Server
import Speedometer.Lib.Line
import Speedometer.Lib.Run

namespace Speedometer.Esp32

open Cpp Line Transition

/-- The server, the line it reads from and what it has passed on. -/
structure Relay where
  srv : Server.State := {}
  line : Fifo := .empty
  /-- the position on the line of the last `uart_flush_input` -/
  flushedAt : Nat := 0
  /-- the buffers passed to `ble_gatts_notify_custom` -/
  notified : List (Buf SBUFLEN) := []
deriving DecidableEq

namespace Relay

/-- What can happen next. -/
inductive Ev
  | arrive
  | server (e : Server.Ev)
deriving DecidableEq, Repr

/-- `uart_read_bytes` takes the bytes that arrived first. -/
def Answers (frames : Nat → Buf SBUFLEN) (r : Relay) : Server.Ev → Prop
  | .readUart (some bs) => bs.length ≤ r.line.available ∧ bs = slice frames r.line.first bs.length
  | _ => True

instance (frames : Nat → Buf SBUFLEN) (r : Relay) :
    (e : Server.Ev) → Decidable (Answers frames r e)
  | .readUart (some bs) => inferInstanceAs (Decidable
      (bs.length ≤ r.line.available ∧ bs = slice frames r.line.first bs.length))
  | .readUart none | .gap _ | .gapLed | .tau | .notify _ => isTrue trivial

/-- Recording a step of the server that leads to `srv`. -/
def record (r : Relay) (srv : Server.State) : Server.Ev → Relay
  | .readUart (some bs) => { r with srv, line := r.line.take bs.length }
  | .notify _ => { r with srv, notified := r.notified ++ [r.srv.buffer] }
  | .tau =>
      if r.srv.loc = .flush ∨ r.srv.loc = .flushOuter then
        { r with srv, line := r.line.clear, flushedAt := r.line.arrived }
      else { r with srv }
  | _ => { r with srv }

/-- A step, on a line of the given frames. -/
def step (frames : Nat → Buf SBUFLEN) (r : Relay) : Ev → Option Relay
  | .arrive => some { r with line := r.line.arrive }
  | .server e =>
      if Answers frames r e then
        match Server.step r.srv e with
        | some srv => some (r.record srv e)
        | none => none
      else none

/-- The last `uart_flush_input` before every full read fell between two frames. -/
def FlushedBetween (r : Relay) : Ev → Prop
  | .server (.readUart (some bs)) => bs.length = SBUFLEN → r.flushedAt % SBUFLEN = 0
  | _ => True

instance (r : Relay) : (e : Ev) → Decidable (r.FlushedBetween e)
  | .server (.readUart (some bs)) =>
      inferInstanceAs (Decidable (bs.length = SBUFLEN → r.flushedAt % SBUFLEN = 0))
  | .server (.readUart none) | .server .tau | .server .gapLed | .server (.gap _)
  | .server (.notify _) | .arrive => isTrue trivial

/-! ## Invariant -/

/-- A read starts where the last flush left the line; only a full read goes on to
    `notify`. -/
structure Inv (r : Relay) : Prop where
  flushed : r.srv.loc ∈ [.whileConnected, .bzero, .readUart, .flushOuter, .delay] →
    r.line.first = r.flushedAt
  full : r.srv.loc ∈ [.loadHandle, .notify] → r.srv.len = SBUFLEN

theorem start_inv : Inv {} where
  flushed := fun _ => rfl
  full := by simp

variable {frames : Nat → Buf SBUFLEN} {r r' : Relay}

/-- What a step of the server is. -/
theorem step_server {e : Server.Ev} (hs : step frames r (.server e) = some r') :
    Answers frames r e ∧ ∃ srv, Server.step r.srv e = some srv ∧ r' = r.record srv e := by
  simp only [step, Option.ite_none_right_eq_some] at hs
  obtain ⟨ha, hs⟩ := hs
  split at hs
  · rename_i srv hsrv
    simp only [Option.some.injEq] at hs
    exact ⟨ha, srv, hsrv, hs.symm⟩
  · cases hs

/-- Only what has arrived of a line matters. -/
theorem step_congr {frames' : Nat → Buf SBUFLEN} {e : Ev}
    (h : ∀ len, r.line.first + len ≤ r.line.arrived →
      slice frames r.line.first len = slice frames' r.line.first len)
    (hs : step frames r e = some r') : step frames' r e = some r' := by
  cases e with
  | arrive => exact hs
  | server e =>
      obtain ⟨ha, srv, hsrv, rfl⟩ := step_server hs
      have ha' : Answers frames' r e := by
        cases e with
        | readUart bs =>
            cases bs with
            | none => trivial
            | some bs =>
                obtain ⟨hle, hbs⟩ := ha
                have hfirst := r.line.first_le
                exact ⟨hle, hbs.trans (h _ (by simp only [Fifo.available] at hle; omega))⟩
        | _ => trivial
      simp only [step, if_pos ha', hsrv]

/-- Nothing arrives while the server takes a step. -/
theorem record_arrived (r : Relay) (srv : Server.State) (e : Server.Ev) :
    (r.record srv e).line.arrived = r.line.arrived := by
  cases e with
  | readUart bs => cases bs <;> rfl
  | tau =>
      simp only [record]
      split <;> rfl
  | _ => rfl

/-- Only `ble_gatts_notify_custom` passes a buffer on. -/
theorem record_notified (r : Relay) (srv : Server.State) {e : Server.Ev}
    (h : ∀ rc, e ≠ .notify rc) : (r.record srv e).notified = r.notified := by
  cases e with
  | readUart bs => cases bs <;> rfl
  | tau =>
      simp only [record]
      split <;> rfl
  | notify rc => exact absurd rfl (h rc)
  | _ => rfl

/-- A step that leaves the line alone. -/
theorem Inv.move (h : Inv r) {srv : Server.State} {notified : List (Buf SBUFLEN)}
    (hflushed : srv.loc ∈ [.whileConnected, .bzero, .readUart, .flushOuter, .delay] →
      r.srv.loc ∈ [.whileConnected, .bzero, .readUart, .flushOuter, .delay])
    (hfull : srv.loc ∈ [.loadHandle, .notify] → srv.len = SBUFLEN) :
    Inv { r with srv, notified } where
  flushed := fun hl => h.flushed (hflushed hl)
  full := hfull

/-- Nothing is asked of the steps between a packet and the flush after it. -/
theorem Inv.leave (h : Inv r) {srv : Server.State} {notified : List (Buf SBUFLEN)}
    (hloc : srv.loc ∈ [.ledPkt, .ifConnected, .ledConnected, .flush]) :
    Inv { r with srv, notified } := by
  simp only [List.mem_cons, List.not_mem_nil, or_false] at hloc
  rcases hloc with hl | hl | hl | hl <;> exact h.move (by simp [hl]) (by simp [hl])

/-- Steps of `gap_event` do not touch what `app_main` reads packets with. -/
theorem Inv.gap (h : Inv r) {srv : Server.State} (hloc : srv.loc = r.srv.loc)
    (hlen : srv.len = r.srv.len) : Inv { r with srv } :=
  h.move (fun hl => hloc ▸ hl) (fun hl => hlen.trans (h.full (hloc ▸ hl)))

/-- Steps of `app_main` that call neither the UART driver nor the BLE stack, and the
    flushes. -/
theorem Inv.tau (h : Inv r) {srv : Server.State} (hs : Server.stepTau r.srv = some srv) :
    Inv (r.record srv .tau) := by
  cases hl : r.srv.loc <;> simp only [Server.stepTau, hl, Option.some.injEq] at hs
  case readUart | notify => cases hs
  case flush | flushOuter =>
      -- the line restarts where the flush has left it
      subst hs
      simp only [record, hl]
      exact ⟨fun _ => rfl, by simp⟩
  case whileConnected =>
      subst hs
      simp only [record, hl]
      by_cases hconn : r.srv.active_conn_handle ≠ Server.NO_CONN_HANDLE
      · simp only [if_pos hconn]
        exact h.move (by simp [hl]) (by simp)
      · simp only [if_neg hconn]
        exact h.move (by simp [hl]) (by simp)
  case bzero | delay =>
      subst hs
      simp only [record, hl]
      exact h.move (by simp [hl]) (by simp)
  case ifLen =>
      -- only a full read goes on to `notify`; the other branches lead to the flush
      subst hs
      simp only [record, hl]
      by_cases hlen : r.srv.len = Server.RX_MSG_LEN
      · simp only [if_pos hlen]
        exact h.move (by simp) (fun _ => hlen)
      · refine h.leave ?_
        simp only [if_neg hlen]
        split
        · simp
        · split <;> simp
  case loadHandle =>
      subst hs
      simp only [record, hl]
      exact h.move (by simp) (fun _ => h.full (by simp [hl]))
  case ifConnected =>
      subst hs
      simp only [record, hl]
      refine h.leave ?_
      simp only
      split <;> simp
  case ledPkt | ledConnected =>
      subst hs
      simp only [record, hl]
      exact h.leave (by simp)

/-- Every step keeps the invariant. -/
theorem Inv.step (h : Inv r) {e : Ev} (hs : step frames r e = some r') : Inv r' := by
  cases e with
  | arrive =>
      simp only [Relay.step, Option.some.injEq] at hs
      subst hs
      exact ⟨h.flushed, h.full⟩
  | server e =>
      obtain ⟨-, srv, hsrv, rfl⟩ := step_server hs
      cases e with
      | gap event =>
          obtain ⟨-, rfl⟩ := of_guard hsrv
          cases event <;> exact h.gap rfl rfl
      | gapLed =>
          cases hg : r.srv.gap <;>
            simp only [Server.step, Server.gapLed, hg, Option.some.injEq] at hsrv
          · cases hsrv
          · exact hsrv ▸ h.gap rfl rfl
          · exact hsrv ▸ h.gap rfl rfl
      | tau => exact h.tau hsrv
      | readUart bs =>
          cases bs <;> obtain ⟨-, rfl⟩ := of_guard hsrv <;>
            exact ⟨by simp [record], by simp [record]⟩
      | notify rc =>
          obtain ⟨-, rfl⟩ := of_guard hsrv
          refine h.leave ?_
          simp only
          split <;> simp

/-! ## Order -/

/-- The frames passed on, followed by the frame that is about to be, are frames of the
    line in their order. -/
structure Ordered (frames : Nat → Buf SBUFLEN) (r : Relay) : Prop where
  notified : r.notified.Sublist (whole frames r.line.first)
  pending : r.srv.loc ∈ [.ifLen, .loadHandle, .notify] → r.srv.len = SBUFLEN →
    (r.notified ++ [r.srv.buffer]).Sublist (whole frames r.line.first)

theorem start_ordered (frames : Nat → Buf SBUFLEN) : Ordered frames {} where
  notified := by simp
  pending := by simp

/-- A step that reads no packet and passes none on. -/
theorem Ordered.move (h : Ordered frames r) {srv : Server.State} {line : Fifo} {flushedAt : Nat}
    (hline : r.line.first ≤ line.first)
    (hpending : srv.loc ∈ [.ifLen, .loadHandle, .notify] →
      r.srv.loc ∈ [.ifLen, .loadHandle, .notify] ∧ srv.len = r.srv.len ∧
        srv.buffer = r.srv.buffer) :
    Ordered frames { r with srv, line, flushedAt } where
  notified := h.notified.trans (whole_sublist frames hline)
  pending := by
    intro hl hlen
    obtain ⟨hl', hlen', hbuf⟩ := hpending hl
    have hold := h.pending hl' (hlen' ▸ hlen)
    simp only
    rw [hbuf]
    exact hold.trans (whole_sublist frames hline)

/-- The steps of `app_main` between the calls. -/
theorem Ordered.tau (h : Ordered frames r) {srv : Server.State}
    (hs : Server.stepTau r.srv = some srv) : Ordered frames (r.record srv .tau) := by
  have hclear : r.line.first ≤ r.line.clear.first := r.line.first_le
  cases hl : r.srv.loc <;> simp only [Server.stepTau, hl, Option.some.injEq] at hs
  case readUart | notify => cases hs
  case flush | flushOuter =>
      subst hs
      simp only [record, hl]
      exact h.move hclear (by simp)
  case ifLen | loadHandle =>
      -- the packet in the buffer stays the one to pass on
      subst hs
      simp only [record, hl]
      exact h.move (Nat.le_refl _) (by simp [hl])
  case whileConnected | ifConnected =>
      subst hs
      simp only [record, hl]
      refine h.move (Nat.le_refl _) ?_
      simp only
      split <;> simp
  all_goals
    subst hs
    simp only [record, hl]
    exact h.move (Nat.le_refl _) (by simp)

/-- A full read after an aligned flush takes the next frame of the line. -/
theorem Ordered.readUart (h : Ordered frames r) (hinv : Inv r) {bs : List (BitVec 8)}
    (hl : r.srv.loc = .readUart) (ha : Answers frames r (.readUart (some bs)))
    (hflush : r.FlushedBetween (.server (.readUart (some bs)))) :
    Ordered frames
      { r with
        srv := { r.srv with buffer := r.srv.buffer.write 0 bs, len := bs.length, loc := .ifLen }
        line := r.line.take bs.length } where
  notified := h.notified.trans (whole_sublist frames (r.line.first_le_take _))
  pending := by
    intro _ hlen
    have hfull : bs.length = SBUFLEN := Int.ofNat_inj.mp hlen
    have hzero : r.line.first % SBUFLEN = 0 := by
      rw [hinv.flushed (by simp [hl])]
      exact hflush hfull
    have hfirst : (r.line.take bs.length).first = r.line.first + SBUFLEN := by
      rw [Fifo.take_first ha.1, hfull]
    have hbs := ha.2
    rw [hfull, slice_frame frames hzero] at hbs
    simp only
    rw [hfirst, whole_add, hbs, Buf.write_toList]
    exact h.notified.append (List.Sublist.refl _)

/-- Every step keeps the order, given aligned flushes. -/
theorem Ordered.step (h : Ordered frames r) (hinv : Inv r) {e : Ev}
    (hflush : r.FlushedBetween e) (hs : Relay.step frames r e = some r') : Ordered frames r' := by
  cases e with
  | arrive =>
      simp only [Relay.step, Option.some.injEq] at hs
      subst hs
      exact ⟨h.notified, h.pending⟩
  | server e =>
      obtain ⟨ha, srv, hsrv, rfl⟩ := step_server hs
      cases e with
      | gap event =>
          obtain ⟨-, rfl⟩ := of_guard hsrv
          cases event <;> exact h.move (Nat.le_refl _) fun hl => ⟨hl, rfl, rfl⟩
      | gapLed =>
          cases hg : r.srv.gap <;>
            simp only [Server.step, Server.gapLed, hg, Option.some.injEq] at hsrv
          · cases hsrv
          · exact hsrv ▸ h.move (Nat.le_refl _) fun hl => ⟨hl, rfl, rfl⟩
          · exact hsrv ▸ h.move (Nat.le_refl _) fun hl => ⟨hl, rfl, rfl⟩
      | tau => exact h.tau hsrv
      | readUart bs =>
          cases bs with
          | none =>
              obtain ⟨-, rfl⟩ := of_guard hsrv
              exact ⟨h.notified, by simp [record, SBUFLEN]⟩
          | some bs =>
              obtain ⟨⟨hl, -⟩, rfl⟩ := of_guard hsrv
              exact h.readUart hinv hl ha hflush
      | notify rc =>
          obtain ⟨hl, rfl⟩ := of_guard hsrv
          -- the frame that was pending is passed on
          refine ⟨h.pending (by simp [hl]) (hinv.full (by simp [hl])), ?_⟩
          simp only [record]
          split <;> simp

/-- They have arrived in whole. -/
theorem Ordered.arrived (h : Ordered frames r) : r.notified.Sublist (whole frames r.line.arrived) :=
  h.notified.trans (whole_sublist frames r.line.first_le)

/-- What has been passed on at the end of a run. -/
theorem ordered_of_run (h : Run (step frames) FlushedBetween {} es r) : Ordered frames r :=
  h.invariant_of (J := Inv) (I := Ordered frames)
    (fun hrun => hrun.invariant start_inv fun _ _ _ hi _ hs => hi.step hs)
    (start_ordered frames) (fun _ _ _ hj hi hf hs => hi.step hj hf hs)

/-! ## Results -/

/-- When the flush before each full read fell between two frames, every buffer passed to
    `ble_gatts_notify_custom` is one frame, which has arrived in whole. -/
theorem relay_notifies_frames (frames : Nat → Buf SBUFLEN) {es : List Ev}
    (h : Run (step frames) FlushedBetween {} es r) :
    ∀ b ∈ r.notified, b ∈ whole frames r.line.arrived :=
  fun _ hb => (ordered_of_run h).arrived.mem hb

/-- A line that repeats one frame. -/
def sameFrame (_ : Nat) : Buf SBUFLEN := (Buf.zero SBUFLEN).write 0 [1, 2, 3]

/-- A client subscribes, `n` bytes arrive before the flush in the outer loop, and the
    three bytes after it are read. -/
def flushAfter (n : Nat) (bs : List (BitVec 8)) : List Ev :=
  [.server .tau] ++ List.replicate n .arrive ++
    [.server .tau, .server (.gap (.subscribe 1)), .server .gapLed, .server .tau, .server .tau,
     .server .tau, .arrive, .arrive, .arrive, .server (.readUart (some bs)), .server .tau,
     .server .tau, .server (.notify 0)]

theorem relay_notifies_frames_flushAfter :
    ∃ r, Run (step sameFrame) FlushedBetween {} (flushAfter 3 [1, 2, 3]) r ∧
      r.notified.length = 1 ∧ ∀ b ∈ r.notified, b ∈ whole sameFrame r.line.arrived := by
  obtain ⟨r, hrun, hlen⟩ : ∃ r, Run (step sameFrame) FlushedBetween {} (flushAfter 3 [1, 2, 3]) r ∧
      r.notified.length = 1 := Run.exists_of_exec (by decide)
  exact ⟨r, hrun, hlen, relay_notifies_frames sameFrame hrun⟩

/-- When a flush falls after the first byte of a frame, the packet is the rest of that
    frame and the first byte of the next one. -/
theorem relay_notifies_straddling :
    ∃ es r, Run (step sameFrame) Always {} es r ∧ ∃ b ∈ r.notified, ∀ j, b ≠ sameFrame j := by
  obtain ⟨r, hrun, b, hb, hne⟩ : ∃ r, Run (step sameFrame) Always {} (flushAfter 1 [2, 3, 1]) r ∧
      ∃ b ∈ r.notified, b ≠ sameFrame 0 := Run.exists_of_exec (by decide)
  exact ⟨_, r, hrun, b, hb, fun _ => hne⟩

/-- When the flush before each full read fell between two frames, the buffers passed to
    `ble_gatts_notify_custom` are frames that have arrived in whole, in their order and
    none of them twice. -/
theorem relay_keeps_order (frames : Nat → Buf SBUFLEN) {es : List Ev}
    (h : Run (step frames) FlushedBetween {} es r) :
    r.notified.Sublist (whole frames r.line.arrived) :=
  (ordered_of_run h).arrived

/-- A line whose frames begin with their number. -/
def numbered (j : Nat) : Buf SBUFLEN := (Buf.zero SBUFLEN).write 0 [BitVec.ofNat 8 j, 2, 3]

/-- The second frame and the fourth are read; the third arrives before the flush between
    them. -/
def everyOther : List Ev :=
  flushAfter 3 [1, 2, 3] ++ [.server .tau, .arrive, .arrive, .arrive, .server .tau, .server .tau,
    .server .tau, .arrive, .arrive, .arrive, .server (.readUart (some [3, 2, 3])), .server .tau,
    .server .tau, .server (.notify 0)]

theorem relay_keeps_order_everyOther :
    ∃ r, Run (step numbered) FlushedBetween {} everyOther r ∧
      r.notified = [numbered 1, numbered 3] ∧
      r.notified.Sublist (whole numbered r.line.arrived) := by
  obtain ⟨r, hrun, heq⟩ : ∃ r, Run (step numbered) FlushedBetween {} everyOther r ∧
      r.notified = [numbered 1, numbered 3] := Run.exists_of_exec (by decide)
  exact ⟨r, hrun, heq, relay_keeps_order numbered hrun⟩

end Relay
end Speedometer.Esp32
