/-
  Speedometer.Esp32.ServerLed

  The LED of the ESP32 server after a client has disconnected.

  `gap_event` switches the LED off on DISCONNECT; `app_main` colours it after a
  notification or an idle read, both decided by tests made earlier.
  `led_off_after_disconnect`: the LED stays off until the next SUBSCRIBE as long as
  `app_main` executes no `set_rgb` after the handler's own.
-/

import Speedometer.Esp32.Server
import Speedometer.Lib.Run

namespace Speedometer.Esp32

open Server Transition

/-- The server, and whether the last SUBSCRIBE or DISCONNECT event is a DISCONNECT. -/
structure ServerLed where
  srv : Server.State := {}
  disconnected : Bool := false
deriving DecidableEq

namespace ServerLed

/-- `disconnected` after a step. -/
def disconnectedAfter (disconnected : Bool) : Server.Ev → Bool
  | .gap .disconnect => true
  | .gap (.subscribe _) => false
  | _ => disconnected

def step (r : ServerLed) (e : Server.Ev) : Option ServerLed :=
  match Server.step r.srv e with
  | some srv => some { srv, disconnected := disconnectedAfter r.disconnected e }
  | none => none

/-- A DISCONNECT has been handled up to and including its `set_rgb`, and no SUBSCRIBE has
    followed. -/
def SwitchedOff (r : ServerLed) : Prop := r.disconnected = true ∧ r.srv.gap ≠ .ledOff

instance (r : ServerLed) : Decidable r.SwitchedOff :=
  inferInstanceAs (Decidable (r.disconnected = true ∧ r.srv.gap ≠ .ledOff))

/-- `app_main` executes none of its `set_rgb` once the LED has been switched off. -/
def LeavesOff (r : ServerLed) (e : Server.Ev) : Prop :=
  e = .tau ∧ r.srv.loc ∈ [.ledPkt, .ledConnected] → ¬r.SwitchedOff

instance (r : ServerLed) (e : Server.Ev) : Decidable (r.LeavesOff e) :=
  inferInstanceAs (Decidable
    (e = .tau ∧ r.srv.loc ∈ [.ledPkt, .ledConnected] → ¬r.SwitchedOff))

/-! ## Invariant -/

/-- What a DISCONNECT has done by the time its handler gets to the LED. -/
structure Handled (r : ServerLed) : Prop where
  /-- the handler of a SUBSCRIBE is not at work after a DISCONNECT -/
  handler : r.srv.gap = .ledConnected → r.disconnected = false
  active : r.disconnected = true → r.srv.active_conn_handle = NO_CONN_HANDLE

theorem start_handled : Handled {} :=
  ⟨fun hg => (by cases hg), fun hdisc => (by cases hdisc)⟩

theorem step_some {r r' : ServerLed} {e : Server.Ev} (hs : step r e = some r') :
    Effect r.srv e r'.srv ∧ r'.disconnected = disconnectedAfter r.disconnected e := by
  simp only [step] at hs
  split at hs
  · rename_i srv hsrv
    simp only [Option.some.injEq] at hs
    subst hs
    exact ⟨step_effect hsrv, rfl⟩
  · cases hs

/-- Every step keeps it, whatever `app_main` does about the LED. -/
theorem Handled.step {r r' : ServerLed} (h : Handled r) {e : Server.Ev}
    (hs : step r e = some r') : Handled r' := by
  obtain ⟨heff, hdisc⟩ := step_some hs
  have hgap := heff.gap
  have hactive := heff.active
  cases e with
  | gap event =>
      cases event with
      | disconnect => exact ⟨fun hg => (by cases hgap.symm.trans hg), fun _ => hactive⟩
      | subscribe _ => exact ⟨fun _ => hdisc, fun ht => (by cases hdisc.symm.trans ht)⟩
      | other =>
          exact ⟨fun hg => hdisc.trans (h.handler (hgap.symm.trans hg)),
            fun ht => hactive.trans (h.active (hdisc.symm.trans ht))⟩
  | gapLed =>
      exact ⟨fun hg => (by cases hgap.symm.trans hg),
        fun ht => hactive.trans (h.active (hdisc.symm.trans ht))⟩
  | tau | readUart _ | notify _ =>
      exact ⟨fun hg => hdisc.trans (h.handler (hgap.symm.trans hg)),
        fun ht => hactive.trans (h.active (hdisc.symm.trans ht))⟩

/-- After a DISCONNECT has switched the LED off, `gap_event` waits for the next event. -/
theorem Handled.idle {r : ServerLed} (h : Handled r) (hoff : r.SwitchedOff) :
    r.srv.gap = .idle := by
  cases hg : r.srv.gap with
  | idle => rfl
  | ledOff => exact absurd hg hoff.2
  | ledConnected =>
      have hno := h.handler hg
      rw [hoff.1] at hno
      cases hno

structure Inv (r : ServerLed) : Prop extends Handled r where
  off : r.SwitchedOff → r.srv.s_led = LED_HSV_OFF

theorem start_inv : Inv {} := ⟨start_handled, fun hoff => (by cases hoff.1)⟩

theorem Inv.step {r r' : ServerLed} (h : Inv r) {e : Server.Ev} (hkeep : r.LeavesOff e)
    (hs : step r e = some r') : Inv r' := by
  refine ⟨h.toHandled.step hs, fun hoff => ?_⟩
  obtain ⟨heff, hdisc⟩ := step_some hs
  have hgap := heff.gap
  have hled := heff.s_led
  have hoff₁ := hoff.1
  rw [hdisc] at hoff₁
  cases e with
  | gap event =>
      cases event with
      | disconnect =>
          -- the LED is still to be switched off
          exact absurd hgap hoff.2
      | subscribe _ => cases hoff₁
      | other =>
          rw [hled, if_neg (by simp), if_neg (by simp), if_neg (by simp)]
          exact h.off ⟨hoff₁, fun hg => hoff.2 (hgap.trans hg)⟩
  | gapLed =>
      rw [hled, if_pos rfl]
      cases hg : r.srv.gap with
      | ledOff => rfl
      | ledConnected =>
          -- the handler at work is that of the DISCONNECT
          have hno := h.handler hg
          cases hno.symm.trans hoff₁
      | idle => simp [ServerLed.step, Server.step, Server.gapLed, hg] at hs
  | tau =>
      have hoff' : r.SwitchedOff := ⟨hoff₁, fun hg => hoff.2 (hgap.trans hg)⟩
      have hloc : r.srv.loc ≠ .ledPkt ∧ r.srv.loc ≠ .ledConnected := by
        constructor
        · exact fun hl => hkeep ⟨rfl, by simp [hl]⟩ hoff'
        · exact fun hl => hkeep ⟨rfl, by simp [hl]⟩ hoff'
      rw [hled, if_neg (by simp), if_neg (by simp [hloc.1]), if_neg (by simp [hloc.2])]
      exact h.off hoff'
  | readUart _ | notify _ =>
      rw [hled, if_neg (by simp), if_neg (by simp), if_neg (by simp)]
      exact h.off ⟨hoff₁, fun hg => hoff.2 (hgap.trans hg)⟩

/-- As long as `app_main` does not colour the LED once a DISCONNECT handler has switched
    it off, it is off from then until the next SUBSCRIBE; in particular when `app_main` is
    back in its outer loop. -/
theorem led_off_after_disconnect {es : List Server.Ev} {r : ServerLed}
    (h : Run step LeavesOff {} es r) (hdisc : r.disconnected = true) (hgap : r.srv.gap = .idle) :
    r.srv.s_led = LED_HSV_OFF := by
  have hinv := h.invariant start_inv fun _ _ _ hi hk hs => hi.step hk hs
  exact hinv.off ⟨hdisc, by simp [hgap]⟩

/-- A step that colours the LED after the handler has switched it off. -/
theorem coloured_of_not_leavesOff {r r' : ServerLed} {e : Server.Ev} (hs : step r e = some r')
    (hno : ¬r.LeavesOff e) :
    r.SwitchedOff ∧ ∃ c, c ≠ LED_HSV_OFF ∧
      r' = { r with srv := { r.srv with s_led := c, loc := .flush } } := by
  simp only [LeavesOff, List.mem_cons, List.not_mem_nil, or_false, Classical.not_imp,
    not_not] at hno
  obtain ⟨⟨rfl, hloc⟩, hoff⟩ := hno
  refine ⟨hoff, ?_⟩
  rcases hloc with hl | hl
  · simp only [step, Server.step, stepTau, hl, Option.some.injEq] at hs
    exact ⟨LED_HSV_PKT, by decide, hs.symm⟩
  · simp only [step, Server.step, stepTau, hl, Option.some.injEq] at hs
    exact ⟨LED_HSV_CONNECTED, by decide, hs.symm⟩

/-- The condition is exact: after a step that does not meet it, `app_main` gets back to its
    outer loop in two more steps, and the LED is on. -/
theorem led_on_of_not_leavesOff {es : List Server.Ev} {r r' : ServerLed} {e : Server.Ev}
    (h : Run step Always {} es r) (hs : step r e = some r') (hno : ¬r.LeavesOff e) :
    ∃ t, Run step Always r' [.tau, .tau] t ∧ t.disconnected = true ∧ t.srv.gap = .idle ∧
      t.srv.loc = .flushOuter ∧ t.srv.s_led ≠ LED_HSV_OFF := by
  have hinv : Handled r := h.invariant start_handled fun _ _ _ hi _ hs => hi.step hs
  obtain ⟨hoff, c, hc, rfl⟩ := coloured_of_not_leavesOff hs hno
  have hactive := hinv.active hoff.1
  -- back at the test of the inner loop, which fails
  have hflush : step { r with srv := { r.srv with s_led := c, loc := .flush } } .tau =
      some { r with srv := { r.srv with s_led := c, loc := .whileConnected } } := rfl
  have hwhile : step { r with srv := { r.srv with s_led := c, loc := .whileConnected } } .tau =
      some { r with srv := { r.srv with s_led := c, loc := .flushOuter } } := by
    simp [step, Server.step, stepTau, hactive, disconnectedAfter]
  exact ⟨_, .snoc (.single trivial hflush) trivial hwhile, hoff.1, hinv.idle hoff, rfl, hc⟩

/-- A client subscribes and disconnects around an idle read; `before` and `after` are the
    steps of `app_main` before and after the handler. -/
def idleRun (before after : List Server.Ev) : List Server.Ev :=
  [.gap (.subscribe 1), .gapLed, .tau, .tau, .readUart (some []), .tau, .tau] ++ before ++
    [.gap .disconnect, .gapLed] ++ after ++ [.tau, .tau]

theorem led_off_after_disconnect_idle :
    ∃ r, Run step LeavesOff {} (idleRun [.tau] []) r ∧ r.srv.loc = .flushOuter ∧
      r.srv.s_led = LED_HSV_OFF := by
  obtain ⟨r, hrun, hdisc, hgap, hloc⟩ : ∃ r, Run step LeavesOff {} (idleRun [.tau] []) r ∧
      r.disconnected = true ∧ r.srv.gap = .idle ∧ r.srv.loc = .flushOuter :=
    Run.exists_of_exec (by decide)
  exact ⟨r, hrun, hloc, led_off_after_disconnect hrun hdisc hgap⟩

/-- When the client disconnects between the test of an idle read and its `set_rgb`, the
    LED is left on. -/
theorem led_on_after_disconnect :
    ∃ es r, Run step Always {} es r ∧ r.disconnected = true ∧ r.srv.gap = .idle ∧
      r.srv.loc = .flushOuter ∧ r.srv.s_led ≠ LED_HSV_OFF := by
  obtain ⟨r, hrun, h⟩ : ∃ r, Run step Always {} (idleRun [] [.tau]) r ∧
      r.disconnected = true ∧ r.srv.gap = .idle ∧ r.srv.loc = .flushOuter ∧
      r.srv.s_led ≠ LED_HSV_OFF := Run.exists_of_exec (by decide)
  exact ⟨_, r, hrun, h⟩

end ServerLed
end Speedometer.Esp32
