/-
  Speedometer.Esp32.Server

  The ESP32 server: the loop of `app_main`, which relays packets from the UART to
  the subscribed BLE client, and the part of `gap_event` it shares
  `active_conn_handle` and the LED with.

  The two run on different tasks, so a step is one access to what they share.
-/

import Speedometer.Setting
import Speedometer.Lib.Run

namespace Speedometer.Esp32.Server

open Cpp Transition

/-! ## Source -/

/-- `NO_CONN_HANDLE`. -/
def NO_CONN_HANDLE : BitVec 16 := 0xFFFF

/-- `RX_MSG_LEN`. -/
def RX_MSG_LEN : Nat := SBUFLEN

/-- The arguments of `set_rgb` that make a colour. -/
structure Hsv where
  hue : BitVec 16
  saturation : BitVec 8
  value : BitVec 8
deriving DecidableEq, Repr

def LED_HSV_OFF : Hsv := ⟨0, 0, 0⟩
def LED_HSV_PKT : Hsv := ⟨210, 255, 10⟩
def LED_HSV_CONNECTED : Hsv := ⟨120, 255, 10⟩

/-- The events `gap_event` does something about that `app_main` can observe, and all
    others.  It does not look at what a subscription enables. -/
inductive GapEvent
  | disconnect
  | subscribe (conn_handle : BitVec 16)
  | other
deriving DecidableEq, Repr

/-- The next thing `gap_event` does. -/
inductive GapLoc
  /-- nothing: it waits for the next event -/
  | idle
  /-- `set_rgb(s_led, LED_HSV_OFF)` of `BLE_GAP_EVENT_DISCONNECT` -/
  | ledOff
  /-- `set_rgb(s_led, LED_HSV_CONNECTED)` of `BLE_GAP_EVENT_SUBSCRIBE` -/
  | ledConnected
deriving DecidableEq, Repr

/-- The next thing the loop of `app_main` does. -/
inductive Loc
  /-- `while (active_conn_handle != NO_CONN_HANDLE)` -/
  | whileConnected
  /-- `bzero(buffer, SBUFLEN)` -/
  | bzero
  /-- `len = uart_read_bytes(UART, buffer, SBUFLEN, UART_TIMEOUT_MS)` -/
  | readUart
  /-- `if (len == RX_MSG_LEN)`, `else if (len > 0)`, `else if ((len == 0) && ...)` -/
  | ifLen
  /-- `txom = ble_hs_mbuf_from_flat(...)`, and the load of `active_conn_handle` -/
  | loadHandle
  /-- `ble_gatts_notify_custom(active_conn_handle, chrval_handle, txom)` -/
  | notify
  /-- `set_rgb(s_led, LED_HSV_PKT)` -/
  | ledPkt
  /-- `active_conn_handle != NO_CONN_HANDLE` of the third branch -/
  | ifConnected
  /-- `set_rgb(s_led, LED_HSV_CONNECTED)` -/
  | ledConnected
  /-- `uart_flush_input(UART)` in the inner loop -/
  | flush
  /-- `uart_flush_input(UART)` in the outer loop -/
  | flushOuter
  /-- `vTaskDelay(...)` -/
  | delay
deriving DecidableEq, Repr

/-- A step of either task, with what comes back from a call. -/
inductive Ev
  | gap (event : GapEvent)
  | gapLed
  | tau
  /-- `uart_read_bytes`: the bytes it stored, or `none` for `-1` -/
  | readUart (bs : Option (List (BitVec 8)))
  | notify (rc : Int)
deriving DecidableEq, Repr

/-- What the two tasks share, and the locals of `app_main`. -/
structure State where
  active_conn_handle : BitVec 16 := NO_CONN_HANDLE
  s_led : Hsv := LED_HSV_OFF
  gap : GapLoc := .idle
  loc : Loc := .whileConnected
  buffer : Buf SBUFLEN := Buf.zero SBUFLEN
  len : Int := 0
  handle : BitVec 16 := NO_CONN_HANDLE
deriving DecidableEq

/-- `gap_event`, up to its first access to the LED. -/
def gapEvent (s : State) : GapEvent → State
  | .disconnect => { s with active_conn_handle := NO_CONN_HANDLE, gap := .ledOff }
  | .subscribe conn_handle => { s with active_conn_handle := conn_handle, gap := .ledConnected }
  | .other => s

/-- The rest of `gap_event`. -/
def gapLed (s : State) : Option State :=
  match s.gap with
  | .ledOff => some { s with s_led := LED_HSV_OFF, gap := .idle }
  | .ledConnected => some { s with s_led := LED_HSV_CONNECTED, gap := .idle }
  | .idle => none

/-- A step of `app_main` whose outcome the program determines. -/
def stepTau (s : State) : Option State :=
  match s.loc with
  | .whileConnected =>
      some { s with loc := if s.active_conn_handle ≠ NO_CONN_HANDLE then .bzero else .flushOuter }
  | .bzero => some { s with buffer := Buf.zero SBUFLEN, loc := .readUart }
  | .ifLen =>
      some { s with
        loc :=
          if s.len = RX_MSG_LEN then .loadHandle
          else if 0 < s.len then .flush
          else if s.len = 0 then .ifConnected
          else .flush }
  | .loadHandle => some { s with handle := s.active_conn_handle, loc := .notify }
  | .ledPkt => some { s with s_led := LED_HSV_PKT, loc := .flush }
  | .ifConnected =>
      some { s with loc := if s.active_conn_handle ≠ NO_CONN_HANDLE then .ledConnected else .flush }
  | .ledConnected => some { s with s_led := LED_HSV_CONNECTED, loc := .flush }
  | .flush => some { s with loc := .whileConnected }
  | .flushOuter => some { s with loc := .delay }
  | .delay => some { s with loc := .whileConnected }
  | .readUart | .notify => none

/-- A step of either task. -/
def step (s : State) : Ev → Option State
  | .gap event => if s.gap = .idle then some (gapEvent s event) else none
  | .gapLed => gapLed s
  | .tau => stepTau s
  | .readUart (some bs) =>
      -- `uart_read_bytes` stores at most as many bytes as it was asked for
      if s.loc = .readUart ∧ bs.length ≤ SBUFLEN then
        some { s with buffer := s.buffer.write 0 bs, len := bs.length, loc := .ifLen }
      else none
  | .readUart none => if s.loc = .readUart then some { s with len := -1, loc := .ifLen } else none
  | .notify rc =>
      if s.loc = .notify then some { s with loc := if rc = 0 then .ledPkt else .flush } else none

/-! ## What a step can do -/

/-- `active_conn_handle` after a step. -/
def Ev.activeAfter : Ev → BitVec 16 → BitVec 16
  | .gap .disconnect, _ => NO_CONN_HANDLE
  | .gap (.subscribe conn_handle), _ => conn_handle
  | .gap .other, active | .gapLed, active | .tau, active | .readUart _, active
  | .notify _, active => active

/-- What `gap_event` does next after a step. -/
def Ev.gapAfter : Ev → GapLoc → GapLoc
  | .gap .disconnect, _ => .ledOff
  | .gap (.subscribe _), _ => .ledConnected
  | .gapLed, _ => .idle
  | .gap .other, loc | .tau, loc | .readUart _, loc | .notify _, loc => loc

/-- What a step does to what the two tasks share and to the handle `app_main` notifies. -/
structure Effect (s : State) (e : Ev) (s' : State) : Prop where
  active : s'.active_conn_handle = e.activeAfter s.active_conn_handle
  handle : s'.handle = if e = .tau ∧ s.loc = .loadHandle then s.active_conn_handle else s.handle
  to_notify : s'.loc = .notify → s.loc = .notify ∨ e = .tau ∧ s.loc = .loadHandle
  gap : s'.gap = e.gapAfter s.gap
  s_led : s'.s_led =
    if e = .gapLed then (if s.gap = .ledOff then LED_HSV_OFF else LED_HSV_CONNECTED)
    else if e = .tau ∧ s.loc = .ledPkt then LED_HSV_PKT
    else if e = .tau ∧ s.loc = .ledConnected then LED_HSV_CONNECTED
    else s.s_led

theorem step_effect {s s' : State} {e : Ev} (hs : step s e = some s') : Effect s e s' := by
  cases e with
  | gap event =>
      obtain ⟨-, rfl⟩ := of_guard hs
      cases event <;> refine ⟨?_, ?_, ?_, ?_, ?_⟩ <;> simp [gapEvent, Ev.activeAfter, Ev.gapAfter]
  | gapLed =>
      cases hg : s.gap <;> simp only [step, gapLed, hg, Option.some.injEq] at hs
      case idle => cases hs
      all_goals
        subst hs
        refine ⟨?_, ?_, ?_, ?_, ?_⟩ <;> simp [hg, Ev.activeAfter, Ev.gapAfter]
  | tau =>
      cases hl : s.loc <;> simp only [step, stepTau, hl, Option.some.injEq] at hs
      case readUart | notify => cases hs
      -- the steps that test something
      case whileConnected | ifConnected =>
          subst hs
          refine ⟨?_, ?_, ?_, ?_, ?_⟩ <;> simp [hl, Ev.activeAfter, Ev.gapAfter]
          split <;> simp
      case ifLen =>
          subst hs
          refine ⟨?_, ?_, ?_, ?_, ?_⟩ <;> simp [hl, Ev.activeAfter, Ev.gapAfter]
          split_ifs <;> simp
      all_goals
        subst hs
        refine ⟨?_, ?_, ?_, ?_, ?_⟩ <;> simp [hl, Ev.activeAfter, Ev.gapAfter]
  | readUart bs =>
      cases bs with
      | none =>
          obtain ⟨-, rfl⟩ := of_guard hs
          refine ⟨?_, ?_, ?_, ?_, ?_⟩ <;> simp [Ev.activeAfter, Ev.gapAfter]
      | some bs =>
          obtain ⟨-, rfl⟩ := of_guard hs
          refine ⟨?_, ?_, ?_, ?_, ?_⟩ <;> simp [Ev.activeAfter, Ev.gapAfter]
  | notify rc =>
      obtain ⟨-, rfl⟩ := of_guard hs
      by_cases hrc : rc = 0 <;> refine ⟨?_, ?_, ?_, ?_, ?_⟩ <;>
        simp [hrc, Ev.activeAfter, Ev.gapAfter]

end Speedometer.Esp32.Server
