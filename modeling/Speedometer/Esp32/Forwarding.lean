/-
  Speedometer.Esp32.Forwarding

  What the ESP32 client passes to `uart_write_bytes`: the notifications of `SBUFLEN`
  bytes it receives, and nothing else.

  `Forwarder` puts the callbacks on top of the line they write to.  Only `gap_event`
  calls `uart_write_bytes`, once for each notification of a frame's length.  When a
  write is short the callback never returns, so that the cut frame is the last one
  written.  The UART is the console as well: what is logged, in `error_led_print` once a
  second, goes on the same line between what is written.
-/

import Speedometer.Esp32.SetUp

namespace Speedometer.Esp32.Client

open Cpp Handler Transition

/-! ## Calls of `uart_write_bytes` -/

/-- The bytes that calls pass to the UART: `uart_write_bytes` returns how many it took. -/
def uartBytes (calls : List (Call × Int)) : List (BitVec 8) :=
  calls.flatMap fun
    | (.uartWriteBytes src, rc) => src.take rc.toNat
    | _ => []

def Call.isUartWrite : Call → Bool
  | .uartWriteBytes _ => true
  | _ => false

/-- The call is none of `uart_write_bytes`. -/
def Mute (c : Call) : Prop := c.isUartWrite = false

theorem uartBytes_mute {calls : List (Call × Int)} (h : ∀ c ∈ calls, Mute c.1) :
    uartBytes calls = [] := by
  apply List.flatMap_eq_nil_iff.mpr
  rintro ⟨c, rc⟩ hc
  have hmute := h (c, rc) hc
  cases c with
  | uartWriteBytes src => cases hmute
  | _ => rfl

/-! ## Callbacks that do not write -/

theorem mute_errorLedPrint : AllCalls Mute errorLedPrint := by
  unfold errorLedPrint
  refine AllCalls.bind (allCalls_call rfl) fun active => ?_
  refine AllCalls.bind (AllCalls.when (allCalls_callVoid rfl)) fun _ => ?_
  refine AllCalls.bind (allCalls_assign _) fun _ => ?_
  exact AllCalls.bind (allCalls_callVoid rfl) fun _ => trivial

theorem mute_assertEq (expected : Int) {expr : Call} (h : Mute expr) :
    AllCalls Mute (assertEq expected expr) :=
  (allCalls_call h).bind fun _ => mute_errorLedPrint.when

theorem mute_updateLed (hue : BitVec 16) : AllCalls Mute (updateLed hue) := by
  unfold updateLed
  refine AllCalls.bind (allCalls_call rfl) fun active => ?_
  refine AllCalls.bind (AllCalls.when (mute_assertEq 0 rfl)) fun _ => ?_
  exact AllCalls.bind (mute_assertEq 0 rfl) fun _ => mute_assertEq 0 rfl

theorem mute_terminateErrLed (conn_handle : BitVec 16) :
    AllCalls Mute (terminateErrLed conn_handle) := by
  unfold terminateErrLed
  exact AllCalls.bind (allCalls_callVoid rfl) fun _ => mute_updateLed 0

theorem mute_scan : AllCalls Mute scan := by
  unfold scan
  refine AllCalls.bind (allCalls_call rfl) fun active => ?_
  refine AllCalls.bind (AllCalls.when (mute_assertEq 0 rfl)) fun _ => ?_
  refine AllCalls.bind (allCalls_assign _) fun _ => ?_
  refine AllCalls.bind (mute_assertEq 0 rfl) fun _ => ?_
  refine AllCalls.bind allCalls_vars fun v => ?_
  exact AllCalls.bind (allCalls_call rfl) fun status => (mute_updateLed 0).when

/-- The end of a discovery. -/
theorem mute_ended (conn_handle error_status : BitVec 16) :
    AllCalls Mute
      (do when (error_status ≠ BLE_HS_EDONE) (terminateErrLed conn_handle); return (0 : Int)) :=
  (mute_terminateErrLed conn_handle).when.bind fun _ => trivial

theorem mute_onSubscription (conn_handle error_status : BitVec 16) :
    AllCalls Mute (onSubscription conn_handle error_status) := by
  unfold onSubscription
  exact AllCalls.ite (AllCalls.bind (mute_updateLed 120) fun _ => trivial)
    (AllCalls.bind (mute_terminateErrLed conn_handle) fun _ => trivial)

theorem mute_onDescriptorDiscovery (conn_handle error_status : BitVec 16) (dsc : Option GattDsc) :
    AllCalls Mute (onDescriptorDiscovery conn_handle error_status dsc) := by
  unfold onDescriptorDiscovery
  cases reported error_status dsc with
  | none => exact mute_ended conn_handle error_status
  | some dsc =>
      refine AllCalls.ite (AllCalls.bind (allCalls_call rfl) fun rc => ?_) trivial
      exact AllCalls.ite trivial ((mute_terminateErrLed conn_handle).bind fun _ => trivial)

theorem mute_tryStartDscDiscovery (conn_handle : BitVec 16) :
    AllCalls Mute (tryStartDscDiscovery conn_handle) := by
  unfold tryStartDscDiscovery
  refine AllCalls.bind allCalls_vars fun v => AllCalls.ite ?_ trivial
  exact AllCalls.bind (allCalls_call rfl) fun rc => (mute_terminateErrLed conn_handle).when

theorem mute_onCharacteristicDiscovery (conn_handle error_status : BitVec 16)
    (chr : Option GattChr) :
    AllCalls Mute (onCharacteristicDiscovery conn_handle error_status chr) := by
  unfold onCharacteristicDiscovery
  cases reported error_status chr with
  | none => exact mute_ended conn_handle error_status
  | some chr =>
      refine AllCalls.bind (allCalls_assign _) fun _ => ?_
      exact (mute_tryStartDscDiscovery conn_handle).bind fun _ => trivial

theorem mute_onServiceDiscovery (conn_handle error_status : BitVec 16)
    (service : Option GattSvc) :
    AllCalls Mute (onServiceDiscovery conn_handle error_status service) := by
  unfold onServiceDiscovery
  cases reported error_status service with
  | none => exact mute_ended conn_handle error_status
  | some service =>
      refine AllCalls.bind (allCalls_assign _) fun _ => ?_
      refine AllCalls.bind (allCalls_call rfl) fun rc => ?_
      exact AllCalls.bind (mute_terminateErrLed conn_handle).when fun _ => trivial

theorem mute_onSync (addr_type : BitVec 8) : AllCalls Mute (onSync addr_type) := by
  unfold onSync
  refine AllCalls.bind (mute_assertEq 0 rfl) fun _ => ?_
  refine AllCalls.bind (mute_assertEq 0 rfl) fun _ => ?_
  refine AllCalls.bind (mute_assertEq 0 rfl) fun _ => ?_
  refine AllCalls.bind (allCalls_assign _) fun _ => ?_
  exact AllCalls.bind (mute_assertEq 0 rfl) fun _ => mute_scan

theorem mute_connectIfInteresting (disc : DiscDesc) :
    AllCalls Mute (connectIfInteresting disc) := by
  unfold connectIfInteresting
  refine AllCalls.bind allCalls_vars fun v => AllCalls.ite ?_ trivial
  refine AllCalls.bind (allCalls_call rfl) fun status => AllCalls.ite ?_ (mute_updateLed 0)
  exact AllCalls.bind (allCalls_call rfl) fun status => (mute_updateLed 0).when

theorem mute_gapConnect (status : Int) (conn_handle : BitVec 16) (peer_id_addr : BleAddr) :
    AllCalls Mute (gapConnect status conn_handle peer_id_addr) := by
  have hfailed := mute_terminateErrLed conn_handle
  unfold gapConnect
  refine AllCalls.ite ?_ ((mute_updateLed 0).bind fun _ => mute_scan)
  refine AllCalls.bind (allCalls_call rfl) fun rc => hfailed.ite ?_
  refine AllCalls.bind (allCalls_call rfl) fun rc => hfailed.ite ?_
  refine AllCalls.bind (allCalls_assign _) fun _ => ?_
  exact AllCalls.bind (allCalls_call rfl) fun rc => hfailed.when

theorem mute_gapDisconnect : AllCalls Mute gapDisconnect :=
  (allCalls_assign _).bind fun _ => mute_scan

theorem mute_gapEncChange (status : Int) (conn_handle : BitVec 16) :
    AllCalls Mute (gapEncChange status conn_handle) :=
  AllCalls.ite ((allCalls_assign _).bind fun _ => mute_tryStartDscDiscovery conn_handle)
    (mute_updateLed 0)

theorem mute_gapRepeatPairing (conn_handle : BitVec 16) (peer_id_addr : BleAddr) :
    AllCalls Mute (gapRepeatPairing conn_handle peer_id_addr) := by
  unfold gapRepeatPairing
  refine AllCalls.bind (allCalls_call rfl) fun rc => AllCalls.ite ?_ trivial
  exact AllCalls.bind (mute_assertEq 0 rfl) fun _ => trivial

/-! ## One callback -/

/-- The bytes an event delivers for the UART. -/
def Event.frame : Event → List (BitVec 8)
  | .gap (.notifyRx om) => if om.length = SBUFLEN then om else []
  | _ => []

def Event.isNotifyRx : Event → Bool
  | .gap (.notifyRx _) => true
  | _ => false

theorem Event.frame_eq_nil {event : Event} (h : event.isNotifyRx = false) : event.frame = [] := by
  unfold Event.frame
  split
  · cases h
  · rfl

/-- Without such bytes the callback writes nothing. -/
theorem mute_callback {event : Event} (h : event.frame = []) : AllCalls Mute event.callback := by
  cases event with
  | sync addr_type => exact (mute_onSync addr_type).bind fun _ => trivial
  | service => exact mute_onServiceDiscovery ..
  | characteristic => exact mute_onCharacteristicDiscovery ..
  | descriptor => exact mute_onDescriptorDiscovery ..
  | subscription => exact mute_onSubscription ..
  | gap event =>
      cases event with
      | disc => exact (mute_connectIfInteresting _).bind fun _ => trivial
      | connect => exact (mute_gapConnect ..).bind fun _ => trivial
      | disconnect => exact mute_gapDisconnect.bind fun _ => trivial
      | encChange => exact (mute_gapEncChange ..).bind fun _ => trivial
      | repeatPairing => exact mute_gapRepeatPairing ..
      | other => trivial
      | notifyRx om =>
          -- a packet of another length is only reported
          have hlen : om.length ≠ SBUFLEN := by
            intro hlen
            rw [Event.frame, if_pos hlen] at h
            rw [h] at hlen
            cases hlen
          have hmute : AllCalls Mute (gapNotifyRx om) := by
            rw [gapNotifyRx, if_neg hlen]
            exact mute_updateLed 0
          exact hmute.bind fun _ => trivial

/-- `error_led_print` logs, but does not call `uart_write_bytes`, and never returns. -/
theorem wp_errorLedPrint_calls {Q : Option Unit → Vars → List (Call × Int) → Prop} {v : Vars}
    {calls : List (Call × Int)}
    (hQ : ∀ v calls', uartBytes calls' = uartBytes calls → Q none v calls') :
    wp recordCall (fun _ _ => True) errorLedPrint Q v calls := by
  simp only [errorLedPrint, wp_bind, wp_call, andThen_some]
  intro active _
  refine wp_when (fun _ => ?_) (fun _ => ?_)
  · rw [wp_callVoid]
    intro _ _
    rw [andThen_some, wp_bind, wp_assign, andThen_some, wp_bind, wp_callVoid]
    intro _ _
    exact hQ _ _ (by simp [recordCall, uartBytes])
  · rw [andThen_some, wp_bind, wp_assign, andThen_some, wp_bind, wp_callVoid]
    intro _ _
    exact hQ _ _ (by simp [recordCall, uartBytes])

/-- A notification of a frame's length is written once.  A write that is not whole ends
    in `error_led_print`. -/
theorem wp_gapNotifyRx_calls {om : List (BitVec 8)} (hlen : om.length = SBUFLEN) (v : Vars) :
    wp recordCall (fun _ _ => True) (gapNotifyRx om)
      (fun o _ calls => uartBytes calls <+: om ∧ (o.isSome → uartBytes calls = om)) v [] := by
  rw [gapNotifyRx, if_pos hlen, wp_bind, assertEq, wp_bind, wp_call]
  intro rc _
  refine wp_when (fun _ => wp_errorLedPrint_calls ?_) (fun _ => ?_)
  · -- nothing has been written yet
    intro v calls hcalls
    have hnone : uartBytes calls = [] := hcalls
    exact ⟨hnone ▸ List.nil_prefix, fun hsome => by cases hsome⟩
  · rw [andThen_some, assertEq, wp_bind, wp_call]
    intro rc' _
    have hwritten : uartBytes (recordCall (.uartWriteBytes om) rc'
        (recordCall .osMbufCopydata rc [])) = om.take rc'.toNat := by
      simp [recordCall, uartBytes]
    refine wp_when (fun _ => wp_errorLedPrint_calls ?_) (fun hrc => ?_)
    · intro v calls hcalls
      exact ⟨hcalls.trans hwritten ▸ List.take_prefix _ _, fun hsome => by cases hsome⟩
    · have hrc : rc' = SBUFLEN := by simpa using hrc
      rw [hwritten, hrc, List.take_of_length_le (by simp [hlen])]
      exact ⟨List.prefix_rfl, fun _ => rfl⟩

/-- What a callback writes: all of the event's frame if it returns. -/
theorem uartBytes_outcome {s : State} {e : Ev} {o : Outcome Vars Call Host Int}
    (ho : outcome s e = some o) :
    uartBytes o.calls <+: e.event.frame ∧
      (o.val.isSome → uartBytes o.calls = e.event.frame) := by
  obtain ⟨host, hexec⟩ : ∃ host, exec effect e.event.callback e.rcs s.vars host = some o := by
    simp only [outcome] at ho
    split at ho
    · cases ho
    · split at ho
      · exact ⟨_, ho⟩
      · cases ho
  by_cases hnone : e.event.frame = []
  · have hmute := uartBytes_mute ((mute_callback hnone).of_exec hexec)
    rw [hmute, hnone]
    exact ⟨List.prefix_rfl, fun _ => rfl⟩
  · obtain ⟨om, hevent, hlen⟩ : ∃ om, e.event = .gap (.notifyRx om) ∧ om.length = SBUFLEN := by
      unfold Event.frame at hnone
      split at hnone
      · rename_i om hevent
        exact ⟨om, hevent, by_contra fun hlen => hnone (if_neg hlen)⟩
      · exact absurd rfl hnone
    rw [hevent] at hexec
    have hwp : wp recordCall (fun _ _ => True) (Event.gap (.notifyRx om)).callback
        (fun o _ calls => uartBytes calls <+: om ∧ (o.isSome → uartBytes calls = om))
        s.vars [] := by
      show wp recordCall (fun _ _ => True) (gapNotifyRx om >>= fun _ => pure 0) _ s.vars []
      rw [wp_bind]
      refine wp_mono ?_ (wp_gapNotifyRx_calls hlen s.vars)
      intro o v calls h
      cases o <;> exact h
    have h := wp_calls hwp hexec fun _ _ => trivial
    rwa [hevent, Event.frame, if_pos hlen]

/-! ## Runs -/

/-- The client and its UART, which is the console as well. -/
structure Forwarder where
  client : State := {}
  /-- the bytes `uart_write_bytes` has taken -/
  written : List (BitVec 8) := []
  /-- the bytes on the line: those, and those of the texts logged -/
  uart : List (BitVec 8) := []
deriving DecidableEq

namespace Forwarder

/-- A callback, with what it writes. -/
def callback (f : Forwarder) (e : Client.Ev) : Option Forwarder :=
  match outcome f.client e with
  | some o =>
      some {
        client := State.after e.event o.val o.vars o.world
        written := f.written ++ uartBytes o.calls
        uart := f.uart ++ uartBytes o.calls }
  | none => none

/-- A text is logged. -/
def log (f : Forwarder) (text : List (BitVec 8)) : Forwarder := { f with uart := f.uart ++ text }

/-- What can happen next.  A text logged while a callback runs, by it or another task, comes
    before or after what the callback writes. -/
inductive Ev
  | callback (e : Client.Ev)
  | log (text : List (BitVec 8))
deriving DecidableEq

def step (f : Forwarder) : Ev → Option Forwarder
  | .callback e => f.callback e
  | .log text => some (f.log text)

variable {f f' : Forwarder}

/-- A callback runs only when the one before has returned.  All of the event's frame is
    written if it returns as well. -/
theorem callback_writes {e : Client.Ev} (hs : f.callback e = some f') :
    f.client.hung = false ∧ ∃ bs, f'.written = f.written ++ bs ∧ f'.uart = f.uart ++ bs ∧
      bs <+: e.event.frame ∧ (f'.client.hung = false → bs = e.event.frame) := by
  simp only [callback] at hs
  split at hs
  · rename_i o ho
    simp only [Option.some.injEq] at hs
    subst hs
    obtain ⟨hcut, hwhole⟩ := uartBytes_outcome ho
    refine ⟨?_, uartBytes o.calls, rfl, rfl, hcut, ?_⟩
    · by_contra hhung
      simp [outcome, hhung] at ho
    · intro hhung
      apply hwhole
      cases hval : o.val with
      | none =>
          rw [hval] at hhung
          cases hhung
      | some ret => rfl
  · cases hs

end Forwarder
end Speedometer.Esp32.Client
