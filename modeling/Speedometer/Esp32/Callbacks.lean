/-
  Speedometer.Esp32.Callbacks

  One rule for each callback of the ESP32 client: the outcomes a condition has to
  cover to hold after it, whatever the calls return.

  The LED and the timer only change `s_timer_state`, and may end in
  `error_led_print`; the rules ask for the condition under any such change, with
  any end.
-/

import Speedometer.Esp32.Host

namespace Speedometer.Esp32.Client

open Cpp Handler

variable {ok : Call → Int → Prop} {v : Vars} {h : Host}

/-! ## LED and timer -/

/-- A call into the LED driver or the timer. -/
def Quiet (c : Call) : Prop := ∀ rc h, effect c rc h = h

theorem wp_errorLedPrint {Q : Option Unit → Vars → Host → Prop}
    (hQ : ∀ t, Q none { v with s_timer_state := t } h) : wp effect ok errorLedPrint Q v h := by
  simp only [errorLedPrint, wp_bind, wp_call, andThen_some]
  intro active _
  refine wp_when (fun _ => ?_) (fun _ => ?_)
  · rw [wp_callVoid]
    intro _ _
    rw [andThen_some, wp_bind, wp_assign, andThen_some, wp_bind, wp_callVoid]
    exact fun _ _ => hQ _
  · rw [andThen_some, wp_bind, wp_assign, andThen_some, wp_bind, wp_callVoid]
    exact fun _ _ => hQ _

theorem wp_assertEq {Q : Option Unit → Vars → Host → Prop} {n : Int} {x : Call} (hx : Quiet x)
    (hok : Q (some ()) v h) (hhang : ∀ t, Q none { v with s_timer_state := t } h) :
    wp effect ok (assertEq n x) Q v h := by
  simp only [assertEq, wp_bind, wp_call, andThen_some]
  intro rc _
  rw [hx rc h]
  exact wp_when (fun _ => wp_errorLedPrint hhang) (fun _ => hok)

theorem wp_updateLed {Q : Option Unit → Vars → Host → Prop} {hue : BitVec 16}
    (hQ : ∀ o t, Q o { v with s_timer_state := t } h) : wp effect ok (updateLed hue) Q v h := by
  have hpixel : wp effect ok
      (do espErrorAssert (.ledStripSetPixelHsv hue 255 10); espErrorAssert .ledStripRefresh)
      Q v h := by
    rw [wp_bind]
    refine wp_assertEq (fun _ _ => rfl) ?_ (hQ none)
    exact wp_assertEq (fun _ _ => rfl) (hQ (some ()) v.s_timer_state) (hQ none)
  simp only [updateLed, wp_bind, wp_call, andThen_some]
  -- the timer is stopped first if it runs
  intro active _
  refine wp_when (fun _ => ?_) (fun _ => ?_)
  · refine wp_assertEq (fun _ _ => rfl) ?_ (hQ none)
    exact hpixel
  · exact hpixel

/-- The failure path of the set-up terminates the connection. -/
theorem wp_terminateErrLed {Q : Option Unit → Vars → Host → Prop} {conn_handle : BitVec 16}
    (hQ : ∀ o t, Q o { v with s_timer_state := t } (h.onConn conn_handle .terminate)) :
    wp effect ok (terminateErrLed conn_handle) Q v h := by
  simp only [terminateErrLed, wp_bind, wp_callVoid]
  exact fun _ _ => wp_updateLed hQ

/-- The argument `scan` starts the scan with. -/
def discParams : DiscParams := { passive := true, filter_duplicates := true }

theorem wp_scan {Q : Option Unit → Vars → Host → Prop}
    (hstart : ∀ t, Q (some ()) { v with s_timer_state := t } { h with scanning := true })
    (hfail : ∀ o t rc, ok (.bleGapDisc v.s_addr_type discParams) rc → rc ≠ 0 →
      Q o { v with s_timer_state := t } h)
    (hhang : ∀ t, Q none { v with s_timer_state := t } h) : wp effect ok scan Q v h := by
  -- from the start of the timer on
  have hdisc : ∀ t rc, ok (.bleGapDisc v.s_addr_type discParams) rc →
      wp effect ok (when (rc ≠ 0) errLed) Q { v with s_timer_state := t }
        (effect (.bleGapDisc v.s_addr_type discParams) rc h) := by
    intro t rc hrc
    refine wp_when (fun hne => ?_) (fun heq => ?_)
    · have hne : rc ≠ 0 := by simpa using hne
      simp only [effect, if_neg hne]
      exact wp_updateLed fun o t => hfail o t rc hrc hne
    · have heq : rc = 0 := by simpa using heq
      simp only [effect, if_pos heq]
      exact hstart t
  simp only [scan, wp_bind, wp_call, andThen_some]
  intro active _
  refine wp_when (fun _ => ?_) (fun _ => ?_)
  · refine wp_assertEq (fun _ _ => rfl) ?_ hhang
    simp only [andThen_some, wp_bind, wp_assign]
    exact wp_assertEq (fun _ _ => rfl) (hdisc _) (fun _ => hhang _)
  · simp only [andThen_some, wp_bind, wp_assign]
    exact wp_assertEq (fun _ _ => rfl) (hdisc _) (fun _ => hhang _)

/-- A step of the set-up: its call has been made, and the connection is terminated when
    it failed. -/
theorem wp_whenFailed {Q : Option Unit → Vars → Host → Prop} {conn_handle : BitVec 16} {rc : Int}
    (hok : rc = 0 → Q (some ()) v h)
    (hfail : rc ≠ 0 → ∀ o t, Q o { v with s_timer_state := t } (h.onConn conn_handle .terminate)) :
    wp effect ok (when (rc ≠ 0) (terminateErrLed conn_handle)) Q v h :=
  wp_when (fun hne => wp_terminateErrLed (hfail (by simpa using hne)))
    (fun heq => hok (by simpa using heq))

/-! ## GATT callbacks -/

variable {Q : Option Int → Vars → Host → Prop} {conn_handle error_status : BitVec 16}

theorem wp_onSubscription
    (hok : error_status = 0 → ∀ o t, Q o { v with s_timer_state := t } h)
    (hfail : error_status ≠ 0 → ∀ o t,
      Q o { v with s_timer_state := t } (h.onConn conn_handle .terminate)) :
    wp effect ok (onSubscription conn_handle error_status) Q v h := by
  rw [onSubscription]
  refine wp_ite (fun hst => ?_) (fun hst => ?_)
  · exact wp_return (wp_updateLed fun o t => hok hst _ t)
  · exact wp_return (wp_terminateErrLed fun o t => hfail hst _ t)

/-- The end of a discovery: an error terminates the connection. -/
theorem wp_ended (hdone : error_status = BLE_HS_EDONE → Q (some 0) v h)
    (herr : error_status ≠ BLE_HS_EDONE → ∀ o t,
      Q o { v with s_timer_state := t } (h.onConn conn_handle .terminate)) :
    wp effect ok
      (do when (error_status ≠ BLE_HS_EDONE) (terminateErrLed conn_handle); return 0) Q v h := by
  refine wp_return (wp_when (fun hne => ?_) (fun heq => ?_))
  · exact wp_terminateErrLed fun o t => herr (by simpa using hne) _ t
  · exact hdone (by simpa using heq)

theorem wp_onDescriptorDiscovery {dsc : Option GattDsc}
    (hwrite : ∀ d, reported error_status dsc = some d →
      Q (some 1) v (effect (.bleGattcWriteFlat conn_handle d.handle [1, 0]) 0 h))
    (hfail : ∀ d rc, reported error_status dsc = some d → rc ≠ 0 → ∀ o t,
      Q o { v with s_timer_state := t }
        ((effect (.bleGattcWriteFlat conn_handle d.handle [1, 0]) rc h).onConn conn_handle
          .terminate))
    (hother : ∀ d, reported error_status dsc = some d → Q (some 0) v h)
    (hdone : reported error_status dsc = none → error_status = BLE_HS_EDONE → Q (some 0) v h)
    (herr : reported error_status dsc = none → error_status ≠ BLE_HS_EDONE → ∀ o t,
      Q o { v with s_timer_state := t } (h.onConn conn_handle .terminate)) :
    wp effect ok (onDescriptorDiscovery conn_handle error_status dsc) Q v h := by
  rw [onDescriptorDiscovery]
  cases hd : reported error_status dsc with
  | none => exact wp_ended (hdone hd) (herr hd)
  | some d =>
      refine wp_ite (fun _ => ?_) (fun _ => hother d hd)
      rw [wp_bind, wp_call]
      intro rc _
      refine wp_ite (fun hrc => ?_) (fun hrc => ?_)
      · subst hrc
        exact hwrite d hd
      · exact wp_return (wp_terminateErrLed fun o t => hfail d rc hd hrc _ t)

theorem wp_tryStartDscDiscovery {Q : Option Unit → Vars → Host → Prop}
    (hwait : ¬(v.s_enc_done ∧ v.s_chr_found) → Q (some ()) v h)
    (hstart : v.s_enc_done ∧ v.s_chr_found → Q (some ()) v
      (effect (.bleGattcDiscAllDscs conn_handle v.s_chr_val_handle v.s_svc_end_handle) 0 h))
    (hfail : v.s_enc_done ∧ v.s_chr_found → ∀ rc, rc ≠ 0 → ∀ o t,
      Q o { v with s_timer_state := t }
        ((effect (.bleGattcDiscAllDscs conn_handle v.s_chr_val_handle v.s_svc_end_handle)
          rc h).onConn conn_handle .terminate)) :
    wp effect ok (tryStartDscDiscovery conn_handle) Q v h := by
  rw [tryStartDscDiscovery, wp_bind, wp_vars, andThen_some]
  refine wp_ite (fun hboth => ?_) hwait
  rw [wp_bind, wp_call]
  intro rc _
  refine wp_whenFailed (fun hrc => ?_) (hfail hboth rc)
  subst hrc
  exact hstart hboth

theorem wp_onCharacteristicDiscovery {chr : Option GattChr}
    (hfound : ∀ c, reported error_status chr = some c →
      wp effect ok (tryStartDscDiscovery conn_handle) (fun o => Q (o.map fun _ => 0))
        { v with s_chr_val_handle := c.val_handle, s_chr_found := true } h)
    (hdone : reported error_status chr = none → error_status = BLE_HS_EDONE → Q (some 0) v h)
    (herr : reported error_status chr = none → error_status ≠ BLE_HS_EDONE → ∀ o t,
      Q o { v with s_timer_state := t } (h.onConn conn_handle .terminate)) :
    wp effect ok (onCharacteristicDiscovery conn_handle error_status chr) Q v h := by
  rw [onCharacteristicDiscovery]
  cases hc : reported error_status chr with
  | none => exact wp_ended (hdone hc) (herr hc)
  | some c =>
      show wp effect ok (do assign _; (do tryStartDscDiscovery conn_handle; return 0)) Q v h
      rw [wp_bind, wp_assign, andThen_some]
      exact wp_return (hfound c hc)

theorem wp_onServiceDiscovery {service : Option GattSvc}
    (hstart : ∀ s, reported error_status service = some s →
      Q (some 0) { v with s_svc_end_handle := s.end_handle }
        (effect (.bleGattcDiscChrsByUuid conn_handle s.start_handle s.end_handle s_gatt_chr_uuid)
          0 h))
    (hfail : ∀ s, reported error_status service = some s → ∀ o t,
      Q o { v with s_svc_end_handle := s.end_handle, s_timer_state := t }
        (h.onConn conn_handle .terminate))
    (hdone : reported error_status service = none → error_status = BLE_HS_EDONE →
      Q (some 0) v h)
    (herr : reported error_status service = none → error_status ≠ BLE_HS_EDONE → ∀ o t,
      Q o { v with s_timer_state := t } (h.onConn conn_handle .terminate)) :
    wp effect ok (onServiceDiscovery conn_handle error_status service) Q v h := by
  rw [onServiceDiscovery]
  cases hs : reported error_status service with
  | none => exact wp_ended (hdone hs) (herr hs)
  | some s =>
      simp only [wp_bind, wp_assign, andThen_some, wp_call]
      intro rc _
      refine wp_whenFailed (fun hrc => ?_) (fun hrc o t => ?_)
      · subst hrc
        exact hstart s hs
      · have heff : effect (.bleGattcDiscChrsByUuid conn_handle s.start_handle s.end_handle
            s_gatt_chr_uuid) rc h = h := by simp only [effect, if_neg hrc]
        rw [heff]
        cases o with
        | none => exact hfail s hs none t
        | some u => exact hfail s hs (some 0) t

/-! ## GAP callbacks -/

section Gap

variable {Q : Option Unit → Vars → Host → Prop}

theorem wp_connectIfInteresting {disc : DiscDesc}
    (hidle : shouldConnect v disc = false → Q (some ()) v h)
    (hconnect : shouldConnect v disc = true →
      Q (some ()) v { h with scanning := false, connecting := true })
    (hfail : shouldConnect v disc = true → ∀ o t rc,
      ok (.bleGapConnect v.s_addr_type disc.addr 30000) rc → rc ≠ 0 →
      Q o { v with s_timer_state := t } { h with scanning := false })
    (hcancel : shouldConnect v disc = true → ∀ o t, Q o { v with s_timer_state := t } h) :
    wp effect ok (connectIfInteresting disc) Q v h := by
  rw [connectIfInteresting, wp_bind, wp_vars, andThen_some]
  refine wp_ite (fun hsc => ?_) (fun hsc => hidle (Bool.not_eq_true _ ▸ hsc))
  rw [wp_bind, wp_call]
  intro rc _
  refine wp_ite (fun hrc => ?_) (fun hrc => ?_)
  · subst hrc
    -- the scan is cancelled, whether the attempt starts or not
    rw [wp_bind, wp_call]
    intro rc hans
    refine wp_when (fun hne => ?_) (fun heq => ?_)
    · have hne : rc ≠ 0 := by simpa using hne
      simp only [effect, if_neg hne, if_true]
      exact wp_updateLed fun o t => hfail hsc o t rc hans hne
    · have heq : rc = 0 := by simpa using heq
      simp only [effect, if_pos heq, if_true]
      exact hconnect hsc
  · simp only [effect, if_neg hrc]
    exact wp_updateLed (hcancel hsc)

/-- A new connection: encryption and service discovery are started, or it is terminated. -/
theorem wp_gapConnect_established {peer_id_addr : BleAddr}
    (hstart : Q (some ())
      { v with s_peer_addr := { v.s_peer_addr with val := peer_id_addr.val } }
      ((h.onConn conn_handle fun c => { c with encrypting := true }).onConn conn_handle
        fun c => { c with svcs := c.svcs + 1 }))
    (hsvc : ∀ o t, Q o
      { v with s_peer_addr := { v.s_peer_addr with val := peer_id_addr.val }, s_timer_state := t }
      ((h.onConn conn_handle fun c => { c with encrypting := true }).onConn conn_handle .terminate))
    (hfail : ∀ o t, Q o { v with s_timer_state := t } (h.onConn conn_handle .terminate)) :
    wp effect ok (gapConnect 0 conn_handle peer_id_addr) Q v h := by
  rw [gapConnect, if_pos rfl, wp_bind, wp_call]
  intro rc _
  refine wp_ite (fun _ => wp_terminateErrLed hfail) (fun _ => ?_)
  rw [wp_bind, wp_call]
  intro rc _
  refine wp_ite (fun hrc => ?_) (fun hrc => ?_)
  · simp only [effect, if_neg hrc]
    exact wp_terminateErrLed hfail
  · have hrc : rc = 0 := not_not.mp hrc
    -- from here on the encryption is outstanding
    subst hrc
    simp only [wp_bind, wp_assign, andThen_some, wp_call]
    intro rc _
    refine wp_whenFailed (fun hrc => ?_) (fun hrc o t => ?_)
    · subst hrc
      exact hstart
    · simp only [effect, if_neg hrc]
      exact hsvc o t

/-- A failed connection attempt: the scan is resumed. -/
theorem wp_gapConnect_failed {status : Int} (hst : status ≠ 0) {peer_id_addr : BleAddr}
    (hscan : ∀ t, wp effect ok scan Q { v with s_timer_state := t } h)
    (hhang : ∀ t, Q none { v with s_timer_state := t } h) :
    wp effect ok (gapConnect status conn_handle peer_id_addr) Q v h := by
  rw [gapConnect, if_neg hst, wp_bind]
  refine wp_updateLed fun o t => ?_
  cases o with
  | none => exact hhang t
  | some u => exact hscan t

/-- The variables after `BLE_GAP_EVENT_DISCONNECT` has reset them. -/
def Vars.forget (v : Vars) : Vars :=
  { v with
    s_peer_addr := { v.s_peer_addr with val := Buf.zero 6 }
    s_chr_found := false
    s_enc_done := false }

theorem wp_gapDisconnect (hscan : wp effect ok scan Q v.forget h) :
    wp effect ok gapDisconnect Q v h := by
  rw [gapDisconnect, wp_bind, wp_assign, andThen_some]
  exact hscan

theorem wp_gapEncChange {status : Int}
    (hdone : status = 0 →
      wp effect ok (tryStartDscDiscovery conn_handle) Q { v with s_enc_done := true } h)
    (hfail : status ≠ 0 → ∀ o t, Q o { v with s_timer_state := t } h) :
    wp effect ok (gapEncChange status conn_handle) Q v h := by
  rw [gapEncChange]
  refine wp_ite (fun hst => ?_) (fun hst => wp_updateLed (hfail hst))
  rw [wp_bind, wp_assign, andThen_some]
  exact hdone hst

theorem wp_gapNotifyRx {om : List (BitVec 8)} (hQ : ∀ o t, Q o { v with s_timer_state := t } h) :
    wp effect ok (gapNotifyRx om) Q v h := by
  rw [gapNotifyRx]
  refine wp_ite (fun _ => ?_) (fun _ => wp_updateLed hQ)
  rw [wp_bind]
  refine wp_assertEq (fun _ _ => rfl) ?_ (hQ none)
  exact wp_assertEq (fun _ _ => rfl) (hQ (some ()) v.s_timer_state) (hQ none)

/-- `on_sync` ends in a scan, with the address type it has found out. -/
theorem wp_onSync {addr_type : BitVec 8}
    (hscan : wp effect ok scan Q { v with s_addr_type := addr_type } h)
    (hhang : ∀ t a, Q none { v with s_addr_type := a, s_timer_state := t } h) :
    wp effect ok (onSync addr_type) Q v h := by
  have hstop : ∀ t, Q none { v with s_timer_state := t } h := fun t => hhang t v.s_addr_type
  simp only [onSync, wp_bind]
  refine wp_assertEq (fun _ _ => rfl) ?_ hstop
  rw [andThen_some, wp_bind]
  refine wp_assertEq (fun _ _ => rfl) ?_ hstop
  rw [andThen_some, wp_bind]
  refine wp_assertEq (fun _ _ => rfl) ?_ hstop
  rw [andThen_some, wp_bind, wp_assign, andThen_some, wp_bind]
  exact wp_assertEq (fun _ _ => rfl) hscan fun t => hhang t addr_type

end Gap

theorem wp_gapRepeatPairing {peer_id_addr : BleAddr}
    (hQ : ∀ o t, Q o { v with s_timer_state := t } h) :
    wp effect ok (gapRepeatPairing conn_handle peer_id_addr) Q v h := by
  rw [gapRepeatPairing, wp_bind, wp_call]
  intro rc _
  refine wp_ite (fun _ => ?_) (fun _ => hQ (some _) v.s_timer_state)
  refine wp_return (wp_assertEq (fun _ _ => rfl) ?_ fun t => hQ none t)
  exact hQ (some _) v.s_timer_state

end Speedometer.Esp32.Client
