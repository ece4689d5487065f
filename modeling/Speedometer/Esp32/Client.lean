/-
  Speedometer.Esp32.Client

  The ESP32 client: its GAP and GATT callbacks, the variables they share, and the
  NimBLE host that calls them.

  A callback is a `Handler.Prog`: what it does between two calls into NimBLE, the
  LED driver or the timer is in the tree, and every return code of those calls is
  left open.  `Host` is what the host has under way for this client.  `step` runs
  one callback from its start to its return, on the host's only task.
-/

import Speedometer.Lib.Handler
import Speedometer.Lib.Run
import Speedometer.Setting

namespace Speedometer.Esp32.Client

open Cpp Handler Transition

/-! ## Data -/

/-- `ble_addr_t`. -/
structure BleAddr where
  type : BitVec 8
  val : Buf 6
deriving DecidableEq

/-- `ble_uuid_t`, `ble_uuid_any_t`. -/
inductive BleUuid
  | uuid16 (value : BitVec 16)
  | uuid32 (value : BitVec 32)
  | uuid128 (value : Buf 16)
deriving DecidableEq

/-- `SERVER_ADDR`. -/
def s_server_addr : Buf 6 := (Buf.zero 6).write 0 [0x13, 0x37, 0x03, 0x04, 0x05, 0xC0]

/-- `CLIENT_ADDR`. -/
def s_client_addr : Buf 6 := (Buf.zero 6).write 0 [0x13, 0x37, 0x30, 0x40, 0x50, 0xC0]

/-- `GATT_UUID(idx)`. -/
def GATT_UUID (idx : BitVec 16) : Buf 16 :=
  (Buf.zero 16).write 0
    [0x7A, 0xA2, 0xC4, 0x38, 0x93, 0x9E, 0xF6, 0xB2, 0x2D, 0x44, 0xBF, 0x0F,
     (idx &&& 0xFF).setWidth 8, ((idx >>> 8) &&& 0xFF).setWidth 8, 0x93, 0xCB]

def s_gatt_svc_uuid : BleUuid := .uuid128 (GATT_UUID 0x0000)
def s_gatt_chr_uuid : BleUuid := .uuid128 (GATT_UUID 0x0001)

/-- `BLE_GATT_DSC_CLT_CFG_UUID16`. -/
def BLE_GATT_DSC_CLT_CFG_UUID16 : BitVec 16 := 0x2902

/-- `BLE_HS_EDONE`: the last report of a GATT procedure. -/
def BLE_HS_EDONE : BitVec 16 := 14

/-- `BLE_ERR_CONN_TERM_LOCAL`. -/
def BLE_ERR_CONN_TERM_LOCAL : BitVec 8 := 0x16

def BLE_HCI_ADV_RPT_EVTYPE_ADV_IND : BitVec 8 := 0
def BLE_HCI_ADV_RPT_EVTYPE_DIR_IND : BitVec 8 := 1

def BLE_GAP_REPEAT_PAIRING_RETRY : Int := 1
def BLE_GAP_REPEAT_PAIRING_IGNORE : Int := 2

/-- `struct ble_gap_disc_desc`, with what `ble_hs_adv_parse_fields` makes of its data: the
    128-bit UUIDs, or `none` when it does not parse. -/
structure DiscDesc where
  event_type : BitVec 8
  addr : BleAddr
  uuids128 : Option (List (Buf 16))
deriving DecidableEq

/-- `struct ble_gatt_svc`. -/
structure GattSvc where
  start_handle : BitVec 16
  end_handle : BitVec 16
deriving DecidableEq

/-- `struct ble_gatt_chr`. -/
structure GattChr where
  val_handle : BitVec 16
deriving DecidableEq

/-- `struct ble_gatt_dsc`. -/
structure GattDsc where
  handle : BitVec 16
  uuid : BleUuid
deriving DecidableEq

/-- `struct ble_gap_disc_params`, as far as it is set. -/
structure DiscParams where
  passive : Bool
  filter_duplicates : Bool
deriving DecidableEq

/-- The calls that leave the program, with their arguments. -/
inductive Call
  | bleHsIdSetRnd (rnd_addr : Buf 6)
  | bleHsUtilEnsureAddr (prefer_random : Int)
  | bleHsIdInferAuto (privacy : Int)
  | bleHsIdCopyAddr (id_addr_type : BitVec 8)
  | bleGapDisc (own_addr_type : BitVec 8) (disc_params : DiscParams)
  | bleGapDiscCancel
  | bleGapConnect (own_addr_type : BitVec 8) (peer_addr : BleAddr) (duration_ms : Nat)
  | bleGapConnFind (handle : BitVec 16)
  | bleGapTerminate (conn_handle : BitVec 16) (hci_reason : BitVec 8)
  | bleGapSecurityInitiate (conn_handle : BitVec 16)
  | bleGattcDiscSvcByUuid (conn_handle : BitVec 16) (uuid : BleUuid)
  | bleGattcDiscChrsByUuid (conn_handle start_handle end_handle : BitVec 16) (uuid : BleUuid)
  | bleGattcDiscAllDscs (conn_handle start_handle end_handle : BitVec 16)
  | bleGattcWriteFlat (conn_handle attr_handle : BitVec 16) (data : List (BitVec 8))
  | bleStoreUtilDeletePeer (peer_id_addr : BleAddr)
  | osMbufCopydata
  | uartWriteBytes (src : List (BitVec 8))
  | espTimerIsActive
  | espTimerStop
  | espTimerStartPeriodic (period : Nat)
  | ledStripSetPixelHsv (hue : BitVec 16) (saturation value : BitVec 8)
  | ledStripRefresh
deriving DecidableEq

/-- `s_timer_state`, apart from the handle. -/
structure TimerState where
  hue : BitVec 16 := 0
  state : Bool := false
deriving DecidableEq

/-- The variables of `main.c` that the callbacks use. -/
structure Vars where
  s_addr_type : BitVec 8 := 0
  s_peer_addr : BleAddr := ⟨0, Buf.zero 6⟩
  s_svc_end_handle : BitVec 16 := 0
  s_chr_val_handle : BitVec 16 := 0
  s_enc_done : Bool := false
  s_chr_found : Bool := false
  s_timer_state : TimerState := {}
deriving DecidableEq

/-! ## Source -/

/-- A piece of a callback. -/
abbrev Callback := Prog Vars Call

/-- `error_led_print`, which never returns. -/
def errorLedPrint : Callback Unit := do
  let active ← call .espTimerIsActive
  when (active ≠ 0) (callVoid .espTimerStop)
  assign fun v => { v with s_timer_state := { hue := 0, state := false } }
  callVoid (.espTimerStartPeriodic (500 * 1000))
  -- the loop only logs, once a second
  .hang

/-- `ASSERT_EQ(expected, expr)`. -/
def assertEq (expected : Int) (expr : Call) : Callback Unit := do
  let rc ← call expr
  when (rc ≠ expected) errorLedPrint

/-- `ESP_ERROR_ASSERT(x)`: `ESP_OK` is 0. -/
def espErrorAssert (x : Call) : Callback Unit := assertEq 0 x

/-- `UPDATE_LED(hue)`. -/
def updateLed (hue : BitVec 16) : Callback Unit := do
  let active ← call .espTimerIsActive
  when (active ≠ 0) (espErrorAssert .espTimerStop)
  espErrorAssert (.ledStripSetPixelHsv hue 255 10)
  espErrorAssert .ledStripRefresh

/-- `ERR_LED()`. -/
def errLed : Callback Unit := updateLed 0

/-- What the callbacks do when a step of the set-up fails. -/
def terminateErrLed (conn_handle : BitVec 16) : Callback Unit := do
  callVoid (.bleGapTerminate conn_handle BLE_ERR_CONN_TERM_LOCAL)
  errLed

def scan : Callback Unit := do
  let active ← call .espTimerIsActive
  when (active ≠ 0) (espErrorAssert .espTimerStop)
  assign fun v => { v with s_timer_state := { hue := 210, state := false } }
  espErrorAssert (.espTimerStartPeriodic (500 * 1000))
  let v ← vars
  let status ← call (.bleGapDisc v.s_addr_type { passive := true, filter_duplicates := true })
  when (status ≠ 0) errLed

/-- `(error->status == 0) && (x != NULL)`, and then what `x` points to. -/
def reported {α : Type} (error_status : BitVec 16) (x : Option α) : Option α :=
  if error_status = 0 then x else none

theorem status_of_reported {α : Type} {error_status : BitVec 16} {x : Option α} {a : α}
    (h : reported error_status x = some a) : error_status = 0 := by
  by_contra hne
  rw [reported, if_neg hne] at h
  cases h

def onSubscription (conn_handle : BitVec 16) (error_status : BitVec 16) : Callback Int := do
  if error_status = 0 then updateLed 120 else terminateErrLed conn_handle
  return error_status.toNat

def onDescriptorDiscovery (conn_handle : BitVec 16) (error_status : BitVec 16)
    (dsc : Option GattDsc) : Callback Int :=
  match reported error_status dsc with
  | some dsc =>
      if dsc.uuid = .uuid16 BLE_GATT_DSC_CLT_CFG_UUID16 then do
        let rc ← call (.bleGattcWriteFlat conn_handle dsc.handle [1, 0])
        if rc = 0 then
          -- the discovery is given up once the CCCD is being written
          return 1
        else
          terminateErrLed conn_handle
          return 0
      else return 0
  | none => do
      when (error_status ≠ BLE_HS_EDONE) (terminateErrLed conn_handle)
      return 0

def tryStartDscDiscovery (conn_handle : BitVec 16) : Callback Unit := do
  let v ← vars
  if v.s_enc_done ∧ v.s_chr_found then
    let rc ← call (.bleGattcDiscAllDscs conn_handle v.s_chr_val_handle v.s_svc_end_handle)
    when (rc ≠ 0) (terminateErrLed conn_handle)
  else return ()

def onCharacteristicDiscovery (conn_handle : BitVec 16) (error_status : BitVec 16)
    (chr : Option GattChr) : Callback Int :=
  match reported error_status chr with
  | some chr => do
      assign fun v => { v with s_chr_val_handle := chr.val_handle, s_chr_found := true }
      tryStartDscDiscovery conn_handle
      return 0
  | none => do
      when (error_status ≠ BLE_HS_EDONE) (terminateErrLed conn_handle)
      return 0

def onServiceDiscovery (conn_handle : BitVec 16) (error_status : BitVec 16)
    (service : Option GattSvc) : Callback Int :=
  match reported error_status service with
  | some service => do
      assign fun v => { v with s_svc_end_handle := service.end_handle }
      let rc ← call (.bleGattcDiscChrsByUuid conn_handle service.start_handle
        service.end_handle s_gatt_chr_uuid)
      when (rc ≠ 0) (terminateErrLed conn_handle)
      return 0
  | none => do
      when (error_status ≠ BLE_HS_EDONE) (terminateErrLed conn_handle)
      return 0

/-- `on_sync`; `addr_type` is what `ble_hs_id_infer_auto` stores. -/
def onSync (addr_type : BitVec 8) : Callback Unit := do
  assertEq 0 (.bleHsIdSetRnd s_client_addr)
  assertEq 0 (.bleHsUtilEnsureAddr 0)
  assertEq 0 (.bleHsIdInferAuto 0)
  assign fun v => { v with s_addr_type := addr_type }
  assertEq 0 (.bleHsIdCopyAddr addr_type)
  scan

def shouldConnect (v : Vars) (disc : DiscDesc) : Bool :=
  match disc.uuids128 with
  | none => false
  | some uuids128 =>
      disc.addr.val = s_server_addr ∧ disc.addr.val ≠ v.s_peer_addr.val ∧
        (disc.event_type = BLE_HCI_ADV_RPT_EVTYPE_ADV_IND ∨
          disc.event_type = BLE_HCI_ADV_RPT_EVTYPE_DIR_IND) ∧
        uuids128.any fun uuid => BleUuid.uuid128 uuid = s_gatt_svc_uuid

def connectIfInteresting (disc : DiscDesc) : Callback Unit := do
  let v ← vars
  if shouldConnect v disc then
    let status ← call .bleGapDiscCancel
    if status = 0 then
      let status ← call (.bleGapConnect v.s_addr_type disc.addr 30000)
      -- the scan that was cancelled is not resumed here
      when (status ≠ 0) errLed
    else errLed
  else return ()

/-- The events `gap_event` is called with; the descriptor that `ble_gap_conn_find` stores
    is beside them. -/
inductive GapEvent
  | disc (disc : DiscDesc)
  | connect (status : Int) (conn_handle : BitVec 16) (peer_id_addr : BleAddr)
  | disconnect
  | encChange (status : Int) (conn_handle : BitVec 16)
  | notifyRx (om : List (BitVec 8))
  | repeatPairing (conn_handle : BitVec 16) (peer_id_addr : BleAddr)
  | other
deriving DecidableEq

/-- `case BLE_GAP_EVENT_CONNECT`. -/
def gapConnect (status : Int) (conn_handle : BitVec 16) (peer_id_addr : BleAddr) :
    Callback Unit := do
  if status = 0 then
    let rc ← call (.bleGapConnFind conn_handle)
    if rc ≠ 0 then
      terminateErrLed conn_handle
    else
      let rc ← call (.bleGapSecurityInitiate conn_handle)
      if rc ≠ 0 then
        terminateErrLed conn_handle
      else
        assign fun v => { v with s_peer_addr := { v.s_peer_addr with val := peer_id_addr.val } }
        let rc ← call (.bleGattcDiscSvcByUuid conn_handle s_gatt_svc_uuid)
        when (rc ≠ 0) (terminateErrLed conn_handle)
  else
    -- the attempt failed; the scan is resumed
    errLed
    scan

/-- `case BLE_GAP_EVENT_DISCONNECT`. -/
def gapDisconnect : Callback Unit := do
  assign fun v =>
    { v with
      s_peer_addr := { v.s_peer_addr with val := Buf.zero 6 }
      s_chr_found := false
      s_enc_done := false }
  -- the two handles keep their values
  scan

/-- `case BLE_GAP_EVENT_ENC_CHANGE`. -/
def gapEncChange (status : Int) (conn_handle : BitVec 16) : Callback Unit :=
  if status = 0 then do
    assign fun v => { v with s_enc_done := true }
    tryStartDscDiscovery conn_handle
  else errLed

/-- `case BLE_GAP_EVENT_NOTIFY_RX`. -/
def gapNotifyRx (om : List (BitVec 8)) : Callback Unit :=
  if om.length = SBUFLEN then do
    assertEq 0 .osMbufCopydata
    assertEq SBUFLEN (.uartWriteBytes om)
  else errLed

/-- `case BLE_GAP_EVENT_REPEAT_PAIRING`. -/
def gapRepeatPairing (conn_handle : BitVec 16) (peer_id_addr : BleAddr) : Callback Int := do
  let rc ← call (.bleGapConnFind conn_handle)
  if rc = 0 then
    assertEq 0 (.bleStoreUtilDeletePeer peer_id_addr)
    return BLE_GAP_REPEAT_PAIRING_RETRY
  else return BLE_GAP_REPEAT_PAIRING_IGNORE

def gapEvent : GapEvent → Callback Int
  | .disc disc => do connectIfInteresting disc; return 0
  | .connect status conn_handle peer_id_addr => do
      gapConnect status conn_handle peer_id_addr
      return 0
  | .disconnect => do gapDisconnect; return 0
  | .encChange status conn_handle => do gapEncChange status conn_handle; return 0
  | .notifyRx om => do gapNotifyRx om; return 0
  | .repeatPairing conn_handle peer_id_addr => gapRepeatPairing conn_handle peer_id_addr
  | .other => return 0

end Speedometer.Esp32.Client
