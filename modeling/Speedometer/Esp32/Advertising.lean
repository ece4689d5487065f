/-
  Speedometer.Esp32.Advertising

  The callbacks of the ESP32 server, which decide when it can be found: `on_sync`,
  `gap_event` and `advertise`, with the NimBLE host that calls them.

  The host stops advertising when a client connects, and `gap_event` takes it up again
  when the connection is gone.  `one_client`: the server never has two clients, and never
  starts to advertise while it has one.  `found_iff`: it can be found or has a client
  exactly if the last call made to advertise succeeded.  `callbacks_refine`: the machine
  of both tasks in Esp32.Subscribers does what these callbacks do.
-/

import Speedometer.Esp32.Client
import Speedometer.Esp32.Server
import Speedometer.Esp32.Subscribers

namespace Speedometer.Esp32.Peripheral

open Cpp Handler Transition
open Speedometer.Esp32.Client (BleAddr BleUuid GATT_UUID)
open Speedometer.Esp32.Server (Hsv NO_CONN_HANDLE LED_HSV_OFF LED_HSV_CONNECTED)

/-! ## Data -/

def TAG : String := "SERVER"

/-- `SERVER_ADDR`. -/
def server_addr : Buf 6 := Client.s_server_addr

/-- `CLIENT_ADDR`. -/
def client_addr : Buf 6 := Client.s_client_addr

def svc_uuid : BleUuid := .uuid128 (GATT_UUID 0x0000)

def PASSKEY : BitVec 32 := 813378

def BLE_ADDR_RANDOM : BitVec 8 := 1
def BLE_HS_ADV_F_DISC_GEN : BitVec 8 := 0x02
def BLE_HS_ADV_F_BREDR_UNSUP : BitVec 8 := 0x04
def BLE_HS_ADV_TX_PWR_LVL_AUTO : BitVec 8 := -128
def BLE_GAP_ROLE_SLAVE : BitVec 8 := 1
def BLE_GAP_CONN_MODE_UND : BitVec 8 := 2
def BLE_GAP_DISC_MODE_GEN : BitVec 8 := 2
def BLE_HCI_ADV_FILT_BOTH : BitVec 8 := 3

/-- `BLE_HS_FOREVER`. -/
def BLE_HS_FOREVER : Int := 2 ^ 31 - 1

/-- `BLE_SM_IOACT_DISP`: the peer expects us to display a passkey. -/
def BLE_SM_IOACT_DISP : BitVec 8 := 3

/-- `struct ble_hs_adv_fields`, as far as it is set. -/
structure AdvFields where
  flags : BitVec 8 := 0
  uuids128 : List BleUuid := []
  uuids128_is_complete : Bool := false
  name : String := ""
  name_is_complete : Bool := false
  /-- if `tx_pwr_lvl_is_present` -/
  tx_pwr_lvl : Option (BitVec 8) := none
  /-- if `le_role_is_present` -/
  le_role : Option (BitVec 8) := none
deriving DecidableEq

/-- `struct ble_gap_adv_params`, as far as it is set. -/
structure AdvParams where
  conn_mode : BitVec 8
  disc_mode : BitVec 8
  filter_policy : BitVec 8
deriving DecidableEq

/-- The calls that leave the program, with their arguments. -/
inductive Call
  | bleHsIdSetRnd (rnd_addr : Buf 6)
  | bleHsUtilEnsureAddr (prefer_random : Int)
  | bleHsIdInferAuto (privacy : Int)
  | bleHsIdCopyAddr (id_addr_type : BitVec 8)
  | bleGapWlSet (addrs : List BleAddr)
  | bleGapAdvSetFields (fields : AdvFields)
  | bleGapAdvRspSetFields (rsp_fields : AdvFields)
  | bleGapAdvStart (own_addr_type : BitVec 8) (duration_ms : Int) (adv_params : AdvParams)
  | bleGapConnFind (conn_handle : BitVec 16)
  | bleStoreUtilDeletePeer (peer_id_addr : BleAddr)
  | bleSmInjectIo (conn_handle : BitVec 16) (action : BitVec 8) (passkey : BitVec 32)
  | ledStripSetPixelHsv (hsv : Hsv)
  | ledStripRefresh
deriving DecidableEq

/-- The variables of `main.c` that the callbacks use. -/
structure Vars where
  addr_type : BitVec 8 := 0
  active_conn_handle : BitVec 16 := NO_CONN_HANDLE
deriving DecidableEq

/-! ## Source -/

/-- A piece of a callback. -/
abbrev Callback := Prog Vars Call

/-- `assert(0 == x)`, which aborts if it fails. -/
def assertZero (x : Call) : Callback Unit := do
  let rc ← call x
  when (rc ≠ 0) .hang

/-- `ESP_ERROR_CHECK(x)`, which aborts if it fails: `ESP_OK` is 0. -/
def espErrorCheck (x : Call) : Callback Unit := assertZero x

def setRgb (hsv : Hsv) : Callback Unit := do
  espErrorCheck (.ledStripSetPixelHsv hsv)
  espErrorCheck .ledStripRefresh

/-- The fields of the advertisement. -/
def advFields : AdvFields where
  flags := BLE_HS_ADV_F_DISC_GEN ||| BLE_HS_ADV_F_BREDR_UNSUP
  uuids128 := [svc_uuid]
  uuids128_is_complete := true

/-- The fields of the scan response; the device name is `TAG`. -/
def rspFields : AdvFields where
  name := TAG
  name_is_complete := true
  tx_pwr_lvl := some BLE_HS_ADV_TX_PWR_LVL_AUTO
  le_role := some BLE_GAP_ROLE_SLAVE

def advParams : AdvParams where
  conn_mode := BLE_GAP_CONN_MODE_UND
  disc_mode := BLE_GAP_DISC_MODE_GEN
  filter_policy := BLE_HCI_ADV_FILT_BOTH

def advertise : Callback Unit := do
  let status ← call (.bleGapAdvSetFields advFields)
  if status ≠ 0 then
    return ()
  else
    let status ← call (.bleGapAdvRspSetFields rspFields)
    if status ≠ 0 then
      return ()
    else
      let v ← vars
      -- what it returns is logged only
      callVoid (.bleGapAdvStart v.addr_type BLE_HS_FOREVER advParams)

/-- The events `gap_event` is called with; not all of it looks at the handle. -/
inductive GapEvent
  | connect (status : Int) (conn_handle : BitVec 16)
  | disconnect (conn_handle : BitVec 16)
  | connUpdate (conn_handle : BitVec 16)
  | advComplete
  | subscribe (conn_handle : BitVec 16)
  | repeatPairing (conn_handle : BitVec 16) (peer_id_addr : BleAddr)
  | encChange (status : Int) (conn_handle : BitVec 16)
  | passkeyAction (conn_handle : BitVec 16) (action : BitVec 8)
  | other
deriving DecidableEq

def gapEvent : GapEvent → Callback Int
  | .connect status conn_handle => do
      if status = 0 then assertZero (.bleGapConnFind conn_handle) else advertise
      return 0
  | .disconnect _ => do
      assign fun v => { v with active_conn_handle := NO_CONN_HANDLE }
      setRgb LED_HSV_OFF
      advertise
      return 0
  | .connUpdate conn_handle => do
      assertZero (.bleGapConnFind conn_handle)
      return 0
  | .advComplete => do
      advertise
      return 0
  | .subscribe conn_handle => do
      assign fun v => { v with active_conn_handle := conn_handle }
      setRgb LED_HSV_CONNECTED
      return 0
  | .repeatPairing conn_handle peer_id_addr => do
      assertZero (.bleGapConnFind conn_handle)
      assertZero (.bleStoreUtilDeletePeer peer_id_addr)
      return Client.BLE_GAP_REPEAT_PAIRING_RETRY
  -- an encryption that failed is logged only
  | .encChange _ _ => return 0
  | .passkeyAction conn_handle action => do
      when (action = BLE_SM_IOACT_DISP) (callVoid (.bleSmInjectIo conn_handle action PASSKEY))
      return 0
  | .other => return 0

/-- `on_sync`; `addr_type` is what `ble_hs_id_infer_auto` stores. -/
def onSync (addr_type : BitVec 8) : Callback Unit := do
  assertZero (.bleHsIdSetRnd server_addr)
  assertZero (.bleHsUtilEnsureAddr 0)
  assertZero (.bleHsIdInferAuto 0)
  assign fun v => { v with addr_type }
  assertZero (.bleHsIdCopyAddr addr_type)
  assertZero (.bleGapWlSet [⟨BLE_ADDR_RANDOM, client_addr⟩])
  advertise

/-- `on_reset`, which only logs the reason. -/
def onReset (_ : Int) : Callback Unit := return ()

/-! ## The host -/

/-- A call of `ble_gap_adv_start`: whether the host advertises already, and its
    connections. -/
structure Start where
  advertising : Bool
  conns : List (BitVec 16)
deriving DecidableEq

/-- What the host and the LED do, and the calls recorded. -/
structure Host where
  synced : Bool := false
  advertising : Bool := false
  /-- the handles of the open connections -/
  conns : List (BitVec 16) := []
  /-- the last call made to advertise did not return 0 -/
  failed : Bool := false
  /-- the calls of `ble_gap_adv_set_fields`, with which every attempt to advertise begins -/
  attempts : Nat := 0
  /-- and those of `ble_gap_adv_start`, with which it ends unless a call before fails -/
  starts : List Start := []
  /-- the pixel as it was last set -/
  pixel : Hsv := LED_HSV_OFF
  /-- and as it is shown -/
  s_led : Hsv := LED_HSV_OFF
deriving DecidableEq

/-- What a call changes, given what it returns. -/
def effect : Call → Int → Host → Host
  | .bleGapAdvSetFields _, rc, h => { h with failed := rc ≠ 0, attempts := h.attempts + 1 }
  | .bleGapAdvRspSetFields _, rc, h => { h with failed := rc ≠ 0 }
  | .bleGapAdvStart _ _ _, rc, h =>
      { h with
        advertising := h.advertising || rc = 0
        failed := rc ≠ 0
        starts := h.starts ++ [⟨h.advertising, h.conns⟩] }
  | .ledStripSetPixelHsv hsv, rc, h => { h with pixel := if rc = 0 then hsv else h.pixel }
  | .ledStripRefresh, rc, h => { h with s_led := if rc = 0 then h.pixel else h.s_led }
  | _, _, h => h

/-- What the host calls back about, and the loss of its controller. -/
inductive Event
  | sync (addr_type : BitVec 8)
  | lost
  | reset (reason : Int)
  | gap (event : GapEvent)
deriving DecidableEq

def Event.callback : Event → Callback Int
  | .sync addr_type => do onSync addr_type; return 0
  | .lost => return 0
  | .reset reason => do onReset reason; return 0
  | .gap event => gapEvent event

/-- The host has the given connection. -/
def Host.has (h : Host) (conn_handle : BitVec 16) : Bool := h.conns.contains conn_handle

@[simp] theorem Host.has_iff {h : Host} {conn_handle : BitVec 16} :
    h.has conn_handle = true ↔ conn_handle ∈ h.conns := by
  simp [Host.has]

/-- The host, if it has the given connection. -/
def Host.ofConn (h : Host) (conn_handle : BitVec 16) : Option Host :=
  if h.has conn_handle then some h else none

/-- The host when it calls back about an event, or `none` when it does not.  Before it
    synchronises again it has reported the end of all it had under way. -/
def Host.deliver (h : Host) : Event → Option Host
  | .sync _ =>
      if h.synced = false ∧ h.advertising = false ∧ h.conns = [] then
        some { h with synced := true }
      else none
  | .lost => if h.synced then some { h with synced := false } else none
  | .reset _ => if h.synced = false then some h else none
  | .gap (.connect status conn_handle) =>
      -- whether it is established or fails, advertising ends
      if h.advertising = true ∧
          (status = 0 → conn_handle ≠ NO_CONN_HANDLE ∧ h.has conn_handle = false) then
        some { h with
          advertising := false
          conns := if status = 0 then conn_handle :: h.conns else h.conns }
      else none
  | .gap (.disconnect conn_handle) =>
      if h.has conn_handle then
        some { h with conns := h.conns.filter (· ≠ conn_handle) }
      else none
  | .gap .advComplete => if h.advertising then some { h with advertising := false } else none
  | .gap (.connUpdate conn_handle) | .gap (.subscribe conn_handle)
  | .gap (.repeatPairing conn_handle _) | .gap (.encChange _ conn_handle)
  | .gap (.passkeyAction conn_handle _) => h.ofConn conn_handle
  | .gap .other => some h

/-- The server between two callbacks; `aborted` when an assertion has failed. -/
structure State where
  vars : Vars := {}
  host : Host := {}
  aborted : Bool := false
deriving DecidableEq

/-- A callback, with what the calls it makes return. -/
structure Ev where
  event : Event
  rcs : List Int := []
deriving DecidableEq

/-- The run of one callback. -/
def outcome (s : State) (e : Ev) : Option (Outcome Vars Call Host Int) :=
  if s.aborted then none
  else
    match s.host.deliver e.event with
    | some host => exec effect e.event.callback e.rcs s.vars host
    | none => none

def step (s : State) (e : Ev) : Option State :=
  (outcome s e).map fun o => { vars := o.vars, host := o.world, aborted := o.val.isNone }

/-- The step rule: what the weakest precondition of the callback asks of the host that
    delivers the event holds after the step. -/
theorem step_wp {s s' : State} {e : Ev} {P : State → Prop} (hs : step s e = some s')
    (hP : s.aborted = false → ∀ host, s.host.deliver e.event = some host →
      wp effect (fun _ _ => True) e.event.callback (fun o v h => P ⟨v, h, o.isNone⟩)
        s.vars host) : P s' := by
  obtain ⟨o, ho, rfl⟩ := Option.map_eq_some_iff.mp hs
  simp only [outcome] at ho
  split at ho
  · cases ho
  · rename_i haborted
    split at ho
    · rename_i host hd
      exact wp_sound (hP (Bool.eq_false_iff.mpr haborted) host hd) ho fun _ _ => trivial
    · cases ho

/-! ## Specifications -/

section Specifications

/-- Calls may return anything. -/
abbrev wpAny {α : Type} : Callback α → (Option α → Vars → Host → Prop) → Vars → Host → Prop :=
  wp effect fun _ _ => True

variable {Q : Option Unit → Vars → Host → Prop} {v : Vars} {h : Host}

theorem wp_assertZero {x : Call} (hok : Q (some ()) v (effect x 0 h))
    (habort : ∀ rc, rc ≠ 0 → Q none v (effect x rc h)) : wpAny (assertZero x) Q v h := by
  rw [wpAny, assertZero, wp_bind, wp_call]
  intro rc _
  rw [andThen_some]
  refine wp_when (fun hne => ?_) (fun heq => ?_)
  · exact habort rc (by simpa using hne)
  · have heq : rc = 0 := by simpa using heq
    rw [heq]
    exact hok

/-- An assertion about a call that changes neither the host nor the LED. -/
theorem wp_assertQuiet {x : Call} (hx : ∀ rc, effect x rc h = h) (hok : Q (some ()) v h)
    (habort : Q none v h) : wpAny (assertZero x) Q v h := by
  refine wp_assertZero ?_ (fun rc _ => ?_)
  · rw [hx]
    exact hok
  · rw [hx]
    exact habort

theorem wp_setRgb {hsv : Hsv} (hok : Q (some ()) v { h with pixel := hsv, s_led := hsv })
    (habort : ∀ pixel, Q none v { h with pixel }) : wpAny (setRgb hsv) Q v h := by
  rw [wpAny, setRgb, wp_bind]
  refine wp_assertZero ?_ (fun rc hrc => ?_)
  · rw [andThen_some]
    refine wp_assertZero hok (fun rc hrc => ?_)
    simpa [effect, hrc] using habort hsv
  · simpa [effect, andThen, hrc] using habort h.pixel

/-- `advertise` starts to advertise, or one of its calls has failed. -/
theorem wp_advertise
    (hstart : Q (some ()) v
      { h with
        advertising := true
        failed := false
        attempts := h.attempts + 1
        starts := h.starts ++ [⟨h.advertising, h.conns⟩] })
    (hfail : ∀ starts, starts = h.starts ∨ starts = h.starts ++ [⟨h.advertising, h.conns⟩] →
      Q (some ()) v { h with failed := true, attempts := h.attempts + 1, starts }) :
    wpAny advertise Q v h := by
  rw [wpAny, advertise, wp_bind, wp_call]
  intro rc _
  rw [andThen_some]
  refine wp_ite (fun hrc => ?_) (fun hrc => ?_)
  · simpa [effect, hrc] using hfail h.starts (.inl rfl)
  rw [wp_bind, wp_call]
  intro rsp _
  rw [andThen_some]
  refine wp_ite (fun hrsp => ?_) (fun hrsp => ?_)
  · simpa [effect, hrsp] using hfail h.starts (.inl rfl)
  rw [wp_bind, wp_vars, andThen_some, wp_callVoid]
  intro start _
  by_cases hs : start = 0
  · simpa [effect, hs] using hstart
  · simpa [effect, hs] using hfail _ (.inr rfl)

/-- `on_sync` ends in `advertise`, with the address type it has found out. -/
theorem wp_onSync {addr_type : BitVec 8} (hadv : wpAny advertise Q { v with addr_type } h)
    (habort : ∀ addr_type, Q none { v with addr_type } h) :
    wpAny (onSync addr_type) Q v h := by
  rw [onSync, wpAny, wp_bind]
  refine wp_assertQuiet (fun _ => rfl) ?_ (habort v.addr_type)
  rw [andThen_some, wp_bind]
  refine wp_assertQuiet (fun _ => rfl) ?_ (habort v.addr_type)
  rw [andThen_some, wp_bind]
  refine wp_assertQuiet (fun _ => rfl) ?_ (habort v.addr_type)
  rw [andThen_some, wp_bind, wp_assign, andThen_some, wp_bind]
  refine wp_assertQuiet (fun _ => rfl) ?_ (habort addr_type)
  rw [andThen_some, wp_bind]
  refine wp_assertQuiet (fun _ => rfl) ?_ (habort addr_type)
  exact hadv

/-- What a state must meet, as a condition on the end of a callback. -/
def Ends {α : Type} (I : State → Prop) (o : Option α) (v : Vars) (h : Host) : Prop :=
  I ⟨v, h, o.isNone⟩

theorem Ends.return {I : State → Prop} {p : Callback Unit} {ret : Int} {v : Vars} {h : Host}
    (hp : wpAny p (Ends I) v h) : wpAny (do p; return ret) (Ends I) v h := by
  refine wp_return (wp_mono (fun o v h hI => ?_) hp)
  rw [Ends, Option.isNone_map]
  exact hI

end Specifications

/-! ## Invariant -/

structure Inv (s : State) : Prop where
  one : s.host.conns.length ≤ 1
  idle : s.host.advertising = true → s.host.conns = []
  starts : ∀ c ∈ s.host.starts, c.advertising = false ∧ c.conns = []
  active : s.vars.active_conn_handle = NO_CONN_HANDLE ∨
    s.vars.active_conn_handle ∈ s.host.conns
  found : s.aborted = false → s.host.synced = true →
    (s.host.failed = false ↔ s.host.advertising = true ∨ s.host.conns ≠ [])

theorem start_inv : Inv {} where
  one := by decide
  idle := nofun
  starts := nofun
  active := .inl rfl
  found := nofun

/-- An open connection is the only one. -/
theorem Inv.only {s : State} (hi : Inv s) {conn_handle : BitVec 16}
    (hmem : conn_handle ∈ s.host.conns) : s.host.conns = [conn_handle] := by
  obtain ⟨c, hc⟩ := List.length_eq_one_iff.mp
    (Nat.le_antisymm hi.one (List.length_pos_of_mem hmem))
  rw [hc] at hmem ⊢
  rw [List.mem_singleton.mp hmem]

/-- What `advertise` is called with: the host neither advertises nor has a connection. -/
structure Free (v : Vars) (h : Host) : Prop where
  advertising : h.advertising = false
  conns : h.conns = []
  starts : ∀ c ∈ h.starts, c.advertising = false ∧ c.conns = []
  active : v.active_conn_handle = NO_CONN_HANDLE

theorem Free.aborted {v : Vars} {h : Host} (hf : Free v h) : Inv ⟨v, h, true⟩ where
  one := by simp [hf.conns]
  idle := fun _ => hf.conns
  starts := hf.starts
  active := .inl hf.active
  found := nofun

theorem Free.starts_snoc {v : Vars} {h : Host} (hf : Free v h) :
    ∀ c ∈ h.starts ++ [⟨h.advertising, h.conns⟩], c.advertising = false ∧ c.conns = [] := by
  intro c hc
  rcases List.mem_append.mp hc with hc | hc
  · exact hf.starts c hc
  · rw [List.mem_singleton.mp hc]
    exact ⟨hf.advertising, hf.conns⟩

/-- `advertise` leaves the host advertising, or knowing that it has failed. -/
theorem Free.advertise {v : Vars} {h : Host} (hf : Free v h) :
    wpAny advertise (Ends Inv) v h := by
  refine wp_advertise ?_ (fun starts hstarts => ?_)
  · refine ⟨?_, fun _ => hf.conns, hf.starts_snoc, .inl hf.active, fun _ _ => ?_⟩
    · simp [hf.conns]
    · simp
  · refine ⟨?_, fun _ => hf.conns, ?_, .inl hf.active, fun _ _ => ?_⟩
    · simp [hf.conns]
    · rcases hstarts with rfl | rfl
      · exact hf.starts
      · exact hf.starts_snoc
    · simp [hf.advertising, hf.conns]

/-- An assertion about a call that changes nothing keeps the invariant. -/
theorem Inv.assertQuiet {v : Vars} {h : Host} (hi : Inv ⟨v, h, false⟩) {x : Call}
    (hx : ∀ rc, effect x rc h = h) : wpAny (assertZero x) (Ends Inv) v h :=
  wp_assertQuiet hx hi { hi with found := nofun }

/-- The host delivers a connection while it has none, and none with a status other
    than 0. -/
theorem Inv.connect {v : Vars} {h host : Host} (hi : Inv ⟨v, h, false⟩) {status : Int}
    {conn_handle : BitVec 16}
    (hd : h.deliver (.gap (.connect status conn_handle)) = some host) :
    wpAny (gapEvent (.connect status conn_handle)) (Ends Inv) v host := by
  obtain ⟨⟨hadv, -⟩, rfl⟩ := of_guard hd
  have hconns : h.conns = [] := hi.idle hadv
  have hactive : v.active_conn_handle = NO_CONN_HANDLE := by
    have h := hi.active
    rw [hconns] at h
    exact h.resolve_right List.not_mem_nil
  rw [gapEvent]
  refine wp_ite (fun hst => Ends.return ?_) (fun hst => Ends.return ?_)
  · have hi' : Inv ⟨v, { h with advertising := false, conns := [conn_handle] }, false⟩ := by
      refine ⟨by simp, fun hadv => (by cases hadv), hi.starts, .inl hactive, fun _ hsync => ?_⟩
      have hfound : h.failed = false := (hi.found rfl hsync).mpr (.inl hadv)
      simp [hfound]
    rw [if_pos hst, hconns]
    exact hi'.assertQuiet fun _ => rfl
  · rw [if_neg hst]
    exact Free.advertise ⟨rfl, hconns, hi.starts, hactive⟩

theorem Inv.disconnect {v : Vars} {h host : Host} (hi : Inv ⟨v, h, false⟩)
    {conn_handle : BitVec 16} (hd : h.deliver (.gap (.disconnect conn_handle)) = some host) :
    wpAny (gapEvent (.disconnect conn_handle)) (Ends Inv) v host := by
  obtain ⟨hhas, rfl⟩ := of_guard hd
  have hmem := Host.has_iff.mp hhas
  have hconns : h.conns = [conn_handle] := hi.only hmem
  have hadv : h.advertising = false := by
    refine Bool.eq_false_iff.mpr fun hadv => ?_
    rw [hi.idle hadv] at hmem
    exact absurd hmem List.not_mem_nil
  have hfree : ∀ pixel s_led, Free { v with active_conn_handle := NO_CONN_HANDLE }
      { h with conns := h.conns.filter (· ≠ conn_handle), pixel, s_led } := fun _ _ =>
    ⟨hadv, by simp [hconns], hi.starts, rfl⟩
  rw [gapEvent, wpAny, wp_bind, wp_assign, andThen_some, wp_bind]
  refine wp_setRgb ?_ (fun pixel => (hfree pixel h.s_led).aborted)
  exact Ends.return (hfree _ _).advertise

theorem Inv.subscribe {v : Vars} {h host : Host} (hi : Inv ⟨v, h, false⟩)
    {conn_handle : BitVec 16} (hd : h.deliver (.gap (.subscribe conn_handle)) = some host) :
    wpAny (gapEvent (.subscribe conn_handle)) (Ends Inv) v host := by
  obtain ⟨hhas, rfl⟩ := of_guard hd
  have hmem := Host.has_iff.mp hhas
  rw [gapEvent, wpAny, wp_bind, wp_assign, andThen_some]
  refine Ends.return (wp_setRgb ?_ fun pixel => ?_)
  · exact ⟨hi.one, hi.idle, hi.starts, .inr hmem, hi.found⟩
  · exact ⟨hi.one, hi.idle, hi.starts, .inr hmem, fun haborted => by cases haborted⟩

theorem Inv.gap {v : Vars} {h host : Host} (hi : Inv ⟨v, h, false⟩) {event : GapEvent}
    (hd : h.deliver (.gap event) = some host) :
    wpAny (gapEvent event) (Ends Inv) v host := by
  cases event with
  | connect status conn_handle => exact hi.connect hd
  | disconnect conn_handle => exact hi.disconnect hd
  | subscribe conn_handle => exact hi.subscribe hd
  | advComplete =>
      obtain ⟨hadv, rfl⟩ := of_guard hd
      have hconns : h.conns = [] := hi.idle hadv
      refine Ends.return (Free.advertise ⟨rfl, hconns, hi.starts, ?_⟩)
      have hactive := hi.active
      rw [hconns] at hactive
      exact hactive.resolve_right List.not_mem_nil
  | connUpdate conn_handle =>
      obtain ⟨-, rfl⟩ := of_guard hd
      exact Ends.return (hi.assertQuiet fun _ => rfl)
  | repeatPairing conn_handle peer_id_addr =>
      obtain ⟨-, rfl⟩ := of_guard hd
      rw [gapEvent, wpAny, wp_bind]
      refine wp_assertQuiet (fun _ => rfl) ?_ { hi with found := fun haborted => by cases haborted }
      exact Ends.return (hi.assertQuiet fun _ => rfl)
  | encChange status conn_handle =>
      obtain ⟨-, rfl⟩ := of_guard hd
      exact hi
  | passkeyAction conn_handle action =>
      obtain ⟨-, rfl⟩ := of_guard hd
      exact Ends.return (wp_when (fun _ _ _ => hi) fun _ => hi)
  | other =>
      cases hd
      exact hi

theorem Free.onSync {v : Vars} {h : Host} (hf : Free v h) (addr_type : BitVec 8) :
    wpAny (onSync addr_type) (Ends Inv) v h := by
  have hf' : ∀ addr_type, Free { v with addr_type } h := fun _ => { hf with }
  exact wp_onSync (hf' addr_type).advertise fun addr_type => (hf' addr_type).aborted

theorem Inv.step {s s' : State} (hi : Inv s) {e : Ev} (hs : step s e = some s') : Inv s' := by
  refine step_wp hs fun haborted host hd => ?_
  obtain ⟨v, h, aborted⟩ := s
  obtain rfl : aborted = false := haborted
  cases he : e.event with
  | sync addr_type =>
      rw [he] at hd
      obtain ⟨⟨-, hadv, hconns⟩, rfl⟩ := of_guard hd
      have hactive := hi.active
      rw [hconns] at hactive
      have hfree : Free v { h with synced := true } :=
        ⟨hadv, hconns, hi.starts, hactive.resolve_right List.not_mem_nil⟩
      exact Ends.return (hfree.onSync addr_type)
  | lost =>
      rw [he] at hd
      obtain ⟨-, rfl⟩ := of_guard hd
      exact ⟨hi.one, hi.idle, hi.starts, hi.active, fun _ hsync => by cases hsync⟩
  | reset reason =>
      rw [he] at hd
      obtain ⟨-, rfl⟩ := of_guard hd
      exact hi
  | gap event =>
      rw [he] at hd
      exact hi.gap hd

theorem inv_of_run {es : List Ev} {s : State} (hrun : Run step Always {} es s) : Inv s :=
  hrun.invariant start_inv fun _ _ _ hi _ hs => hi.step hs

/-! ## Results -/

/-- The server has at most one client, and when it starts to advertise it has none and
    does not advertise already; the handle it notifies is that of its client. -/
theorem one_client {es : List Ev} {s : State} (hrun : Run step Always {} es s) :
    s.host.conns.length ≤ 1 ∧ (∀ c ∈ s.host.starts, c.advertising = false ∧ c.conns = []) ∧
      (s.vars.active_conn_handle = NO_CONN_HANDLE ∨
        s.host.conns = [s.vars.active_conn_handle]) := by
  have hi := inv_of_run hrun
  exact ⟨hi.one, hi.starts, hi.active.imp_right hi.only⟩

/-- `on_sync`; the last three calls are those of `advertise`. -/
def syncWith (rcs : List Int) : Ev where
  event := .sync BLE_ADDR_RANDOM
  rcs := [0, 0, 0, 0, 0] ++ rcs

/-- A client connects and subscribes, with no call failing. -/
def serve : List Ev :=
  [syncWith [0, 0, 0], { event := .gap (.connect 0 1), rcs := [0] },
    { event := .gap (.subscribe 1), rcs := [0, 0] }]

theorem one_client_serve :
    ∃ s, Run step Always {} serve s ∧ s.host.starts = [⟨false, []⟩] ∧ s.host.conns = [1] ∧
      s.host.conns = [s.vars.active_conn_handle] := by
  obtain ⟨s, hrun, hstarts, hconns, hactive⟩ : ∃ s, Run step Always {} serve s ∧
      s.host.starts = [⟨false, []⟩] ∧ s.host.conns = [1] ∧
      s.vars.active_conn_handle ≠ NO_CONN_HANDLE := Run.exists_of_exec (by decide)
  exact ⟨s, hrun, hstarts, hconns, (one_client hrun).2.2.resolve_left hactive⟩

/-- Nothing is under way, and no attempt to advertise has been added to the given ones. -/
structure Silent (attempts : Nat) (starts : List Start) (s : State) : Prop where
  advertising : s.host.advertising = false
  conns : s.host.conns = []
  attempts : s.host.attempts = attempts
  starts : s.host.starts = starts

/-- Only `on_sync` calls `advertise` then. -/
theorem Silent.step {attempts : Nat} {starts : List Start} {s s' : State}
    (hl : Silent attempts starts s) {e : Ev} (hs : step s e = some s')
    (hsync : ∀ addr_type, e.event ≠ .sync addr_type) : Silent attempts starts s' := by
  refine step_wp hs fun _ host hd => ?_
  have hconn : ∀ conn_handle, s.host.ofConn conn_handle ≠ some host := by
    intro conn_handle hd
    have hmem := Host.has_iff.mp (of_guard hd).1
    rw [hl.conns] at hmem
    exact List.not_mem_nil hmem
  cases he : e.event with
  | sync addr_type => exact absurd he (hsync addr_type)
  | lost =>
      rw [he] at hd
      obtain ⟨-, rfl⟩ := of_guard hd
      exact ⟨hl.advertising, hl.conns, hl.attempts, hl.starts⟩
  | reset reason =>
      rw [he] at hd
      obtain ⟨-, rfl⟩ := of_guard hd
      exact ⟨hl.advertising, hl.conns, hl.attempts, hl.starts⟩
  | gap event =>
      rw [he] at hd
      cases event with
      | connect status conn_handle =>
          have hadv := (of_guard hd).1.1
          rw [hl.advertising] at hadv
          cases hadv
      | disconnect conn_handle =>
          have hmem := Host.has_iff.mp (of_guard hd).1
          rw [hl.conns] at hmem
          exact absurd hmem List.not_mem_nil
      | advComplete =>
          have hadv := (of_guard hd).1
          rw [hl.advertising] at hadv
          cases hadv
      | connUpdate conn_handle | subscribe conn_handle => exact absurd hd (hconn conn_handle)
      | repeatPairing conn_handle _ | passkeyAction conn_handle _ =>
          exact absurd hd (hconn conn_handle)
      | encChange _ conn_handle => exact absurd hd (hconn conn_handle)
      | other =>
          cases hd
          exact ⟨hl.advertising, hl.conns, hl.attempts, hl.starts⟩

/-- In a run that has not aborted, while the host is synchronised, the server can be found or
    has a client exactly if the last call made to advertise succeeded; otherwise no event
    leads to another attempt before the host synchronises again. -/
theorem found_iff {es : List Ev} {s : State} (hrun : Run step Always {} es s)
    (haborted : s.aborted = false) (hsync : s.host.synced = true) :
    (s.host.failed = false ↔ s.host.advertising = true ∨ s.host.conns ≠ []) ∧
      (s.host.failed = true → ∀ fs t,
        Run step (fun _ e => ∀ addr_type, e.event ≠ .sync addr_type) s fs t →
        t.host.advertising = false ∧ t.host.conns = [] ∧
          t.host.attempts = s.host.attempts ∧ t.host.starts = s.host.starts) := by
  have hi := inv_of_run hrun
  have hfound := hi.found haborted hsync
  refine ⟨hfound, fun hfailed fs t hnext => ?_⟩
  have hnone : ¬(s.host.advertising = true ∨ s.host.conns ≠ []) := by
    rw [← hfound, hfailed]
    decide
  rw [not_or, not_not] at hnone
  have hsilent : Silent s.host.attempts s.host.starts s :=
    ⟨Bool.eq_false_iff.mpr hnone.1, hnone.2, rfl, rfl⟩
  have hend := hnext.invariant hsilent fun _ _ _ hl hallow hs => hl.step hs hallow
  exact ⟨hend.advertising, hend.conns, hend.attempts, hend.starts⟩

/-- Synchronised, but not advertising: `ble_gap_adv_start` has failed. -/
def offAir : State where
  vars := { addr_type := BLE_ADDR_RANDOM }
  host := { synced := true, failed := true, attempts := 1, starts := [⟨false, []⟩] }

theorem found_iff_offAir :
    ∃ t, Run step (fun _ e => ∀ addr_type, e.event ≠ .sync addr_type) offAir
      [{ event := .gap .other }, { event := .lost }] t ∧
      t.host.advertising = false ∧ t.host.conns = [] ∧ t.host.attempts = 1 ∧
      t.host.starts = [⟨false, []⟩] := by
  have hrun : Run step Always {} [syncWith [0, 0, 6]] offAir := Run.of_exec (by decide)
  have hnext : Run step (fun _ e => ∀ addr_type, e.event ≠ .sync addr_type) offAir
      [{ event := .gap .other }, { event := .lost }]
      { offAir with host := { offAir.host with synced := false } } :=
    .snoc (.single (by simp) rfl) (by simp) rfl
  exact ⟨_, hnext, (found_iff hrun rfl rfl).2 rfl _ _ hnext⟩

/-! ## The machine of both tasks -/

/-- The steps of `Subscribers.step` that a callback takes; `cur_notify` is what a SUBSCRIBE
    event reports beside the handle. -/
def Event.toSubscribers (cur_notify : Bool) : Event → List Subscribers.Ev
  | .gap (.connect status conn_handle) =>
      [if status = 0 then .connect conn_handle else .otherGap]
  | .gap (.disconnect conn_handle) => [.disconnect conn_handle, .server .gapLed]
  | .gap (.subscribe conn_handle) => [.subscribe conn_handle cur_notify, .server .gapLed]
  | .gap _ => [.otherGap]
  | .sync _ | .lost | .reset _ => []

/-- What the callbacks share with `app_main`. -/
def State.toServer (s : State) : Server.State :=
  { active_conn_handle := s.vars.active_conn_handle, s_led := s.host.s_led }

/-- The machine of both tasks and its connections, between two callbacks. -/
structure Agrees (r : Subscribers) (s : State) : Prop where
  srv : r.srv = s.toServer
  opened : r.opened = s.host.conns

/-- The machine of both tasks follows a callback that ends in `s'`, unless it aborts. -/
def Follows (r : Subscribers) (es : List Subscribers.Ev) (s' : State) : Prop :=
  s'.aborted = false → ∃ r', Run Subscribers.step Always r es r' ∧ Agrees r' s'

section Follows

variable {r : Subscribers} {s s' : State}

theorem Follows.aborted {es : List Subscribers.Ev} {v : Vars} {h : Host} :
    Follows r es ⟨v, h, true⟩ :=
  fun haborted => by cases haborted

theorem Agrees.of_eq (ha : Agrees r s) (hserver : s'.toServer = s.toServer)
    (hconns : s'.host.conns = s.host.conns) : Agrees r s' :=
  ⟨ha.srv.trans hserver.symm, ha.opened.trans hconns.symm⟩

/-- An event that `gap_event` does nothing about that is shared. -/
theorem Agrees.onGap_other (ha : Agrees r s) : r.onGap .other = some r := by
  obtain ⟨srv, opened, enabled, reports, loaded, calls⟩ := r
  obtain ⟨rfl, rfl⟩ := ha
  rfl

theorem Agrees.otherGap (ha : Agrees r s) : Follows r [.otherGap] s :=
  fun _ => ⟨r, .single trivial ha.onGap_other, ha⟩

theorem Agrees.connect (ha : Agrees r s) {conn_handle : BitVec 16}
    (hno : conn_handle ≠ NO_CONN_HANDLE) (hnew : conn_handle ∉ s.host.conns)
    (hserver : s'.toServer = s.toServer) (hconns : s'.host.conns = conn_handle :: s.host.conns) :
    Follows r [.connect conn_handle] s' := by
  intro _
  rw [← ha.opened] at hnew hconns
  have ha' : Agrees { r with opened := conn_handle :: r.opened } s' :=
    ⟨ha.srv.trans hserver.symm, hconns.symm⟩
  exact ⟨_, .single trivial ((if_pos ⟨hno, hnew⟩).trans ha'.onGap_other), ha'⟩

theorem Agrees.disconnect (ha : Agrees r s) {conn_handle : BitVec 16}
    (hmem : conn_handle ∈ s.host.conns)
    (hserver : s'.toServer = { active_conn_handle := NO_CONN_HANDLE, s_led := LED_HSV_OFF })
    (hconns : s'.host.conns = s.host.conns.filter (· ≠ conn_handle)) :
    Follows r [.disconnect conn_handle, .server .gapLed] s' := by
  intro _
  obtain ⟨srv, opened, enabled, reports, loaded, calls⟩ := r
  obtain ⟨rfl, rfl⟩ := ha
  exact ⟨_, .snoc (.single trivial (if_pos hmem)) trivial rfl, hserver.symm, hconns.symm⟩

theorem Agrees.subscribe (ha : Agrees r s) {conn_handle : BitVec 16} (cur_notify : Bool)
    (hmem : conn_handle ∈ s.host.conns)
    (hserver : s'.toServer = { active_conn_handle := conn_handle, s_led := LED_HSV_CONNECTED })
    (hconns : s'.host.conns = s.host.conns) :
    Follows r [.subscribe conn_handle cur_notify, .server .gapLed] s' := by
  intro _
  obtain ⟨srv, opened, enabled, reports, loaded, calls⟩ := r
  obtain ⟨rfl, rfl⟩ := ha
  exact ⟨_, .snoc (.single trivial (if_pos hmem)) trivial rfl, hserver.symm, hconns.symm⟩

end Follows

/-- `advertise` keeps what is shared. -/
theorem advertise_agrees {r : Subscribers} {v : Vars} {h : Host} (ha : Agrees r ⟨v, h, false⟩) :
    wpAny advertise (Ends (Agrees r)) v h :=
  wp_advertise (ha.of_eq rfl rfl) fun _ _ => ha.of_eq rfl rfl

theorem assertQuiet_agrees {r : Subscribers} {v : Vars} {h : Host} {x : Call}
    (hx : ∀ rc, effect x rc h = h) (ha : Agrees r ⟨v, h, false⟩) :
    wpAny (assertZero x) (Ends (Agrees r)) v h :=
  wp_assertQuiet hx ha (ha.of_eq rfl rfl)

theorem gapEvent_follows {r : Subscribers} {s : State} {host : Host} {event : GapEvent}
    (ha : Agrees r s) (cur_notify : Bool) (hd : s.host.deliver (.gap event) = some host) :
    wpAny (gapEvent event) (Ends (Follows r (Event.toSubscribers cur_notify (.gap event))))
      s.vars host := by
  have hother : ∀ o v h, Ends (Agrees r) (o : Option Unit) v h →
      Ends (Follows r [.otherGap]) o v h := fun _ _ _ ha' => ha'.otherGap
  have hkept : Agrees r ⟨s.vars, s.host, false⟩ := ha.of_eq rfl rfl
  cases event with
  | connect status conn_handle =>
      obtain ⟨⟨-, hnew⟩, rfl⟩ := of_guard hd
      rw [gapEvent, Event.toSubscribers]
      refine wp_ite (fun hst => Ends.return ?_) (fun hst => Ends.return ?_)
      · obtain ⟨hno, hhas⟩ := hnew hst
        have hnew : conn_handle ∉ s.host.conns := by
          rw [← Host.has_iff, hhas]
          exact Bool.false_ne_true
        rw [if_pos hst, if_pos hst]
        exact wp_assertQuiet (fun _ => rfl) (ha.connect hno hnew rfl rfl)
          (ha.connect hno hnew rfl rfl)
      · rw [if_neg hst, if_neg hst]
        exact wp_mono hother (advertise_agrees (ha.of_eq rfl rfl))
  | disconnect conn_handle =>
      obtain ⟨hhas, rfl⟩ := of_guard hd
      have hmem := Host.has_iff.mp hhas
      rw [gapEvent, wpAny, wp_bind, wp_assign, andThen_some, wp_bind]
      refine wp_setRgb ?_ (fun _ => Follows.aborted)
      refine Ends.return (wp_advertise ?_ fun _ _ => ?_)
      · exact ha.disconnect hmem rfl rfl
      · exact ha.disconnect hmem rfl rfl
  | subscribe conn_handle =>
      obtain ⟨hhas, rfl⟩ := of_guard hd
      have hmem := Host.has_iff.mp hhas
      rw [gapEvent, wpAny, wp_bind, wp_assign, andThen_some]
      exact Ends.return (wp_setRgb (ha.subscribe cur_notify hmem rfl rfl) fun _ => Follows.aborted)
  | connUpdate conn_handle =>
      obtain ⟨-, rfl⟩ := of_guard hd
      exact Ends.return (wp_mono hother (assertQuiet_agrees (fun _ => rfl) hkept))
  | advComplete =>
      obtain ⟨-, rfl⟩ := of_guard hd
      exact Ends.return (wp_mono hother (advertise_agrees (ha.of_eq rfl rfl)))
  | repeatPairing conn_handle peer_id_addr =>
      obtain ⟨-, rfl⟩ := of_guard hd
      rw [gapEvent, wpAny, wp_bind]
      refine wp_assertQuiet (fun _ => rfl) ?_ Follows.aborted
      exact Ends.return (wp_mono hother (assertQuiet_agrees (fun _ => rfl) hkept))
  | encChange status conn_handle =>
      obtain ⟨-, rfl⟩ := of_guard hd
      exact hkept.otherGap
  | passkeyAction conn_handle action =>
      obtain ⟨-, rfl⟩ := of_guard hd
      exact Ends.return (wp_when (fun _ _ _ => hkept.otherGap) fun _ => hkept.otherGap)
  | other =>
      cases hd
      exact hkept.otherGap

theorem step_follows {r : Subscribers} {s s' : State} {e : Ev} (ha : Agrees r s)
    (cur_notify : Bool) (hs : step s e = some s') :
    Follows r (e.event.toSubscribers cur_notify) s' := by
  have hsame : ∀ s', Agrees r s' → Follows r [] s' := fun _ ha' _ => ⟨r, .nil, ha'⟩
  refine step_wp hs fun _ host hd => ?_
  cases he : e.event with
  | sync addr_type =>
      rw [he] at hd
      obtain ⟨-, rfl⟩ := of_guard hd
      refine Ends.return (I := Follows r []) (wp_onSync ?_ fun _ => hsame _ (ha.of_eq rfl rfl))
      exact wp_mono (fun _ _ _ => hsame _) (advertise_agrees (ha.of_eq rfl rfl))
  | lost =>
      rw [he] at hd
      obtain ⟨-, rfl⟩ := of_guard hd
      exact hsame _ (ha.of_eq rfl rfl)
  | reset reason =>
      rw [he] at hd
      obtain ⟨-, rfl⟩ := of_guard hd
      exact hsame _ (ha.of_eq rfl rfl)
  | gap event =>
      rw [he] at hd
      exact gapEvent_follows ha cur_notify hd

/-- What the callbacks do to `active_conn_handle` and the LED is what the machine of both
    tasks does while only `gap_event` runs, and its connections are those of the host. -/
theorem callbacks_refine {es : List Ev} {s : State} (hrun : Run step Always {} es s)
    (haborted : s.aborted = false) (cur_notify : Ev → Bool) :
    ∃ r, Run Subscribers.step Always {}
      (es.flatMap fun e => e.event.toSubscribers (cur_notify e)) r ∧
      r.srv = s.toServer ∧ r.opened = s.host.conns := by
  induction hrun with
  | nil => exact ⟨{}, .nil, rfl, rfl⟩
  | @snoc es s s' e _ _ hs ih =>
      have hbefore : s.aborted = false := by
        by_contra h
        simp [step, outcome, h] at hs
      obtain ⟨r, hr, hsrv, hopened⟩ := ih hbefore
      obtain ⟨r', hr', ha⟩ := step_follows ⟨hsrv, hopened⟩ (cur_notify e) hs haborted
      rw [List.flatMap_append, List.flatMap_singleton]
      exact ⟨r', hr.append hr', ha.srv, ha.opened⟩

/-- A client that subscribes. -/
theorem callbacks_refine_serve :
    ∃ r, Run Subscribers.step Always {}
      [.connect 1, .subscribe 1 true, .server .gapLed] r ∧ r.opened = [1] := by
  obtain ⟨s, hrun, haborted, hconns⟩ : ∃ s, Run step Always {} serve s ∧
      s.aborted = false ∧ s.host.conns = [1] := Run.exists_of_exec (by decide)
  obtain ⟨r, hr, -, hopened⟩ := callbacks_refine hrun haborted fun _ => true
  exact ⟨r, hr, hopened.trans hconns⟩

end Speedometer.Esp32.Peripheral
