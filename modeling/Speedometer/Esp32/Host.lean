/-
  Speedometer.Esp32.Host

  The NimBLE host under the ESP32 client: what it has under way, which events it
  can deliver, and what the calls of the callbacks change about it.

  The host holds one connection at a time, delivers the events of a connection
  only while it is open, and reports on a GATT procedure only while that procedure
  is outstanding.  Callbacks run one after the other; `step` is one of them, with
  the return codes of its calls in the event.
-/

import Speedometer.Esp32.Client

namespace Speedometer.Esp32.Client

open Cpp Handler Transition

/-! ## The host -/

/-- An open connection: what is outstanding on it, and what has happened on it. -/
structure Conn where
  handle : BitVec 16
  /-- `ble_gap_security_initiate` has been answered by no `ENC_CHANGE` yet -/
  encrypting : Bool := false
  /-- outstanding service discoveries -/
  svcs : Nat := 0
  /-- outstanding characteristic discoveries -/
  chrs : Nat := 0
  /-- outstanding descriptor discoveries -/
  dscs : Nat := 0
  /-- outstanding writes of the CCCD -/
  writes : Nat := 0
  /-- a write of the CCCD has succeeded -/
  subscribed : Bool := false
  /-- `ble_gap_terminate` has been called -/
  terminated : Bool := false
  /-- an `ENC_CHANGE` with status 0 has been delivered -/
  encrypted : Bool := false
  /-- the `end_handle` of the last service reported -/
  end_handle : Option (BitVec 16) := none
  /-- the `val_handle` of the last characteristic reported -/
  val_handle : Option (BitVec 16) := none
  /-- what the calls of `ble_gattc_disc_all_dscs` returned -/
  dscRcs : List Int := []
deriving DecidableEq

/-- A call of `ble_gattc_disc_all_dscs`, with the connection it was made on. -/
structure DscCall where
  conn : Option Conn
  conn_handle : BitVec 16
  start_handle : BitVec 16
  end_handle : BitVec 16
  rc : Int
deriving DecidableEq

/-- A write of the CCCD, with the connection it was made on. -/
structure WriteCall where
  conn : Option Conn
  conn_handle : BitVec 16
  rc : Int
deriving DecidableEq

/-- What the host has under way, and the calls recorded. -/
structure Host where
  synced : Bool := false
  scanning : Bool := false
  connecting : Bool := false
  conn : Option Conn := none
  dscCalls : List DscCall := []
  writeCalls : List WriteCall := []
deriving DecidableEq

/-- A change of the open connection, if it has the given handle. -/
def Host.onConn (h : Host) (conn_handle : BitVec 16) (f : Conn → Conn) : Host :=
  { h with conn := h.conn.map fun c => if c.handle = conn_handle then f c else c }

def Conn.terminate (c : Conn) : Conn := { c with terminated := true }

def Conn.dscCalled (c : Conn) (rc : Int) : Conn :=
  { c with dscRcs := c.dscRcs ++ [rc], dscs := if rc = 0 then c.dscs + 1 else c.dscs }

/-- What a call changes about the host, given what it returns. -/
def effect : Call → Int → Host → Host
  | .bleGapDisc _ _, rc, h => if rc = 0 then { h with scanning := true } else h
  | .bleGapDiscCancel, rc, h => if rc = 0 then { h with scanning := false } else h
  | .bleGapConnect _ _ _, rc, h => if rc = 0 then { h with connecting := true } else h
  -- no callback looks at what `ble_gap_terminate` returns
  | .bleGapTerminate conn_handle _, _, h => h.onConn conn_handle .terminate
  | .bleGapSecurityInitiate conn_handle, rc, h =>
      if rc = 0 then h.onConn conn_handle fun c => { c with encrypting := true } else h
  | .bleGattcDiscSvcByUuid conn_handle _, rc, h =>
      if rc = 0 then h.onConn conn_handle fun c => { c with svcs := c.svcs + 1 } else h
  | .bleGattcDiscChrsByUuid conn_handle _ _ _, rc, h =>
      if rc = 0 then h.onConn conn_handle fun c => { c with chrs := c.chrs + 1 } else h
  | .bleGattcDiscAllDscs conn_handle start_handle end_handle, rc, h =>
      { h.onConn conn_handle (·.dscCalled rc) with
        dscCalls := h.dscCalls ++ [⟨h.conn, conn_handle, start_handle, end_handle, rc⟩] }
  | .bleGattcWriteFlat conn_handle _ _, rc, h =>
      { h.onConn conn_handle
          (fun c => { c with writes := if rc = 0 then c.writes + 1 else c.writes }) with
        writeCalls := h.writeCalls ++ [⟨h.conn, conn_handle, rc⟩] }
  | _, _, h => h

/-- The callbacks the host can run. -/
inductive Event
  | sync (addr_type : BitVec 8)
  | gap (event : GapEvent)
  | service (conn_handle error_status : BitVec 16) (svc : Option GattSvc)
  | characteristic (conn_handle error_status : BitVec 16) (chr : Option GattChr)
  | descriptor (conn_handle error_status : BitVec 16) (dsc : Option GattDsc)
  | subscription (conn_handle error_status : BitVec 16)
deriving DecidableEq

def Event.callback : Event → Callback Int
  | .sync addr_type => do onSync addr_type; return 0
  | .gap event => gapEvent event
  | .service conn_handle error_status svc =>
      onServiceDiscovery conn_handle error_status svc
  | .characteristic conn_handle error_status chr =>
      onCharacteristicDiscovery conn_handle error_status chr
  | .descriptor conn_handle error_status dsc =>
      onDescriptorDiscovery conn_handle error_status dsc
  | .subscription conn_handle error_status => onSubscription conn_handle error_status

/-- A report about the open connection, if it has the given handle and `f` allows it. -/
def Host.report (h : Host) (conn_handle : BitVec 16) (f : Conn → Option Conn) : Option Host :=
  match h.conn with
  | some c =>
      if c.handle = conn_handle then (f c).map fun c => { h with conn := some c } else none
  | none => none

/-- Outstanding procedures after a report with the given status: `status` 0 is a result,
    anything else is the end of the procedure. -/
def remaining (n : Nat) (error_status : BitVec 16) : Nat := if error_status = 0 then n else n - 1

@[simp] theorem remaining_zero (n : Nat) : remaining n 0 = n := rfl

@[simp] theorem remaining_EDONE (n : Nat) : remaining n BLE_HS_EDONE = n - 1 := rfl

/-- The host when it calls back about an event, or `none` when it does not. -/
def Host.deliver (h : Host) : Event → Option Host
  | .sync _ =>
      if h.scanning = false ∧ h.connecting = false ∧ h.conn = none then
        some { h with synced := true }
      else none
  | .gap (.disc _) => if h.scanning then some h else none
  | .gap (.connect status conn_handle _) =>
      if h.connecting = true ∧ h.conn = none then
        some { h with
          connecting := false
          conn := if status = 0 then some { handle := conn_handle } else none }
      else none
  | .gap .disconnect => if h.conn.isSome then some { h with conn := none } else none
  | .gap (.encChange status conn_handle) =>
      h.report conn_handle fun c =>
        -- whatever its status, it answers the request
        some { c with encrypting := false, encrypted := c.encrypted || status = 0 }
  | .gap (.notifyRx _) => if h.conn.isSome then some h else none
  | .gap (.repeatPairing conn_handle _) => h.report conn_handle some
  | .gap .other => some h
  | .service conn_handle error_status svc =>
      h.report conn_handle fun c =>
        if 0 < c.svcs then
          some { c with
            svcs := remaining c.svcs error_status
            end_handle := (reported error_status svc).elim c.end_handle (some ·.end_handle) }
        else none
  | .characteristic conn_handle error_status chr =>
      h.report conn_handle fun c =>
        if 0 < c.chrs then
          some { c with
            chrs := remaining c.chrs error_status
            val_handle := (reported error_status chr).elim c.val_handle (some ·.val_handle) }
        else none
  | .descriptor conn_handle error_status _ =>
      h.report conn_handle fun c =>
        if 0 < c.dscs then some { c with dscs := remaining c.dscs error_status } else none
  | .subscription conn_handle error_status =>
      h.report conn_handle fun c =>
        if 0 < c.writes then
          some { c with
            writes := c.writes - 1
            subscribed := c.subscribed || error_status = 0 }
        else none

/-- The host after a callback has returned: a discovery whose callback returns something
    else than 0 is given up. -/
def Host.returned (h : Host) (ret : Int) : Event → Host
  | .service conn_handle error_status _ =>
      if error_status = 0 ∧ ret ≠ 0 then
        h.onConn conn_handle fun c => { c with svcs := c.svcs - 1 }
      else h
  | .characteristic conn_handle error_status _ =>
      if error_status = 0 ∧ ret ≠ 0 then
        h.onConn conn_handle fun c => { c with chrs := c.chrs - 1 }
      else h
  | .descriptor conn_handle error_status _ =>
      if error_status = 0 ∧ ret ≠ 0 then
        h.onConn conn_handle fun c => { c with dscs := c.dscs - 1 }
      else h
  | .sync _ | .gap _ | .subscription _ _ => h

theorem Host.report_eq_some {h h' : Host} {conn_handle : BitVec 16} {f : Conn → Option Conn} :
    h.report conn_handle f = some h' ↔
      ∃ c c', h.conn = some c ∧ c.handle = conn_handle ∧ f c = some c' ∧
        { h with conn := some c' } = h' := by
  unfold Host.report
  cases h.conn with
  | none => simp
  | some c =>
      by_cases hc : c.handle = conn_handle
      · simp [hc]
      · simp [hc]

section OnConn

variable (h : Host) (conn_handle : BitVec 16) (f : Conn → Conn)

@[simp] theorem Host.onConn_isSome : (h.onConn conn_handle f).conn.isSome = h.conn.isSome := by
  simp [Host.onConn]

variable {h f}

theorem Host.onConn_conn {c : Conn} (hc : h.conn = some c) {ch : BitVec 16}
    (hch : c.handle = ch := by rfl) : h.onConn ch f = { h with conn := some (f c) } := by
  simp [Host.onConn, hc, hch]

/-- A call of `ble_gattc_disc_all_dscs` on the open connection. -/
theorem effect_discAllDscs {h : Host} {c : Conn} (hc : h.conn = some c)
    (start_handle end_handle : BitVec 16) (rc : Int) :
    effect (.bleGattcDiscAllDscs c.handle start_handle end_handle) rc h =
      { h with
        conn := some (c.dscCalled rc)
        dscCalls := h.dscCalls ++ [⟨some c, c.handle, start_handle, end_handle, rc⟩] } := by
  simp only [effect, Host.onConn_conn hc, hc]

/-- A write of the CCCD on the open connection. -/
theorem effect_writeFlat {h : Host} {c : Conn} (hc : h.conn = some c) (attr_handle : BitVec 16)
    (data : List (BitVec 8)) (rc : Int) :
    effect (.bleGattcWriteFlat c.handle attr_handle data) rc h =
      { h with
        conn := some { c with writes := if rc = 0 then c.writes + 1 else c.writes }
        writeCalls := h.writeCalls ++ [⟨some c, c.handle, rc⟩] } := by
  simp only [effect, Host.onConn_conn hc, hc]

end OnConn

/-! ## Steps -/

/-- The client between two callbacks; `hung` when it is in the loop of
    `error_led_print`. -/
structure State where
  vars : Vars := {}
  host : Host := {}
  hung : Bool := false
deriving DecidableEq

/-- A callback, with what the calls it makes return. -/
structure Ev where
  event : Event
  rcs : List Int := []
deriving DecidableEq

/-- The run of one callback. -/
def outcome (s : State) (e : Ev) : Option (Outcome Vars Call Host Int) :=
  if s.hung then none
  else
    match s.host.deliver e.event with
    | some host => exec effect e.event.callback e.rcs s.vars host
    | none => none

/-- The client after a callback that returned a number, or never returned. -/
def State.after (event : Event) : Option Int → Vars → Host → State
  | some ret, vars, host => { vars, host := host.returned ret event, hung := false }
  | none, vars, host => { vars, host, hung := true }

@[simp] theorem State.after_sync (addr_type : BitVec 8) (o : Option Int) (v : Vars) (h : Host) :
    State.after (.sync addr_type) o v h = { vars := v, host := h, hung := o.isNone } := by
  cases o <;> rfl

@[simp] theorem State.after_gap (event : GapEvent) (o : Option Int) (v : Vars) (h : Host) :
    State.after (.gap event) o v h = { vars := v, host := h, hung := o.isNone } := by
  cases o <;> rfl

def step (s : State) (e : Ev) : Option State :=
  match outcome s e with
  | some o => some (State.after e.event o.val o.vars o.world)
  | none => none

/-- The calls a callback makes, with what they return. -/
def calls (s : State) (e : Ev) : List (Call × Int) :=
  match outcome s e with
  | some o => o.calls
  | none => []

/-- The calls of a callback return only what `ok` admits. -/
def Answered (ok : Call → Int → Prop) (s : State) (e : Ev) : Prop := ∀ c ∈ calls s e, ok c.1 c.2

instance (ok : Call → Int → Prop) [∀ c rc, Decidable (ok c rc)] (s : State) (e : Ev) :
    Decidable (Answered ok s e) :=
  inferInstanceAs (Decidable (∀ c ∈ calls s e, ok c.1 c.2))

/-- The step rule: what the weakest precondition of the callback asks of every host that
    delivers the event holds after the step. -/
theorem step_wp {ok : Call → Int → Prop} {s s' : State} {e : Ev} {P : State → Prop}
    (hans : Answered ok s e) (hs : step s e = some s')
    (hP : s.hung = false → ∀ host, s.host.deliver e.event = some host →
      wp effect ok e.event.callback (fun o v h => P (State.after e.event o v h)) s.vars host) :
    P s' := by
  simp only [Answered, calls] at hans
  simp only [step] at hs
  cases ho : outcome s e with
  | none =>
      rw [ho] at hs
      cases hs
  | some o =>
      rw [ho] at hs hans
      simp only [Option.some.injEq] at hs
      subst hs
      simp only [outcome] at ho
      cases hh : s.hung with
      | true =>
          rw [hh] at ho
          cases ho
      | false =>
          cases hd : s.host.deliver e.event with
          | none =>
              rw [hh, hd] at ho
              cases ho
          | some host =>
              rw [hh, hd] at ho
              exact wp_sound (hP hh host hd) ho hans

end Speedometer.Esp32.Client
