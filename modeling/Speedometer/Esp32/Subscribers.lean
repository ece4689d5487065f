/-
  Speedometer.Esp32.Subscribers

  Whom the ESP32 server notifies: `app_main` and `gap_event` against the connections
  of the BLE clients and what they have subscribed to.

  `gap_event` stores the handle of every SUBSCRIBE event, also of one that disables
  notifications, and `app_main` tests the handle before it waits for the UART and
  loads it again before it notifies.  `notify_live_iff` says exactly which calls of
  `ble_gatts_notify_custom` reach a live subscriber.
-/

import Speedometer.Esp32.Server
import Speedometer.Lib.Run

namespace Speedometer.Esp32

open Server Transition

/-- The events that change `active_conn_handle`, with what they report. -/
inductive Report
  | subscribe (conn_handle : BitVec 16) (cur_notify : Bool)
  | disconnect (conn_handle : BitVec 16)
deriving DecidableEq

def Report.conn_handle : Report → BitVec 16
  | .subscribe conn_handle _ | .disconnect conn_handle => conn_handle

/-- A call of `ble_gatts_notify_custom`: the handle, whether its connection is open and
    whether notifications are enabled on it. -/
structure NotifyCall where
  conn_handle : BitVec 16
  isOpen : Bool
  isEnabled : Bool
deriving DecidableEq

/-- The connection is open and its peer has notifications enabled. -/
def NotifyCall.Live (c : NotifyCall) : Prop := c.isOpen = true ∧ c.isEnabled = true

/-- The server, the connections, and what has been reported and called. -/
structure Subscribers where
  srv : Server.State := {}
  /-- handles of the open connections -/
  opened : List (BitVec 16) := []
  /-- handles of the connections with notifications enabled -/
  enabled : List (BitVec 16) := []
  /-- the reports so far, the latest first -/
  reports : List Report := []
  /-- the reports when `app_main` last loaded `active_conn_handle` to notify -/
  loaded : List Report := []
  /-- the calls of `ble_gatts_notify_custom` -/
  calls : List NotifyCall := []
deriving DecidableEq

namespace Subscribers

/-- What can happen next. -/
inductive Ev
  | connect (conn_handle : BitVec 16)
  | subscribe (conn_handle : BitVec 16) (cur_notify : Bool)
  | disconnect (conn_handle : BitVec 16)
  /-- a GAP event `gap_event` does nothing about that `app_main` can observe -/
  | otherGap
  | server (e : Server.Ev)
deriving DecidableEq

/-- A step of the server on its own. -/
def IsOwn : Server.Ev → Bool
  | .gap _ => false
  | _ => true

/-- Recording a step of the server that leads to `srv`. -/
def record (r : Subscribers) (srv : Server.State) : Server.Ev → Subscribers
  | .tau => if r.srv.loc = .loadHandle then { r with srv, loaded := r.reports } else { r with srv }
  | .notify _ =>
      { r with
        srv
        calls := r.calls ++
          [⟨r.srv.handle, decide (r.srv.handle ∈ r.opened), decide (r.srv.handle ∈ r.enabled)⟩] }
  | _ => { r with srv }

/-- `gap_event` is called about something that the host has done to `r`. -/
def onGap (r : Subscribers) (event : GapEvent) : Option Subscribers :=
  match Server.step r.srv (.gap event) with
  | some srv => some { r with srv }
  | none => none

/-- A step of the server or of the host. -/
def step (r : Subscribers) : Ev → Option Subscribers
  | .connect conn_handle =>
      if conn_handle ≠ NO_CONN_HANDLE ∧ conn_handle ∉ r.opened then
        onGap { r with opened := conn_handle :: r.opened } .other
      else none
  | .subscribe conn_handle cur_notify =>
      if conn_handle ∈ r.opened then
        onGap
          { r with
            reports := .subscribe conn_handle cur_notify :: r.reports
            enabled :=
              if cur_notify then conn_handle :: r.enabled
              else r.enabled.filter (· ≠ conn_handle) }
          (.subscribe conn_handle)
      else none
  | .disconnect conn_handle =>
      if conn_handle ∈ r.opened then
        onGap
          { r with
            reports := .disconnect conn_handle :: r.reports
            opened := r.opened.filter (· ≠ conn_handle)
            enabled := r.enabled.filter (· ≠ conn_handle) }
          .disconnect
      else none
  | .otherGap => onGap r .other
  | .server e =>
      if IsOwn e then
        match Server.step r.srv e with
        | some srv => some (r.record srv e)
        | none => none
      else none

/-- The last report about a connection. -/
def lastOf (conn_handle : BitVec 16) (reports : List Report) : Option Report :=
  reports.find? (·.conn_handle = conn_handle)

/-- `app_main` notifies only when the last report before it loaded the handle was a
    SUBSCRIBE, and the last report about that connection before the call is a SUBSCRIBE
    that enables notifications. -/
def Serves (r : Subscribers) : Ev → Prop
  | .server (.notify _) =>
      match r.loaded with
      | .subscribe conn_handle _ :: _ =>
          lastOf conn_handle r.reports = some (.subscribe conn_handle true)
      | _ => False
  | _ => True

instance (r : Subscribers) : (e : Ev) → Decidable (r.Serves e)
  | .server (.notify _) =>
      match hl : r.loaded with
      | .subscribe conn_handle _ :: _ => decidable_of_iff
          (lastOf conn_handle r.reports = some (.subscribe conn_handle true)) (by simp [Serves, hl])
      | .disconnect _ :: _ => isFalse (by simp [Serves, hl])
      | [] => isFalse (by simp [Serves, hl])
  | .server (.gap _) | .server .gapLed | .server .tau | .server (.readUart _)
  | .connect _ | .subscribe _ _ | .disconnect _ | .otherGap => isTrue trivial

/-! ## Invariant -/

/-- What the reports make of `active_conn_handle`. -/
def activeOf : List Report → BitVec 16
  | .subscribe conn_handle _ :: _ => conn_handle
  | _ => NO_CONN_HANDLE

structure Inv (r : Subscribers) : Prop where
  active : r.srv.active_conn_handle = activeOf r.reports
  handle : r.srv.loc = .notify → r.srv.handle = activeOf r.loaded
  enabled : ∀ h, h ∈ r.enabled ↔ lastOf h r.reports = some (.subscribe h true)
  opened : ∀ h ∈ r.enabled, h ∈ r.opened
  noConn : NO_CONN_HANDLE ∉ r.opened

theorem start_inv : Inv {} :=
  ⟨rfl, fun hl => (by cases hl), by simp [lastOf], by simp, by simp⟩

variable {r r' : Subscribers}

theorem onGap_some {event : GapEvent} (hs : onGap r event = some r') :
    ∃ srv, Server.step r.srv (.gap event) = some srv ∧ r' = { r with srv } := by
  simp only [onGap] at hs
  split at hs
  · rename_i srv hsrv
    simp only [Option.some.injEq] at hs
    exact ⟨srv, hsrv, hs.symm⟩
  · cases hs

theorem step_server {e : Server.Ev} (hs : step r (.server e) = some r') :
    IsOwn e = true ∧ ∃ srv, Server.step r.srv e = some srv ∧ r' = r.record srv e := by
  simp only [step, Option.ite_none_right_eq_some] at hs
  obtain ⟨hown, hs⟩ := hs
  split at hs
  · rename_i srv hsrv
    simp only [Option.some.injEq] at hs
    exact ⟨hown, srv, hsrv, hs.symm⟩
  · cases hs

theorem lastOf_cons (h : BitVec 16) (report : Report) (reports : List Report) :
    lastOf h (report :: reports) =
      if report.conn_handle = h then some report else lastOf h reports := by
  by_cases hh : report.conn_handle = h <;> simp [lastOf, hh]

/-- A GAP event, after the host has changed the connections. -/
theorem Inv.onGap {r₀ : Subscribers} (h : Inv r₀) {event : GapEvent}
    (hs : onGap r event = some r') (hsrv : r.srv = r₀.srv) (hloaded : r.loaded = r₀.loaded)
    (hactive : Server.Ev.activeAfter (.gap event) (activeOf r₀.reports) = activeOf r.reports)
    (henabled : ∀ h, h ∈ r.enabled ↔ lastOf h r.reports = some (.subscribe h true))
    (hopened : ∀ h ∈ r.enabled, h ∈ r.opened) (hno : NO_CONN_HANDLE ∉ r.opened) : Inv r' := by
  obtain ⟨srv, hstep, rfl⟩ := onGap_some hs
  rw [hsrv] at hstep
  have heff := step_effect hstep
  refine ⟨?_, ?_, henabled, hopened, hno⟩
  · show srv.active_conn_handle = activeOf r.reports
    rw [heff.active, h.active]
    exact hactive
  · intro hl
    -- `gap_event` does not move `app_main`
    have hl₀ : r₀.srv.loc = .notify := (heff.to_notify hl).resolve_right (by simp)
    show srv.handle = activeOf r.loaded
    rw [heff.handle, if_neg (by simp), hloaded]
    exact h.handle hl₀

/-- A step of the server on its own. -/
theorem Inv.server (h : Inv r) {e : Server.Ev} (hown : IsOwn e = true) {srv : Server.State}
    (hs : Server.step r.srv e = some srv) : Inv (r.record srv e) := by
  have heff := step_effect hs
  have hactive : srv.active_conn_handle = activeOf r.reports := by
    rw [heff.active, ← h.active]
    cases e with
    | gap _ => cases hown
    | _ => rfl
  -- a call is reached from the load, or was reached before
  have hkeep : ¬(e = .tau ∧ r.srv.loc = .loadHandle) → srv.loc = .notify →
      srv.handle = activeOf r.loaded := by
    intro hne hl
    rw [heff.handle, if_neg hne]
    exact h.handle ((heff.to_notify hl).resolve_right hne)
  cases e with
  | tau =>
      by_cases hload : r.srv.loc = .loadHandle
      · simp only [record, if_pos hload]
        refine ⟨hactive, fun _ => ?_, h.enabled, h.opened, h.noConn⟩
        show srv.handle = activeOf r.reports
        rw [heff.handle, if_pos ⟨rfl, hload⟩]
        exact h.active
      · simp only [record, if_neg hload]
        exact ⟨hactive, hkeep (by simp [hload]), h.enabled, h.opened, h.noConn⟩
  | gap _ => cases hown
  | gapLed | readUart _ | notify _ =>
      exact ⟨hactive, hkeep (by simp), h.enabled, h.opened, h.noConn⟩

/-- Every step keeps the invariant. -/
theorem Inv.step (h : Inv r) {e : Ev} (hs : step r e = some r') : Inv r' := by
  cases e with
  | server e =>
      obtain ⟨hown, srv, hsrv, rfl⟩ := step_server hs
      exact h.server hown hsrv
  | otherGap => exact h.onGap hs rfl rfl rfl h.enabled h.opened h.noConn
  | connect conn_handle =>
      simp only [Subscribers.step, Option.ite_none_right_eq_some] at hs
      obtain ⟨⟨hne, -⟩, hs⟩ := hs
      -- a new connection has enabled nothing
      refine h.onGap hs rfl rfl rfl h.enabled
        (fun a ha => List.mem_cons_of_mem _ (h.opened a ha)) ?_
      intro hmem
      rcases List.mem_cons.mp hmem with heq | hmem
      · exact hne heq.symm
      · exact h.noConn hmem
  | subscribe conn_handle cur_notify =>
      simp only [Subscribers.step, Option.ite_none_right_eq_some] at hs
      obtain ⟨hopen, hs⟩ := hs
      -- the report of a SUBSCRIBE is the last one about its connection
      refine h.onGap hs rfl rfl rfl (fun a => ?_) (fun a ha => ?_) h.noConn
      · rw [lastOf_cons]
        by_cases ha : conn_handle = a
        · subst ha
          cases cur_notify <;> simp [Report.conn_handle]
        · have hne : ¬a = conn_handle := fun h => ha h.symm
          cases cur_notify <;> simp [Report.conn_handle, ha, hne, h.enabled a]
      · cases cur_notify with
        | true =>
            rcases List.mem_cons.mp ha with rfl | ha
            · exact hopen
            · exact h.opened a ha
        | false => exact h.opened a (List.mem_filter.mp ha).1
  | disconnect conn_handle =>
      simp only [Subscribers.step, Option.ite_none_right_eq_some] at hs
      obtain ⟨-, hs⟩ := hs
      -- and so is that of a DISCONNECT
      refine h.onGap hs rfl rfl rfl (fun a => ?_) (fun a ha => ?_) fun hno => ?_
      · rw [lastOf_cons]
        by_cases ha : conn_handle = a
        · subst ha
          simp [Report.conn_handle]
        · have hne : ¬a = conn_handle := fun h => ha h.symm
          simp [Report.conn_handle, ha, hne, h.enabled a]
      · simp only [List.mem_filter] at ha ⊢
        exact ⟨h.opened a ha.1, ha.2⟩
      · exact h.noConn (List.mem_filter.mp hno).1

/-! ## Calls -/

/-- A step adds to the calls at most the notification it makes, which is live exactly when
    the reports say so. -/
theorem calls_step (h : Inv r) {e : Ev} (hs : step r e = some r') :
    (∀ c ∈ r'.calls, c.Live) ↔ (∀ c ∈ r.calls, c.Live) ∧ r.Serves e := by
  have hsame : r'.calls = r.calls → r.Serves e →
      ((∀ c ∈ r'.calls, c.Live) ↔ (∀ c ∈ r.calls, c.Live) ∧ r.Serves e) := by
    intro heq hserves
    rw [heq]
    exact ⟨fun hc => ⟨hc, hserves⟩, fun hc => hc.1⟩
  cases e with
  | otherGap =>
      obtain ⟨srv, -, rfl⟩ := onGap_some hs
      exact hsame rfl trivial
  | connect _ | subscribe _ _ | disconnect _ =>
      simp only [step, Option.ite_none_right_eq_some] at hs
      obtain ⟨srv, -, rfl⟩ := onGap_some hs.2
      exact hsame rfl trivial
  | server e =>
      obtain ⟨hown, srv, hsrv, rfl⟩ := step_server hs
      cases e with
      | gap _ => cases hown
      | gapLed | readUart _ => exact hsame rfl trivial
      | tau =>
          refine hsame ?_ trivial
          simp only [record]
          split <;> rfl
      | notify rc =>
          simp only [Server.step, Option.ite_none_right_eq_some] at hsrv
          have hhandle := h.handle hsrv.1
          -- the call of this step
          have hcall : NotifyCall.Live ⟨r.srv.handle, decide (r.srv.handle ∈ r.opened),
              decide (r.srv.handle ∈ r.enabled)⟩ ↔ r.Serves (.server (.notify rc)) := by
            simp only [NotifyCall.Live, decide_eq_true_eq, Serves, hhandle]
            split
            · rename_i conn_handle n rest hl
              simp only [hl, activeOf, ← h.enabled]
              exact ⟨fun hc => hc.2, fun hc => ⟨h.opened _ hc, hc⟩⟩
            · rename_i hne
              -- the handle of no connection
              have hno : activeOf r.loaded = NO_CONN_HANDLE := by
                unfold activeOf
                split
                · rename_i a b c heq
                  exact absurd heq (hne a b c)
                · rfl
              rw [hno]
              exact ⟨fun hc => h.noConn hc.1, False.elim⟩
          simp only [record, List.forall_mem_append, List.forall_mem_singleton]
          exact and_congr_right fun _ => hcall

/-- In every run: every call of `ble_gatts_notify_custom` is made with the handle of an
    open connection whose peer has notifications enabled, if and only if at each call the
    last report before the handle was loaded is a SUBSCRIBE and the last report about its
    connection is one that enables notifications. -/
theorem notify_live_iff {es : List Ev} (h : Run step Always {} es r) :
    (∀ c ∈ r.calls, c.Live) ↔ Run step Serves {} es r := by
  constructor
  · intro hlive
    -- from the last call back: the calls before a step are live too
    induction h with
    | nil => exact .nil
    | snoc hrun _ hs ih =>
        have hinv := hrun.invariant start_inv fun _ _ _ hi _ hs => hi.step hs
        obtain ⟨hbefore, hserves⟩ := (calls_step hinv hs).mp hlive
        exact .snoc (ih hbefore) hserves hs
  · intro hrun
    refine (hrun.invariant (I := fun r => Inv r ∧ ∀ c ∈ r.calls, c.Live)
      ⟨start_inv, by simp⟩ fun t e u hi hserves hs => ?_).2
    exact ⟨hi.1.step hs, (calls_step hi.1 hs).mpr ⟨hi.2, hserves⟩⟩

/-- A client subscribes and one packet is read and passed on; `es` happens before the
    call. -/
def notifyAfter (es : List Ev) : List Ev :=
  [.connect 1, .subscribe 1 true, .server .gapLed, .server .tau, .server .tau,
   .server (.readUart (some [1, 2, 3])), .server .tau] ++ es ++ [.server .tau, .server (.notify 0)]

theorem notify_live_iff_subscribed :
    ∃ r, Run step Always {} (notifyAfter []) r ∧ r.calls.length = 1 ∧
      ((∀ c ∈ r.calls, c.Live) ↔ Run step Serves {} (notifyAfter []) r) := by
  obtain ⟨r, hrun, hlen⟩ : ∃ r, Run step Always {} (notifyAfter []) r ∧ r.calls.length = 1 :=
    Run.exists_of_exec (by decide)
  exact ⟨r, hrun, hlen, notify_live_iff hrun⟩

/-- A client that has unsubscribed is notified. -/
theorem notify_unsubscribed :
    ∃ es r, Run step Always {} es r ∧ ∃ c ∈ r.calls, c.isOpen = true ∧ c.isEnabled = false := by
  obtain ⟨r, hrun, h⟩ : ∃ r, Run step Always {}
      (notifyAfter [.subscribe 1 false, .server .gapLed]) r ∧
      ∃ c ∈ r.calls, c.isOpen = true ∧ c.isEnabled = false := Run.exists_of_exec (by decide)
  exact ⟨_, r, hrun, h⟩

end Subscribers
end Speedometer.Esp32
