/-
  Speedometer.Esp32.Boards

  The two ESP32 and the LED of the client: Esp32.Link and Esp32.ClientLed, which take the
  client's callbacks together and everything else on their own.

  `green_notified`: what the LED of the one board tells about the other.
-/

import Speedometer.Esp32.Link

namespace Speedometer.Esp32

open Cpp Handler Transition

/-- Both boards, and the client with its LED. -/
structure Boards where
  link : Link := {}
  lit : Client.Lit := {}
deriving DecidableEq

namespace Boards

/-- What can happen next. -/
inductive Ev
  /-- a callback of the client -/
  | client (e : Client.Ev)
  /-- anything else that happens to the boards -/
  | link (e : Link.Ev)
  /-- anything else that happens to the LED -/
  | led (e : Client.Lit.Ev)
deriving DecidableEq

/-- What an event is for the boards. -/
def Ev.toLink : Ev → Option Link.Ev
  | .client e => some (.client e)
  | .link e => some e
  | .led _ => none

/-- What it is for the LED. -/
def Ev.toLit : Ev → Option Client.Lit.Ev
  | .client e => some (.callback e)
  | .link _ => none
  | .led e => some e

/-- A callback of the client is a step of both. -/
def step (s : Boards) : Ev → Option Boards
  | .client e =>
      match Link.step s.link (.client e), Client.Lit.step s.lit (.callback e) with
      | some link, some lit => some { link, lit }
      | _, _ => none
  | .link (.client _) | .led (.callback _) => none
  | .link e => (Link.step s.link e).map fun link => { s with link }
  | .led e => (Client.Lit.step s.lit e).map fun lit => { s with lit }

variable {s s' : Boards}

/-- A step is one of each part, or leaves it alone. -/
theorem step_parts {e : Ev} (hs : step s e = some s') :
    (match e.toLink with
      | some e => Link.step s.link e = some s'.link
      | none => s'.link = s.link) ∧
      match e.toLit with
      | some e => Client.Lit.step s.lit e = some s'.lit
      | none => s'.lit = s.lit := by
  cases e with
  | client e =>
      simp only [step] at hs
      split at hs
      · rename_i link lit hlink hlit
        cases hs
        exact ⟨hlink, hlit⟩
      · cases hs
  | link e =>
      cases e with
      | client e => cases hs
      | ask | accept _ _ _ | write _ _ | server _ =>
          obtain ⟨link, hlink, rfl⟩ := Option.map_eq_some_iff.mp hs
          exact ⟨hlink, rfl⟩
  | led e =>
      cases e with
      | callback e => cases hs
      | call | fire _ | timerCall _ | timerReturn =>
          obtain ⟨lit, hlit, rfl⟩ := Option.map_eq_some_iff.mp hs
          exact ⟨rfl, hlit⟩

theorem link_run {es : List Ev} (h : Run step Always {} es s) :
    Run Link.step Always {} (es.filterMap Ev.toLink) s.link := by
  refine h.project (f := link) (K := fun _ => True) trivial (fun _ _ _ _ _ => trivial) ?_
  intro t e u _ _ hs
  have hlink := (step_parts hs).1
  cases e with
  | client e | link e => exact ⟨trivial, hlink⟩
  | led e => exact hlink

theorem lit_run {es : List Ev} (h : Run step Always {} es s) :
    Run Client.Lit.step Always {} (es.filterMap Ev.toLit) s.lit := by
  refine h.project (f := lit) (K := fun _ => True) trivial (fun _ _ _ _ _ => trivial) ?_
  intro t e u _ _ hs
  have hlit := (step_parts hs).2
  cases e with
  | client e | led e => exact ⟨trivial, hlit⟩
  | link e => exact hlit

/-- The two parts are about the same client. -/
theorem client_step (hc : s.lit.client = s.link.client) {e : Ev} (hs : step s e = some s') :
    s'.lit.client = s'.link.client := by
  obtain ⟨hlink, hlit⟩ := step_parts hs
  cases e with
  | client e =>
      obtain ⟨-, client, hclient, hlink, -⟩ := Link.step_client hlink
      have hlit := Client.Lit.step_callback hlit
      rw [hc, hclient, Option.some.injEq] at hlit
      rw [hlink, hlit]
  | link e =>
      have hsame : s'.link.client = s.link.client := by
        cases e with
        | client e => cases hs
        | ask | accept _ _ _ | write _ _ | server _ =>
            exact Link.step_other hlink fun _ heq => (by cases heq)
      rw [hsame, show s'.lit = s.lit from hlit, hc]
  | led e =>
      have hsame : s'.lit.client = s.lit.client := by
        cases e with
        | callback e => cases hs
        | call | fire _ | timerCall _ | timerReturn =>
            exact Client.Lit.step_other hlit fun _ heq => (by cases heq)
      rw [hsame, show s'.link = s.link from hlink, hc]

/-- When the callbacks of the client have returned and none of its tasks is in
    `error_led_print`, an LED that is steadily green means that the server has been told
    about the client's connection, and notifies it unless it has been told about its end as
    well. -/
theorem green_notified {es : List Ev} (h : Run step Always {} es s)
    (hreturned : s.lit.pending = []) (hhung : s.lit.client.hung = false)
    (htimer : s.lit.timer.failed = false) (hactive : s.lit.led.active = false)
    (hshown : s.lit.led.shown = Client.GREEN) :
    s.link.client.host.conn.isSome = true ∧ s.link.peripheral = s.link.central ∧
      (s.link.server.host.conns = [] ∨
        s.link.server.host.conns = [s.link.server.vars.active_conn_handle]) := by
  have hclient : s.lit.client = s.link.client :=
    h.invariant (I := fun s => s.lit.client = s.link.client) rfl fun _ _ _ hc _ hs =>
      client_step hc hs
  have hlit := Client.Lit.inv_of_run (lit_run h)
  have hsub : s.link.client.host.subscribed = true := by
    rw [← hclient]
    exact (hlit.returned hreturned hhung htimer).2 hactive hshown
  exact ⟨Client.Host.isSome_of_subscribed hsub, (Link.inv_of_run (link_run h)).agrees hsub⟩

/-- The boards come up and meet, as in `Link.upRun` and `Link.meetRun`. -/
def greenRun : List Ev :=
  [.client ⟨.sync 1, [0, 0, 0, 0, 0, 0, 0]⟩, .led .call, .led .call,
   .link (.server (Peripheral.syncWith [0, 0, 0])),
   .client Client.foundServer, .link .ask, .client Client.connected, .link (.accept 1 1 [0])] ++
  Client.setUp.map .client ++
  [.client Client.described, .link (.write 1 [0, 0]),
   -- the timer is stopped
   .client Client.answered, .led .call, .led .call, .led .call, .led .call]

theorem green_notified_met :
    ∃ s, Run step Always {} greenRun s ∧ s.link.peripheral = s.link.central ∧
      s.link.server.host.conns = [s.link.server.vars.active_conn_handle] := by
  obtain ⟨s, hrun, hopen, hreturned, hhung, htimer, hactive, hshown⟩ :
      ∃ s, Run step Always {} greenRun s ∧ s.link.server.host.conns ≠ [] ∧
        s.lit.pending = [] ∧ s.lit.client.hung = false ∧ s.lit.timer.failed = false ∧
        s.lit.led.active = false ∧ s.lit.led.shown = Client.GREEN :=
    Run.exists_of_exec (by decide)
  obtain ⟨-, hlast, hconns⟩ := green_notified hrun hreturned hhung htimer hactive hshown
  exact ⟨s, hrun, hlast, hconns.resolve_left hopen⟩

end Boards
end Speedometer.Esp32
