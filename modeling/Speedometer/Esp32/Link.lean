/-
  Speedometer.Esp32.Link

  The two ESP32 and the BLE connection between them: the callbacks of the client and
  those of the server, each with its own host, and what is on its way from one to the
  other.

  A connection has the number under which the client's controller has asked for it.
  Either host may report it first, or never, and may report its end at any time; what is
  on its way then may be lost.  `boards_agree`: a client that is subscribed is the one the
  server notifies, until the server is told that the connection is gone.
  `boards_meet_again`: once a link that there is has been lost, the two can get there again
  without another loss and without either controller being reset.
-/

import Speedometer.Esp32.Advertising
import Speedometer.Esp32.ClientLed
import Speedometer.Esp32.Subscription

namespace Speedometer.Esp32

open Cpp Handler Transition
open Speedometer.Esp32.Server (NO_CONN_HANDLE LED_HSV_OFF)

/-! ## The ends of a connection -/

/-- The host of the client reports a new connection. -/
def Client.Event.opens : Client.Event → Bool
  | .gap (.connect status _ _) => status = 0
  | _ => false

/-- The host of the client reports that the CCCD has been written. -/
def Client.Event.subscribes : Client.Event → Bool
  | .subscription _ error_status => error_status = 0
  | _ => false

theorem Client.Event.opens_of_subscribes {event : Client.Event} (h : event.subscribes = true) :
    event.opens = false := by
  cases event with
  | subscription _ _ => rfl
  | sync _ | gap _ | service _ _ _ | characteristic _ _ _ | descriptor _ _ _ => cases h

/-- The host of the server reports a new connection. -/
def Peripheral.Event.opens : Peripheral.Event → Bool
  | .gap (.connect status _) => status = 0
  | _ => false

/-- The writes of the CCCD that a callback has put on their way. -/
def cccdWrites (calls : List (Client.Call × Int)) : Nat :=
  calls.countP fun
    | (.bleGattcWriteFlat _ _ _, rc) => rc = 0
    | _ => false

/-- The two boards, and what is between them. -/
structure Link where
  client : Client.State := {}
  server : Peripheral.State := {}
  /-- the number of the last connection the client's controller has asked for -/
  asked : Nat := 0
  /-- the number of the last connection reported to the client -/
  central : Nat := 0
  /-- and of the last one reported to the server -/
  peripheral : Nat := 0
  /-- the writes of the CCCD on their way, each with the number of its connection -/
  writes : List Nat := []
  /-- and the answers to them that report success -/
  answers : List Nat := []
deriving DecidableEq

namespace Link

/-- What can happen next. -/
inductive Ev
  /-- the client's controller answers an advertisement with a connection request -/
  | ask
  | client (e : Client.Ev)
  /-- the server's host reports a connection that was asked for -/
  | accept (n : Nat) (conn_handle : BitVec 16) (rcs : List Int)
  /-- the server's host reports a write of the CCCD, and answers it when the callback has
      returned -/
  | write (conn_handle : BitVec 16) (rcs : List Int)
  /-- any other callback of the server -/
  | server (e : Peripheral.Ev)
deriving DecidableEq

/-- What the host of the client waits for before it reports an event. -/
def Ready (s : Link) (event : Client.Event) : Prop :=
  (event.opens = true → s.central < s.asked) ∧
    (event.subscribes = true → s.answers.contains s.central = true)

instance (s : Link) (event : Client.Event) : Decidable (s.Ready event) :=
  inferInstanceAs (Decidable ((event.opens = true → s.central < s.asked) ∧
    (event.subscribes = true → s.answers.contains s.central = true)))

/-- The number of the client's connection when an event has been reported. -/
def centralAfter (s : Link) (event : Client.Event) : Nat :=
  if event.opens then s.asked else s.central

/-- A callback of either board, or a step of the controllers. -/
def step (s : Link) : Ev → Option Link
  | .ask =>
      if s.client.host.connecting = true ∧ s.client.host.conn.isNone = true ∧
          s.server.host.advertising = true then
        some { s with asked := s.asked + 1 }
      else none
  | .client e =>
      if s.Ready e.event then
        match Client.step s.client e with
        | some client =>
            some { s with
              client
              central := s.centralAfter e.event
              writes := s.writes ++
                List.replicate (cccdWrites (Client.calls s.client e)) (s.centralAfter e.event)
              answers := if e.event.subscribes then s.answers.erase s.central else s.answers }
        | none => none
      else none
  | .accept n conn_handle rcs =>
      if s.peripheral < n ∧ n ≤ s.asked then
        match Peripheral.step s.server ⟨.gap (.connect 0 conn_handle), rcs⟩ with
        | some server => some { s with server, peripheral := n }
        | none => none
      else none
  | .write conn_handle rcs =>
      if s.writes.contains s.peripheral then
        match Peripheral.step s.server ⟨.gap (.subscribe conn_handle), rcs⟩ with
        | some server =>
            some { s with
              server
              writes := s.writes.erase s.peripheral
              answers := s.answers ++ if server.aborted then [] else [s.peripheral] }
        | none => none
      else none
  | .server e =>
      if e.event.opens then none
      else
        match Peripheral.step s.server e with
        | some server => some { s with server }
        | none => none

end Link

/-! ## The server's end -/

namespace Peripheral

/-- The only connection, if there is one, is the one that is notified. -/
def Notifies (s : State) : Prop :=
  s.host.conns = [] ∨ s.host.conns = [s.vars.active_conn_handle]

variable {s s' : State}

theorem Notifies.of_eq (hn : Notifies s)
    (hactive : s'.vars.active_conn_handle = s.vars.active_conn_handle)
    (hconns : s'.host.conns = s.host.conns) : Notifies s' := by
  rw [Notifies, hactive, hconns]
  exact hn

theorem Notifies.advertise {v : Vars} {h : Host} (hn : Notifies ⟨v, h, false⟩) :
    wpAny advertise (Ends Notifies) v h :=
  wp_advertise (hn.of_eq rfl rfl) fun _ _ => hn.of_eq rfl rfl

theorem Notifies.assertQuiet {v : Vars} {h : Host} (hn : Notifies ⟨v, h, false⟩) {x : Call}
    (hx : ∀ rc, effect x rc h = h) : wpAny (assertZero x) (Ends Notifies) v h :=
  wp_assertQuiet hx hn (hn.of_eq rfl rfl)

/-- The connection a SUBSCRIBE event is about is the one that is notified. -/
theorem Inv.notifies_subscribe {v : Vars} {h host : Host} (hi : Inv ⟨v, h, false⟩)
    {conn_handle : BitVec 16} (hd : h.deliver (.gap (.subscribe conn_handle)) = some host) :
    wpAny (gapEvent (.subscribe conn_handle)) (Ends Notifies) v host := by
  obtain ⟨hhas, rfl⟩ := of_guard hd
  have hconns : h.conns = [conn_handle] := hi.only (Host.has_iff.mp hhas)
  rw [gapEvent, wpAny, wp_bind, wp_assign, andThen_some]
  exact Ends.return (wp_setRgb (.inr hconns) fun _ => .inr hconns)

/-- The connection stays the one that is notified as long as it is open. -/
theorem Notifies.gap {v : Vars} {h host : Host} (hn : Notifies ⟨v, h, false⟩)
    (hi : Inv ⟨v, h, false⟩) {event : GapEvent} (hopens : (Event.gap event).opens = false)
    (hd : h.deliver (.gap event) = some host) : wpAny (gapEvent event) (Ends Notifies) v host := by
  cases event with
  | connect status conn_handle =>
      obtain ⟨-, rfl⟩ := of_guard hd
      have hst : status ≠ 0 := by simpa [Event.opens] using hopens
      rw [gapEvent, if_neg hst]
      exact Ends.return (Notifies.advertise (hn.of_eq rfl (by simp [hst])))
  | disconnect conn_handle =>
      obtain ⟨hhas, rfl⟩ := of_guard hd
      have hmem := Host.has_iff.mp hhas
      have hnone : h.conns.filter (· ≠ conn_handle) = [] := by
        rcases hn with hconns | hconns
        · rw [hconns] at hmem
          exact absurd hmem List.not_mem_nil
        · rw [hconns] at hmem ⊢
          simp [List.mem_singleton.mp hmem]
      rw [gapEvent, wpAny, wp_bind, wp_assign, andThen_some, wp_bind]
      refine wp_setRgb ?_ (fun _ => .inl hnone)
      exact Ends.return (Notifies.advertise (.inl hnone))
  | subscribe conn_handle => exact hi.notifies_subscribe hd
  | advComplete =>
      obtain ⟨-, rfl⟩ := of_guard hd
      exact Ends.return (Notifies.advertise (hn.of_eq rfl rfl))
  | connUpdate conn_handle =>
      obtain ⟨-, rfl⟩ := of_guard hd
      exact Ends.return (hn.assertQuiet fun _ => rfl)
  | repeatPairing conn_handle peer_id_addr =>
      obtain ⟨-, rfl⟩ := of_guard hd
      rw [gapEvent, wpAny, wp_bind]
      refine wp_assertQuiet (fun _ => rfl) ?_ (hn.of_eq rfl rfl)
      exact Ends.return (hn.assertQuiet fun _ => rfl)
  | encChange status conn_handle =>
      obtain ⟨-, rfl⟩ := of_guard hd
      exact hn
  | passkeyAction conn_handle action =>
      obtain ⟨-, rfl⟩ := of_guard hd
      exact Ends.return (wp_when (fun _ _ _ => hn) fun _ => hn)
  | other =>
      cases hd
      exact hn

theorem Notifies.step (hn : Notifies s) (hi : Inv s) {e : Ev} (hopens : e.event.opens = false)
    (hs : step s e = some s') : Notifies s' := by
  refine step_wp hs fun haborted host hd => ?_
  obtain ⟨v, h, aborted⟩ := s
  obtain rfl : aborted = false := haborted
  cases he : e.event with
  | sync addr_type =>
      rw [he] at hd
      obtain ⟨⟨-, -, hconns⟩, rfl⟩ := of_guard hd
      have hfree : ∀ addr_type, Notifies ⟨{ v with addr_type }, { h with synced := true }, false⟩ :=
        fun _ => .inl hconns
      exact Ends.return (wp_onSync (hfree addr_type).advertise fun _ => .inl hconns)
  | lost =>
      rw [he] at hd
      obtain ⟨-, rfl⟩ := of_guard hd
      exact hn.of_eq rfl rfl
  | reset reason =>
      rw [he] at hd
      obtain ⟨-, rfl⟩ := of_guard hd
      exact hn
  | gap event =>
      rw [he] at hd hopens
      exact hn.gap hi hopens hd

theorem step_subscribe (hi : Inv s) {conn_handle : BitVec 16} {rcs : List Int}
    (hs : step s ⟨.gap (.subscribe conn_handle), rcs⟩ = some s') : Notifies s' := by
  refine step_wp hs fun haborted host hd => ?_
  obtain ⟨v, h, aborted⟩ := s
  obtain rfl : aborted = false := haborted
  exact hi.notifies_subscribe hd

end Peripheral

/-! ## The client's end -/

namespace Client

variable {h host : Host} {event : Event}

/-- A subscription is new only with an answer that reports it. -/
theorem Host.deliver_subscribed (hd : h.deliver event = some host)
    (hsub : host.subscribed = true) : h.subscribed = true ∨ event.subscribes = true := by
  have hsame : host.subscribed = h.subscribed → h.subscribed = true ∨ event.subscribes = true :=
    fun heq => .inl (heq ▸ hsub)
  cases event with
  | sync addr_type =>
      obtain ⟨-, rfl⟩ := of_guard hd
      exact hsame rfl
  | gap event =>
      cases event with
      | disc _ | notifyRx _ =>
          obtain ⟨-, rfl⟩ := of_guard hd
          exact hsame rfl
      | connect status conn_handle peer_id_addr =>
          obtain ⟨-, rfl⟩ := of_guard hd
          simp only [Host.subscribed] at hsub
          split at hsub <;> cases hsub
      | disconnect =>
          obtain ⟨-, rfl⟩ := of_guard hd
          cases hsub
      | encChange _ _ | repeatPairing _ _ =>
          exact hsame (Host.report_subscribed hd fun c c' hc' => by cases hc'; rfl)
      | other =>
          cases hd
          exact hsame rfl
  | service _ _ _ | characteristic _ _ _ | descriptor _ _ _ =>
      exact hsame (Host.report_subscribed hd fun c c' hc' => by
        obtain ⟨-, rfl⟩ := of_guard hc'
        rfl)
  | subscription conn_handle error_status =>
      obtain ⟨c, c', hc, -, hc', rfl⟩ := Host.report_eq_some.mp hd
      obtain ⟨-, rfl⟩ := of_guard hc'
      simp only [Host.subscribed, Option.any_some, Bool.or_eq_true, hc] at hsub ⊢
      exact hsub

/-- A connection is there only if it was, or is reported. -/
theorem Host.deliver_isSome (hd : h.deliver event = some host)
    (hsome : host.conn.isSome = true) : h.conn.isSome = true ∨ event.opens = true := by
  have hreport : ∀ {conn_handle f}, h.report conn_handle f = some host → h.conn.isSome = true := by
    intro conn_handle f hr
    obtain ⟨c, c', hc, -⟩ := Host.report_eq_some.mp hr
    rw [hc]
    rfl
  cases event with
  | sync addr_type =>
      obtain ⟨-, rfl⟩ := of_guard hd
      exact .inl hsome
  | gap event =>
      cases event with
      | disc _ | notifyRx _ =>
          obtain ⟨-, rfl⟩ := of_guard hd
          exact .inl hsome
      | connect status conn_handle peer_id_addr =>
          obtain ⟨-, rfl⟩ := of_guard hd
          by_cases hst : status = 0
          · exact .inr (decide_eq_true hst)
          · simp [hst] at hsome
      | disconnect =>
          obtain ⟨-, rfl⟩ := of_guard hd
          cases hsome
      | encChange _ _ | repeatPairing _ _ => exact .inl (hreport hd)
      | other =>
          cases hd
          exact .inl hsome
  | service _ _ _ | characteristic _ _ _ | descriptor _ _ _ | subscription _ _ =>
      exact .inl (hreport hd)

/-- A connection is reported only when there is none. -/
theorem Host.deliver_opens (hd : h.deliver event = some host) (hopens : event.opens = true) :
    h.conn = none := by
  cases event with
  | gap event =>
      cases event with
      | connect _ _ _ => exact (of_guard hd).1.2
      | disc _ | disconnect | encChange _ _ | notifyRx _ | repeatPairing _ _ | other => cases hopens
  | sync _ | service _ _ _ | characteristic _ _ _ | descriptor _ _ _ | subscription _ _ =>
      cases hopens

theorem Host.isSome_of_subscribed (h : host.subscribed = true) : host.conn.isSome = true := by
  cases hc : host.conn with
  | none =>
      rw [Host.subscribed, hc] at h
      cases h
  | some c => rfl

theorem effect_isSome (c : Call) (rc : Int) (h : Host) :
    (effect c rc h).conn.isSome = h.conn.isSome := by
  cases c with
  | bleGapDisc | bleGapDiscCancel | bleGapConnect =>
      simp only [effect]
      split <;> rfl
  | bleGapSecurityInitiate | bleGattcDiscSvcByUuid | bleGattcDiscChrsByUuid =>
      simp only [effect]
      split
      · exact h.onConn_isSome _ _
      · rfl
  | bleGapTerminate | bleGattcDiscAllDscs | bleGattcWriteFlat => exact h.onConn_isSome _ _
  | _ => rfl

theorem Host.returned_isSome (h : Host) (ret : Int) (event : Event) :
    (h.returned ret event).conn.isSome = h.conn.isSome := by
  cases event with
  | sync | gap | subscription => rfl
  | service | characteristic | descriptor =>
      simp only [Host.returned]
      split
      · exact h.onConn_isSome _ _
      · rfl

/-- The calls of a callback neither open a connection nor subscribe. -/
theorem step_host {s s' : State} {e : Ev} (hs : step s e = some s') :
    ∃ host, s.host.deliver e.event = some host ∧ s'.host.subscribed = host.subscribed ∧
      s'.host.conn.isSome = host.conn.isSome := by
  obtain ⟨-, host, o, hd, hexec, rfl, -⟩ := step_outcome hs
  refine ⟨host, hd, ?_, ?_⟩
  · rw [after_subscribed]
    exact exec_keeps (I := fun h => h.subscribed = host.subscribed)
      (fun c rc h hh => (effect_subscribed c rc h).trans hh) hexec rfl
  · have hworld : o.world.conn.isSome = host.conn.isSome :=
      exec_keeps (I := fun h => h.conn.isSome = host.conn.isSome)
        (fun c rc h hh => (effect_isSome c rc h).trans hh) hexec rfl
    cases o.val with
    | none => exact hworld
    | some ret => exact (Host.returned_isSome _ ret e.event).trans hworld

end Client

/-! ## Invariant -/

namespace Link

/-- The connection has been reported to the server and, as long as it is open, the server
    notifies it. -/
def Served (s : Link) (n : Nat) : Prop :=
  n ≤ s.peripheral ∧ (n = s.peripheral → Peripheral.Notifies s.server)

structure Inv (s : Link) : Prop where
  server : Peripheral.Inv s.server
  latest : s.client.host.conn.isSome = true → s.central = s.asked
  reported : s.central ≤ s.asked
  accepted : s.peripheral ≤ s.asked
  answers : ∀ n ∈ s.answers, s.Served n
  subscribed : s.client.host.subscribed = true → s.Served s.central

theorem start_inv : Inv {} where
  server := Peripheral.start_inv
  latest := nofun
  reported := Nat.le_refl 0
  accepted := Nat.le_refl 0
  answers := nofun
  subscribed := nofun

variable {s s' : Link}

/-- What a step of the client is. -/
theorem step_client {e : Client.Ev} (hs : step s (.client e) = some s') :
    s.Ready e.event ∧ ∃ client, Client.step s.client e = some client ∧ s'.client = client ∧
      s'.server = s.server ∧ s'.asked = s.asked ∧ s'.central = s.centralAfter e.event ∧
      s'.peripheral = s.peripheral ∧ ∀ n ∈ s'.answers, n ∈ s.answers := by
  simp only [step, Option.ite_none_right_eq_some] at hs
  obtain ⟨hready, hs⟩ := hs
  split at hs
  · rename_i client hclient
    simp only [Option.some.injEq] at hs
    subst hs
    refine ⟨hready, client, hclient, rfl, rfl, rfl, rfl, rfl, fun n hn => ?_⟩
    simp only at hn
    split at hn
    · exact List.mem_of_mem_erase hn
    · exact hn
  · cases hs

/-- Only its own callbacks change the client. -/
theorem step_other {e : Ev} (hs : step s e = some s') (he : ∀ e', e ≠ .client e') :
    s'.client = s.client := by
  cases e with
  | client e => exact absurd rfl (he e)
  | ask =>
      obtain ⟨-, rfl⟩ := of_guard hs
      rfl
  | accept n conn_handle rcs =>
      simp only [step, Option.ite_none_right_eq_some] at hs
      obtain ⟨-, hs⟩ := hs
      split at hs
      · cases hs
        rfl
      · cases hs
  | write conn_handle rcs =>
      simp only [step, Option.ite_none_right_eq_some] at hs
      obtain ⟨-, hs⟩ := hs
      split at hs
      · cases hs
        rfl
      · cases hs
  | server e =>
      simp only [step] at hs
      split at hs
      · cases hs
      · split at hs
        · cases hs
          rfl
        · cases hs

/-- A step of the client's board. -/
theorem Inv.client (hi : Inv s) {e : Client.Ev} (hs : step s (.client e) = some s') : Inv s' := by
  obtain ⟨hready, client, hclient, rfl, hserver, hasked, hcentral, hperipheral, hanswers⟩ :=
    step_client hs
  obtain ⟨host, hd, hsub, hsome⟩ := Client.step_host hclient
  have hserved : ∀ n, s.Served n → s'.Served n := by
    intro n hn
    rw [Served, hserver, hperipheral]
    exact hn
  -- a connection that was open before the event is still the last one
  have hkept : s.client.host.conn.isSome = true → s.centralAfter e.event = s.central := by
    intro hconn
    refine if_neg fun hopens => ?_
    rw [Client.Host.deliver_opens hd hopens] at hconn
    cases hconn
  refine ⟨hserver ▸ hi.server, fun hconn => ?_, ?_, ?_,
    fun n hn => hserved n (hi.answers n (hanswers n hn)), fun hs => ?_⟩
  · rw [hcentral, hasked]
    rcases Client.Host.deliver_isSome hd (hsome ▸ hconn) with hconn | hopens
    · rw [hkept hconn]
      exact hi.latest hconn
    · exact if_pos hopens
  · rw [hcentral, hasked, centralAfter]
    split
    · exact Nat.le_refl _
    · exact hi.reported
  · rw [hperipheral, hasked]
    exact hi.accepted
  · rw [hcentral]
    refine hserved _ ?_
    rcases Client.Host.deliver_subscribed hd (hsub ▸ hs) with hs | hsubscribes
    · rw [hkept (Client.Host.isSome_of_subscribed hs)]
      exact hi.subscribed hs
    · rw [centralAfter, Client.Event.opens_of_subscribes hsubscribes]
      exact hi.answers _ (List.contains_iff_mem.mp (hready.2 hsubscribes))

/-- A callback of the server that reports no new connection. -/
theorem Inv.served (hi : Inv s) {e : Peripheral.Ev} (hopens : e.event.opens = false)
    {server : Peripheral.State} (hs : Peripheral.step s.server e = some server) :
    Inv { s with server } := by
  have hserved : ∀ n, s.Served n → Served { s with server } n := fun n hn =>
    ⟨hn.1, fun hlast => (hn.2 hlast).step hi.server hopens hs⟩
  exact ⟨hi.server.step hs, hi.latest, hi.reported, hi.accepted,
    fun n hn => hserved n (hi.answers n hn), fun hsub => hserved _ (hi.subscribed hsub)⟩

theorem Inv.step (hi : Inv s) {e : Ev} (hs : step s e = some s') : Inv s' := by
  cases e with
  | ask =>
      obtain ⟨⟨-, hnone, -⟩, rfl⟩ := of_guard hs
      refine ⟨hi.server, fun hconn => ?_, Nat.le_succ_of_le hi.reported,
        Nat.le_succ_of_le hi.accepted, hi.answers, hi.subscribed⟩
      rw [Option.isNone_iff_eq_none.mp hnone] at hconn
      cases hconn
  | client e => exact hi.client hs
  | accept n conn_handle rcs =>
      simp only [Link.step, Option.ite_none_right_eq_some] at hs
      obtain ⟨⟨hlt, hle⟩, hs⟩ := hs
      split at hs
      · rename_i server hserver
        simp only [Option.some.injEq] at hs
        subst hs
        -- what has been answered was on an earlier connection
        have hserved : ∀ m, s.Served m → Served { s with server, peripheral := n } m :=
          fun m hm => ⟨Nat.le_trans hm.1 (Nat.le_of_lt hlt),
            fun (hlast : m = n) => absurd (hlast ▸ hm.1) (Nat.not_le.mpr hlt)⟩
        exact ⟨hi.server.step hserver, hi.latest, hi.reported, hle,
          fun m hm => hserved m (hi.answers m hm), fun hsub => hserved _ (hi.subscribed hsub)⟩
      · cases hs
  | write conn_handle rcs =>
      simp only [Link.step, Option.ite_none_right_eq_some] at hs
      obtain ⟨-, hs⟩ := hs
      split at hs
      · rename_i server hserver
        simp only [Option.some.injEq] at hs
        subst hs
        have hi' := hi.served rfl hserver
        refine ⟨hi'.server, hi'.latest, hi'.reported, hi'.accepted, fun n hn => ?_, hi'.subscribed⟩
        rcases List.mem_append.mp hn with hn | hn
        · exact hi'.answers n hn
        · -- the answer that has just been sent
          split at hn
          · exact absurd hn List.not_mem_nil
          · rw [List.mem_singleton.mp hn]
            exact ⟨Nat.le_refl _, fun _ => Peripheral.step_subscribe hi.server hserver⟩
      · cases hs
  | server e =>
      simp only [Link.step] at hs
      split at hs
      · cases hs
      · rename_i hopens
        split at hs
        · rename_i server hserver
          simp only [Option.some.injEq] at hs
          subst hs
          exact hi.served (Bool.eq_false_iff.mpr hopens) hserver
        · cases hs

/-- What the server knows of the connection of a client that is subscribed. -/
theorem Inv.agrees (hi : Inv s) (hsub : s.client.host.subscribed = true) :
    s.peripheral = s.central ∧ Peripheral.Notifies s.server := by
  have hlatest := hi.latest (Client.Host.isSome_of_subscribed hsub)
  obtain ⟨hle, hnotifies⟩ := hi.subscribed hsub
  have heq : s.central = s.peripheral := Nat.le_antisymm hle (hlatest ▸ hi.accepted)
  exact ⟨heq.symm, hnotifies heq⟩

theorem inv_of_run {es : List Ev} (hrun : Run step Always {} es s) : Inv s :=
  hrun.invariant start_inv fun _ _ _ hi _ hs => hi.step hs

end Link

/-! ## Meeting again -/

namespace Client

/-- The host of the client reports the end of its connection. -/
def Event.closes : Event → Bool
  | .gap .disconnect => true
  | _ => false

/-- An event that the host reports whatever the other end does: neither a reset nor the end
    of a connection. -/
def Event.isOwn : Event → Bool
  | .sync _ => false
  | event => !event.opens && !event.subscribes && !event.closes

theorem Event.of_isOwn {event : Event} (h : event.isOwn = true) :
    event.opens = false ∧ event.subscribes = false ∧ event.closes = false := by
  cases event with
  | sync _ => cases h
  | gap _ | service _ _ _ | characteristic _ _ _ | descriptor _ _ _ | subscription _ _ =>
      simpa [Event.isOwn, and_assoc] using h

/-- The client scans for the server. -/
structure Seeking (s : State) : Prop where
  hung : s.hung = false
  scanning : s.host.scanning = true
  connecting : s.host.connecting = false
  conn : s.host.conn = none
  peer : s.vars.s_peer_addr.val = Buf.zero 6
  enc_done : s.vars.s_enc_done = false
  chr_found : s.vars.s_chr_found = false

/-- A step in which scan and attempt start. -/
def Starting (s : State) (e : Ev) : Prop := Answered Starts s e ∧ e.event.isOwn = true

instance (s : State) (e : Ev) : Decidable (Starting s e) :=
  inferInstanceAs (Decidable (Answered Starts s e ∧ e.event.isOwn = true))

/-- The attempt has timed out. -/
def timedOut : Ev := ⟨.gap (.connect 13 0 ⟨0, Buf.zero 6⟩), [1, 0, 0, 0, 0, 0, 0]⟩

/-- The connection is gone. -/
def gone : Ev := ⟨.gap .disconnect, [1, 0, 0, 0]⟩

def foundServer : Ev := ⟨.gap (.disc serverAd), [0, 0]⟩

def connected : Ev := ⟨.gap (.connect 0 1 ⟨1, s_server_addr⟩), [0, 0, 0]⟩

/-- The connection is encrypted, and the characteristic found. -/
def setUp : List Ev :=
  [⟨.gap (.encChange 0 1), []⟩, ⟨.service 1 0 (some ⟨10, 20⟩), [0]⟩,
    ⟨.characteristic 1 0 (some ⟨12⟩), [0]⟩]

def described : Ev :=
  ⟨.descriptor 1 0 (some ⟨13, .uuid16 BLE_GATT_DSC_CLT_CFG_UUID16⟩), [0]⟩

def answered : Ev := ⟨.subscription 1 0, [1, 0, 0, 0]⟩

/-- When its connection is gone, the client scans. -/
theorem step_gone {s : State} (hj : Joined s.vars s.host) (hscan : Scanning s)
    (hhung : s.hung = false) (hconn : s.host.conn.isSome = true) :
    ∃ s', step s gone = some s' ∧ Answered Starts s gone ∧ Seeking s' := by
  obtain ⟨⟨a, ⟨t, val⟩, eh, vh, enc, found, timer⟩,
    ⟨synced, scanning, connecting, conn, dscs, writes⟩, hung⟩ := s
  obtain rfl : hung = false := hhung
  have hconnecting := (hscan.linked hconn).connecting
  obtain ⟨c, hc⟩ := Option.isSome_iff_exists.mp hconn
  simp only at hconnecting hc
  subst hconnecting hc
  exact ⟨_, rfl, of_decide_eq_true rfl, rfl, rfl, rfl, rfl, rfl, rfl, rfl⟩

/-- Without a connection it scans, or can get back to it when its attempt has timed out. -/
theorem seeks_of_idle {s : State} (hj : Joined s.vars s.host) (hscan : Scanning s)
    (hsync : s.host.synced = true) (hhung : s.hung = false) (hnone : s.host.conn = none) :
    ∃ es s', Run step Starting s es s' ∧ Seeking s' := by
  obtain ⟨⟨a, ⟨t, val⟩, eh, vh, enc, found, timer⟩,
    ⟨synced, scanning, connecting, conn, dscs, writes⟩, hung⟩ := s
  obtain rfl : hung = false := hhung
  obtain ⟨henc, hfound⟩ := hj.idle hnone
  have hpeer := hscan.forgot hnone
  rcases hscan.active hsync rfl with hscanning | hconnecting | hconn
  · obtain ⟨hconnecting, -⟩ := hscan.scanning hscanning
    exact ⟨[], _, .nil, rfl, hscanning, hconnecting, hnone, hpeer, henc, hfound⟩
  · simp only at hconnecting hnone
    subst hconnecting hnone
    exact ⟨[timedOut], _, .single (of_decide_eq_true rfl) rfl, rfl, rfl, rfl, rfl, hpeer, henc,
      hfound⟩
  · rw [hnone] at hconn
    cases hconn

/-- The steps of a client that finds the server, sets the connection up and subscribes. -/
structure Joining (s c₁ c₂ c₃ c₄ c₅ : State) : Prop where
  finds : step s foundServer = some c₁
  starts : Answered Starts s foundServer
  connecting : c₁.host.connecting = true
  conn : c₁.host.conn = none
  connects : step c₁ connected = some c₂
  starts₁ : Answered Starts c₁ connected
  sets_up : Run step Starting c₂ setUp c₃
  describes : step c₃ described = some c₄
  starts₃ : Answered Starts c₃ described
  writes : cccdWrites (calls c₃ described) = 1
  is_answered : step c₄ answered = some c₅
  starts₄ : Answered Starts c₄ answered
  subscribed : c₅.host.subscribed = true

/-- A client that scans can subscribe. -/
theorem Seeking.joins {s : State} (h : Seeking s) : ∃ c₁ c₂ c₃ c₄ c₅, Joining s c₁ c₂ c₃ c₄ c₅ := by
  obtain ⟨⟨a, ⟨t, val⟩, eh, vh, enc, found, timer⟩,
    ⟨synced, scanning, connecting, conn, dscs, writes⟩, hung⟩ := s
  obtain ⟨rfl, rfl, rfl, rfl, rfl, rfl, rfl⟩ := h
  have hrun : ∀ c₂ c₃ : State, exec step Starting c₂ setUp = some c₃ →
      Run step Starting c₂ setUp c₃ := fun _ _ => Run.of_exec
  exact ⟨_, _, _, _, _, rfl, of_decide_eq_true rfl, rfl, rfl, rfl, of_decide_eq_true rfl,
    hrun _ _ rfl, rfl, of_decide_eq_true rfl, rfl, rfl, of_decide_eq_true rfl, rfl⟩

end Client

namespace Peripheral

/-- The server can be found. -/
structure Findable (s : State) : Prop where
  aborted : s.aborted = false
  advertising : s.host.advertising = true
  conns : s.host.conns = []

/-- The connection is gone. -/
def gone (conn_handle : BitVec 16) : Ev :=
  { event := .gap (.disconnect conn_handle), rcs := [0, 0, 0, 0, 0] }

def connected : Ev := { event := .gap (.connect 0 1), rcs := [0] }

def subscribed : Ev := { event := .gap (.subscribe 1), rcs := [0, 0] }

/-- The host of the server reports the end of a connection. -/
def Event.closes : Event → Bool
  | .gap (.disconnect _) => true
  | _ => false

/-- When its connection is gone, the server can be found. -/
theorem step_gone {s : State} (hi : Inv s) (haborted : s.aborted = false) {conn_handle : BitVec 16}
    (hmem : conn_handle ∈ s.host.conns) :
    ∃ s', step s (gone conn_handle) = some s' ∧ Findable s' := by
  have hadv : s.host.advertising = false := by
    refine Bool.eq_false_iff.mpr fun hadv => ?_
    rw [hi.idle hadv] at hmem
    exact List.not_mem_nil hmem
  have hconns := hi.only hmem
  obtain ⟨v, ⟨synced, advertising, conns, failed, attempts, starts, pixel, s_led⟩, aborted⟩ := s
  obtain ⟨rfl, rfl, rfl⟩ : aborted = false ∧ advertising = false ∧ conns = [conn_handle] :=
    ⟨haborted, hadv, hconns⟩
  have hd : Host.deliver ⟨synced, false, [conn_handle], failed, attempts, starts, pixel, s_led⟩
      (.gap (.disconnect conn_handle)) =
        some ⟨synced, false, [], failed, attempts, starts, pixel, s_led⟩ := by
    simp [Host.deliver, Host.has]
  have hs : step
      ⟨v, ⟨synced, false, [conn_handle], failed, attempts, starts, pixel, s_led⟩, false⟩
      (gone conn_handle) =
        some
          { vars := { v with active_conn_handle := NO_CONN_HANDLE }
            host :=
              ⟨synced, true, [], false, attempts + 1, starts ++ [⟨false, []⟩], LED_HSV_OFF,
                LED_HSV_OFF⟩ } := by
    simp only [step, outcome, gone, hd]
    rfl
  exact ⟨_, hs, rfl, rfl, rfl⟩

/-- A server that can be found can be connected to and subscribed. -/
theorem Findable.serves {s : State} (h : Findable s) :
    ∃ s₁ s₂, step s connected = some s₁ ∧ step s₁ subscribed = some s₂ ∧ s₂.aborted = false ∧
      s₂.host.conns = [s₂.vars.active_conn_handle] := by
  obtain ⟨⟨a, active⟩, ⟨synced, advertising, conns, failed, attempts, starts, pixel, s_led⟩,
    aborted⟩ := s
  obtain ⟨rfl, rfl, rfl⟩ := h
  exact ⟨_, _, rfl, rfl, rfl, rfl⟩

end Peripheral

namespace Link

/-- `ble_gap_disc` and `ble_gap_connect` succeed. -/
def Starts (s : Link) : Ev → Prop
  | .client e => Client.Answered Client.Starts s.client e
  | .ask | .accept _ _ _ | .write _ _ | .server _ => True

instance decStarts (s : Link) : (e : Ev) → Decidable (s.Starts e)
  | .client e => inferInstanceAs (Decidable (Client.Answered Client.Starts s.client e))
  | .ask | .accept _ _ _ | .write _ _ | .server _ => isTrue trivial

/-- A controller is reset, or is back from it. -/
def Ev.resets : Ev → Bool
  | .client ⟨.sync _, _⟩ | .server ⟨.sync _, _⟩ | .server ⟨.lost, _⟩ | .server ⟨.reset _, _⟩ => true
  | _ => false

/-- The end of a connection is reported to either end. -/
def Ev.closes : Ev → Bool
  | .client e => e.event.closes
  | .server e => e.event.closes
  | .ask | .accept _ _ _ | .write _ _ => false

/-- These calls succeed, no controller is reset and no connection is lost. -/
def Smooth (s : Link) (e : Ev) : Prop := s.Starts e ∧ e.resets = false ∧ e.closes = false

variable {s t : Link}

/-- A step of the client on its own. -/
theorem Smooth.own {e : Client.Ev} (h : Client.Starting s.client e) : Smooth s (.client e) := by
  refine ⟨h.1, ?_, (Client.Event.of_isOwn h.2).2.2⟩
  obtain ⟨event, rcs⟩ := e
  cases event with
  | sync _ => exact absurd h.2 Bool.false_ne_true
  | gap _ | service _ _ _ | characteristic _ _ _ | descriptor _ _ _ | subscription _ _ => rfl

theorem step_own {e : Client.Ev} (hopens : e.event.opens = false)
    (hsubscribes : e.event.subscribes = false) {client : Client.State}
    (hs : Client.step s.client e = some client) :
    step s (.client e) =
      some { s with
        client
        writes := s.writes ++
          List.replicate (cccdWrites (Client.calls s.client e)) s.central } := by
  have hready : s.Ready e.event := by
    simp [Ready, hopens, hsubscribes]
  simp [step, hready, hs, hopens, hsubscribes, centralAfter]

/-- A run of the client on its own is one of both boards. -/
theorem run_own {es : List Client.Ev} {client : Client.State}
    (hrun : Run Client.step Client.Starting s.client es client) :
    ∃ writes, Run step Smooth s (es.map .client) { s with client, writes } := by
  induction hrun with
  | nil => exact ⟨s.writes, .nil⟩
  | @snoc es c c' e _ hallow hs ih =>
      obtain ⟨writes, hrun⟩ := ih
      obtain ⟨hopens, hsubscribes, -⟩ := Client.Event.of_isOwn hallow.2
      rw [List.map_append, List.map_singleton]
      exact ⟨_, .snoc hrun (Smooth.own hallow) (step_own hopens hsubscribes hs)⟩

/-- The client is subscribed, on the connection that the server notifies. -/
def Met (s : Link) : Prop :=
  s.client.host.subscribed = true ∧ s.peripheral = s.central ∧
    s.server.host.conns = [s.server.vars.active_conn_handle]

instance (s : Link) : Decidable s.Met :=
  inferInstanceAs (Decidable (s.client.host.subscribed = true ∧ s.peripheral = s.central ∧
    s.server.host.conns = [s.server.vars.active_conn_handle]))

/-- Both boards have the connection `n`. -/
def on (s : Link) (n : Nat) (client : Client.State) (server : Peripheral.State)
    (writes : List Nat) : Link :=
  { s with client, server, asked := n, central := n, peripheral := n, writes }

/-- The client finds the server, and both are told about the connection. -/
def connectRun (n : Nat) : List Ev :=
  [.client Client.foundServer, .ask, .client Client.connected, .accept n 1 [0]]

theorem connects {c₁ c₂ c₃ c₄ c₅ : Client.State}
    (hj : Client.Joining s.client c₁ c₂ c₃ c₄ c₅) {p₁ : Peripheral.State}
    (haccept : Peripheral.step s.server Peripheral.connected = some p₁)
    (hadv : s.server.host.advertising = true) (hcentral : s.central ≤ s.asked)
    (hperipheral : s.peripheral ≤ s.asked) :
    ∃ writes, Run step Smooth s (connectRun (s.asked + 1)) (s.on (s.asked + 1) c₂ p₁ writes) := by
  have hfound := step_own (s := s) rfl rfl hj.finds
  generalize s.writes ++ _ = w at hfound
  have hask : step { s with client := c₁, writes := w } .ask =
      some { s with client := c₁, writes := w, asked := s.asked + 1 } :=
    if_pos ⟨hj.connecting, by rw [hj.conn]; rfl, hadv⟩
  have hready : Ready { s with client := c₁, writes := w, asked := s.asked + 1 }
      Client.connected.event :=
    ⟨fun _ => Nat.lt_succ_of_le hcentral, fun h => (by cases h)⟩
  have hconnected : step { s with client := c₁, writes := w, asked := s.asked + 1 }
      (.client Client.connected) =
        some { s with
          client := c₂
          writes := w ++
            List.replicate (cccdWrites (Client.calls c₁ Client.connected)) (s.asked + 1)
          asked := s.asked + 1, central := s.asked + 1 } := by
    simp only [step, if_pos hready, hj.connects]
    rfl
  generalize w ++ _ = w' at hconnected
  have haccepted : step
      { s with client := c₂, writes := w', asked := s.asked + 1, central := s.asked + 1 }
      (.accept (s.asked + 1) 1 [0]) = some (s.on (s.asked + 1) c₂ p₁ w') := by
    rw [Peripheral.connected] at haccept
    simp only [step, haccept]
    exact if_pos ⟨Nat.lt_succ_of_le hperipheral, Nat.le_refl _⟩
  exact ⟨w', .snoc (.snoc (.snoc (.single ⟨hj.starts, rfl, rfl⟩ hfound) ⟨trivial, rfl, rfl⟩ hask)
    ⟨hj.starts₁, rfl, rfl⟩ hconnected) ⟨trivial, rfl, rfl⟩ haccepted⟩

/-- From a scan and an advertisement to a subscription. -/
def meetRun (n : Nat) : List Ev :=
  connectRun n ++ Client.setUp.map .client ++
    [.client Client.described, .write 1 [0, 0], .client Client.answered]

theorem meets (hseek : Client.Seeking s.client) (hfind : Peripheral.Findable s.server)
    (hcentral : s.central ≤ s.asked) (hperipheral : s.peripheral ≤ s.asked) :
    ∃ t, Run step Smooth s (meetRun (s.asked + 1)) t ∧ t.Met := by
  obtain ⟨c₁, c₂, c₃, c₄, c₅, hj⟩ := hseek.joins
  obtain ⟨p₁, p₂, haccept, hwritten, haborted, hconns⟩ := hfind.serves
  obtain ⟨w, hconnect⟩ := connects hj haccept hfind.advertising hcentral hperipheral
  generalize s.asked + 1 = n at hconnect ⊢
  obtain ⟨w', hsetUp⟩ := run_own (s := s.on n c₂ p₁ w) hj.sets_up
  -- the write of the CCCD, and the answer to it
  have hdescribed : step (s.on n c₃ p₁ w') (.client Client.described) =
      some (s.on n c₄ p₁ (w' ++ [n])) := by
    have hown := step_own (s := s.on n c₃ p₁ w') rfl rfl hj.describes
    rwa [show (s.on n c₃ p₁ w').client = c₃ from rfl, hj.writes] at hown
  have hwrite : step (s.on n c₄ p₁ (w' ++ [n])) (.write 1 [0, 0]) =
      some { s.on n c₄ p₂ ((w' ++ [n]).erase n) with answers := s.answers ++ [n] } := by
    have hcontains : (w' ++ [n]).contains n = true := by simp
    rw [Peripheral.subscribed] at hwritten
    simp only [step, on, if_pos hcontains, hwritten, haborted]
    rfl
  have hanswered : ∃ writes answers,
      step { s.on n c₄ p₂ ((w' ++ [n]).erase n) with answers := s.answers ++ [n] }
        (.client Client.answered) = some { s.on n c₅ p₂ writes with answers } := by
    have hready : Ready { s.on n c₄ p₂ ((w' ++ [n]).erase n) with answers := s.answers ++ [n] }
        Client.answered.event := ⟨fun h => (by cases h), fun _ => by simp [on]⟩
    simp only [step, if_pos hready]
    simp only [on, hj.is_answered]
    exact ⟨_, _, rfl⟩
  obtain ⟨writes, answers, hanswered⟩ := hanswered
  have hlast : Run step Smooth (s.on n c₃ p₁ w')
      [.client Client.described, .write 1 [0, 0], .client Client.answered]
      { s.on n c₅ p₂ writes with answers } :=
    .snoc (.snoc (.single ⟨hj.starts₃, rfl, rfl⟩ hdescribed) ⟨trivial, rfl, rfl⟩ hwrite)
      ⟨hj.starts₄, rfl, rfl⟩ hanswered
  exact ⟨_, (hconnect.append hsetUp).append hlast, hj.subscribed, rfl, hconns⟩

/-- What the callbacks of the client keep as long as scan and attempt start. -/
structure Working (s : Link) : Prop where
  link : Inv s
  scanning : Client.Scanning s.client
  joined : Client.Joined s.client.vars s.client.host

theorem start_working : Working {} := ⟨start_inv, Client.start_scanning, Client.start_joined⟩

theorem Working.step (hw : Working s) {e : Ev} (hstarts : s.Starts e) (hs : step s e = some t) :
    Working t := by
  have hi := hw.link.step hs
  by_cases he : ∃ e', e = .client e'
  · obtain ⟨e', rfl⟩ := he
    obtain ⟨-, client, hclient, rfl, -⟩ := step_client hs
    exact ⟨hi, hw.scanning.step hstarts hclient, hw.joined.step hclient⟩
  · have hsame := step_other hs fun e' heq => he ⟨e', heq⟩
    exact ⟨hi, hsame ▸ hw.scanning, hsame ▸ hw.joined⟩

/-! ## Results -/

/-- A client that is subscribed has the last connection that was reported to the server,
    and unless the end of it has been reported as well, it is the server's only one and the
    one that `app_main` notifies. -/
theorem boards_agree {es : List Ev} (hrun : Run step Always {} es s) {c : Client.Conn}
    (hc : s.client.host.conn = some c) (hsub : c.subscribed = true) :
    s.peripheral = s.central ∧
      (s.server.host.conns = [] ∨ s.server.host.conns = [s.server.vars.active_conn_handle]) := by
  have hsubscribed : s.client.host.subscribed = true := by
    rw [Client.Host.subscribed, hc]
    exact hsub
  exact (inv_of_run hrun).agrees hsubscribed

/-- Both controllers come up. -/
def upRun : List Ev :=
  [.client ⟨.sync 1, [0, 0, 0, 0, 0, 0, 0]⟩, .server (Peripheral.syncWith [0, 0, 0])]

theorem boards_agree_met :
    ∃ s, Run step Always {} (upRun ++ meetRun 1) s ∧ s.peripheral = s.central ∧
      s.server.host.conns = [s.server.vars.active_conn_handle] := by
  obtain ⟨s, hrun, hopen, c, hc, hsub⟩ : ∃ s, Run step Always {} (upRun ++ meetRun 1) s ∧
      s.server.host.conns ≠ [] ∧ ∃ c ∈ s.client.host.conn, c.subscribed = true :=
    Run.exists_of_exec (by decide)
  obtain ⟨hlast, hconns⟩ := boards_agree hrun hc hsub
  exact ⟨s, hrun, hlast, hconns.resolve_left hopen⟩

/-- The link is lost: its end is reported to the boards that have it, and the calls they
    make succeed. -/
def losses (s : Link) : List Ev :=
  (if s.client.host.conn.isSome then [.client Client.gone] else []) ++
    s.server.host.conns.map fun conn_handle => .server (Peripheral.gone conn_handle)

/-- Without its connection the client scans, or can get back to it. -/
theorem client_loses (hw : Working s) (hsync : s.client.host.synced = true)
    (hhung : s.client.hung = false) :
    ∃ client writes, Run step Starts s
        (if s.client.host.conn.isSome then [.client Client.gone] else [])
        { s with client, writes } ∧
      ∃ es client', Run Client.step Client.Starting client es client' ∧ Client.Seeking client' := by
  split
  · rename_i hconn
    obtain ⟨client, hgone, hstarts, hseek⟩ := Client.step_gone hw.joined hw.scanning hhung hconn
    exact ⟨client, _, .single hstarts (step_own rfl rfl hgone), [], client, .nil, hseek⟩
  · rename_i hconn
    have hnone := Option.not_isSome_iff_eq_none.mp hconn
    exact ⟨s.client, s.writes, .nil, Client.seeks_of_idle hw.joined hw.scanning hsync hhung hnone⟩

/-- Without its connection the server can be found. -/
theorem server_loses (hi : Peripheral.Inv s.server) (hsync : s.server.host.synced = true)
    (haborted : s.server.aborted = false) (hfailed : s.server.host.failed = false) :
    ∃ server, Run step Starts s
        (s.server.host.conns.map fun conn_handle => .server (Peripheral.gone conn_handle))
        { s with server } ∧ Peripheral.Findable server := by
  rcases List.eq_nil_or_concat s.server.host.conns with hconns | ⟨_, conn_handle, hconcat⟩
  · have hadv := ((hi.found haborted hsync).mp hfailed).resolve_right fun h => h hconns
    rw [hconns]
    exact ⟨s.server, .nil, haborted, hadv, hconns⟩
  · have hmem : conn_handle ∈ s.server.host.conns := by simp [hconcat]
    obtain ⟨server, hgone, hfind⟩ := Peripheral.step_gone hi haborted hmem
    have hs : step s (.server (Peripheral.gone conn_handle)) = some { s with server } := by
      simp only [step, hgone]
      rfl
    rw [hi.only hmem]
    exact ⟨server, .single trivial hs, hfind⟩

/-- As long as the client's calls to scan and to connect have succeeded and so has the
    server's last call made to advertise, the two can meet again once the link that there is
    has been lost: while both hosts are synchronised there is then a run, without a reset of
    either controller and without another loss, that ends with the client subscribed, on the
    connection that the server notifies. -/
theorem boards_meet_again {es : List Ev} (hrun : Run step Starts {} es s)
    (hsync : s.client.host.synced = true) (hhung : s.client.hung = false)
    (hserver : s.server.host.synced = true) (haborted : s.server.aborted = false)
    (hfailed : s.server.host.failed = false) :
    ∃ u fs t, Run step Starts s s.losses u ∧ Run step Smooth u fs t ∧ t.Met := by
  have hw : Working s :=
    hrun.invariant start_working fun _ _ _ hw hstarts hs => hw.step hstarts hs
  obtain ⟨client, writes, hlost, es₁, client', hclient, hseek⟩ := client_loses hw hsync hhung
  obtain ⟨server, hlost', hfind⟩ :=
    server_loses (s := { s with client, writes }) hw.link.server hserver haborted hfailed
  obtain ⟨writes', hseeks⟩ := run_own (s := { s with client, writes, server }) hclient
  obtain ⟨t, hmeets, hmet⟩ :=
    meets (s := { s with client := client', writes := writes', server }) hseek hfind
      hw.link.reported hw.link.accepted
  exact ⟨_, _, t, hlost.append hlost', hseeks.append hmeets, hmet⟩

/-- The boards have met, and the client is told that the connection is gone. -/
def lostRun : List Ev := upRun ++ meetRun 1 ++ [.client Client.gone]

theorem boards_meet_again_lost :
    ∃ s u fs t, Run step Starts {} lostRun s ∧ ¬s.Met ∧
      s.losses = [.server (Peripheral.gone 1)] ∧ Run step Starts s s.losses u ∧
      Run step Smooth u fs t ∧ t.Met := by
  obtain ⟨s, hrun, hsync, hhung, hserver, haborted, hfailed, hlost, hlosses⟩ : ∃ s,
      Run step Starts {} lostRun s ∧ s.client.host.synced = true ∧ s.client.hung = false ∧
      s.server.host.synced = true ∧ s.server.aborted = false ∧
      s.server.host.failed = false ∧ ¬s.Met ∧ s.losses = [.server (Peripheral.gone 1)] :=
    Run.exists_of_exec (by decide)
  obtain ⟨u, fs, t, hends, hnext, hmet⟩ :=
    boards_meet_again hrun hsync hhung hserver haborted hfailed
  exact ⟨s, u, fs, t, hrun, hlost, hlosses, hends, hnext, hmet⟩

end Link
end Speedometer.Esp32
