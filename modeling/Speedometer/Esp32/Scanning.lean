/-
  Speedometer.Esp32.Scanning

  Whether the ESP32 client always has something under way: a scan, a connection
  attempt or a connection.

  Scanning stops in `connect_if_interesting` and is resumed when the attempt fails
  or the connection is lost.  `client_active`: as long as `ble_gap_connect` does
  not itself fail, the client never goes idle.  When it fails, the scan has been
  cancelled and no event will ever resume it (`client_idle_after_connect`).
-/

import Speedometer.Esp32.Callbacks

namespace Speedometer.Esp32.Client

open Cpp Handler Transition

/-- The client scans, tries to connect or has a connection. -/
def Host.Active (h : Host) : Prop :=
  h.scanning = true ∨ h.connecting = true ∨ h.conn.isSome = true

instance (h : Host) : Decidable h.Active :=
  inferInstanceAs (Decidable (h.scanning = true ∨ h.connecting = true ∨ h.conn.isSome = true))

/-- An advertisement of the server, with the service this client looks for. -/
def DiscDesc.FromServer (disc : DiscDesc) : Prop :=
  disc.addr.val = s_server_addr ∧
  (disc.event_type = BLE_HCI_ADV_RPT_EVTYPE_ADV_IND ∨
    disc.event_type = BLE_HCI_ADV_RPT_EVTYPE_DIR_IND) ∧
  ∃ uuids128, disc.uuids128 = some uuids128 ∧ GATT_UUID 0 ∈ uuids128

/-- Without a peer, `should_connect` accepts the server's advertisements. -/
theorem shouldConnect_fromServer {v : Vars} (hv : v.s_peer_addr.val = Buf.zero 6) {disc : DiscDesc}
    (hd : disc.FromServer) : shouldConnect v disc = true := by
  obtain ⟨haddr, htype, uuids128, huuids, hmem⟩ := hd
  have hne : s_server_addr ≠ Buf.zero 6 := by decide
  simp only [shouldConnect, huuids, haddr, hv, Bool.decide_and, Bool.and_eq_true,
    decide_eq_true_eq, List.any_eq_true]
  exact ⟨trivial, hne, htype, GATT_UUID 0, hmem, rfl⟩

def Call.isGapDisc : Call → Bool
  | .bleGapDisc _ _ => true
  | _ => false

def Call.isGapConnect : Call → Bool
  | .bleGapConnect _ _ _ => true
  | _ => false

/-- `ble_gap_disc` succeeds. -/
def DiscStarts (c : Call) (rc : Int) : Prop := c.isGapDisc = true → rc = 0

/-- `ble_gap_connect` succeeds. -/
def ConnectStarts (c : Call) (rc : Int) : Prop := c.isGapConnect = true → rc = 0

/-- Both succeed. -/
def Starts (c : Call) (rc : Int) : Prop := DiscStarts c rc ∧ ConnectStarts c rc

instance decDiscStarts (c : Call) (rc : Int) : Decidable (DiscStarts c rc) :=
  inferInstanceAs (Decidable (c.isGapDisc = true → rc = 0))

instance decStarts (c : Call) (rc : Int) : Decidable (Starts c rc) :=
  inferInstanceAs (Decidable
    ((c.isGapDisc = true → rc = 0) ∧ (c.isGapConnect = true → rc = 0)))

/-! ## Invariant -/

/-- At most one of scan, attempt and connection is under way, and the peer's address is
    kept only during a connection. -/
structure Scanning (s : State) : Prop where
  scanning : s.host.scanning = true → s.host.connecting = false ∧ s.host.conn = none
  connecting : s.host.connecting = true → s.host.conn = none
  forgot : s.host.conn = none → s.vars.s_peer_addr.val = Buf.zero 6
  active : s.host.synced = true → s.hung = false → s.host.Active

/-- A connection is open, and nothing else is under way. -/
structure Host.Linked (h : Host) : Prop where
  scanning : h.scanning = false
  connecting : h.connecting = false
  conn : h.conn.isSome = true

section Linked

variable {h : Host} (hl : h.Linked)
include hl

theorem Host.Linked.of_eq {h' : Host} (hscanning : h'.scanning = h.scanning)
    (hconnecting : h'.connecting = h.connecting) (hconn : h'.conn.isSome = h.conn.isSome) :
    h'.Linked :=
  ⟨hscanning.trans hl.scanning, hconnecting.trans hl.connecting, hconn.trans hl.conn⟩

theorem Host.Linked.onConn (conn_handle : BitVec 16) (f : Conn → Conn) :
    (h.onConn conn_handle f).Linked :=
  hl.of_eq rfl rfl (h.onConn_isSome conn_handle f)

theorem Host.Linked.returned (ret : Int) (event : Event) : (h.returned ret event).Linked := by
  cases event with
  | sync _ | gap _ | subscription _ _ => exact hl
  | service _ _ _ | characteristic _ _ _ | descriptor _ _ _ =>
      simp only [Host.returned]
      split
      · exact hl.onConn _ _
      · exact hl

/-- Nothing more is asked while a connection is open. -/
theorem Host.Linked.scanning_after (event : Event) (o : Option Int) (v : Vars) :
    Scanning (State.after event o v h) := by
  have hl' : (State.after event o v h).host.Linked := by
    cases o with
    | none => exact hl
    | some ret => exact hl.returned ret event
  have hsome := hl'.conn
  refine ⟨?_, ?_, ?_, fun _ _ => Or.inr (Or.inr hsome)⟩
  · intro hscan
    rw [hl'.scanning] at hscan
    cases hscan
  · intro hconn
    rw [hl'.connecting] at hconn
    cases hconn
  · intro hnone
    rw [hnone] at hsome
    cases hsome

end Linked

/-- The events about an open connection, apart from its end. -/
def Event.OnConn : Event → Prop
  | .sync _ | .gap (.disc _) | .gap (.connect _ _ _) | .gap .disconnect | .gap .other => False
  | _ => True

/-- A callback about an open connection neither ends it nor starts anything else. -/
theorem wp_linked {ok : Call → Int → Prop} {event : Event} (he : event.OnConn) {v : Vars} {h : Host}
    (hl : h.Linked) : wp effect ok event.callback (fun _ _ h => h.Linked) v h := by
  have hterm : ∀ ch, (h.onConn ch .terminate).Linked := fun ch => hl.onConn ch _
  have hdscs : ∀ ch a b rc, (effect (.bleGattcDiscAllDscs ch a b) rc h).Linked :=
    fun ch _ _ rc => hl.of_eq rfl rfl (h.onConn_isSome ch _)
  have htry : ∀ ch v, wp effect ok (tryStartDscDiscovery ch) (fun _ _ h => h.Linked) v h :=
    fun ch v => wp_tryStartDscDiscovery (fun _ => hl) (fun _ => hdscs _ _ _ _)
      (fun _ _ _ _ _ => (hdscs _ _ _ _).onConn _ _)
  cases event with
  | sync _ => exact absurd he id
  | gap event =>
      cases event with
      | disc _ | connect _ _ _ | disconnect | other => exact absurd he id
      | encChange status ch =>
          exact wp_return (wp_gapEncChange (fun _ => htry ch _) (fun _ _ _ => hl))
      | notifyRx om => exact wp_return (wp_gapNotifyRx fun _ _ => hl)
      | repeatPairing ch peer => exact wp_gapRepeatPairing fun _ _ => hl
  | service ch st svc =>
      exact wp_onServiceDiscovery (fun _ _ => hl.onConn ch _) (fun _ _ _ _ => hterm ch)
        (fun _ _ => hl) (fun _ _ _ _ => hterm ch)
  | characteristic ch st chr =>
      exact wp_onCharacteristicDiscovery (fun _ _ => htry ch _) (fun _ _ => hl)
        (fun _ _ _ _ => hterm ch)
  | descriptor ch st dsc =>
      -- a write changes the connection only
      have hwrite : ∀ a rc, (effect (.bleGattcWriteFlat ch a [1, 0]) rc h).Linked :=
        fun _ rc => hl.of_eq rfl rfl (h.onConn_isSome ch _)
      exact wp_onDescriptorDiscovery (fun _ _ => hwrite _ _)
        (fun _ _ _ _ _ _ => (hwrite _ _).onConn _ _) (fun _ _ => hl) (fun _ _ => hl)
        (fun _ _ _ _ => hterm ch)
  | subscription ch st => exact wp_onSubscription (fun _ _ _ => hl) (fun _ _ _ => hterm ch)

/-! ## Steps -/

variable {s s' : State}

/-- While a connection is open nothing else is under way. -/
theorem Scanning.linked (hs : Scanning s) (hconn : s.host.conn.isSome = true) : s.host.Linked where
  scanning := by
    by_contra hscan
    have hnone := (hs.scanning (Bool.not_eq_false _ ▸ hscan)).2
    rw [hnone] at hconn
    cases hconn
  connecting := by
    by_contra hc
    have hnone := hs.connecting (Bool.not_eq_false _ ▸ hc)
    rw [hnone] at hconn
    cases hconn
  conn := hconn

/-- The host that calls back about an open connection has one. -/
theorem Scanning.deliver (hs : Scanning s) {event : Event} (he : event.OnConn) {host : Host}
    (hd : s.host.deliver event = some host) : host.Linked := by
  have hreport : ∀ {ch f}, s.host.report ch f = some host → host.Linked := by
    intro ch f hr
    obtain ⟨c, c', hc, -, -, rfl⟩ := Host.report_eq_some.mp hr
    exact (hs.linked (by rw [hc]; rfl)).of_eq rfl rfl (by rw [hc]; rfl)
  cases event with
  | sync _ => exact absurd he id
  | gap event =>
      cases event with
      | disc _ | connect _ _ _ | disconnect | other => exact absurd he id
      | encChange _ _ | repeatPairing _ _ => exact hreport hd
      | notifyRx om =>
          obtain ⟨hconn, rfl⟩ := of_guard hd
          exact hs.linked hconn
  | service _ _ _ | characteristic _ _ _ | descriptor _ _ _ | subscription _ _ => exact hreport hd

/-- A scan started with no attempt and no connection under way. -/
theorem wp_scan_idle {v : Vars} {h : Host} (hconnecting : h.connecting = false)
    (hconn : h.conn = none) (hpeer : v.s_peer_addr.val = Buf.zero 6) :
    wp effect Starts scan
      (fun o v h => Scanning { vars := v, host := h, hung := o.isNone }) v h := by
  -- in `error_led_print` nothing is claimed to be under way
  have hhang : ∀ t, Scanning
      { vars := { v with s_timer_state := t }, host := h, hung := true } := fun t =>
    ⟨fun _ => ⟨hconnecting, hconn⟩, fun _ => hconn, fun _ => hpeer, fun _ hh => by cases hh⟩
  refine wp_scan (fun t => ?_) (fun o t rc hrc hne => absurd (hrc.1 rfl) hne) hhang
  exact ⟨fun _ => ⟨hconnecting, hconn⟩, fun _ => hconn, fun _ => hpeer, fun _ _ => Or.inl rfl⟩

/-- Every step in which scan and connection attempt start keeps the invariant. -/
theorem Scanning.step (h : Scanning s) {e : Ev} (hans : Answered Starts s e)
    (hs : step s e = some s') : Scanning s' := by
  refine step_wp hans hs fun hrun host hd => ?_
  by_cases he : e.event.OnConn
  · -- reports about the open connection
    exact wp_mono (fun o v h hl => hl.scanning_after _ o v) (wp_linked he (h.deliver he hd))
  obtain ⟨event, rcs⟩ := e
  cases event with
  | service _ _ _ | characteristic _ _ _ | descriptor _ _ _ | subscription _ _ =>
      exact absurd trivial he
  | sync addr_type =>
      obtain ⟨⟨-, hconnecting, hconn⟩, rfl⟩ := of_guard hd
      -- the first scan, or the one after a reset of the host
      refine wp_return ?_
      simp only [State.after_sync, Option.isNone_map]
      refine wp_onSync (wp_scan_idle hconnecting hconn (h.forgot hconn)) fun t a => ?_
      exact ⟨fun _ => ⟨hconnecting, hconn⟩, fun _ => hconn, fun _ => h.forgot hconn,
        fun _ hh => by cases hh⟩
  | gap event =>
      cases event with
      | encChange _ _ | notifyRx _ | repeatPairing _ _ => exact absurd trivial he
      | other =>
          simp only [Host.deliver, Option.some.injEq] at hd
          subst hd
          exact ⟨h.scanning, h.connecting, h.forgot, fun hsync _ => h.active hsync hrun⟩
      | disc disc =>
          obtain ⟨hscan, rfl⟩ := of_guard hd
          have hstay : ∀ o t, Scanning
              { vars := { s.vars with s_timer_state := t }, host := s.host, hung := o } := by
            intro _ _
            exact ⟨h.scanning, h.connecting, h.forgot, fun _ _ => Or.inl hscan⟩
          refine wp_return ?_
          simp only [State.after_gap, Option.isNone_map]
          -- the scan goes on, or the attempt takes its place
          refine wp_connectIfInteresting (fun _ => hstay _ _) (fun _ => ?_)
            (fun _ _ _ _ hrc hne => absurd (hrc.2 rfl) hne) (fun _ _ _ => hstay _ _)
          have hnone := (h.scanning hscan).2
          exact ⟨fun hs => (by cases hs), fun _ => hnone, h.forgot, fun _ _ => Or.inr (Or.inl rfl)⟩
      | connect status conn_handle peer =>
          obtain ⟨⟨hconnecting, hnone⟩, rfl⟩ := of_guard hd
          by_cases hst : status = 0
          · -- a connection
            subst hst
            have hscan : s.host.scanning = false := by
              by_contra hscan
              have hfalse := (h.scanning (Bool.not_eq_false _ ▸ hscan)).1
              rw [hconnecting] at hfalse
              cases hfalse
            have hl : Host.Linked
                { s.host with connecting := false, conn := some { handle := conn_handle } } :=
              ⟨hscan, rfl, rfl⟩
            refine wp_return (wp_mono (fun o v h (hl : h.Linked) => hl.scanning_after _ _ v) ?_)
            exact wp_gapConnect_established ((hl.onConn _ _).onConn _ _)
              (fun _ _ => (hl.onConn _ _).onConn _ _) (fun _ _ => hl.onConn _ _)
          · -- no connection: the scan is resumed
            refine wp_return ?_
            simp only [State.after_gap, Option.isNone_map, if_neg hst]
            refine wp_gapConnect_failed hst (fun t => ?_) (fun t => ?_)
            · exact wp_scan_idle rfl rfl (h.forgot hnone)
            · exact ⟨fun _ => ⟨rfl, rfl⟩, fun hc => (by cases hc), fun _ => h.forgot hnone,
                fun _ hh => by cases hh⟩
      | disconnect =>
          obtain ⟨hconn, rfl⟩ := of_guard hd
          refine wp_return ?_
          simp only [State.after_gap, Option.isNone_map]
          -- the peer is forgotten before the scan is resumed
          exact wp_gapDisconnect (wp_scan_idle (h.linked hconn).connecting rfl rfl)

/-! ## Never idle -/

theorem start_scanning : Scanning {} :=
  ⟨fun hs => (by cases hs), fun hc => (by cases hc), fun _ => rfl, fun hsync => (by cases hsync)⟩

/-- As long as `ble_gap_disc` and `ble_gap_connect` succeed, the client between two
    callbacks scans, tries to connect or has a connection; and while it scans,
    `should_connect` accepts the server. -/
theorem client_active {es : List Ev} (h : Run step (Answered Starts) {} es s)
    (hsync : s.host.synced = true) (hrun : s.hung = false) :
    s.host.Active ∧
    (s.host.scanning = true → s.vars.s_peer_addr.val = Buf.zero 6 ∧
      ∀ disc : DiscDesc, disc.FromServer → shouldConnect s.vars disc = true) := by
  have hinv : Scanning s := h.invariant start_scanning fun _ _ _ hi ha hs => hi.step ha hs
  refine ⟨hinv.active hsync hrun, fun hscan => ?_⟩
  have hpeer := hinv.forgot (hinv.scanning hscan).2
  exact ⟨hpeer, fun disc hd => shouldConnect_fromServer hpeer hd⟩

/-- An advertisement of the server. -/
def serverAd : DiscDesc where
  event_type := BLE_HCI_ADV_RPT_EVTYPE_ADV_IND
  addr := ⟨1, s_server_addr⟩
  uuids128 := some [GATT_UUID 0]

/-- `on_sync`, and the advertisement; `rc` is what `ble_gap_connect` returns. -/
def syncAndConnect (rc : Int) : List Ev :=
  [⟨.sync 1, [0, 0, 0, 0, 0, 0, 0]⟩,
   ⟨.gap (.disc serverAd), if rc = 0 then [0, 0] else [0, rc, 0, 0, 0]⟩]

theorem client_active_connecting :
    ∃ s, Run step (Answered Starts) {} (syncAndConnect 0) s ∧ s.host.Active := by
  obtain ⟨s, hrun, hsync, hhung⟩ : ∃ s, Run step (Answered Starts) {} (syncAndConnect 0) s ∧
      s.host.synced = true ∧ s.hung = false := Run.exists_of_exec (by decide)
  exact ⟨s, hrun, (client_active hrun hsync hhung).1⟩

/-- When `ble_gap_connect` fails, the scan has been cancelled, nothing is under way, and
    the client is in no loop. -/
theorem client_idle_after_connect :
    ∃ es s, Run step (Answered DiscStarts) {} es s ∧ s.host.synced = true ∧ s.hung = false ∧
      ¬s.host.Active := by
  obtain ⟨s, hrun, hidle⟩ : ∃ s, Run step (Answered DiscStarts) {} (syncAndConnect 6) s ∧
      s.host.synced = true ∧ s.hung = false ∧ ¬s.host.Active := Run.exists_of_exec (by decide)
  exact ⟨_, s, hrun, hidle⟩

end Speedometer.Esp32.Client
