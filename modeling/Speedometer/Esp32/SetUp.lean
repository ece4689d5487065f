/-
  Speedometer.Esp32.SetUp

  Whether the ESP32 client's set-up of a connection always ends: in a
  subscription, or in `ble_gap_terminate`.

  Set-up is a join of two chains, encryption and a three-stage discovery, and goes
  on as long as one of their procedures is outstanding.  The callbacks terminate
  the connection when a procedure fails or cannot be started, but do nothing when
  a discovery ends without a match, when the encryption fails, or when it is done
  and no characteristic was found.  `setUp_live`: unless one of these is what the
  last outstanding procedure ends with, a connection is always subscribed,
  terminated or still being set up.
-/

import Speedometer.Esp32.Scanning

namespace Speedometer.Esp32.Client

open Cpp Handler Transition

/-- The set-up procedures outstanding on a connection. -/
def Conn.outstanding (c : Conn) : Nat :=
  (if c.encrypting then 1 else 0) + c.svcs + c.chrs + c.dscs + c.writes

/-- A connection is subscribed, being terminated or being set up. -/
def Conn.Live (c : Conn) : Prop :=
  c.subscribed = true ∨ c.terminated = true ∨ 0 < c.outstanding

instance (c : Conn) : Decidable c.Live :=
  inferInstanceAs (Decidable (c.subscribed = true ∨ c.terminated = true ∨ 0 < c.outstanding))

/-- The open connection, if there is one, is live. -/
def Host.Live (h : Host) : Prop := ∀ c, h.conn = some c → c.Live

/-- The events after which nothing is outstanding on a connection and the callback does
    nothing about it: the last discovery ends without an error, the encryption fails, or
    it is done and there is no characteristic. -/
def Event.strands (v : Vars) (c : Conn) : Event → Bool
  | .gap (.encChange status _) =>
      c.svcs + c.chrs + c.dscs + c.writes = 0 ∧ (status ≠ 0 ∨ v.s_chr_found = false)
  | .service _ error_status _ | .characteristic _ error_status _ | .descriptor _ error_status _ =>
      error_status = BLE_HS_EDONE ∧ c.outstanding = 1
  | _ => false

/-- The event does not strand a connection that is neither subscribed nor terminated. -/
def Proceeds (s : State) (e : Ev) : Prop :=
  ∀ c, s.host.conn = some c → c.subscribed = false → c.terminated = false →
    e.event.strands s.vars c = false

instance decProceeds (s : State) (e : Ev) : Decidable (Proceeds s e) :=
  match hc : s.host.conn with
  | none => isTrue fun c h => by rw [hc] at h; cases h
  | some c =>
      decidable_of_iff (c.subscribed = false → c.terminated = false →
          e.event.strands s.vars c = false)
        ⟨fun h c' hc' => by rw [hc] at hc'; cases hc'; exact h, fun h => h c hc⟩

/-! ## Ends of a callback -/

/-- The open connection is subscribed or terminated. -/
def Host.Settled (h : Host) : Prop :=
  ∀ c, h.conn = some c → c.subscribed = true ∨ c.terminated = true

theorem Host.returned_zero (h : Host) (event : Event) : h.returned 0 event = h := by
  cases event <;> simp [Host.returned]

/-- A live connection stays live when the callback returns 0. -/
theorem Host.Live.after {h : Host} (hl : h.Live) (event : Event) {α : Type} (o : Option α)
    (v : Vars) : (State.after event (o.map fun _ => 0) v h).host.Live := by
  cases o with
  | none => exact hl
  | some _ =>
      simp only [Option.map_some, State.after, Host.returned_zero]
      exact hl

/-- A settled connection is live whatever the callback returns. -/
theorem Host.Settled.after {h : Host} (hs : h.Settled) (event : Event) (o : Option Int)
    (v : Vars) : (State.after event o v h).host.Live := by
  have hlive : ∀ {c : Conn}, h.conn = some c → c.Live := fun hc =>
    (hs _ hc).imp_right Or.inl
  have hgiven : ∀ (ch : BitVec 16) (f : Conn → Conn),
      (∀ c, (f c).subscribed = c.subscribed ∧ (f c).terminated = c.terminated) →
      (h.onConn ch f).Live := by
    intro ch f hf c hc
    simp only [Host.onConn, Option.map_eq_some_iff] at hc
    obtain ⟨c₀, hc₀, rfl⟩ := hc
    split
    · exact (hs c₀ hc₀).elim (fun h => Or.inl ((hf c₀).1.trans h))
        fun h => Or.inr (Or.inl ((hf c₀).2.trans h))
    · exact hlive hc₀
  cases o with
  | none => exact fun c hc => hlive hc
  | some ret =>
      cases event with
      | sync _ | gap _ | subscription _ _ => exact fun c hc => hlive hc
      | service ch st _ | characteristic ch st _ | descriptor ch st _ =>
          simp only [State.after, Host.returned]
          split
          · exact hgiven ch _ fun _ => ⟨rfl, rfl⟩
          · exact fun c hc => hlive hc

/-- Terminating the open connection settles it. -/
theorem Host.terminate_settled {h : Host} {c : Conn} (hc : h.conn = some c) {ch : BitVec 16}
    (hch : c.handle = ch := by rfl) : (h.onConn ch .terminate).Settled := by
  intro c' hc'
  rw [Host.onConn_conn hc hch] at hc'
  simp only [Option.some.injEq] at hc'
  subst hc'
  exact Or.inr rfl

/-! ## Steps -/

variable {ok : Call → Int → Prop} {v : Vars} {h : Host} {c : Conn}

theorem Host.live_of (hc : h.conn = some c) (hl : c.Live) : h.Live := by
  intro c' hc'
  rw [hc] at hc'
  cases hc'
  exact hl

/-- The join of the two chains goes on, or terminates the connection. -/
theorem wp_tryStart_live (hc : h.conn = some c) (event : Event)
    (hwait : v.s_enc_done = false ∨ v.s_chr_found = false → c.Live) :
    wp effect ok (tryStartDscDiscovery c.handle)
      (fun o v h => (State.after event (o.map fun _ => 0) v h).host.Live) v h := by
  refine wp_tryStartDscDiscovery (fun hno => ?_) (fun _ => ?_) (fun _ rc _ o t => ?_)
  · refine (Host.live_of hc (hwait ?_)).after event (some ()) v
    cases henc : v.s_enc_done with
    | false => exact Or.inl rfl
    | true => exact Or.inr (by simpa [henc] using hno)
  · -- the descriptor discovery is outstanding
    rw [effect_discAllDscs hc]
    refine (Host.live_of rfl ?_).after event (some ()) v
    refine Or.inr (Or.inr ?_)
    simp only [Conn.outstanding, Conn.dscCalled, if_true]
    omega
  · rw [effect_discAllDscs hc]
    exact (Host.terminate_settled rfl).after event _ _

section Callbacks

variable {ch st : BitVec 16}

theorem wp_service_live {svc : Option GattSvc} (hc : h.conn = some c) (hch : c.handle = ch)
    (hdone : st = BLE_HS_EDONE → c.Live) :
    wp effect ok (onServiceDiscovery ch st svc)
      (fun o v h => (State.after (.service ch st svc) o v h).host.Live) v h := by
  subst hch
  refine wp_onServiceDiscovery (fun s _ => ?_) (fun s _ o t => ?_) (fun _ hst => ?_)
    (fun _ _ o t => ?_)
  · -- the characteristic discovery is outstanding
    simp only [effect, if_true, Host.onConn_conn hc]
    refine (Host.live_of rfl (Or.inr (Or.inr ?_))).after (.service c.handle st svc) (some ()) _
    simp only [Conn.outstanding]
    omega
  · exact (Host.terminate_settled hc).after _ o _
  · exact (Host.live_of hc (hdone hst)).after _ (some ()) v
  · exact (Host.terminate_settled hc).after _ o _

theorem wp_characteristic_live {chr : Option GattChr} (hc : h.conn = some c) (hch : c.handle = ch)
    (hmore : st = 0 → c.Live) (hdone : st = BLE_HS_EDONE → c.Live) :
    wp effect ok (onCharacteristicDiscovery ch st chr)
      (fun o v h => (State.after (.characteristic ch st chr) o v h).host.Live) v h := by
  subst hch
  refine wp_onCharacteristicDiscovery (fun x hx => ?_) (fun _ hst => ?_) (fun _ _ o t => ?_)
  · exact wp_tryStart_live hc _ fun _ => hmore (status_of_reported hx)
  · exact (Host.live_of hc (hdone hst)).after _ (some ()) v
  · exact (Host.terminate_settled hc).after _ o _

theorem wp_descriptor_live {dsc : Option GattDsc} (hc : h.conn = some c) (hch : c.handle = ch)
    (hmore : st = 0 → c.Live) (hdone : st = BLE_HS_EDONE → c.Live) :
    wp effect ok (onDescriptorDiscovery ch st dsc)
      (fun o v h => (State.after (.descriptor ch st dsc) o v h).host.Live) v h := by
  subst hch
  refine wp_onDescriptorDiscovery (fun d _ => ?_) (fun d rc _ _ o t => ?_) (fun d hd => ?_)
    (fun _ hst => ?_) (fun _ _ o t => ?_)
  · -- the write is outstanding; the discovery is given up
    rw [effect_writeFlat hc]
    simp only [if_true, State.after, Host.returned]
    split
    · rw [Host.onConn_conn rfl]
      refine Host.live_of rfl (Or.inr (Or.inr ?_))
      simp only [Conn.outstanding]
      omega
    · refine Host.live_of rfl (Or.inr (Or.inr ?_))
      simp only [Conn.outstanding]
      omega
  · rw [effect_writeFlat hc]
    exact (Host.terminate_settled rfl).after _ o _
  · exact (Host.live_of hc (hmore (status_of_reported hd))).after _ (some ()) v
  · exact (Host.live_of hc (hdone hst)).after _ (some ()) v
  · exact (Host.terminate_settled hc).after _ o _

theorem wp_subscription_live (hc : h.conn = some c) (hch : c.handle = ch)
    (hok : st = 0 → c.subscribed = true) :
    wp effect ok (onSubscription ch st)
      (fun o v h => (State.after (.subscription ch st) o v h).host.Live) v h := by
  subst hch
  refine wp_onSubscription (fun hst o t => ?_)
    (fun _ o t => (Host.terminate_settled hc).after _ o _)
  have hset : h.Settled := by
    intro c' hc'
    rw [hc] at hc'
    cases hc'
    exact Or.inl (hok hst)
  exact hset.after _ o _

theorem wp_encChange_live {status : Int} (hc : h.conn = some c) (hch : c.handle = ch)
    (hwait : v.s_chr_found = false → c.Live) (hfail : status ≠ 0 → c.Live) :
    wp effect ok (gapEvent (.encChange status ch))
      (fun o v h => (State.after (.gap (.encChange status ch)) o v h).host.Live) v h := by
  subst hch
  refine wp_return (wp_gapEncChange (fun _ => ?_) (fun hst o t => ?_))
  · exact wp_tryStart_live hc _ fun hno => hwait (hno.resolve_left (by simp))
  · exact (Host.live_of hc (hfail hst)).after _ o _

/-- A new connection is being set up, or terminated. -/
theorem wp_established_live {peer : BleAddr} (hc : h.conn = some c) (hch : c.handle = ch) :
    wp effect ok (gapEvent (.connect 0 ch peer))
      (fun o v h => (State.after (.gap (.connect 0 ch peer)) o v h).host.Live) v h := by
  subst hch
  refine wp_return (wp_gapConnect_established ?_ (fun o t => ?_) (fun o t => ?_))
  · -- encryption and service discovery are outstanding
    rw [Host.onConn_conn hc, Host.onConn_conn rfl]
    refine (Host.live_of rfl (Or.inr (Or.inr ?_))).after _ (some ()) _
    simp only [Conn.outstanding]
    omega
  · -- the discovery could not be started
    rw [Host.onConn_conn hc]
    exact (Host.terminate_settled rfl).after _ _ _
  · exact (Host.terminate_settled hc).after _ _ _

/-- A scan leaves the open connection alone. -/
theorem wp_scan_live (hl : h.Live) (event : Event) :
    wp effect ok scan (fun o v h => (State.after event (o.map fun _ => 0) v h).host.Live) v h := by
  have hl' : Host.Live { h with scanning := true } := hl
  exact wp_scan (fun _ => hl'.after event (some ()) _) (fun o _ _ _ _ => hl.after event o _)
    (fun _ => hl.after event (none : Option Unit) _)

end Callbacks

/-! ## Invariant -/

/-- A step that does not strand the connection leaves it live if it leaves a procedure
    outstanding. -/
theorem Proceeds.live {s : State} {e : Ev} (hproceeds : Proceeds s e) (hc : s.host.conn = some c)
    {c' : Conn} (hsub : c'.subscribed = c.subscribed) (hterm : c'.terminated = c.terminated)
    (hmore : e.event.strands s.vars c = false → 0 < c'.outstanding) : c'.Live := by
  rw [Conn.Live, hsub, hterm]
  cases hs : c.subscribed with
  | true => exact Or.inl rfl
  | false =>
      cases ht : c.terminated with
      | true => exact Or.inr (Or.inl rfl)
      | false => exact Or.inr (Or.inr (hmore (hproceeds c hc hs ht)))

/-- A discovery that ends without stranding the connection was not the last procedure. -/
theorem Proceeds.ended {s : State} {e : Ev} (hproceeds : Proceeds s e)
    (hc : s.host.conn = some c) {c' : Conn} (hsub : c'.subscribed = c.subscribed)
    (hterm : c'.terminated = c.terminated)
    (hstrands : e.event.strands s.vars c = decide (c.outstanding = 1))
    (hout : c'.outstanding + 1 = c.outstanding) : c'.Live := by
  refine hproceeds.live hc hsub hterm fun hmore => ?_
  rw [hstrands, decide_eq_false_iff_not] at hmore
  omega

/-- The callbacks of GAP events. -/
theorem wp_gap_live {s : State} {event : GapEvent} {rcs : List Int} (hlive : s.host.Live)
    (hproceeds : Proceeds s ⟨.gap event, rcs⟩) {host : Host}
    (hd : s.host.deliver (.gap event) = some host) :
    wp effect ok (gapEvent event) (fun o v h => (State.after (.gap event) o v h).host.Live)
      s.vars host := by
  cases event with
  | disc disc =>
      obtain ⟨-, rfl⟩ := of_guard hd
      have hstop : Host.Live { s.host with scanning := false } := hlive
      have htry : Host.Live { s.host with scanning := false, connecting := true } := hlive
      exact wp_return (wp_connectIfInteresting (fun _ => hlive.after _ (some ()) _)
        (fun _ => htry.after _ (some ()) _) (fun _ o _ _ _ _ => hstop.after _ o _)
        (fun _ o _ => hlive.after _ o _))
  | connect status ch peer =>
      obtain ⟨-, rfl⟩ := of_guard hd
      by_cases hst : status = 0
      · subst hst
        exact wp_established_live rfl rfl
      · rw [if_neg hst]
        have hnone : Host.Live { s.host with connecting := false, conn := none } :=
          fun c hc => by cases hc
        exact wp_return (wp_gapConnect_failed hst (fun _ => wp_scan_live hnone _)
          (fun _ => hnone.after _ (none : Option Unit) _))
  | disconnect =>
      obtain ⟨-, rfl⟩ := of_guard hd
      have hnone : Host.Live { s.host with conn := none } := fun c hc => by cases hc
      exact wp_return (wp_gapDisconnect (wp_scan_live hnone _))
  | encChange status ch =>
      obtain ⟨c, c', hc, hch, hc', rfl⟩ := Host.report_eq_some.mp hd
      simp only [Option.some.injEq] at hc'
      -- where the callback does nothing, a discovery is still outstanding
      have hrest : status ≠ 0 ∨ s.vars.s_chr_found = false → c'.Live := by
        intro hexit
        subst hc'
        refine hproceeds.live hc rfl rfl fun hmore => ?_
        simp only [Event.strands, hexit, and_true, decide_eq_false_iff_not] at hmore
        simp only [Conn.outstanding]
        omega
      have hch' : c'.handle = ch := by
        subst hc'
        exact hch
      exact wp_encChange_live rfl hch' (fun hno => hrest (Or.inr hno)) fun hst =>
        hrest (Or.inl hst)
  | notifyRx om =>
      obtain ⟨-, rfl⟩ := of_guard hd
      exact wp_return (wp_gapNotifyRx fun o _ => hlive.after _ o _)
  | repeatPairing ch peer =>
      obtain ⟨c, c', hc, hch, hc', rfl⟩ := Host.report_eq_some.mp hd
      cases hc'
      refine wp_gapRepeatPairing fun o t => ?_
      rw [State.after_gap]
      exact Host.live_of rfl (hlive c hc)
  | other =>
      simp only [Host.deliver, Option.some.injEq] at hd
      subst hd
      exact hlive.after _ (some ()) _

theorem wp_live {s : State} {e : Ev} (hlive : s.host.Live) (hproceeds : Proceeds s e)
    {host : Host} (hd : s.host.deliver e.event = some host) :
    wp effect ok e.event.callback (fun o v h => (State.after e.event o v h).host.Live)
      s.vars host := by
  obtain ⟨event, rcs⟩ := e
  cases event with
  | gap event => exact wp_gap_live hlive hproceeds hd
  | sync addr_type =>
      obtain ⟨-, rfl⟩ := of_guard hd
      have hlive' : Host.Live { s.host with synced := true } := hlive
      exact wp_return (wp_onSync (wp_scan_live hlive' _)
        fun _ _ => hlive'.after _ (none : Option Unit) _)
  | service ch st svc =>
      obtain ⟨c, c', hc, hch, hc', rfl⟩ := Host.report_eq_some.mp hd
      obtain ⟨hpos, rfl⟩ := of_guard hc'
      refine wp_service_live rfl hch fun hst => ?_
      subst hst
      refine hproceeds.ended hc rfl rfl (by simp only [Event.strands, true_and]) ?_
      simp only [Conn.outstanding, remaining_EDONE]
      omega
  | characteristic ch st chr =>
      obtain ⟨c, c', hc, hch, hc', rfl⟩ := Host.report_eq_some.mp hd
      obtain ⟨hpos, rfl⟩ := of_guard hc'
      refine wp_characteristic_live rfl hch (fun hst => ?_) (fun hst => ?_)
      · -- a result: the discovery that reported it goes on
        subst hst
        refine Or.inr (Or.inr ?_)
        simp only [Conn.outstanding, remaining_zero]
        omega
      · subst hst
        refine hproceeds.ended hc rfl rfl (by simp only [Event.strands, true_and]) ?_
        simp only [Conn.outstanding, remaining_EDONE]
        omega
  | descriptor ch st dsc =>
      obtain ⟨c, c', hc, hch, hc', rfl⟩ := Host.report_eq_some.mp hd
      obtain ⟨hpos, rfl⟩ := of_guard hc'
      refine wp_descriptor_live rfl hch (fun hst => ?_) (fun hst => ?_)
      · subst hst
        refine Or.inr (Or.inr ?_)
        simp only [Conn.outstanding, remaining_zero]
        omega
      · subst hst
        refine hproceeds.ended hc rfl rfl (by simp only [Event.strands, true_and]) ?_
        simp only [Conn.outstanding, remaining_EDONE]
        omega
  | subscription ch st =>
      obtain ⟨c, c', hc, hch, hc', rfl⟩ := Host.report_eq_some.mp hd
      obtain ⟨hpos, rfl⟩ := of_guard hc'
      exact wp_subscription_live rfl hch fun hst => by simp [hst]

/-- A step that strands no connection keeps every connection live. -/
theorem Host.Live.step {s s' : State} {e : Ev} (hlive : s.host.Live) (hproceeds : Proceeds s e)
    (hs : step s e = some s') : s'.host.Live := by
  have hans : Answered (fun _ _ => True) s e := fun _ _ => trivial
  exact step_wp (P := fun s => s.host.Live) hans hs fun _ _ hd => wp_live hlive hproceeds hd

/-- In a run none of whose steps strands the connection, every open connection is
    subscribed, terminated or still being set up. -/
theorem setUp_live {es : List Ev} {s : State} (h : Run step Proceeds {} es s) :
    ∀ c, s.host.conn = some c →
      c.subscribed = true ∨ c.terminated = true ∨ 0 < c.outstanding :=
  h.invariant (I := fun s => s.host.Live) (fun _ hc => by cases hc) fun _ _ _ hl hp hs =>
    hl.step hp hs

/-! ## The condition is exact -/

/-- A connection that is not live stays so when the callback leaves it alone. -/
theorem Host.dead_after (hc : h.conn = some c) (hdead : ¬c.Live) (event : Event) {α : Type}
    (o : Option α) (v : Vars) : ¬(State.after event (o.map fun _ => 0) v h).host.Live := by
  cases o with
  | none => exact fun hl => hdead (hl c hc)
  | some _ =>
      simp only [Option.map_some, State.after, Host.returned_zero]
      exact fun hl => hdead (hl c hc)

theorem Conn.dead_of (hsub : c.subscribed = false) (hterm : c.terminated = false)
    (hout : c.outstanding = 0) : ¬c.Live := by
  rintro (h | h | h)
  · rw [hsub] at h
    cases h
  · rw [hterm] at h
    cases h
  · omega

/-- A step that strands the connection leaves it neither subscribed, terminated nor being
    set up. -/
theorem setUp_dead {s s' : State} {e : Ev} (hs : step s e = some s') (hno : ¬Proceeds s e) :
    ¬s'.host.Live := by
  have hans : Answered (fun _ _ => True) s e := fun _ _ => trivial
  refine step_wp (P := fun s => ¬s.host.Live) hans hs fun _ host hd => ?_
  simp only [Proceeds, not_forall] at hno
  obtain ⟨c, hc, hsub, hterm, hstrands⟩ := hno
  obtain ⟨event, rcs⟩ := e
  cases event with
  | sync _ | subscription _ _ => simp [Event.strands] at hstrands
  | gap event =>
      cases event with
      | encChange status ch =>
          obtain ⟨c₀, c', hc₀, -, hc', rfl⟩ := Host.report_eq_some.mp hd
          rw [hc] at hc₀
          cases hc₀
          simp only [Option.some.injEq] at hc'
          simp only [Event.strands, Bool.decide_and, Bool.not_eq_false, Bool.and_eq_true,
            decide_eq_true_eq] at hstrands
          obtain ⟨hzero, hexit⟩ := hstrands
          -- the encryption was all that was outstanding
          have hdead : ¬c'.Live := by
            subst hc'
            refine Conn.dead_of hsub hterm ?_
            simp only [Conn.outstanding, Bool.false_eq_true, if_false]
            omega
          have hstay : ∀ (o : Option Unit) v, ¬(State.after (.gap (.encChange status ch))
              (o.map fun _ => 0) v { s.host with conn := some c' }).host.Live :=
            fun o v => Host.dead_after rfl hdead _ o v
          refine wp_return (wp_gapEncChange (fun hst => ?_) (fun _ o _ => hstay o _))
          have hfound : s.vars.s_chr_found = false := hexit.resolve_left (by simp [hst])
          exact wp_tryStartDscDiscovery (fun _ => hstay (some ()) _)
            (fun hboth => by simp [hfound] at hboth) (fun hboth => by simp [hfound] at hboth)
      | _ => simp [Event.strands] at hstrands
  | service ch st svc | characteristic ch st svc | descriptor ch st svc =>
      obtain ⟨c₀, c', hc₀, -, hc', rfl⟩ := Host.report_eq_some.mp hd
      rw [hc] at hc₀
      cases hc₀
      simp only [Option.ite_none_right_eq_some, Option.some.injEq] at hc'
      simp only [Event.strands, Bool.decide_and, Bool.not_eq_false, Bool.and_eq_true,
        decide_eq_true_eq] at hstrands
      obtain ⟨hpos, hc'⟩ := hc'
      obtain ⟨rfl, hone⟩ := hstrands
      -- and so was this discovery
      have hdead : ¬c'.Live := by
        subst hc'
        refine Conn.dead_of hsub hterm ?_
        simp only [Conn.outstanding, remaining_EDONE] at hone ⊢
        omega
      exact wp_ended (fun _ => Host.dead_after rfl hdead _ (some ()) _) (fun hne => absurd rfl hne)

/-- A connection is established, encrypted and subscribed. -/
def subscribeRun : List Ev :=
  syncAndConnect 0 ++
    [⟨.gap (.connect 0 1 ⟨1, s_server_addr⟩), [0, 0, 0]⟩,
     ⟨.gap (.encChange 0 1), []⟩,
     ⟨.service 1 0 (some ⟨10, 20⟩), [0]⟩,
     ⟨.characteristic 1 0 (some ⟨12⟩), [0]⟩,
     ⟨.descriptor 1 0 (some ⟨13, .uuid16 BLE_GATT_DSC_CLT_CFG_UUID16⟩), [0]⟩,
     ⟨.service 1 BLE_HS_EDONE none, []⟩,
     ⟨.characteristic 1 BLE_HS_EDONE none, []⟩,
     ⟨.subscription 1 0, [0, 0, 0]⟩]

theorem setUp_live_subscribe :
    ∃ s c, Run step Proceeds {} subscribeRun s ∧ s.host.conn = some c ∧
      (c.subscribed = true ∨ c.terminated = true ∨ 0 < c.outstanding) := by
  obtain ⟨s, hrun, hconn⟩ : ∃ s, Run step Proceeds {} subscribeRun s ∧
      s.host.conn.isSome = true := Run.exists_of_exec (by decide)
  obtain ⟨c, hc⟩ := Option.isSome_iff_exists.mp hconn
  exact ⟨s, c, hrun, hc, setUp_live hrun c hc⟩

/-- A connection is established and encrypted, and the server has no such service. -/
def strandedRun : List Ev :=
  syncAndConnect 0 ++
    [⟨.gap (.connect 0 1 ⟨1, s_server_addr⟩), [0, 0, 0]⟩,
     ⟨.gap (.encChange 0 1), []⟩,
     ⟨.service 1 BLE_HS_EDONE none, []⟩]

/-- A discovery that ends without a match leaves the connection open, with nothing
    outstanding on it. -/
theorem setUp_stranded :
    ∃ es s c, Run step Always {} es s ∧ s.host.conn = some c ∧
      ¬(c.subscribed = true ∨ c.terminated = true ∨ 0 < c.outstanding) := by
  obtain ⟨s, hrun, c, hc, hdead⟩ : ∃ s, Run step Always {} strandedRun s ∧
      ∃ c ∈ s.host.conn, ¬c.Live := Run.exists_of_exec (by decide)
  exact ⟨_, s, c, hrun, hc, hdead⟩

end Speedometer.Esp32.Client
