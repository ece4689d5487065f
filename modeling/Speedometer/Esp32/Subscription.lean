/-
  Speedometer.Esp32.Subscription

  When the ESP32 client discovers descriptors and subscribes.

  Encryption and discovery meet in `try_start_dsc_discovery`, through two flags and
  two handles that outlive a connection.  `Joined` ties them to what has happened on
  the open connection.  `subscription_joined`: descriptors are discovered only on an
  encrypted connection, with the handles reported on it; and once both chains have
  arrived the discovery has been started, or its start has failed and the connection
  is terminated.
-/

import Speedometer.Esp32.SetUp

namespace Speedometer.Esp32.Client

open Cpp Handler Transition

/-! ## Invariant -/

/-- The call was made on an open connection, encrypted, with the handles last reported on
    it. -/
def DscCall.Sound (d : DscCall) : Prop :=
  ∃ c, d.conn = some c ∧ d.conn_handle = c.handle ∧ c.encrypted = true ∧
    c.val_handle = some d.start_handle ∧ c.end_handle = some d.end_handle

/-- The write was made on an open connection, encrypted and with the characteristic
    found. -/
def WriteCall.Sound (w : WriteCall) : Prop :=
  ∃ c, w.conn = some c ∧ w.conn_handle = c.handle ∧ c.encrypted = true ∧
    c.val_handle.isSome = true

/-- The descriptor discovery has been started, or its start has failed and the connection
    is terminated. -/
def Conn.Started (c : Conn) : Prop := 0 ∈ c.dscRcs ∨ c.dscRcs ≠ [] ∧ c.terminated = true

/-- The variables say what has happened on the connection. -/
structure Conn.Tracked (v : Vars) (c : Conn) : Prop where
  enc : v.s_enc_done = c.encrypted
  found : v.s_chr_found = c.val_handle.isSome
  val_handle : ∀ a, c.val_handle = some a → v.s_chr_val_handle = a
  end_handle : ∀ a, c.end_handle = some a → v.s_svc_end_handle = a
  chrs : 0 < c.chrs ∨ c.val_handle.isSome = true → c.end_handle.isSome = true
  dscs : 0 < c.dscs → c.encrypted = true ∧ c.val_handle.isSome = true

/-- The invariant of the join. -/
structure Joined (v : Vars) (h : Host) : Prop where
  idle : h.conn = none → v.s_enc_done = false ∧ v.s_chr_found = false
  tracked : ∀ c, h.conn = some c → c.Tracked v
  started : ∀ c, h.conn = some c → c.encrypted = true → c.val_handle.isSome = true → c.Started
  dscCalls : ∀ d ∈ h.dscCalls, d.Sound
  writeCalls : ∀ w ∈ h.writeCalls, w.Sound

variable {v v' : Vars} {h h' : Host} {c c' : Conn}

/-- Variables that the join does not use may change. -/
theorem Joined.vars (hj : Joined v h) (henc : v'.s_enc_done = v.s_enc_done)
    (hfound : v'.s_chr_found = v.s_chr_found)
    (hval : v'.s_chr_val_handle = v.s_chr_val_handle)
    (hend : v'.s_svc_end_handle = v.s_svc_end_handle) : Joined v' h where
  idle := fun hc => by rw [henc, hfound]; exact hj.idle hc
  tracked := fun c hc =>
    have ht := hj.tracked c hc
    ⟨henc.trans ht.enc, hfound.trans ht.found, fun a ha => hval.trans (ht.val_handle a ha),
      fun a ha => hend.trans (ht.end_handle a ha), ht.chrs, ht.dscs⟩
  started := hj.started
  dscCalls := hj.dscCalls
  writeCalls := hj.writeCalls

/-- So may what the host has under way besides the connection. -/
theorem Joined.host (hj : Joined v h) (hc : h'.conn = h.conn) (hdscs : h'.dscCalls = h.dscCalls)
    (hwrites : h'.writeCalls = h.writeCalls) : Joined v h' where
  idle := by
    rw [hc]
    exact hj.idle
  tracked := by
    rw [hc]
    exact hj.tracked
  started := by
    rw [hc]
    exact hj.started
  dscCalls := by
    rw [hdscs]
    exact hj.dscCalls
  writeCalls := by
    rw [hwrites]
    exact hj.writeCalls

/-- What a change of the connection may not undo. -/
structure Conn.Kept (c c' : Conn) : Prop where
  encrypted : c'.encrypted = c.encrypted
  val_handle : c'.val_handle = c.val_handle
  end_handle : c'.end_handle = c.end_handle
  chrs : c'.chrs ≤ c.chrs ∨ c.end_handle.isSome = true
  dscs : c'.dscs ≤ c.dscs
  dscRcs : c'.dscRcs = c.dscRcs
  terminated : c.terminated = true → c'.terminated = true

/-- A change that leaves the two handles, the counts and the flags alone. -/
theorem Conn.Kept.of_same (henc : c'.encrypted = c.encrypted := by rfl)
    (hval : c'.val_handle = c.val_handle := by rfl)
    (hend : c'.end_handle = c.end_handle := by rfl) (hchrs : c'.chrs = c.chrs := by rfl)
    (hdscs : c'.dscs = c.dscs := by rfl) (hrcs : c'.dscRcs = c.dscRcs := by rfl)
    (hterm : c'.terminated = c.terminated := by rfl) : c.Kept c' :=
  ⟨henc, hval, hend, Or.inl hchrs.le, hdscs.le, hrcs, hterm.trans⟩

theorem Conn.Tracked.kept (ht : c.Tracked v) (hk : c.Kept c') : c'.Tracked v where
  enc := ht.enc.trans hk.encrypted.symm
  found := ht.found.trans (by rw [hk.val_handle])
  val_handle := fun a ha => ht.val_handle a (hk.val_handle ▸ ha)
  end_handle := fun a ha => ht.end_handle a (hk.end_handle ▸ ha)
  chrs := by
    intro hor
    rw [hk.val_handle] at hor
    rw [hk.end_handle]
    rcases hor with hpos | hsome
    · rcases hk.chrs with hle | hsome
      · exact ht.chrs (Or.inl (Nat.lt_of_lt_of_le hpos hle))
      · exact hsome
    · exact ht.chrs (Or.inr hsome)
  dscs := by
    intro hpos
    rw [hk.encrypted, hk.val_handle]
    exact ht.dscs (Nat.lt_of_lt_of_le hpos hk.dscs)

theorem Conn.Started.kept (hs : c.Started) (hk : c.Kept c') : c'.Started := by
  rw [Conn.Started, hk.dscRcs]
  exact hs.imp_right fun h => ⟨h.1, hk.terminated h.2⟩

/-- The invariant of a host with an open connection. -/
theorem Joined.of_conn (hc : h.conn = some c) (ht : c.Tracked v)
    (hs : c.encrypted = true → c.val_handle.isSome = true → c.Started)
    (hdscs : ∀ d ∈ h.dscCalls, d.Sound) (hwrites : ∀ w ∈ h.writeCalls, w.Sound) :
    Joined v h where
  idle := fun hnone => by rw [hc] at hnone; cases hnone
  tracked := by
    intro c' hc'
    rw [hc] at hc'
    cases hc'
    exact ht
  started := by
    intro c' hc'
    rw [hc] at hc'
    cases hc'
    exact hs
  dscCalls := hdscs
  writeCalls := hwrites

/-- The open connection may be replaced by one that keeps what the join looks at. -/
theorem Joined.keep (hj : Joined v h) (hc : h.conn = some c) (hk : c.Kept c') :
    Joined v { h with conn := some c' } :=
  .of_conn rfl ((hj.tracked c hc).kept hk)
    (fun henc hval => (hj.started c hc (hk.encrypted ▸ henc) (hk.val_handle ▸ hval)).kept hk)
    hj.dscCalls hj.writeCalls

theorem Joined.onConn (hj : Joined v h) (ch : BitVec 16) {f : Conn → Conn}
    (hf : ∀ c : Conn, c.Kept (f c)) : Joined v (h.onConn ch f) := by
  cases hc : h.conn with
  | none =>
      have heq : h.onConn ch f = h := by
        cases h
        simp only [Host.onConn] at hc ⊢
        subst hc
        rfl
      rw [heq]
      exact hj
  | some c =>
      by_cases hch : c.handle = ch
      · rw [Host.onConn_conn hc hch]
        exact hj.keep hc (hf c)
      · have heq : h.onConn ch f = h := by
          cases h
          simp only [Host.onConn] at hc ⊢
          subst hc
          simp [hch]
        rw [heq]
        exact hj

theorem Conn.kept_terminate (c : Conn) : c.Kept c.terminate :=
  ⟨rfl, rfl, rfl, Or.inl (Nat.le_refl _), Nat.le_refl _, rfl, fun _ => rfl⟩

theorem Joined.terminate (hj : Joined v h) (ch : BitVec 16) : Joined v (h.onConn ch .terminate) :=
  hj.onConn ch Conn.kept_terminate

/-- The join survives the return of a callback. -/
theorem Joined.after (hj : Joined v h) (event : Event) (o : Option Int) :
    Joined (State.after event o v h).vars (State.after event o v h).host := by
  cases o with
  | none => exact hj
  | some ret =>
      cases event with
      | sync _ | gap _ | subscription _ _ => exact hj
      | service ch st _ | characteristic ch st _ | descriptor ch st _ =>
          simp only [State.after, Host.returned]
          split
          · exact hj.onConn ch fun c =>
              ⟨rfl, rfl, rfl, Or.inl (by simp), by simp, rfl, fun ht => ht⟩
          · exact hj

/-! ## Callbacks -/

variable {ok : Call → Int → Prop}

/-- The condition on a callback that it keeps the join. -/
def Joins (event : Event) (o : Option Int) (v : Vars) (h : Host) : Prop :=
  Joined (State.after event o v h).vars (State.after event o v h).host

/-- Both chains have arrived, or not: afterwards the discovery has been started, or the
    connection is terminated. -/
theorem wp_tryStart_joined (hc : h.conn = some c) (ht : c.Tracked v)
    (hdscs : ∀ d ∈ h.dscCalls, d.Sound) (hwrites : ∀ w ∈ h.writeCalls, w.Sound) (event : Event) :
    wp effect ok (tryStartDscDiscovery c.handle)
      (fun o v h => Joins event (o.map fun _ => 0) v h) v h := by
  -- the call that the two flags let through
  have hcall : v.s_enc_done = true ∧ v.s_chr_found = true → ∀ rc, ∀ d ∈ h.dscCalls ++
      [⟨some c, c.handle, v.s_chr_val_handle, v.s_svc_end_handle, rc⟩], d.Sound := by
    intro ⟨henc, hfound⟩ rc d hd
    rcases List.mem_append.mp hd with hd | hd
    · exact hdscs d hd
    · rw [List.mem_singleton.mp hd]
      have hval : c.val_handle.isSome = true := ht.found.symm.trans hfound
      obtain ⟨a, ha⟩ := Option.isSome_iff_exists.mp hval
      obtain ⟨b, hb⟩ := Option.isSome_iff_exists.mp (ht.chrs (Or.inr hval))
      exact ⟨c, rfl, rfl, ht.enc.symm.trans henc, ha.trans (by rw [ht.val_handle a ha]),
        hb.trans (by rw [ht.end_handle b hb])⟩
  have htracked : v.s_enc_done = true ∧ v.s_chr_found = true → ∀ rc, (c.dscCalled rc).Tracked v :=
    fun ⟨henc, hfound⟩ rc => ⟨ht.enc, ht.found, ht.val_handle, ht.end_handle, ht.chrs,
      fun _ => ⟨ht.enc.symm.trans henc, ht.found.symm.trans hfound⟩⟩
  refine wp_tryStartDscDiscovery (fun hno => ?_) (fun hboth => ?_) (fun hboth rc hrc o t => ?_)
  · -- one of the chains has not arrived: nothing is to have been started
    refine (Joined.of_conn hc ht (fun henc hval => absurd ?_ hno) hdscs hwrites).after _ _
    exact ⟨ht.enc.trans henc, ht.found.trans hval⟩
  · rw [effect_discAllDscs hc]
    have hj : Joined v
        { h with
          conn := some (c.dscCalled 0)
          dscCalls := h.dscCalls ++
            [⟨some c, c.handle, v.s_chr_val_handle, v.s_svc_end_handle, 0⟩] } :=
      .of_conn rfl (htracked hboth 0) (fun _ _ => Or.inl (by simp [Conn.dscCalled]))
        (hcall hboth 0) hwrites
    exact hj.after event (some 0)
  · -- the start failed: the call is on record, and the connection is terminated
    rw [effect_discAllDscs hc, Host.onConn_conn rfl]
    have hj : Joined v
        { h with
          conn := some (c.dscCalled rc).terminate
          dscCalls := h.dscCalls ++
            [⟨some c, c.handle, v.s_chr_val_handle, v.s_svc_end_handle, rc⟩] } :=
      .of_conn rfl ((htracked hboth rc).kept (Conn.kept_terminate _))
        (fun _ _ => Or.inr ⟨by simp [Conn.dscCalled, Conn.terminate], rfl⟩) (hcall hboth rc) hwrites
    have hj' : Joined { v with s_timer_state := t } _ := hj.vars rfl rfl rfl rfl
    exact hj'.after event _

/-- Nothing changes but what the join does not use. -/
theorem Joined.quiet (hj : Joined v h) (event : Event) (o : Option Int) (t : TimerState) :
    Joins event o { v with s_timer_state := t } h := by
  have hj' : Joined { v with s_timer_state := t } h := hj.vars rfl rfl rfl rfl
  exact hj'.after event o

/-- The failure paths. -/
theorem Joined.failed (hj : Joined v h) (event : Event) (ch : BitVec 16) (o : Option Int)
    (t : TimerState) : Joins event o { v with s_timer_state := t } (h.onConn ch .terminate) :=
  (hj.terminate ch).quiet event o t

theorem wp_scan_joined (hj : Joined v h) (event : Event) :
    wp effect ok scan (fun o v h => Joins event (o.map fun _ => 0) v h) v h := by
  have hj' : Joined v { h with scanning := true } := hj.host rfl rfl rfl
  exact wp_scan (fun t => hj'.quiet event (some 0) t) (fun o t _ _ _ => hj.quiet event _ t)
    (fun t => hj.quiet event none t)

theorem wp_service_joined {ch st : BitVec 16} {svc : Option GattSvc} {s : State} {host : Host}
    (hj : Joined s.vars s.host) (hd : s.host.deliver (.service ch st svc) = some host) :
    wp effect ok (onServiceDiscovery ch st svc) (Joins (.service ch st svc)) s.vars host := by
  obtain ⟨c, c', hc, rfl, hc', rfl⟩ := Host.report_eq_some.mp hd
  obtain ⟨hpos, hc'⟩ := of_guard hc'
  have ht := hj.tracked c hc
  -- without a result the handle stays what it was
  have hnone : reported st svc = none → Joined s.vars { s.host with conn := some c' } := by
    intro hnone
    refine hj.keep hc ?_
    subst hc'
    exact .of_same rfl rfl (by simp [hnone])
  -- a service: the handle is stored
  have hsome : ∀ x, reported st svc = some x →
      Joined { s.vars with s_svc_end_handle := x.end_handle }
        { s.host with conn := some c' } := by
    intro x hx
    subst hc'
    refine .of_conn rfl ⟨ht.enc, ht.found, ht.val_handle, ?_, ?_, ht.dscs⟩
      (fun henc hval => hj.started c hc henc hval) hj.dscCalls hj.writeCalls
    · intro a ha
      simp only [hx, Option.elim_some, Option.some.injEq] at ha
      exact ha
    · exact fun _ => by simp [hx]
  refine wp_onServiceDiscovery (fun x hx => ?_) (fun x hx o t => ?_)
    (fun hno _ => (hnone hno).quiet _ (some 0) s.vars.s_timer_state)
    (fun hno _ o t => (hnone hno).failed _ _ o t)
  · refine Joined.after (v := { s.vars with s_svc_end_handle := x.end_handle }) ?_ _ (some 0)
    simp only [effect, if_true]
    rw [Host.onConn_conn rfl (by subst hc'; rfl)]
    refine (hsome x hx).keep rfl ?_
    refine ⟨rfl, rfl, rfl, Or.inr ?_, Nat.le_refl _, rfl, fun h => h⟩
    subst hc'
    simp [hx]
  · exact (hsome x hx).failed _ _ o t

theorem wp_characteristic_joined {ch st : BitVec 16} {chr : Option GattChr} {s : State}
    {host : Host} (hj : Joined s.vars s.host)
    (hd : s.host.deliver (.characteristic ch st chr) = some host) :
    wp effect ok (onCharacteristicDiscovery ch st chr) (Joins (.characteristic ch st chr))
      s.vars host := by
  obtain ⟨c, c', hc, rfl, hc', rfl⟩ := Host.report_eq_some.mp hd
  obtain ⟨hpos, hc'⟩ := of_guard hc'
  have ht := hj.tracked c hc
  have hnone : reported st chr = none → Joined s.vars { s.host with conn := some c' } := by
    intro hnone
    refine hj.keep hc ?_
    subst hc'
    refine ⟨rfl, by simp [hnone], rfl, Or.inl ?_, Nat.le_refl _, rfl, fun h => h⟩
    simp only [remaining]
    split
    · exact Nat.le_refl _
    · exact Nat.sub_le _ _
  refine wp_onCharacteristicDiscovery (fun x hx => ?_)
    (fun hno _ => (hnone hno).quiet _ (some 0) s.vars.s_timer_state)
    (fun hno _ o t => (hnone hno).failed _ _ o t)
  -- the characteristic: its handle is stored, and the discovery may start
  have htracked : c'.Tracked
      { s.vars with s_chr_val_handle := x.val_handle, s_chr_found := true } := by
    subst hc'
    refine ⟨ht.enc, by simp [hx], ?_, ht.end_handle, fun _ => ht.chrs (Or.inl hpos), ?_⟩
    · intro a ha
      simp only [hx, Option.elim_some, Option.some.injEq] at ha
      exact ha
    · exact fun hdscs => ⟨(ht.dscs hdscs).1, by simp [hx]⟩
  have hhandle : c'.handle = c.handle := by
    subst hc'
    rfl
  rw [← hhandle]
  exact wp_tryStart_joined (h := { s.host with conn := some c' }) rfl htracked hj.dscCalls
    hj.writeCalls _

theorem wp_descriptor_joined {ch st : BitVec 16} {dsc : Option GattDsc} {s : State} {host : Host}
    (hj : Joined s.vars s.host) (hd : s.host.deliver (.descriptor ch st dsc) = some host) :
    wp effect ok (onDescriptorDiscovery ch st dsc) (Joins (.descriptor ch st dsc))
      s.vars host := by
  obtain ⟨c, c', hc, rfl, hc', rfl⟩ := Host.report_eq_some.mp hd
  obtain ⟨hpos, rfl⟩ := of_guard hc'
  have hhost : Joined s.vars
      { s.host with conn := some { c with dscs := remaining c.dscs st } } := by
    refine hj.keep hc ⟨rfl, rfl, rfl, Or.inl (Nat.le_refl _), ?_, rfl, fun h => h⟩
    simp only [remaining]
    split
    · exact Nat.le_refl _
    · exact Nat.sub_le _ _
  -- a descriptor is reported only by a discovery that was started on this connection
  have hwrite : ∀ a rc, Joined s.vars (effect (.bleGattcWriteFlat c.handle a [1, 0]) rc
      { s.host with conn := some { c with dscs := remaining c.dscs st } }) := by
    intro a rc
    obtain ⟨henc, hval⟩ := (hj.tracked c hc).dscs hpos
    simp only [effect]
    rw [Host.onConn_conn rfl]
    refine .of_conn rfl ((hhost.tracked _ rfl).kept .of_same)
      (fun henc hval => hj.started c hc henc hval) hj.dscCalls fun w hw => ?_
    rcases List.mem_append.mp hw with hw | hw
    · exact hj.writeCalls w hw
    · rw [List.mem_singleton.mp hw]
      exact ⟨_, rfl, rfl, henc, hval⟩
  exact wp_onDescriptorDiscovery (fun d _ => (hwrite d.handle 0).after _ (some 1))
    (fun d rc _ _ o t => (hwrite d.handle rc).failed _ _ o t) (fun _ _ => hhost.after _ (some 0))
    (fun _ _ => hhost.after _ (some 0)) (fun _ _ o t => hhost.failed _ _ o t)

theorem wp_subscription_joined {ch st : BitVec 16} {s : State} {host : Host}
    (hj : Joined s.vars s.host) (hd : s.host.deliver (.subscription ch st) = some host) :
    wp effect ok (onSubscription ch st) (Joins (.subscription ch st)) s.vars host := by
  obtain ⟨c, c', hc, rfl, hc', rfl⟩ := Host.report_eq_some.mp hd
  obtain ⟨hpos, rfl⟩ := of_guard hc'
  have hkept : c.Kept { c with
      writes := c.writes - 1
      subscribed := c.subscribed || decide (st = 0) } := .of_same
  have hhost := hj.keep hc hkept
  exact wp_onSubscription (fun _ o t => hhost.quiet _ o t) (fun _ o t => hhost.failed _ _ o t)

theorem wp_encChange_joined {status : Int} {ch : BitVec 16} {s : State} {host : Host}
    (hj : Joined s.vars s.host) (hd : s.host.deliver (.gap (.encChange status ch)) = some host) :
    wp effect ok (gapEvent (.encChange status ch)) (Joins (.gap (.encChange status ch)))
      s.vars host := by
  obtain ⟨c, c', hc, rfl, hc', rfl⟩ := Host.report_eq_some.mp hd
  simp only [Option.some.injEq] at hc'
  have ht := hj.tracked c hc
  refine wp_return (wp_gapEncChange (fun hst => ?_) (fun hst o t => ?_))
  · -- encrypted: the discovery may start
    have htracked : c'.Tracked { s.vars with s_enc_done := true } := by
      subst hc'
      exact ⟨by simp [hst], ht.found, ht.val_handle, ht.end_handle, ht.chrs,
        fun hdscs => ⟨by simp [hst], (ht.dscs hdscs).2⟩⟩
    have hhandle : c'.handle = c.handle := by
      subst hc'
      rfl
    rw [← hhandle]
    exact wp_tryStart_joined (h := { s.host with conn := some c' }) rfl htracked hj.dscCalls
      hj.writeCalls _
  · refine Joined.quiet (hj.keep hc ?_) _ _ t
    subst hc'
    exact .of_same (by simp [hst])

/-- A connection on which nothing has happened yet, or none. -/
theorem wp_connect_joined {status : Int} {ch : BitVec 16} {peer : BleAddr} {s : State}
    {host : Host} (hj : Joined s.vars s.host)
    (hd : s.host.deliver (.gap (.connect status ch peer)) = some host) :
    wp effect ok (gapEvent (.connect status ch peer)) (Joins (.gap (.connect status ch peer)))
      s.vars host := by
  obtain ⟨⟨-, hnone⟩, rfl⟩ := of_guard hd
  obtain ⟨henc, hfound⟩ := hj.idle hnone
  by_cases hst : status = 0
  · subst hst
    -- the flags of the last connection were reset when it ended
    have hhost : Joined s.vars
        { s.host with connecting := false, conn := some { handle := ch } } :=
      .of_conn rfl ⟨henc, hfound, fun a ha => (by cases ha), fun a ha => (by cases ha),
        fun h => (by simp at h), fun h => (by simp at h)⟩ (fun h => (by cases h))
        hj.dscCalls hj.writeCalls
    have hpeer : Joined
        { s.vars with s_peer_addr := { s.vars.s_peer_addr with val := peer.val } } _ :=
      hhost.vars rfl rfl rfl rfl
    have hkept : ∀ c : Conn, c.Kept { c with encrypting := true } := fun _ => .of_same
    refine wp_return (wp_gapConnect_established ?_ (fun _ t => ?_) (fun _ t => ?_))
    · exact Joined.after ((hpeer.onConn ch hkept).onConn ch fun _ => .of_same) _ (some 0)
    · exact (hpeer.onConn ch hkept).failed _ ch _ t
    · exact hhost.failed _ ch _ t
  · have hhost : Joined s.vars { s.host with connecting := false, conn := none } :=
      hj.host hnone.symm rfl rfl
    rw [if_neg hst]
    refine wp_return (wp_gapConnect_failed hst (fun t => ?_) fun t => ?_)
    · have hhost' : Joined { s.vars with s_timer_state := t } _ :=
        hhost.vars rfl rfl rfl rfl
      exact wp_scan_joined hhost' _
    · exact hhost.quiet _ none t

/-! ## Steps -/

/-- Every step keeps the join. -/
theorem Joined.step {s s' : State} {e : Ev} (hj : Joined s.vars s.host)
    (hs : step s e = some s') : Joined s'.vars s'.host := by
  have hans : Answered (fun _ _ => True) s e := fun _ _ => trivial
  refine step_wp (P := fun s => Joined s.vars s.host) hans hs fun _ host hd => ?_
  obtain ⟨event, rcs⟩ := e
  cases event with
  | service _ _ _ => exact wp_service_joined hj hd
  | characteristic _ _ _ => exact wp_characteristic_joined hj hd
  | descriptor _ _ _ => exact wp_descriptor_joined hj hd
  | subscription _ _ => exact wp_subscription_joined hj hd
  | sync addr_type =>
      obtain ⟨-, rfl⟩ := of_guard hd
      have hsync : ∀ a, Joined { s.vars with s_addr_type := a } { s.host with synced := true } := by
        intro a
        have hvars : Joined { s.vars with s_addr_type := a } s.host := hj.vars rfl rfl rfl rfl
        exact hvars.host rfl rfl rfl
      exact wp_return (wp_onSync (wp_scan_joined (hsync _) _) fun t a =>
        (hsync a).quiet _ none t)
  | gap event =>
      cases event with
      | encChange _ _ => exact wp_encChange_joined hj hd
      | other =>
          simp only [Host.deliver, Option.some.injEq] at hd
          subst hd
          exact hj.after _ (some 0)
      | notifyRx om =>
          obtain ⟨-, rfl⟩ := of_guard hd
          exact wp_return (wp_gapNotifyRx fun o t => hj.quiet _ _ t)
      | repeatPairing ch peer =>
          obtain ⟨c, c', hc, -, hc', rfl⟩ := Host.report_eq_some.mp hd
          cases hc'
          have hhost : Joined s.vars { s.host with conn := some c } := by
            rw [← hc]
            exact hj
          exact wp_gapRepeatPairing fun o t => hhost.quiet _ o t
      | disc disc =>
          obtain ⟨-, rfl⟩ := of_guard hd
          have hother : ∀ a b, Joined s.vars { s.host with scanning := a, connecting := b } :=
            fun _ _ => hj.host rfl rfl rfl
          exact wp_return (wp_connectIfInteresting (fun _ => hj.after _ (some 0))
            (fun _ => (hother _ _).after _ (some 0)) (fun _ _ t _ _ _ => (hother _ _).quiet _ _ t)
            (fun _ _ t => hj.quiet _ _ t))
      | connect _ _ _ => exact wp_connect_joined hj hd
      | disconnect =>
          obtain ⟨-, rfl⟩ := of_guard hd
          -- the flags are reset together with the connection they are about
          have hhost : Joined s.vars.forget { s.host with conn := none } :=
            ⟨fun _ => ⟨rfl, rfl⟩, fun c hc => (by cases hc), fun c hc => (by cases hc),
              hj.dscCalls, hj.writeCalls⟩
          exact wp_return (wp_gapDisconnect (wp_scan_joined hhost _))

theorem start_joined : Joined ({} : State).vars ({} : State).host :=
  ⟨fun _ => ⟨rfl, rfl⟩, fun c hc => (by cases hc), fun c hc => (by cases hc),
    fun d hd => (by cases hd), fun w hw => (by cases hw)⟩

/-- In every run, descriptors are discovered and the CCCD is written only on an open
    connection that has been encrypted and whose characteristic has been found, with the
    handles last reported on that connection; and once both have happened on a
    connection, the discovery has been started on it, or its start has failed and the
    connection is terminated. -/
theorem subscription_joined {es : List Ev} {s : State} (h : Run step Always {} es s) :
    (∀ d ∈ s.host.dscCalls, ∃ c, d.conn = some c ∧ d.conn_handle = c.handle ∧
      c.encrypted = true ∧ c.val_handle = some d.start_handle ∧
      c.end_handle = some d.end_handle) ∧
    (∀ w ∈ s.host.writeCalls, ∃ c, w.conn = some c ∧ w.conn_handle = c.handle ∧
      c.encrypted = true ∧ c.val_handle.isSome = true) ∧
    (∀ c, s.host.conn = some c → c.encrypted = true → c.val_handle.isSome = true →
      0 ∈ c.dscRcs ∨ c.dscRcs ≠ [] ∧ c.terminated = true) := by
  have hj : Joined s.vars s.host :=
    h.invariant (I := fun s => Joined s.vars s.host) start_joined fun _ _ _ hj _ hs => hj.step hs
  exact ⟨hj.dscCalls, hj.writeCalls, hj.started⟩

theorem subscription_joined_subscribe :
    ∃ s c, Run step Always {} subscribeRun s ∧ s.host.conn = some c ∧
      s.host.dscCalls.length = 1 ∧ (0 ∈ c.dscRcs ∨ c.dscRcs ≠ [] ∧ c.terminated = true) := by
  obtain ⟨s, hrun, hlen, c, hc, henc, hval⟩ : ∃ s, Run step Always {} subscribeRun s ∧
      s.host.dscCalls.length = 1 ∧ ∃ c ∈ s.host.conn, c.encrypted = true ∧
        c.val_handle.isSome = true := Run.exists_of_exec (by decide)
  exact ⟨s, c, hrun, hc, hlen, (subscription_joined hrun).2.2 c hc henc hval⟩

/-- Both chains have arrived, and `ble_gattc_disc_all_dscs` fails. -/
def discAllDscsFails : List Ev :=
  syncAndConnect 0 ++
    [⟨.gap (.connect 0 1 ⟨1, s_server_addr⟩), [0, 0, 0]⟩,
     ⟨.gap (.encChange 0 1), []⟩,
     ⟨.service 1 0 (some ⟨10, 20⟩), [0]⟩,
     ⟨.characteristic 1 0 (some ⟨12⟩), [6, 0, 0, 0, 0]⟩]

/-- The connection is encrypted and the characteristic found, but no descriptor discovery
    has been started. -/
theorem discovery_not_started :
    ∃ es s c, Run step Always {} es s ∧ s.host.conn = some c ∧ c.encrypted = true ∧
      c.val_handle.isSome = true ∧ 0 ∉ c.dscRcs := by
  obtain ⟨s, hrun, c, hc, h⟩ : ∃ s, Run step Always {} discAllDscsFails s ∧
      ∃ c ∈ s.host.conn, c.encrypted = true ∧ c.val_handle.isSome = true ∧ 0 ∉ c.dscRcs :=
    Run.exists_of_exec (by decide)
  exact ⟨_, s, c, hrun, hc, h⟩

end Speedometer.Esp32.Client
