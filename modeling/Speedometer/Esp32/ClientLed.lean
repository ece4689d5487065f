/-
  Speedometer.Esp32.ClientLed

  The LED of the ESP32 client, which two tasks write to: the callbacks on the task of the
  NimBLE host, and `timer_cb`, which makes it blink, on the task of the timer.

  The calls of a callback and those of `timer_cb` come in any order, and what has been
  drawn by one may be shown by the other.  `led_tells`: when the callbacks have returned,
  the client is not subscribed as long as the timer runs, and a green LED that does not
  blink means that it is, on the connection that is open.
-/

import Speedometer.Esp32.Scanning

namespace Speedometer.Esp32.Client

open Cpp Handler Transition

/-! ## The LED -/

/-- The pixel of the strip: hue, saturation and value, or `none` when it is cleared. -/
abbrev Pixel := Option (BitVec 16 × BitVec 8 × BitVec 8)

/-- What `on_subscription` draws. -/
def GREEN : Pixel := some (120, 255, 10)

/-- The calls into the timer and the strip. -/
inductive LedCall
  | timerIsActive
  | timerStop
  | timerStartPeriodic
  | setPixel (pixel : Pixel)
  | refresh
  | clear
deriving DecidableEq

def Call.toLed : Call → Option LedCall
  | .espTimerIsActive => some .timerIsActive
  | .espTimerStop => some .timerStop
  | .espTimerStartPeriodic _ => some .timerStartPeriodic
  | .ledStripSetPixelHsv hue saturation value => some (.setPixel (some (hue, saturation, value)))
  | .ledStripRefresh => some .refresh
  | _ => none

/-- The strip and the timer. -/
structure Led where
  /-- the timer runs -/
  active : Bool := false
  /-- the pixel as it was last set -/
  pixel : Pixel := none
  /-- and as it is shown -/
  shown : Pixel := none
deriving DecidableEq

/-- What a call changes, given what it returns. -/
def Led.call (l : Led) : LedCall → Int → Led
  | .timerIsActive, _ => l
  | .timerStop, rc => if rc = 0 then { l with active := false } else l
  | .timerStartPeriodic, rc => if rc = 0 then { l with active := true } else l
  | .setPixel pixel, rc => if rc = 0 then { l with pixel } else l
  | .refresh, rc => if rc = 0 then { l with shown := l.pixel } else l
  -- it clears the pixel, then refreshes the strip
  | .clear, rc => if rc = 0 then { l with pixel := none, shown := none } else { l with pixel := none }

/-- `esp_timer_is_active` tells whether the timer runs. -/
def Led.Answers (l : Led) (c : LedCall) (rc : Int) : Prop :=
  c = .timerIsActive → (rc ≠ 0 ↔ l.active = true)

instance (l : Led) (c : LedCall) (rc : Int) : Decidable (l.Answers c rc) :=
  inferInstanceAs (Decidable (c = .timerIsActive → (rc ≠ 0 ↔ l.active = true)))

/-! ## The task of the timer -/

/-- The next thing `timer_cb` does. -/
inductive TimerLoc
  /-- it is not running -/
  | idle
  /-- `led_strip_set_pixel_hsv(s_led, 0, s_timer_state.hue, 255, 10)` -/
  | setPixel (hue : BitVec 16)
  /-- `led_strip_refresh(s_led)` -/
  | refresh
  /-- `led_strip_clear(s_led)` -/
  | clear
  /-- `s_timer_state.state = !s_timer_state.state` -/
  | toggle
  /-- `esp_timer_is_active(...)` in `error_led_print` -/
  | ifActive
  /-- `esp_timer_stop(...)` -/
  | stop
  /-- `esp_timer_start_periodic(...)` -/
  | start
  /-- the loop, which only logs -/
  | loop
deriving DecidableEq

/-- The task is in `error_led_print`. -/
def TimerLoc.failed : TimerLoc → Bool
  | .ifActive | .stop | .start | .loop => true
  | .idle | .setPixel _ | .refresh | .clear | .toggle => false

/-- The call `timer_cb` makes next, if any. -/
def TimerLoc.call : TimerLoc → Option LedCall
  | .setPixel hue => some (.setPixel (some (hue, 255, 10)))
  | .refresh => some .refresh
  | .clear => some .clear
  | .ifActive => some .timerIsActive
  | .stop => some .timerStop
  | .start => some .timerStartPeriodic
  | .idle | .toggle | .loop => none

/-- Where it goes on when the call has returned. -/
def TimerLoc.next : TimerLoc → Int → TimerLoc
  | .setPixel _, rc => if rc = 0 then .refresh else .ifActive
  | .refresh, rc | .clear, rc => if rc = 0 then .toggle else .ifActive
  | .ifActive, rc => if rc ≠ 0 then .stop else .start
  | .stop, _ => .start
  | .start, _ | .loop, _ => .loop
  | .toggle, _ | .idle, _ => .idle

/-! ## Both tasks -/

/-- The hues that are ever stored in `s_timer_state`. -/
def StoredHue (hue : BitVec 16) : Prop := hue = 0 ∨ hue = 210

instance (hue : BitVec 16) : Decidable (StoredHue hue) :=
  inferInstanceAs (Decidable (hue = 0 ∨ hue = 210))

/-- The client and its LED. -/
structure Lit where
  client : State := {}
  /-- the calls of the running callback that are still to come, with what they return -/
  pending : List (LedCall × Int) := []
  led : Led := {}
  timer : TimerLoc := .idle
deriving DecidableEq

/-- The calls of a callback into the timer and the strip. -/
def ledCalls (calls : List (Call × Int)) : List (LedCall × Int) :=
  calls.filterMap fun c => c.1.toLed.map (·, c.2)

namespace Lit

/-- What can happen next. -/
inductive Ev
  /-- the host runs a callback -/
  | callback (e : Client.Ev)
  /-- the callback makes its next call -/
  | call
  /-- the timer runs `timer_cb`, with what it reads in `s_timer_state`, which a callback
      may be writing -/
  | fire (s_timer_state : TimerState)
  /-- `timer_cb` makes its next call -/
  | timerCall (rc : Int)
  /-- `timer_cb` returns -/
  | timerReturn
deriving DecidableEq

/-- A step of either task. -/
def step (s : Lit) : Ev → Option Lit
  | .callback e =>
      if s.pending = [] then
        match Client.step s.client e with
        | some client => some { s with client, pending := ledCalls (calls s.client e) }
        | none => none
      else none
  | .call =>
      match s.pending with
      | (c, rc) :: pending =>
          if s.led.Answers c rc then some { s with pending, led := s.led.call c rc } else none
      | [] => none
  | .fire s_timer_state =>
      if s.led.active = true ∧ s.timer = .idle ∧ StoredHue s_timer_state.hue then
        some { s with
          timer := if s_timer_state.state then .clear else .setPixel s_timer_state.hue }
      else none
  | .timerCall rc =>
      match s.timer.call with
      | some c =>
          if s.led.Answers c rc then
            some { s with timer := s.timer.next rc, led := s.led.call c rc }
          else none
      | none => none
  | .timerReturn => if s.timer = .toggle then some { s with timer := .idle } else none

end Lit

/-! ## What may be green -/

/-- Of the LED, what may be green when the steps of `timer_cb` are left out. -/
structure Glow where
  /-- `esp_timer_is_active` has told whether the timer runs -/
  told : Bool := true
  active : Bool := false
  pixel : Bool := false
  shown : Bool := false
deriving DecidableEq

/-- What a call changes about it: what is drawn may be shown at once, by `timer_cb`. -/
def Glow.call (g : Glow) : LedCall → Int → Glow
  | .timerIsActive, rc => { g with told := g.told && decide (rc ≠ 0) == g.active }
  | .timerStop, rc => if rc = 0 then { g with active := false } else g
  | .timerStartPeriodic, rc => if rc = 0 then { g with active := true } else g
  | .setPixel pixel, rc =>
      if rc = 0 then { g with pixel := pixel = GREEN, shown := g.shown || pixel = GREEN } else g
  | .refresh, rc => if rc = 0 then { g with shown := g.pixel } else g
  | .clear, _ => { g with pixel := false }

/-- What is green may be green. -/
structure Covers (g : Glow) (l : Led) : Prop where
  active : l.active = g.active
  pixel : l.pixel = GREEN → g.pixel = true
  shown : l.shown = GREEN → g.shown = true
  shows : g.pixel = true → g.shown = true

variable {g : Glow} {l : Led}

/-- A call of a callback keeps the cover. -/
theorem Covers.call (h : Covers g l) {c : LedCall} {rc : Int} (hans : l.Answers c rc) :
    Covers (g.call c rc) (l.call c rc) ∧ (g.call c rc).told = g.told := by
  cases c with
  | timerIsActive =>
      have hans := hans rfl
      rw [h.active] at hans
      have htold : decide (rc ≠ 0) = g.active := by
        rw [Bool.eq_iff_iff, decide_eq_true_iff]
        exact hans
      simp only [Led.call, Glow.call, htold, beq_self_eq_true, Bool.and_true]
      exact ⟨h, trivial⟩
  | timerStop | timerStartPeriodic =>
      simp only [Led.call, Glow.call]
      split
      · exact ⟨⟨rfl, h.pixel, h.shown, h.shows⟩, rfl⟩
      · exact ⟨h, rfl⟩
  | setPixel pixel =>
      simp only [Led.call, Glow.call]
      split
      · refine ⟨⟨h.active, decide_eq_true, fun hs => ?_, fun hp => ?_⟩, rfl⟩
        · simp only [h.shown hs, Bool.true_or]
        · simp only at hp
          simp only [hp, Bool.or_true]
      · exact ⟨h, rfl⟩
  | refresh =>
      simp only [Led.call, Glow.call]
      split
      · exact ⟨⟨h.active, h.pixel, h.pixel, id⟩, rfl⟩
      · exact ⟨h, rfl⟩
  | clear =>
      simp only [Led.call, Glow.call]
      split
      · exact ⟨⟨h.active, fun hp => (by cases hp), fun hs => (by cases hs), fun hp => (by cases hp)⟩,
          trivial⟩
      · exact ⟨⟨h.active, fun hp => (by cases hp), h.shown, fun hp => (by cases hp)⟩, trivial⟩

/-- So does a call of `timer_cb`, which never draws in green. -/
theorem Covers.timer (h : Covers g l) {timer : TimerLoc} {c : LedCall} {rc : Int}
    (hc : timer.call = some c) (hok : timer.failed = false)
    (hhue : ∀ hue, timer = .setPixel hue → StoredHue hue) : Covers g (l.call c rc) := by
  cases timer with
  | setPixel hue =>
      cases hc
      simp only [Led.call]
      split
      · refine ⟨h.active, fun hp => ?_, h.shown, h.shows⟩
        -- the hue would be that of `GREEN`
        simp only [GREEN, Option.some.injEq, Prod.mk.injEq] at hp
        have hstored := hhue hue rfl
        rw [hp.1] at hstored
        exact absurd hstored (by decide)
      · exact h
  | refresh =>
      cases hc
      simp only [Led.call]
      split
      · exact ⟨h.active, h.pixel, fun hs => h.shows (h.pixel hs), h.shows⟩
      · exact h
  | clear =>
      cases hc
      simp only [Led.call]
      split
      · exact ⟨h.active, fun hp => (by cases hp), fun hs => (by cases hs), h.shows⟩
      · exact ⟨h.active, fun hp => (by cases hp), h.shown, h.shows⟩
  | idle | toggle => cases hc
  | ifActive | stop | start | loop => cases hok

/-! ## Callbacks -/

/-- What a call of a callback changes about it. -/
def lights (c : Call) (rc : Int) (g : Glow) : Glow :=
  match c.toLed with
  | some c => g.call c rc
  | none => g

section Lights

variable (rc : Int) (g : Glow)

@[simp] theorem lights_isActive : lights .espTimerIsActive rc g = g.call .timerIsActive rc := rfl

@[simp] theorem lights_stop : lights .espTimerStop rc g = g.call .timerStop rc := rfl

@[simp] theorem lights_setPixel (hue : BitVec 16) (saturation value : BitVec 8) :
    lights (.ledStripSetPixelHsv hue saturation value) rc g =
      g.call (.setPixel (some (hue, saturation, value))) rc := rfl

@[simp] theorem lights_refresh : lights .ledStripRefresh rc g = g.call .refresh rc := rfl

end Lights

theorem foldl_lights (calls : List (Call × Int)) (g : Glow) :
    calls.foldl (fun g c => lights c.1 c.2 g) g =
      (ledCalls calls).foldl (fun g c => g.call c.1 c.2) g := by
  induction calls generalizing g with
  | nil => rfl
  | cons c calls ih =>
      rw [List.foldl_cons, ih, ledCalls, ledCalls, List.filterMap_cons]
      cases hc : c.1.toLed with
      | none => simp only [lights, hc, Option.map_none]
      | some c' => simp only [lights, hc, Option.map_some, List.foldl_cons]

/-- Calls may return anything. -/
abbrev wpGlow {α : Type} (p : Callback α) (Q : Option α → Vars → Glow → Prop) (v : Vars)
    (g : Glow) : Prop :=
  wp lights (fun _ _ => True) p Q v g

section Rules

variable {v : Vars} {Q : Option Unit → Vars → Glow → Prop}

theorem wp_errorLedPrint_glow (hnone : ∀ v g, Q none v g) : wpGlow errorLedPrint Q v g := by
  rw [wpGlow, errorLedPrint, wp_bind, wp_call]
  intro active _
  rw [andThen_some, wp_bind]
  refine wp_when (fun _ => ?_) (fun _ => ?_)
  · rw [wp_callVoid]
    intro _ _
    rw [andThen_some, wp_bind, wp_assign, andThen_some, wp_bind, wp_callVoid]
    exact fun _ _ => hnone _ _
  · rw [andThen_some, wp_bind, wp_assign, andThen_some, wp_bind, wp_callVoid]
    exact fun _ _ => hnone _ _

theorem wp_assertEq_glow {n : Int} {x : Call} (hnone : ∀ v g, Q none v g)
    (hok : Q (some ()) v (lights x n g)) : wpGlow (assertEq n x) Q v g := by
  rw [wpGlow, assertEq, wp_bind, wp_call]
  intro rc _
  rw [andThen_some]
  refine wp_when (fun _ => wp_errorLedPrint_glow hnone) (fun hrc => ?_)
  have hrc : rc = n := by simpa using hrc
  rw [hrc]
  exact hok

/-- The LED is steady, and green only if that is what has been drawn. -/
theorem wp_updateLed_glow {hue : BitVec 16} (hnone : ∀ v g, Q none v g)
    (hQ : ∀ g', (g'.told = true →
      g.told = true ∧ g'.active = false ∧ (g'.shown = true → hue = 120)) → Q (some ()) v g') :
    wpGlow (updateLed hue) Q v g := by
  have hpixel : ∀ g₁ : Glow, (g₁.told = true → g.told = true ∧ g₁.active = false) →
      wpGlow (do espErrorAssert (.ledStripSetPixelHsv hue 255 10); espErrorAssert .ledStripRefresh)
        Q v g₁ := by
    intro g₁ hg₁
    rw [wpGlow, wp_bind]
    refine wp_assertEq_glow hnone (wp_assertEq_glow hnone (hQ _ fun htold => ?_))
    refine ⟨(hg₁ htold).1, (hg₁ htold).2, fun hs => ?_⟩
    simpa [Glow.call, GREEN] using hs
  rw [wpGlow, updateLed, wp_bind, wp_call]
  intro rc _
  rw [andThen_some, wp_bind]
  refine wp_when (fun _ => wp_assertEq_glow hnone ?_) (fun hrc => ?_)
  · refine hpixel _ fun htold => ⟨?_, rfl⟩
    simp only [lights_isActive, lights_stop, Glow.call, if_true, Bool.and_eq_true] at htold
    exact htold.1
  · refine hpixel _ fun htold => ?_
    have hrc : rc = 0 := by simpa using hrc
    simpa [Glow.call, hrc] using htold

/-- `scan` leaves the LED blinking, or steady and not green. -/
theorem wp_scan_glow (hnone : ∀ v g, Q none v g)
    (hQ : ∀ g', (g'.told = true → g.told = true ∧ (g'.shown = true → g'.active = true)) →
      Q (some ()) { v with s_timer_state := { hue := 210, state := false } } g') :
    wpGlow scan Q v g := by
  have hstart : ∀ g₁ : Glow, (g₁.told = true → g.told = true) →
      wpGlow (do
        assign fun v => { v with s_timer_state := { hue := 210, state := false } }
        espErrorAssert (.espTimerStartPeriodic (500 * 1000))
        let v ← vars
        let status ← call (.bleGapDisc v.s_addr_type { passive := true, filter_duplicates := true })
        when (status ≠ 0) errLed) Q v g₁ := by
    intro g₁ hg₁
    rw [wpGlow, wp_bind, wp_assign, andThen_some, wp_bind]
    refine wp_assertEq_glow hnone ?_
    rw [andThen_some, wp_bind, wp_vars, andThen_some, wp_bind, wp_call]
    intro status _
    refine wp_when (fun _ => wp_updateLed_glow hnone fun g' hg' => ?_) (fun _ => ?_)
    · refine hQ g' fun htold => ?_
      obtain ⟨htold, -, hred⟩ := hg' htold
      exact ⟨hg₁ htold, fun hs => absurd (hred hs) (by decide)⟩
    · exact hQ _ fun htold => ⟨hg₁ htold, fun _ => rfl⟩
  rw [wpGlow, scan, wp_bind, wp_call]
  intro rc _
  have htold : (lights .espTimerIsActive rc g).told = true → g.told = true := by
    simp only [lights_isActive, Glow.call, Bool.and_eq_true]
    exact And.left
  rw [andThen_some, wp_bind]
  exact wp_when (fun _ => wp_assertEq_glow hnone (hstart _ htold)) (fun _ => hstart _ htold)

end Rules

/-- The LED is as it was, or steady and not green. -/
def Dims (g g' : Glow) : Prop :=
  g'.told = true → g.told = true ∧
    (g'.active = g.active ∧ g'.shown = g.shown ∨ g'.active = false ∧ g'.shown = false)

theorem Dims.refl (g : Glow) : Dims g g := fun htold => ⟨htold, .inl ⟨rfl, rfl⟩⟩

theorem Dims.trans {g g' g'' : Glow} (h : Dims g g') (h' : Dims g' g'') : Dims g g'' := by
  intro htold
  obtain ⟨htold, hlast⟩ := h' htold
  obtain ⟨htold, hfirst⟩ := h htold
  refine ⟨htold, ?_⟩
  rcases hlast with ⟨hactive, hshown⟩ | hred
  · rw [hactive, hshown]
    exact hfirst
  · exact .inr hred

/-- A piece of a callback that neither blinks nor draws in green. -/
def Dimming {α : Type} (p : Callback α) : Prop :=
  ∀ v g, wpGlow p
    (fun o v' g' => o.isSome = true → v'.s_timer_state = v.s_timer_state ∧ Dims g g') v g

section Dimming

variable {α β : Type}

theorem dimming_pure (a : α) : Dimming (pure a) := fun _ g _ => ⟨rfl, .refl g⟩

theorem dimming_vars : Dimming vars := fun _ g _ => ⟨rfl, .refl g⟩

theorem dimming_assign {f : Vars → Vars} (h : ∀ v, (f v).s_timer_state = v.s_timer_state) :
    Dimming (assign f) := fun v g _ => ⟨h v, .refl g⟩

theorem lights_other {c : Call} (h : c.toLed = none) (rc : Int) : lights c rc g = g := by
  simp only [lights, h]

theorem dimming_call {c : Call} (h : c.toLed = none) : Dimming (call c) := by
  intro v g rc _ _
  rw [lights_other h]
  exact ⟨rfl, .refl g⟩

theorem dimming_callVoid {c : Call} (h : c.toLed = none) : Dimming (callVoid c) := by
  intro v g rc _ _
  rw [lights_other h]
  exact ⟨rfl, .refl g⟩

theorem Dimming.bind {p : Callback α} {f : α → Callback β} (hp : Dimming p)
    (hf : ∀ a, Dimming (f a)) : Dimming (p >>= f) := by
  intro v g
  rw [wpGlow, wp_bind]
  refine wp_mono (fun o v' g' hq => ?_) (hp v g)
  cases o with
  | none => exact fun hsome => (by cases hsome)
  | some a =>
      obtain ⟨hv, hg⟩ := hq rfl
      refine wp_mono (fun o v'' g'' hq' hsome => ?_) (hf a v' g')
      obtain ⟨hv', hg'⟩ := hq' hsome
      exact ⟨hv'.trans hv, hg.trans hg'⟩

theorem Dimming.ite {c : Prop} [Decidable c] {p q : Callback α} (hp : Dimming p)
    (hq : Dimming q) : Dimming (if c then p else q) :=
  fun v g => wp_ite (fun _ => hp v g) fun _ => hq v g

theorem Dimming.when {b : Bool} {p : Callback Unit} (hp : Dimming p) : Dimming (when b p) :=
  fun v g => wp_when (fun _ => hp v g) fun _ _ => ⟨rfl, .refl g⟩

theorem dimming_assertEq {n : Int} {x : Call} (h : x.toLed = none) : Dimming (assertEq n x) := by
  intro v g
  refine wp_assertEq_glow (fun _ _ hsome => by cases hsome) fun _ => ?_
  rw [lights_other h]
  exact ⟨rfl, .refl g⟩

end Dimming

theorem dimming_errLed : Dimming errLed := by
  intro v g
  refine wp_updateLed_glow (fun _ _ hsome => by cases hsome) fun g' hg' _ => ⟨rfl, fun htold => ?_⟩
  obtain ⟨htold, hactive, hred⟩ := hg' htold
  refine ⟨htold, .inr ⟨hactive, Bool.eq_false_iff.mpr fun hs => ?_⟩⟩
  exact absurd (hred hs) (by decide)

theorem dimming_terminateErrLed (conn_handle : BitVec 16) :
    Dimming (terminateErrLed conn_handle) :=
  (dimming_callVoid rfl).bind fun _ => dimming_errLed

/-- The end of a discovery. -/
theorem dimming_ended (conn_handle error_status : BitVec 16) :
    Dimming
      (do when (error_status ≠ BLE_HS_EDONE) (terminateErrLed conn_handle); return (0 : Int)) :=
  (dimming_terminateErrLed conn_handle).when.bind fun _ => dimming_pure 0

theorem dimming_onDescriptorDiscovery (conn_handle error_status : BitVec 16)
    (dsc : Option GattDsc) : Dimming (onDescriptorDiscovery conn_handle error_status dsc) := by
  unfold onDescriptorDiscovery
  cases reported error_status dsc with
  | none => exact dimming_ended conn_handle error_status
  | some dsc =>
      refine Dimming.ite ((dimming_call rfl).bind fun rc => ?_) (dimming_pure 0)
      exact (dimming_pure 1).ite
        ((dimming_terminateErrLed conn_handle).bind fun _ => dimming_pure 0)

theorem dimming_tryStartDscDiscovery (conn_handle : BitVec 16) :
    Dimming (tryStartDscDiscovery conn_handle) := by
  refine dimming_vars.bind fun v => Dimming.ite ?_ (dimming_pure ())
  exact (dimming_call rfl).bind fun rc => (dimming_terminateErrLed conn_handle).when

theorem dimming_onCharacteristicDiscovery (conn_handle error_status : BitVec 16)
    (chr : Option GattChr) : Dimming (onCharacteristicDiscovery conn_handle error_status chr) := by
  unfold onCharacteristicDiscovery
  cases reported error_status chr with
  | none => exact dimming_ended conn_handle error_status
  | some chr =>
      refine Dimming.bind (dimming_assign fun _ => rfl) fun _ => ?_
      exact (dimming_tryStartDscDiscovery conn_handle).bind fun _ => dimming_pure 0

theorem dimming_onServiceDiscovery (conn_handle error_status : BitVec 16)
    (service : Option GattSvc) : Dimming (onServiceDiscovery conn_handle error_status service) := by
  unfold onServiceDiscovery
  cases reported error_status service with
  | none => exact dimming_ended conn_handle error_status
  | some service =>
      refine Dimming.bind (dimming_assign fun _ => rfl) fun _ => ?_
      refine Dimming.bind (dimming_call rfl) fun rc => ?_
      exact (dimming_terminateErrLed conn_handle).when.bind fun _ => dimming_pure 0

theorem dimming_connectIfInteresting (disc : DiscDesc) : Dimming (connectIfInteresting disc) := by
  refine dimming_vars.bind fun v => Dimming.ite ?_ (dimming_pure ())
  refine (dimming_call rfl).bind fun status => Dimming.ite ?_ dimming_errLed
  exact (dimming_call rfl).bind fun status => dimming_errLed.when

theorem dimming_gapConnect (conn_handle : BitVec 16) (peer_id_addr : BleAddr) :
    Dimming (gapConnect 0 conn_handle peer_id_addr) := by
  have hfailed := dimming_terminateErrLed conn_handle
  rw [gapConnect, if_pos rfl]
  refine (dimming_call rfl).bind fun rc => hfailed.ite ?_
  refine (dimming_call rfl).bind fun rc => hfailed.ite ?_
  refine Dimming.bind (dimming_assign fun _ => rfl) fun _ => ?_
  exact (dimming_call rfl).bind fun rc => hfailed.when

theorem dimming_gapEncChange (status : Int) (conn_handle : BitVec 16) :
    Dimming (gapEncChange status conn_handle) :=
  Dimming.ite
    (Dimming.bind (dimming_assign fun _ => rfl) fun _ => dimming_tryStartDscDiscovery conn_handle)
    dimming_errLed

theorem dimming_gapNotifyRx (om : List (BitVec 8)) : Dimming (gapNotifyRx om) :=
  Dimming.ite ((dimming_assertEq rfl).bind fun _ => dimming_assertEq rfl) dimming_errLed

theorem dimming_gapRepeatPairing (conn_handle : BitVec 16) (peer_id_addr : BleAddr) :
    Dimming (gapRepeatPairing conn_handle peer_id_addr) := by
  refine (dimming_call rfl).bind fun rc => Dimming.ite ?_ (dimming_pure _)
  exact (dimming_assertEq rfl).bind fun _ => dimming_pure _

/-! ## The open connection -/

/-- The open connection is subscribed. -/
def Host.subscribed (h : Host) : Bool := h.conn.any (·.subscribed)

theorem Host.onConn_subscribed (h : Host) (conn_handle : BitVec 16) {f : Conn → Conn}
    (hf : ∀ c, (f c).subscribed = c.subscribed) :
    (h.onConn conn_handle f).subscribed = h.subscribed := by
  cases hc : h.conn with
  | none => simp only [Host.subscribed, Host.onConn, hc, Option.map_none]
  | some c =>
      simp only [Host.subscribed, Host.onConn, hc, Option.map_some, Option.any_some]
      split
      · exact hf c
      · rfl

/-- No call subscribes. -/
theorem effect_subscribed (c : Call) (rc : Int) (h : Host) :
    (effect c rc h).subscribed = h.subscribed := by
  cases c with
  | bleGapDisc | bleGapDiscCancel | bleGapConnect =>
      simp only [effect]
      split <;> rfl
  | bleGapTerminate => exact h.onConn_subscribed _ fun _ => rfl
  | bleGapSecurityInitiate | bleGattcDiscSvcByUuid | bleGattcDiscChrsByUuid =>
      simp only [effect]
      split
      · exact h.onConn_subscribed _ fun _ => rfl
      · rfl
  | bleGattcDiscAllDscs | bleGattcWriteFlat => exact h.onConn_subscribed _ fun _ => rfl
  | _ => rfl

theorem Host.returned_subscribed (h : Host) (ret : Int) (event : Event) :
    (h.returned ret event).subscribed = h.subscribed := by
  cases event with
  | sync | gap | subscription => rfl
  | service | characteristic | descriptor =>
      simp only [Host.returned]
      split
      · exact h.onConn_subscribed _ fun _ => rfl
      · rfl

/-- What a step is: the host delivers the event, and its callback is executed. -/
theorem step_outcome {s s' : State} {e : Ev} (hs : step s e = some s') :
    s.hung = false ∧ ∃ host o, s.host.deliver e.event = some host ∧
      exec effect e.event.callback e.rcs s.vars host = some o ∧
      s' = State.after e.event o.val o.vars o.world ∧ calls s e = o.calls := by
  simp only [step] at hs
  split at hs
  · rename_i o ho
    simp only [Option.some.injEq] at hs
    have hcalls : calls s e = o.calls := by simp only [calls, ho]
    simp only [outcome] at ho
    split at ho
    · cases ho
    · rename_i hhung
      split at ho
      · rename_i host hd
        exact ⟨Bool.eq_false_iff.mpr hhung, host, o, hd, ho, hs.symm, hcalls⟩
      · cases ho
  · cases hs

theorem after_subscribed (event : Event) (o : Option Int) (v : Vars) (h : Host) :
    (State.after event o v h).host.subscribed = h.subscribed := by
  cases o with
  | none => rfl
  | some ret => exact h.returned_subscribed ret event

/-! ## What the LED tells -/

/-- The LED blinks only without a subscription, and otherwise is green only with one. -/
structure Tells (active shown subscribed : Bool) : Prop where
  blinks : active = true → subscribed = false
  steady : shown = true → active = true ∨ subscribed = true

/-- What has to hold at the end of a callback: a stored hue, and an LED that tells whether
    there is a subscription. -/
def Ended (subscribed : Bool) {α : Type} (o : Option α) (v : Vars) (g : Glow) : Prop :=
  o.isSome = true → StoredHue v.s_timer_state.hue ∧
    (g.told = true → Tells g.active g.shown subscribed)

section Ended

variable {v : Vars} {subscribed : Bool}

theorem Ended.return {p : Callback Unit} {a : Int}
    (hp : wpGlow p (Ended subscribed) v g) :
    wpGlow (do p; return a) (Ended subscribed) v g :=
  wp_return (wp_mono (fun o _ _ hq hsome => hq (by simpa using hsome)) hp)

theorem Dimming.ended {α : Type} {p : Callback α} (hp : Dimming p)
    (hhue : StoredHue v.s_timer_state.hue)
    (htells : g.told = true → Tells g.active g.shown subscribed) :
    wpGlow p (Ended subscribed) v g := by
  refine wp_mono (fun o v' g' hq hsome => ?_) (hp v g)
  obtain ⟨hv, hdims⟩ := hq hsome
  rw [hv]
  refine ⟨hhue, fun htold => ?_⟩
  obtain ⟨htold, hsame | hred⟩ := hdims htold
  · rw [hsame.1, hsame.2]
    exact htells htold
  · rw [hred.1, hred.2]
    exact ⟨fun h => (by cases h), fun h => (by cases h)⟩

theorem wp_scan_ended : wpGlow scan (Ended false) v g :=
  wp_scan_glow (fun _ _ hsome => by cases hsome) fun _ hg' _ =>
    ⟨.inr rfl, fun htold => ⟨fun _ => rfl, fun hs => .inl ((hg' htold).2 hs)⟩⟩

/-- `on_sync` ends in a scan. -/
theorem wp_onSync_ended (addr_type : BitVec 8) : wpGlow (onSync addr_type) (Ended false) v g := by
  have hnone : ∀ (v : Vars) (g : Glow), Ended false (none : Option Unit) v g :=
    fun _ _ hsome => by cases hsome
  rw [wpGlow, onSync, wp_bind]
  refine wp_assertEq_glow hnone ?_
  rw [andThen_some, wp_bind]
  refine wp_assertEq_glow hnone ?_
  rw [andThen_some, wp_bind]
  refine wp_assertEq_glow hnone ?_
  rw [andThen_some, wp_bind, wp_assign, andThen_some, wp_bind]
  exact wp_assertEq_glow hnone wp_scan_ended

/-- A connection attempt that failed: the scan is resumed. -/
theorem wp_gapConnect_ended {status : Int} (hst : status ≠ 0) (conn_handle : BitVec 16)
    (peer_id_addr : BleAddr) :
    wpGlow (gapConnect status conn_handle peer_id_addr) (Ended false) v g := by
  rw [wpGlow, gapConnect, if_neg hst, wp_bind]
  exact wp_updateLed_glow (fun _ _ hsome => by cases hsome) fun _ _ => wp_scan_ended

/-- A subscription is what green stands for. -/
theorem wp_onSubscription_ended {conn_handle error_status : BitVec 16}
    (hhue : StoredHue v.s_timer_state.hue) (hsub : error_status = 0 → subscribed = true)
    (htells : error_status ≠ 0 → g.told = true → Tells g.active g.shown subscribed) :
    wpGlow (onSubscription conn_handle error_status) (Ended subscribed) v g := by
  rw [onSubscription]
  refine wp_ite (fun hst => Ended.return ?_) (fun hst => Ended.return ?_)
  · refine wp_updateLed_glow (fun _ _ hsome => by cases hsome) fun g' hg' _ => ⟨hhue, fun htold => ?_⟩
    refine ⟨fun hactive => ?_, fun _ => .inr (hsub hst)⟩
    rw [(hg' htold).2.1] at hactive
    cases hactive
  · exact (dimming_terminateErrLed conn_handle).ended hhue (htells hst)

end Ended

/-- A report that changes no subscription. -/
theorem Host.report_subscribed {h host : Host} {conn_handle : BitVec 16}
    {f : Conn → Option Conn} (hd : h.report conn_handle f = some host)
    (hf : ∀ c c', f c = some c' → c'.subscribed = c.subscribed) :
    host.subscribed = h.subscribed := by
  obtain ⟨c, c', hc, -, hc', rfl⟩ := Host.report_eq_some.mp hd
  simp only [Host.subscribed, hc, Option.any_some]
  exact hf c c' hc'

section Callback

variable {s : State} {host : Host}

theorem wp_gapEvent_ended {event : GapEvent} (hd : s.host.deliver (.gap event) = some host)
    (hhue : StoredHue s.vars.s_timer_state.hue)
    (htells : g.told = true → Tells g.active g.shown s.host.subscribed) :
    wpGlow (gapEvent event) (Ended host.subscribed) s.vars g := by
  cases event with
  | disc disc =>
      obtain ⟨-, rfl⟩ := of_guard hd
      exact Ended.return ((dimming_connectIfInteresting disc).ended hhue htells)
  | connect status conn_handle peer_id_addr =>
      obtain ⟨⟨-, hnone⟩, rfl⟩ := of_guard hd
      have hsub : s.host.subscribed = false := by
        rw [Host.subscribed, hnone]
        rfl
      rw [hsub] at htells
      refine Ended.return ?_
      by_cases hst : status = 0
      · subst hst
        exact (dimming_gapConnect conn_handle peer_id_addr).ended hhue htells
      · simp only [if_neg hst]
        exact wp_gapConnect_ended hst conn_handle peer_id_addr
  | disconnect =>
      obtain ⟨-, rfl⟩ := of_guard hd
      refine Ended.return ?_
      rw [wpGlow, gapDisconnect, wp_bind, wp_assign, andThen_some]
      exact wp_scan_ended
  | encChange status conn_handle =>
      have hsub := Host.report_subscribed hd fun c c' hc' => by
        simp only [Option.some.injEq] at hc'
        rw [← hc']
      rw [hsub]
      exact Ended.return ((dimming_gapEncChange status conn_handle).ended hhue htells)
  | notifyRx om =>
      obtain ⟨-, rfl⟩ := of_guard hd
      exact Ended.return ((dimming_gapNotifyRx om).ended hhue htells)
  | repeatPairing conn_handle peer_id_addr =>
      have hsub := Host.report_subscribed hd fun c c' hc' => by cases hc'; rfl
      rw [hsub]
      exact (dimming_gapRepeatPairing conn_handle peer_id_addr).ended hhue htells
  | other =>
      cases hd
      exact (dimming_pure 0).ended hhue htells

/-- Every callback leaves an LED that tells whether there is a subscription. -/
theorem wp_callback_ended {event : Event} (hd : s.host.deliver event = some host)
    (hhue : StoredHue s.vars.s_timer_state.hue)
    (htells : g.told = true → Tells g.active g.shown s.host.subscribed) :
    wpGlow event.callback (Ended host.subscribed) s.vars g := by
  cases event with
  | gap event => exact wp_gapEvent_ended hd hhue htells
  | sync addr_type =>
      obtain ⟨⟨-, -, hnone⟩, rfl⟩ := of_guard hd
      have hsub : Host.subscribed { s.host with synced := true } = false := by
        rw [Host.subscribed, hnone]
        rfl
      rw [hsub]
      exact Ended.return (wp_onSync_ended addr_type)
  | service conn_handle error_status svc =>
      have hsub := Host.report_subscribed hd fun c c' hc' => by
        obtain ⟨-, rfl⟩ := of_guard hc'
        rfl
      rw [hsub]
      exact (dimming_onServiceDiscovery conn_handle error_status svc).ended hhue htells
  | characteristic conn_handle error_status chr =>
      have hsub := Host.report_subscribed hd fun c c' hc' => by
        obtain ⟨-, rfl⟩ := of_guard hc'
        rfl
      rw [hsub]
      exact (dimming_onCharacteristicDiscovery conn_handle error_status chr).ended hhue htells
  | descriptor conn_handle error_status dsc =>
      have hsub := Host.report_subscribed hd fun c c' hc' => by
        obtain ⟨-, rfl⟩ := of_guard hc'
        rfl
      rw [hsub]
      exact (dimming_onDescriptorDiscovery conn_handle error_status dsc).ended hhue htells
  | subscription conn_handle error_status =>
      obtain ⟨c, c', hc, -, hc', rfl⟩ := Host.report_eq_some.mp hd
      obtain ⟨-, rfl⟩ := of_guard hc'
      refine wp_onSubscription_ended hhue (fun hst => ?_) fun hst htold => ?_
      · simp only [Host.subscribed, Option.any_some, hst, decide_true, Bool.or_true]
      · have htells := htells htold
        simp only [Host.subscribed, hc, Option.any_some] at htells
        simpa only [Host.subscribed, Option.any_some, hst, decide_false, Bool.or_false] using htells

end Callback

/-! ## Invariant -/

namespace Lit

/-- While no task is in `error_led_print`: the calls still to come leave an LED that tells
    whether there is a subscription, whatever `timer_cb` does between them. -/
structure Inv (s : Lit) : Prop where
  hue : s.client.hung = false → StoredHue s.client.vars.s_timer_state.hue
  drawn : ∀ hue, s.timer = .setPixel hue → StoredHue hue
  tells : s.client.hung = false → s.timer.failed = false → ∃ g : Glow, Covers g s.led ∧
    g.told = true ∧
    ∀ g', s.pending.foldl (fun g c => g.call c.1 c.2) g = g' → g'.told = true →
      Tells g'.active g'.shown s.client.host.subscribed

theorem start_inv : Inv {} where
  hue := fun _ => by decide
  drawn := nofun
  tells := fun _ _ => ⟨{}, ⟨rfl, nofun, nofun, nofun⟩, rfl, by
    rintro _ rfl _
    exact ⟨nofun, nofun⟩⟩

variable {s s' : Lit}

/-- Only a callback changes what the client is in. -/
theorem step_callback {e : Client.Ev} (hs : step s (.callback e) = some s') :
    Client.step s.client e = some s'.client := by
  simp only [step, Option.ite_none_right_eq_some] at hs
  obtain ⟨-, hs⟩ := hs
  split at hs
  · rename_i client hclient
    cases hs
    exact hclient
  · cases hs

theorem step_other {e : Ev} (hs : step s e = some s') (he : ∀ e', e ≠ .callback e') :
    s'.client = s.client := by
  cases e with
  | callback e => exact absurd rfl (he e)
  | call =>
      simp only [step] at hs
      split at hs
      · obtain ⟨-, rfl⟩ := of_guard hs
        rfl
      · cases hs
  | fire s_timer_state =>
      obtain ⟨-, rfl⟩ := of_guard hs
      rfl
  | timerCall rc =>
      simp only [step] at hs
      split at hs
      · obtain ⟨-, rfl⟩ := of_guard hs
        rfl
      · cases hs
  | timerReturn =>
      obtain ⟨-, rfl⟩ := of_guard hs
      rfl

theorem Inv.callback (hi : Inv s) {e : Client.Ev} (hs : step s (.callback e) = some s') :
    Inv s' := by
  simp only [step, Option.ite_none_right_eq_some] at hs
  obtain ⟨hpending, hs⟩ := hs
  split at hs
  · rename_i client hclient
    simp only [Option.some.injEq] at hs
    subst hs
    obtain ⟨hhung, host, o, hd, hexec, rfl, hcalls⟩ := step_outcome hclient
    have hret : (State.after e.event o.val o.vars o.world).hung = false → o.val.isSome = true := by
      cases o.val with
      | none => exact fun h => (by cases h)
      | some ret => exact fun _ => rfl
    have hvars : (State.after e.event o.val o.vars o.world).vars = o.vars := by
      cases o.val <;> rfl
    have hsub : (State.after e.event o.val o.vars o.world).host.subscribed = host.subscribed := by
      rw [after_subscribed]
      exact exec_keeps (I := fun h => h.subscribed = host.subscribed)
        (fun c rc h hh => (effect_subscribed c rc h).trans hh) hexec rfl
    have hended : ∀ g : Glow, (g.told = true → Tells g.active g.shown s.client.host.subscribed) →
        Ended host.subscribed o.val o.vars
          ((ledCalls o.calls).foldl (fun g c => g.call c.1 c.2) g) := by
      intro g htells
      rw [← foldl_lights]
      exact wp_replay (wp_callback_ended hd (hi.hue hhung) htells) hexec fun _ _ => trivial
    refine ⟨fun hh => ?_, hi.drawn, fun hh hok => ?_⟩
    · rw [hvars]
      exact (hended { told := false } (fun h => by cases h) (hret hh)).1
    · obtain ⟨g, hcovers, htold, htells⟩ := hi.tells hhung hok
      rw [hpending] at htells
      refine ⟨g, hcovers, htold, ?_⟩
      rintro g' rfl htold'
      rw [hcalls] at htold' ⊢
      rw [hsub]
      exact (hended g (htells g rfl) (hret hh)).2 htold'
  · cases hs

/-- A step of the task of the timer in `error_led_print` stays there. -/
theorem next_failed {timer : TimerLoc} (h : timer.failed = true) (rc : Int) :
    (timer.next rc).failed = true := by
  cases timer with
  | ifActive =>
      simp only [TimerLoc.next]
      split <;> rfl
  | stop | start | loop => rfl
  | idle | setPixel | refresh | clear | toggle => cases h

theorem next_ne_setPixel (timer : TimerLoc) (rc : Int) (hue : BitVec 16) :
    timer.next rc ≠ .setPixel hue := by
  cases timer <;> simp only [TimerLoc.next] <;> (try split) <;> simp

theorem Inv.step (hi : Inv s) {e : Ev} (hs : step s e = some s') : Inv s' := by
  cases e with
  | callback e => exact hi.callback hs
  | call =>
      simp only [Lit.step] at hs
      split at hs
      · rename_i c rc pending hpending
        obtain ⟨hans, rfl⟩ := of_guard hs
        refine ⟨hi.hue, hi.drawn, fun hh hok => ?_⟩
        obtain ⟨g, hcovers, htold, htells⟩ := hi.tells hh hok
        obtain ⟨hcovers', htold'⟩ := hcovers.call hans
        rw [hpending] at htells
        exact ⟨g.call c rc, hcovers', htold'.trans htold, htells⟩
      · cases hs
  | fire s_timer_state =>
      obtain ⟨⟨-, hidle, hstored⟩, rfl⟩ := of_guard hs
      refine ⟨hi.hue, fun hue hdraw => ?_, fun hh _ => ?_⟩
      · simp only at hdraw
        split at hdraw
        · cases hdraw
        · simp only [TimerLoc.setPixel.injEq] at hdraw
          rw [← hdraw]
          exact hstored
      · exact hi.tells hh (by rw [hidle]; rfl)
  | timerCall rc =>
      simp only [Lit.step] at hs
      split at hs
      · rename_i c hc
        obtain ⟨hans, rfl⟩ := of_guard hs
        refine ⟨hi.hue, fun hue hdraw => absurd hdraw (next_ne_setPixel _ _ _), fun hh hok => ?_⟩
        have hok : s.timer.failed = false := by
          refine Bool.eq_false_iff.mpr fun hfailed => ?_
          rw [next_failed hfailed] at hok
          cases hok
        obtain ⟨g, hcovers, htold, htells⟩ := hi.tells hh hok
        exact ⟨g, hcovers.timer hc hok hi.drawn, htold, htells⟩
      · cases hs
  | timerReturn =>
      obtain ⟨htoggle, rfl⟩ := of_guard hs
      refine ⟨hi.hue, fun hue hdraw => (by cases hdraw), fun hh _ => ?_⟩
      exact hi.tells hh (by rw [htoggle]; rfl)

/-! ## Results -/

theorem inv_of_run {es : List Ev} (hrun : Run step Always {} es s) : Inv s :=
  hrun.invariant start_inv fun _ _ _ hi _ hs => hi.step hs

/-- What the LED tells when the callbacks have returned. -/
theorem Inv.returned (hi : Inv s) (hreturned : s.pending = []) (hhung : s.client.hung = false)
    (htimer : s.timer.failed = false) :
    (s.led.active = true → s.client.host.subscribed = false) ∧
      (s.led.active = false → s.led.shown = GREEN → s.client.host.subscribed = true) := by
  obtain ⟨g, hcovers, htold, htells⟩ := hi.tells hhung htimer
  rw [hreturned] at htells
  have htells := htells g rfl htold
  refine ⟨fun hactive => htells.blinks (hcovers.active ▸ hactive), fun hactive hshown => ?_⟩
  refine (htells.steady (hcovers.shown hshown)).resolve_left ?_
  rw [← hcovers.active, hactive]
  exact Bool.false_ne_true

/-- When the callbacks have returned and no task is in `error_led_print`, the client is not
    subscribed as long as the timer makes the LED blink, and an LED that is steadily green
    means that it is. -/
theorem led_tells {es : List Ev} (hrun : Run step Always {} es s) (hreturned : s.pending = [])
    (hhung : s.client.hung = false) (htimer : s.timer.failed = false) :
    (s.led.active = true → ∀ c, s.client.host.conn = some c → c.subscribed = false) ∧
      (s.led.active = false → s.led.shown = GREEN →
        ∃ c, s.client.host.conn = some c ∧ c.subscribed = true) := by
  obtain ⟨hblinks, hsteady⟩ := (inv_of_run hrun).returned hreturned hhung htimer
  refine ⟨fun hactive c hc => ?_, fun hactive hshown => ?_⟩
  · have hsub := hblinks hactive
    rwa [Host.subscribed, hc, Option.any_some] at hsub
  · have hsub := hsteady hactive hshown
    rwa [Host.subscribed, Option.any_eq_true] at hsub

/-- The client scans, with the LED blinking, until it has found the server and subscribed. -/
def greenRun : List Ev :=
  [.callback ⟨.sync 1, [0, 0, 0, 0, 0, 0, 0]⟩, .call, .call,
   .fire { hue := 210 }, .timerCall 0, .timerCall 0, .timerReturn,
   .callback ⟨.gap (.disc serverAd), [0, 0]⟩,
   .callback ⟨.gap (.connect 0 1 ⟨1, s_server_addr⟩), [0, 0, 0]⟩,
   .callback ⟨.gap (.encChange 0 1), []⟩,
   .callback ⟨.service 1 0 (some ⟨10, 20⟩), [0]⟩,
   .callback ⟨.characteristic 1 0 (some ⟨12⟩), [0]⟩,
   .callback ⟨.descriptor 1 0 (some ⟨13, .uuid16 BLE_GATT_DSC_CLT_CFG_UUID16⟩), [0]⟩,
   -- the timer runs, and is stopped
   .callback ⟨.subscription 1 0, [1, 0, 0, 0]⟩, .call, .call, .call, .call]

theorem led_tells_green :
    ∃ s c, Run step Always {} greenRun s ∧ s.led.shown = GREEN ∧
      s.client.host.conn = some c ∧ c.subscribed = true := by
  obtain ⟨s, hrun, hreturned, hhung, htimer, hactive, hshown⟩ :
      ∃ s, Run step Always {} greenRun s ∧ s.pending = [] ∧ s.client.hung = false ∧
        s.timer.failed = false ∧ s.led.active = false ∧ s.led.shown = GREEN :=
    Run.exists_of_exec (by decide)
  obtain ⟨c, hc, hsub⟩ := (led_tells hrun hreturned hhung htimer).2 hactive hshown
  exact ⟨s, c, hrun, hshown, hc, hsub⟩

end Lit

end Speedometer.Esp32.Client
