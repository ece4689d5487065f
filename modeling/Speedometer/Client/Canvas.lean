/-
  Speedometer.Client.Canvas

  The desktop client's `Canvas` as far as it keeps state: what it displays, and the
  audio process that plays the sound of the light signals.

  `QProcess` is under way from `start` until it has finished, which the event loop
  reports at any time, or `waitForFinished` while `stopSignalSound` runs: the handler
  of `finished`, which restarts the sound, is then entered inside of it.  `Sounding`
  is what holds between two handlers.  `sound_matches` follows for every sequence of
  ticks and reports.
-/

import Speedometer.Client.Window
import Speedometer.Lib.Run

namespace Speedometer.Client

open Transition

/-- `Canvas::SignalSound`. -/
inductive SignalSound
  | none
  | left
  | right
  | warning
deriving DecidableEq, Repr

/-- The members of `Canvas` its constructor gives their values. -/
structure Sounds where
  m_signalSoundCommand : String
  m_leftSignalSoundPath : String
  m_rightSignalSoundPath : String
  m_warningSignalSoundPath : String

/-- `QProcess::ProcessState`. -/
inductive ProcessState
  | notRunning
  | starting
  | running
deriving DecidableEq, Repr

/-- `m_signalSoundProcess`. -/
structure Process where
  state : ProcessState := .notRunning
  /-- the argument it was last started with -/
  argument : String := ""
  /-- it has been killed since -/
  killed : Bool := false
deriving DecidableEq

/-- What becomes of the process while `waitForFinished` waits for it. -/
inductive Wait
  /-- the time is up; the process may have got from `starting` to `running` -/
  | timedOut (started : Bool)
  /-- there is nothing to execute: `finished` is not emitted -/
  | failedToStart
  /-- it finishes, and `finished` is emitted; should the handler start it again, `start`
      succeeds if `forks` -/
  | finished (forks : Bool)
deriving DecidableEq, Repr

/-- `Canvas`. -/
structure Canvas where
  m_connected : Bool := true
  m_blinkVisible : Bool := true
  m_speed : Int := 0
  m_temperature : Int := 0
  m_batteryLevel : Int := 0
  m_leftLight : Bool := false
  m_rightLight : Bool := false
  m_signalSoundProcess : Process := {}
  m_stoppingSignalSound : Bool := false
  m_activeSignalSound : SignalSound := .none
  /-- the argument of every start of the process, with the sound the lights selected
      at that moment -/
  started : List (String × SignalSound) := []
deriving DecidableEq

namespace Canvas

/-! ## Source -/

/-- `soundPathFor`. -/
def soundPathFor (sounds : Sounds) : SignalSound → String
  | .left => sounds.m_leftSignalSoundPath
  | .right => sounds.m_rightSignalSoundPath
  | .warning => sounds.m_warningSignalSoundPath
  | .none => ""

/-- `hasActiveLightSignal`. -/
def hasActiveLightSignal (c : Canvas) : Bool := c.m_leftLight || c.m_rightLight

/-- `selectedSignalSound`. -/
def selectedSignalSound (c : Canvas) : SignalSound :=
  if c.m_leftLight && c.m_rightLight then .warning
  else if c.m_leftLight then .left
  else if c.m_rightLight then .right
  else .none

/-- `m_signalSoundProcess.start(m_signalSoundCommand, {soundPath})`. -/
def start (c : Canvas) (soundPath : String) (forks : Bool) : Canvas :=
  { c with
    m_signalSoundProcess :=
      { state := if forks then .starting else .notRunning, argument := soundPath }
    started := c.started ++ [(soundPath, c.selectedSignalSound)] }

/-- `startSignalSound`. -/
def startSignalSound (sounds : Sounds) (c : Canvas) (forks : Bool) : Canvas :=
  if sounds.m_signalSoundCommand.isEmpty then c
  else if c.m_signalSoundProcess.state = .notRunning then
    let soundPath := soundPathFor sounds c.m_activeSignalSound
    if !soundPath.isEmpty then c.start soundPath forks else c
  else c

/-- The process in another state. -/
def setState (c : Canvas) (state : ProcessState) : Canvas :=
  { c with m_signalSoundProcess := { c.m_signalSoundProcess with state } }

/-- The process finishes: the handler of `finished` runs. -/
def finished (sounds : Sounds) (c : Canvas) (forks : Bool) : Canvas :=
  let c := c.setState .notRunning
  if !c.m_stoppingSignalSound && c.hasActiveLightSignal then c.startSignalSound sounds forks
  else c

/-- `m_signalSoundProcess.waitForFinished(m_waitTime_ms)`. -/
def waitForFinished (sounds : Sounds) (c : Canvas) : Wait → Canvas
  | .timedOut started => if started then c.setState .running else c
  | .failedToStart => c.setState .notRunning
  | .finished forks => c.finished sounds forks

/-- `m_signalSoundProcess.kill()`. -/
def kill (c : Canvas) : Canvas :=
  { c with m_signalSoundProcess := { c.m_signalSoundProcess with killed := true } }

/-- `stopSignalSound`. -/
def stopSignalSound (sounds : Sounds) (c : Canvas) (wait : Wait) : Canvas :=
  let c := { c with m_stoppingSignalSound := true }
  let c :=
    if c.m_signalSoundProcess.state ≠ .notRunning then c.kill.waitForFinished sounds wait else c
  { c with m_stoppingSignalSound := false }

/-- `setSpeed`. -/
def setSpeed (c : Canvas) (speed : Int) : Canvas := { c with m_speed := speed }

/-- `setTemperature`. -/
def setTemperature (c : Canvas) (temperature : Int) : Canvas :=
  { c with m_temperature := temperature }

/-- `setBatteryLevel`. -/
def setBatteryLevel (c : Canvas) (batteryLevel : Int) : Canvas :=
  { c with m_batteryLevel := batteryLevel }

/-- `setBlinkVisible`. -/
def setBlinkVisible (c : Canvas) (visible : Bool) : Canvas := { c with m_blinkVisible := visible }

/-- `setLightSignals`. -/
def setLightSignals (sounds : Sounds) (c : Canvas) (leftLight rightLight : Bool) (wait : Wait)
    (forks : Bool) : Canvas :=
  let c := { c with m_leftLight := leftLight, m_rightLight := rightLight }
  let newSound := c.selectedSignalSound
  if newSound = .none then
    { c with m_activeSignalSound := .none }.stopSignalSound sounds wait
  else if newSound ≠ c.m_activeSignalSound then
    { c.stopSignalSound sounds wait with m_activeSignalSound := newSound }.startSignalSound sounds
      forks
  else c.startSignalSound sounds forks

/-- `setCommunicationStatus`. -/
def setCommunicationStatus (sounds : Sounds) (c : Canvas) (connected : Bool) (wait : Wait) :
    Canvas :=
  let c := { c with m_connected := connected }
  if !c.m_connected then
    { c with
      m_speed := 0
      m_temperature := 0
      m_batteryLevel := 0
      m_leftLight := false
      m_rightLight := false
      m_activeSignalSound := .none }.stopSignalSound sounds wait
  else c

end Canvas

/-! ## The tick and the event loop -/

/-- The canvas and the tick that drives it, with the two lights of its static
    variables. -/
structure Dashboard where
  m_canvas : Canvas := {}
  loc : TickLoc := .idle
  left_light : Bool := false
  right_light : Bool := false
deriving DecidableEq

namespace Dashboard

/-- What can happen next: a call of the tick, with what the service and the process
    answer, the timer of the blinking arrows, or a report on the process. -/
inductive Ev
  | timeout
  | getStatus (status : Bool)
  | setConnected
  | get (v : Int)
  | setLightSignals (wait : Wait) (forks : Bool)
  | setDisconnected (wait : Wait)
  | clearBuffer
  | blink (visible : Bool)
  | started
  | failedToStart
  | finished (forks : Bool)
deriving DecidableEq, Repr

/-- A getter of the tick and the setter that gets its value. -/
def get (d : Dashboard) (sig : Getter) (v : Int) : Dashboard :=
  let d := { d with loc := sig.next }
  match sig with
  | .speed => { d with m_canvas := d.m_canvas.setSpeed v }
  | .temp => { d with m_canvas := d.m_canvas.setTemperature v }
  | .battery => { d with m_canvas := d.m_canvas.setBatteryLevel v }
  | .leftLight => { d with left_light := v != 0 }
  | .rightLight => { d with right_light := v != 0 }

/-- A step of the tick or of the event loop. -/
def step (sounds : Sounds) (d : Dashboard) : Ev → Option Dashboard
  | .timeout => if d.loc = .idle then some { d with loc := .getStatus } else none
  | .getStatus status =>
      if d.loc = .getStatus then
        some { d with loc := if status then .setConnected else .setDisconnected }
      else none
  | .setConnected =>
      -- a connected canvas does not stop its sound: there is nothing to wait for
      if d.loc = .setConnected then
        some { d with m_canvas := d.m_canvas.setCommunicationStatus sounds true (.timedOut false),
                      loc := .get .speed }
      else none
  | .get v =>
      match d.loc with
      | .get sig => some (d.get sig v)
      | _ => none
  | .setLightSignals wait forks =>
      if d.loc = .setLightSignals then
        some { d with m_canvas := d.m_canvas.setLightSignals sounds d.left_light d.right_light
                        wait forks,
                      loc := .idle }
      else none
  | .setDisconnected wait =>
      if d.loc = .setDisconnected then
        some { d with m_canvas := d.m_canvas.setCommunicationStatus sounds false wait,
                      loc := .clearBuffer }
      else none
  | .clearBuffer => if d.loc = .clearBuffer then some { d with loc := .idle } else none
  | .blink visible => some { d with m_canvas := d.m_canvas.setBlinkVisible visible }
  | .started =>
      if d.m_canvas.m_signalSoundProcess.state = .starting then
        some { d with m_canvas := d.m_canvas.setState .running }
      else none
  | .failedToStart =>
      if d.m_canvas.m_signalSoundProcess.state = .starting then
        some { d with m_canvas := d.m_canvas.setState .notRunning }
      else none
  | .finished forks =>
      if d.m_canvas.m_signalSoundProcess.state = .running then
        some { d with m_canvas := d.m_canvas.finished sounds forks }
      else none

end Dashboard

/-! ## Between two handlers -/

namespace Canvas

variable {sounds : Sounds} {c : Canvas}

/-- The process is not under way, or it has been killed. -/
def Quiet (c : Canvas) : Prop :=
  c.m_signalSoundProcess.state ≠ .notRunning → c.m_signalSoundProcess.killed = true

/-- What holds between two handlers.  A process that is under way and not killed plays
    the active sound, which is the selected one, and so did every process when it was
    started. -/
structure Sounding (sounds : Sounds) (c : Canvas) : Prop where
  stopping : c.m_stoppingSignalSound = false
  active : c.m_activeSignalSound = c.selectedSignalSound
  playing : c.m_signalSoundProcess.state ≠ .notRunning → c.m_signalSoundProcess.killed = false →
    c.m_signalSoundProcess.argument = soundPathFor sounds c.m_activeSignalSound ∧
      c.m_activeSignalSound ≠ .none
  started : ∀ s ∈ c.started, s.1 = soundPathFor sounds s.2 ∧ s.2 ≠ .none

/-- A quiet canvas plays nothing that could be the wrong sound. -/
theorem Sounding.of_quiet (hstop : c.m_stoppingSignalSound = false)
    (hactive : c.m_activeSignalSound = c.selectedSignalSound) (hquiet : c.Quiet)
    (hstarted : ∀ s ∈ c.started, s.1 = soundPathFor sounds s.2 ∧ s.2 ≠ .none) :
    Sounding sounds c where
  stopping := hstop
  active := hactive
  playing := by
    intro hstate hkilled
    rw [hquiet hstate] at hkilled
    cases hkilled
  started := hstarted

/-- There is no sound without a path. -/
theorem ne_none_of_path {sound : SignalSound} (h : (soundPathFor sounds sound).isEmpty = false) :
    sound ≠ .none := by
  rintro rfl
  have hempty : "".isEmpty = false := h
  exact absurd hempty (by decide)

/-- `startSignalSound` changes the process and what has been started. -/
theorem startSignalSound_eq (sounds : Sounds) (c : Canvas) (forks : Bool) :
    ∃ m_signalSoundProcess started,
      c.startSignalSound sounds forks = { c with m_signalSoundProcess, started } := by
  unfold startSignalSound
  split
  · exact ⟨_, _, rfl⟩
  · split
    · dsimp only
      split
      · exact ⟨_, _, rfl⟩
      · exact ⟨_, _, rfl⟩
    · exact ⟨_, _, rfl⟩

@[simp] theorem startSignalSound_connected (forks : Bool) :
    (c.startSignalSound sounds forks).m_connected = c.m_connected := by
  obtain ⟨_, _, heq⟩ := startSignalSound_eq sounds c forks
  rw [heq]

@[simp] theorem startSignalSound_lights (forks : Bool) :
    (c.startSignalSound sounds forks).hasActiveLightSignal = c.hasActiveLightSignal := by
  obtain ⟨_, _, heq⟩ := startSignalSound_eq sounds c forks
  rw [heq]
  rfl

/-- Starting the active sound while nothing runs. -/
theorem Sounding.startSignalSound (h : Sounding sounds c) (forks : Bool) :
    Sounding sounds (c.startSignalSound sounds forks) := by
  unfold Canvas.startSignalSound
  split
  · exact h
  · split
    · dsimp only
      split
      · rename_i hpath
        have hne : c.m_activeSignalSound ≠ .none := ne_none_of_path (by simpa using hpath)
        refine ⟨h.stopping, h.active, fun _ _ => ⟨rfl, hne⟩, ?_⟩
        intro s hs
        rcases List.mem_append.mp hs with hs | hs
        · exact h.started s hs
        · rw [List.mem_singleton.mp hs, ← h.active]
          exact ⟨rfl, hne⟩
      · exact h
    · exact h

/-- Whatever happens while it waits, `stopSignalSound` leaves the canvas quiet and starts
    nothing: the handler of `finished` sees `m_stoppingSignalSound`. -/
theorem stopSignalSound_eq (sounds : Sounds) (c : Canvas) (wait : Wait) :
    ∃ m_signalSoundProcess,
      c.stopSignalSound sounds wait =
        { c with m_signalSoundProcess, m_stoppingSignalSound := false } ∧
      (c.stopSignalSound sounds wait).Quiet := by
  by_cases hstate : c.m_signalSoundProcess.state = .notRunning
  · have heq : c.stopSignalSound sounds wait = { c with m_stoppingSignalSound := false } := by
      simp [stopSignalSound, hstate]
    exact ⟨c.m_signalSoundProcess, heq, fun hne => absurd (by rw [heq]; exact hstate) hne⟩
  · simp only [stopSignalSound, ne_eq, hstate, not_false_eq_true, if_true]
    -- a process that outlives the wait has been killed
    cases wait with
    | timedOut started =>
        cases started with
        | true => exact ⟨_, rfl, fun _ => rfl⟩
        | false => exact ⟨_, rfl, fun _ => rfl⟩
    | failedToStart => exact ⟨_, rfl, fun hne => absurd rfl hne⟩
    | finished forks => exact ⟨_, rfl, fun hne => absurd rfl hne⟩

@[simp] theorem stopSignalSound_connected (wait : Wait) :
    (c.stopSignalSound sounds wait).m_connected = c.m_connected := by
  obtain ⟨_, heq, -⟩ := stopSignalSound_eq sounds c wait
  rw [heq]

@[simp] theorem stopSignalSound_lights (wait : Wait) :
    (c.stopSignalSound sounds wait).hasActiveLightSignal = c.hasActiveLightSignal := by
  obtain ⟨_, heq, -⟩ := stopSignalSound_eq sounds c wait
  rw [heq]
  rfl

/-- Stopping the sound of a canvas whose active sound is the selected one. -/
theorem stopSignalSound_sounding (hactive : c.m_activeSignalSound = c.selectedSignalSound)
    (hstarted : ∀ s ∈ c.started, s.1 = soundPathFor sounds s.2 ∧ s.2 ≠ .none) (wait : Wait) :
    Sounding sounds (c.stopSignalSound sounds wait) := by
  obtain ⟨process, heq, hquiet⟩ := stopSignalSound_eq sounds c wait
  rw [heq] at hquiet ⊢
  exact .of_quiet rfl hactive hquiet hstarted

/-- A change of the lights stops the old sound before it starts the new one. -/
theorem Sounding.setLightSignals (h : Sounding sounds c) (leftLight rightLight : Bool)
    (wait : Wait) (forks : Bool) :
    Sounding sounds (c.setLightSignals sounds leftLight rightLight wait forks) := by
  unfold Canvas.setLightSignals
  extract_lets c' newSound
  split
  · -- no light
    rename_i hnone
    exact stopSignalSound_sounding (c := { c' with m_activeSignalSound := .none }) hnone.symm
      h.started wait
  · split
    · -- another sound
      apply Sounding.startSignalSound
      obtain ⟨process, heq, hquiet⟩ := stopSignalSound_eq sounds c' wait
      have hstop : (c'.stopSignalSound sounds wait).m_stoppingSignalSound = false := by rw [heq]
      have hselected : (c'.stopSignalSound sounds wait).selectedSignalSound = newSound := by
        rw [heq]
        rfl
      have hstarted : (c'.stopSignalSound sounds wait).started = c.started := by rw [heq]
      exact .of_quiet hstop hselected.symm hquiet (hstarted ▸ h.started)
    · -- the same sound
      rename_i hsame
      have hactive : c'.m_activeSignalSound = newSound := (not_not.mp hsame).symm
      have hkept : Sounding sounds c' := ⟨h.stopping, hactive, h.playing, h.started⟩
      exact hkept.startSignalSound forks

theorem Sounding.setCommunicationStatus (h : Sounding sounds c) (connected : Bool) (wait : Wait) :
    Sounding sounds (c.setCommunicationStatus sounds connected wait) := by
  cases connected with
  | true => exact ⟨h.stopping, h.active, h.playing, h.started⟩
  | false =>
      exact stopSignalSound_sounding
        (c := { c with m_connected := false, m_speed := 0, m_temperature := 0, m_batteryLevel := 0,
                       m_leftLight := false, m_rightLight := false, m_activeSignalSound := .none })
        rfl h.started wait

/-- When the process finishes it is started again with the active sound, if there is a
    light. -/
theorem Sounding.finished (h : Sounding sounds c) (forks : Bool) :
    Sounding sounds (c.finished sounds forks) := by
  have hidle : Sounding sounds (c.setState .notRunning) :=
    .of_quiet h.stopping h.active (fun hne => absurd rfl hne) h.started
  simp only [Canvas.finished]
  split
  · exact hidle.startSignalSound forks
  · exact hidle

end Canvas

namespace Dashboard

open Canvas (Sounding soundPathFor)

variable {sounds : Sounds} {d d' : Dashboard}

/-- Between two steps: the sound, and the tick sets the lights of a connected canvas
    only. -/
structure Inv (sounds : Sounds) (d : Dashboard) : Prop where
  sounding : Sounding sounds d.m_canvas
  dark : d.m_canvas.m_connected = false → d.m_canvas.hasActiveLightSignal = false
  connected : (∃ sig, d.loc = .get sig) ∨ d.loc = .setLightSignals → d.m_canvas.m_connected = true

theorem start_inv (sounds : Sounds) : Inv sounds {} where
  sounding := ⟨rfl, rfl, fun hne => absurd rfl hne, by simp⟩
  dark := by decide
  connected := by simp

/-- A step that leaves the connection and the lights of the canvas alone. -/
theorem Inv.frame (h : Inv sounds d) {m_canvas : Canvas} (hs : Sounding sounds m_canvas)
    (hconn : m_canvas.m_connected = d.m_canvas.m_connected)
    (hlights : m_canvas.hasActiveLightSignal = d.m_canvas.hasActiveLightSignal) :
    Inv sounds { d with m_canvas } where
  sounding := hs
  dark := by
    rw [hconn, hlights]
    exact h.dark
  connected := by
    rw [hconn]
    exact h.connected

/-- The handler of `finished` leaves the connection and the lights alone. -/
theorem Inv.finished (h : Inv sounds d) (forks : Bool) :
    Inv sounds { d with m_canvas := d.m_canvas.finished sounds forks } := by
  have hs := h.sounding.finished forks
  simp only [Canvas.finished] at hs ⊢
  split at hs
  · rename_i hcond
    rw [if_pos hcond]
    exact h.frame hs (Canvas.startSignalSound_connected forks)
      (Canvas.startSignalSound_lights forks)
  · rename_i hcond
    rw [if_neg hcond]
    exact h.frame hs rfl rfl

/-- The setter of a getter's value. -/
theorem Inv.get (h : Inv sounds d) {sig : Getter} (hl : d.loc = .get sig) (v : Int) :
    Inv sounds (d.get sig v) := by
  have hconn := h.connected (.inl ⟨sig, hl⟩)
  have hs := h.sounding
  cases sig <;>
    exact ⟨⟨hs.stopping, hs.active, hs.playing, hs.started⟩, h.dark, fun _ => hconn⟩

/-- Whatever the process does, `setLightSignals` keeps the connection. -/
theorem setLightSignals_connected (sounds : Sounds) (c : Canvas) (leftLight rightLight : Bool)
    (wait : Wait) (forks : Bool) :
    (c.setLightSignals sounds leftLight rightLight wait forks).m_connected = c.m_connected := by
  unfold Canvas.setLightSignals
  extract_lets c' newSound
  split
  · exact Canvas.stopSignalSound_connected wait
  · split
    · exact (Canvas.startSignalSound_connected forks).trans (Canvas.stopSignalSound_connected wait)
    · exact Canvas.startSignalSound_connected forks

/-- Every step keeps the invariant. -/
theorem Inv.step (h : Inv sounds d) {e : Ev} (hs : step sounds d e = some d') :
    Inv sounds d' := by
  have hsound := h.sounding
  cases e with
  | timeout | clearBuffer =>
      obtain ⟨-, rfl⟩ := of_guard hs
      exact ⟨hsound, h.dark, by simp⟩
  | getStatus status =>
      obtain ⟨-, rfl⟩ := of_guard hs
      exact ⟨hsound, h.dark, by cases status <;> simp⟩
  | setConnected =>
      obtain ⟨-, rfl⟩ := of_guard hs
      exact ⟨hsound.setCommunicationStatus true (.timedOut false),
        by simp [Canvas.setCommunicationStatus], fun _ => rfl⟩
  | get v =>
      simp only [Dashboard.step] at hs
      split at hs
      · rename_i sig hl
        simp only [Option.some.injEq] at hs
        exact hs ▸ h.get hl v
      · cases hs
  | setLightSignals wait forks =>
      obtain ⟨hl, rfl⟩ := of_guard hs
      have hconn := (setLightSignals_connected sounds d.m_canvas d.left_light d.right_light wait
        forks).trans (h.connected (.inr hl))
      exact ⟨hsound.setLightSignals .., fun hf => absurd (hf.symm.trans hconn) (by decide),
        by simp⟩
  | setDisconnected wait =>
      obtain ⟨-, rfl⟩ := of_guard hs
      have hoff := hsound.setCommunicationStatus false wait
      exact ⟨hoff, fun _ => Canvas.stopSignalSound_lights wait, by simp⟩
  | blink visible =>
      simp only [Dashboard.step, Option.some.injEq] at hs
      subst hs
      exact h.frame ⟨hsound.stopping, hsound.active, hsound.playing, hsound.started⟩ rfl rfl
  | started =>
      obtain ⟨hstate, rfl⟩ := of_guard hs
      have hplaying := hsound.playing (by simp [hstate])
      exact h.frame ⟨hsound.stopping, hsound.active, fun _ => hplaying, hsound.started⟩ rfl rfl
  | failedToStart =>
      obtain ⟨-, rfl⟩ := of_guard hs
      exact h.frame ⟨hsound.stopping, hsound.active, fun hne => absurd rfl hne, hsound.started⟩
        rfl rfl
  | finished forks =>
      obtain ⟨-, rfl⟩ := of_guard hs
      exact h.finished forks

/-- No light selects no sound. -/
theorem selectedSignalSound_dark {c : Canvas} (h : c.hasActiveLightSignal = false) :
    c.selectedSignalSound = .none := by
  simp only [Canvas.hasActiveLightSignal, Bool.or_eq_false_iff] at h
  simp [Canvas.selectedSignalSound, h.1, h.2]

/-- While both lights are off, no process plays a sound. -/
theorem Inv.quiet (h : Inv sounds d) (hdark : d.m_canvas.hasActiveLightSignal = false) :
    d.m_canvas.Quiet := by
  intro hstate
  -- an un-killed process would play the sound of no light
  by_contra hkilled
  have hne := (h.sounding.playing hstate (Bool.eq_false_iff.mpr hkilled)).2
  exact hne (h.sounding.active.trans (selectedSignalSound_dark hdark))

/-- Only a tick that finds the connection up leaves the canvas connected. -/
theorem step_disconnected {e : Ev} (hs : step sounds d e = some d') (he : e ≠ .setConnected)
    (hconn : d.m_canvas.m_connected = false) : d'.m_canvas.m_connected = false := by
  cases e with
  | setConnected => exact absurd rfl he
  | timeout | clearBuffer | getStatus _ | started | failedToStart =>
      obtain ⟨-, rfl⟩ := of_guard hs
      exact hconn
  | get v =>
      simp only [step] at hs
      split at hs
      · rename_i sig _
        simp only [Option.some.injEq] at hs
        subst hs
        cases sig <;> exact hconn
      · cases hs
  | setLightSignals wait forks =>
      obtain ⟨-, rfl⟩ := of_guard hs
      exact (setLightSignals_connected ..).trans hconn
  | setDisconnected wait =>
      obtain ⟨-, rfl⟩ := of_guard hs
      exact Canvas.stopSignalSound_connected wait
  | blink visible =>
      simp only [step, Option.some.injEq] at hs
      exact hs ▸ hconn
  | finished forks =>
      obtain ⟨-, rfl⟩ := of_guard hs
      simp only [Canvas.finished]
      split
      · exact (Canvas.startSignalSound_connected forks).trans hconn
      · exact hconn

/-- From a tick that finds the connection down to the next one that finds it up no sound is
    active, and no process plays one. -/
theorem Inv.silent {es : List Ev} {d₁ d₂ : Dashboard} {wait : Wait} (h : Inv sounds d)
    (hdown : Dashboard.step sounds d (.setDisconnected wait) = some d₁)
    (hrun : Run (Dashboard.step sounds) (fun _ e => e ≠ .setConnected) d₁ es d₂) :
    d₂.m_canvas.m_activeSignalSound = .none ∧ d₂.m_canvas.Quiet := by
  have hconn : d₁.m_canvas.m_connected = false := by
    obtain ⟨-, rfl⟩ := of_guard hdown
    exact Canvas.stopSignalSound_connected wait
  obtain ⟨hinv, hconn⟩ := hrun.invariant
    (I := fun d => Inv sounds d ∧ d.m_canvas.m_connected = false) ⟨h.step hdown, hconn⟩
    fun _ _ _ hi he hs => ⟨hi.1.step hs, step_disconnected hs he hi.2⟩
  have hdark := hinv.dark hconn
  exact ⟨hinv.sounding.active.trans (selectedSignalSound_dark hdark), hinv.quiet hdark⟩

/-- Over every sequence of ticks, with the process finishing at any time or inside of
    `waitForFinished`: the active sound is the selected one, a process that is under way
    and not killed plays it, there is none while both lights are off or the canvas is
    disconnected, and whenever the process was started it was with the sound the lights
    selected then.  There is none from `setDisconnected` of a tick to `setConnected` of a
    later one, and no active sound either. -/
theorem sound_matches {es : List Ev} (h : Run (step sounds) Always {} es d) :
    d.m_canvas.m_activeSignalSound = d.m_canvas.selectedSignalSound ∧
    (d.m_canvas.m_signalSoundProcess.state ≠ .notRunning →
      d.m_canvas.m_signalSoundProcess.killed = false →
      d.m_canvas.m_signalSoundProcess.argument =
        soundPathFor sounds d.m_canvas.m_activeSignalSound) ∧
    (d.m_canvas.hasActiveLightSignal = false ∨ d.m_canvas.m_connected = false →
      d.m_canvas.Quiet) ∧
    (∀ s ∈ d.m_canvas.started, s.1 = soundPathFor sounds s.2 ∧ s.2 ≠ .none) ∧
    ∀ wait fs d₁ d₂, step sounds d (.setDisconnected wait) = some d₁ →
      Run (step sounds) (fun _ e => e ≠ .setConnected) d₁ fs d₂ →
      d₂.m_canvas.m_activeSignalSound = .none ∧ d₂.m_canvas.Quiet := by
  have hinv : Inv sounds d := h.invariant (start_inv sounds) fun _ _ _ hi _ hs => hi.step hs
  obtain ⟨-, hactive, hplaying, hstarted⟩ := hinv.sounding
  refine ⟨hactive, fun hstate hkilled => (hplaying hstate hkilled).1, ?_, hstarted, ?_⟩
  · exact fun hoff => hinv.quiet (hoff.elim id hinv.dark)
  · exact fun _ _ _ _ hdown hrun => hinv.silent hdown hrun

/-- A tick of a connection that is up. -/
def tick (left right : Int) (wait : Wait) : List Ev :=
  [.timeout, .getStatus true, .setConnected, .get 50, .get 20, .get 80, .get left, .get right,
   .setLightSignals wait true]

/-- The car changes from left to right, the killed process outlives the wait, and the
    new sound starts when it has finished. -/
def changeSide : List Ev :=
  tick 1 0 .failedToStart ++ [.started] ++ tick 0 1 (.timedOut false) ++ [.finished true]

def soundFiles : Sounds := ⟨"aplay", "/left.wav", "/right.wav", "/warning.wav"⟩

theorem sound_matches_changeSide :
    ∃ d, Run (step soundFiles) Always {} changeSide d ∧ d.m_canvas.started.length = 2 ∧
      d.m_canvas.m_signalSoundProcess.argument = "/right.wav" := by
  obtain ⟨d, hrun, hlen, hsound, hstate, hkilled⟩ : ∃ d,
      Run (step soundFiles) Always {} changeSide d ∧
      d.m_canvas.started.length = 2 ∧ d.m_canvas.m_activeSignalSound = .right ∧
      d.m_canvas.m_signalSoundProcess.state ≠ .notRunning ∧
      d.m_canvas.m_signalSoundProcess.killed = false := Run.exists_of_exec (by decide)
  obtain ⟨-, hplaying, -⟩ := sound_matches hrun
  refine ⟨d, hrun, hlen, ?_⟩
  rw [hplaying hstate hkilled, hsound]
  rfl

end Dashboard
end Speedometer.Client
