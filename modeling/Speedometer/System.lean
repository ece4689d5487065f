/-
  Speedometer.System

  The whole system, from the server's setters to the client's dashboard: a path that
  carries frames, the client's service at the end of it, and the tick that reads the
  service and sets the canvas.

  `Path` is what a path promises: every value committed is what the setters had made of
  the buffer after some number of their calls, and these numbers never go back.
  `displayed_from_calls` says what follows for every value the canvas is ever given.
-/

import Speedometer.Client.Canvas
import Speedometer.Client.Window
import Speedometer.Setters

namespace Speedometer

open Cpp Transition Client
open Server (InsertCall)

/-- The committed values are the buffer after so many calls of the setters, from one
    commit to the next never after fewer. -/
def FromCalls (calls : List InsertCall) (log : List (Buf SBUFLEN)) : Prop :=
  ∃ ts : List Nat, ts.Pairwise (· ≤ ·) ∧ (∀ t ∈ ts, t ≤ calls.length) ∧
    log.map Except.ok = ts.map fun t => runCalls (calls.take t)

/-- A history of `m_buf` has the buffer after each number of calls. -/
structure Recorded (calls : List InsertCall) (hist : List (Buf SBUFLEN)) : Prop where
  length : hist.length = calls.length + 1
  value : ∀ t b, hist[t]? = some b → runCalls (calls.take t) = .ok b

theorem recorded_start : Recorded [] [Buf.zero SBUFLEN] where
  length := rfl
  value := by
    intro t b hb
    obtain ⟨rfl, rfl⟩ : t = 0 ∧ b = Buf.zero SBUFLEN := by
      rw [List.getElem?_singleton] at hb
      split at hb
      · exact ⟨‹_›, (Option.some.inj hb).symm⟩
      · cases hb
    rfl

/-- One more call, one more value. -/
theorem Recorded.insert {calls : List InsertCall} {hist : List (Buf SBUFLEN)}
    {m_buf m_buf' : Buf SBUFLEN} {call : InsertCall} (h : Recorded calls hist)
    (hlast : hist.getLast? = some m_buf) (hrun : call.run m_buf = .ok m_buf') :
    Recorded (calls ++ [call]) (hist ++ [m_buf']) where
  length := by
    have hlen := h.length
    simp only [List.length_append, List.length_singleton]
    omega
  value := by
    intro t b hb
    by_cases ht : t < hist.length
    · rw [List.getElem?_append_left ht] at hb
      rw [List.take_append_of_le_length (by have := h.length; omega)]
      exact h.value t b hb
    · -- the new value, after all of the calls
      have hlen := h.length
      have htl := (List.getElem?_eq_some_iff.mp hb).1
      rw [List.length_append, List.length_singleton] at htl
      have heq : t = hist.length := by omega
      subst heq
      rw [List.getElem?_concat_length, Option.some.injEq] at hb
      have hcalls : runCalls calls = .ok m_buf := by
        rw [List.getLast?_eq_getElem?, hlen] at hlast
        simpa using h.value _ _ hlast
      rw [List.take_of_length_le (by simp [hlen]), runCalls_append, hcalls, ok_bind, hrun, hb]

/-- Commits at instants of the history come from calls. -/
theorem Recorded.fromCalls {calls : List InsertCall} {hist log : List (Buf SBUFLEN)}
    {ts : List Nat} (h : Recorded calls hist) (hsorted : ts.Pairwise (· ≤ ·))
    (hlog : log.map some = ts.map (hist[·]?)) : FromCalls calls log := by
  refine ⟨ts, hsorted, ?_, ?_⟩
  · intro t ht
    have hmem : hist[t]? ∈ log.map some := hlog ▸ List.mem_map_of_mem ht
    obtain ⟨b, -, hb⟩ := List.mem_map.mp hmem
    have hlt := (List.getElem?_eq_some_iff.mp hb.symm).1
    have hlen := h.length
    omega
  · have hpair : List.Forall₂ (fun b t => some b = hist[t]?) log ts := by
      rw [← List.forall₂_map_right_iff, ← List.forall₂_map_left_iff, hlog]
      exact List.forall₂_refl _
    have hcalls := hpair.imp fun b t hb => (h.value t b hb.symm).symm
    rw [← List.forall₂_map_right_iff, ← List.forall₂_map_left_iff, List.forall₂_eq_eq_eq] at hcalls
    exact hcalls

/-- A path from the setters to a service. -/
structure Path (σ ε : Type) where
  service : Service σ ε
  /-- before the first step of either program -/
  start : σ
  /-- all values copied into `m_buffer` -/
  log : σ → List (Buf SBUFLEN)
  /-- the setter's call that an event is -/
  setter : ε → Option InsertCall
  /-- what is asked of the steps for frames to arrive whole -/
  allowed : σ → ε → Prop
  /-- the state can be reached with these calls -/
  Reached : List InsertCall → σ → Prop
  start_inv : service.Inv start
  start_reached : Reached [] start
  start_buffer : (service.com start).m_buffer = Buf.zero SBUFLEN
  log_clear : ∀ s, log (service.clearBuffer s) = log s
  log_step : ∀ {s e t}, service.Inv s → service.step s e = some t →
    log t = log s ++ if service.kind s e = .commit then [(service.com t).m_buffer] else []
  reached_clear : ∀ {calls s}, Reached calls s → Reached calls (service.clearBuffer s)
  reached_step : ∀ {calls s e t}, Reached calls s → allowed s e → service.step s e = some t →
    Reached (calls ++ (setter e).toList) t
  fromCalls : ∀ {calls s}, Reached calls s → FromCalls calls (log s)

/-- A value that the tick has read and handed to the canvas. -/
structure Shown where
  sig : Getter
  value : Int
  /-- the commit it was read from; none if the buffer had been cleared since the last -/
  commit : Option Nat
deriving DecidableEq

/-- The path with the service, the tick and the canvas. -/
structure System (σ : Type) where
  window : Window σ
  dashboard : Dashboard := {}
  /-- the calls of the setters -/
  calls : List InsertCall := []
  /-- the values handed to the canvas -/
  shown : List Shown := []

namespace System

/-- What can happen next: the timer fires, a step of the tick, a step on the path, or
    the event loop runs a handler of the canvas. -/
inductive Ev (ε : Type)
  | timeout
  | tick (wait : Wait) (forks : Bool)
  | path (e : ε)
  | canvas (e : Dashboard.Ev)
deriving DecidableEq

/-- The handlers of the canvas that are none of the tick's. -/
def isHandler : Dashboard.Ev → Bool
  | .blink _ | .started | .failedToStart | .finished _ => true
  | _ => false

variable {σ ε : Type} (P : Path σ ε) (sounds : Sounds)

/-- What a step of the tick is to the dashboard. -/
def tickEv (w : Window σ) (wait : Wait) (forks : Bool) : Option Dashboard.Ev :=
  match w.loc with
  | .idle => none
  | .getStatus => some (.getStatus (P.service.com w.svc).m_status)
  | .setConnected => some .setConnected
  | .get sig => (sig.read (P.service.com w.svc).m_buffer).toOption.map .get
  | .setLightSignals => some (.setLightSignals wait forks)
  | .setDisconnected => some (.setDisconnected wait)
  | .clearBuffer => some .clearBuffer

/-- What a step of the tick adds to the values shown. -/
def reading (w : Window σ) : List Shown :=
  match w.loc with
  | .get sig =>
      match sig.read (P.service.com w.svc).m_buffer with
      | .ok value => [⟨sig, value, if w.cleared then none else some ((P.log w.svc).length - 1)⟩]
      | .error _ => []
  | _ => []

/-- A step of the whole system. -/
def step (s : System σ) : Ev ε → Option (System σ)
  | .timeout =>
      match s.window.step P.service .timeout, s.dashboard.step sounds .timeout with
      | some window, some dashboard => some { s with window, dashboard }
      | _, _ => none
  | .tick wait forks =>
      match s.window.step P.service .tick,
        (tickEv P s.window wait forks).bind (s.dashboard.step sounds) with
      | some window, some dashboard =>
          some { s with window, dashboard, shown := s.shown ++ reading P s.window }
      | _, _ => none
  | .path e =>
      match s.window.step P.service (.worker e) with
      | some window => some { s with window, calls := s.calls ++ (P.setter e).toList }
      | none => none
  | .canvas e =>
      if isHandler e then
        match s.dashboard.step sounds e with
        | some dashboard => some { s with dashboard }
        | none => none
      else none

/-- Both programs before their first step. -/
def start : System σ where
  window := Window.start P.start

/-- Frames arrive whole. -/
def Allowed (s : System σ) : Ev ε → Prop
  | .path e => P.allowed s.window.svc e
  | _ => True

instance [∀ s e, Decidable (P.allowed s e)] (s : System σ) : (e : Ev ε) → Decidable (Allowed P s e)
  | .path e => inferInstanceAs (Decidable (P.allowed s.window.svc e))
  | .timeout | .tick _ _ | .canvas _ => isTrue trivial

/-! ## What the canvas shows -/

/-- The value the canvas shows for a signal. -/
def readout (c : Canvas) : Getter → Int
  | .speed => c.m_speed
  | .temp => c.m_temperature
  | .battery => c.m_batteryLevel
  | .leftLight => c.m_leftLight.toInt
  | .rightLight => c.m_rightLight.toInt

/-- The lights of the tick's static variables. -/
def lights (d : Dashboard) : Getter → Int
  | .leftLight => d.left_light.toInt
  | .rightLight => d.right_light.toInt
  | _ => 0

variable {sounds}

/-- The sound is no part of what is shown. -/
theorem readout_stopSignalSound (c : Canvas) (wait : Wait) (sig : Getter) :
    readout (c.stopSignalSound sounds wait) sig = readout c sig := by
  obtain ⟨_, heq, -⟩ := Canvas.stopSignalSound_eq sounds c wait
  rw [heq]
  cases sig <;> rfl

theorem readout_startSignalSound (c : Canvas) (forks : Bool) (sig : Getter) :
    readout (c.startSignalSound sounds forks) sig = readout c sig := by
  obtain ⟨_, _, heq⟩ := Canvas.startSignalSound_eq sounds c forks
  rw [heq]
  cases sig <;> rfl

/-- `setLightSignals` shows the lights it is given. -/
theorem readout_setLightSignals (c : Canvas) (left right : Bool) (wait : Wait) (forks : Bool)
    (sig : Getter) :
    readout (c.setLightSignals sounds left right wait forks) sig =
      readout { c with m_leftLight := left, m_rightLight := right } sig := by
  unfold Canvas.setLightSignals
  extract_lets c' newSound
  split
  · exact (readout_stopSignalSound _ wait sig).trans (by cases sig <;> rfl)
  · split
    · refine (readout_startSignalSound _ forks sig).trans ?_
      exact Eq.trans (by cases sig <;> rfl) (readout_stopSignalSound c' wait sig)
    · exact readout_startSignalSound c' forks sig

/-- The handlers of the canvas change nothing that is shown. -/
theorem handler_readout {d d' : Dashboard} {e : Dashboard.Ev} (he : isHandler e = true)
    (hs : d.step sounds e = some d') (sig : Getter) :
    readout d'.m_canvas sig = readout d.m_canvas sig ∧ lights d' sig = lights d sig := by
  cases e with
  | blink visible =>
      simp only [Dashboard.step, Option.some.injEq] at hs
      subst hs
      cases sig <;> exact ⟨rfl, rfl⟩
  | started | failedToStart =>
      obtain ⟨-, rfl⟩ := of_guard hs
      cases sig <;> exact ⟨rfl, rfl⟩
  | finished forks =>
      obtain ⟨-, rfl⟩ := of_guard hs
      refine ⟨?_, by cases sig <;> rfl⟩
      simp only [Canvas.finished]
      split
      · exact (readout_startSignalSound _ forks sig).trans (by cases sig <;> rfl)
      · cases sig <;> rfl
  | _ => cases he

/-- What the canvas makes of a value read: a light is on or off. -/
def shownAs (v : Int) : Getter → Int
  | .leftLight | .rightLight => (v != 0).toInt
  | _ => v

/-- Every value on the dashboard is one that `V` admits for its signal. -/
def Backed (V : Getter → Int → Prop) (d : Dashboard) : Prop :=
  ∀ sig, V sig (readout d.m_canvas sig) ∧ V sig (lights d sig)

/-- The dashboard shows zeros, what it has shown before and what the tick has read. -/
theorem Backed.step {V : Getter → Int → Prop} {d d' : Dashboard} {e : Dashboard.Ev}
    (h : Backed V d) (hzero : ∀ sig, V sig 0)
    (hget : ∀ sig v, e = .get v → d.loc = .get sig → V sig (shownAs v sig))
    (hs : d.step sounds e = some d') : Backed V d' := by
  cases e with
  | timeout | getStatus status | clearBuffer | setConnected =>
      obtain ⟨-, rfl⟩ := of_guard hs
      intro sig
      exact ⟨by cases sig <;> exact (h _).1, by cases sig <;> exact (h _).2⟩
  | get v =>
      simp only [Dashboard.step] at hs
      split at hs
      · rename_i sig hl
        simp only [Option.some.injEq] at hs
        subst hs
        have hv := hget sig v rfl hl
        -- the signal read, and the others
        intro sig'
        cases sig <;> cases sig' <;>
          first
          | exact ⟨hv, (h _).2⟩
          | exact ⟨(h _).1, hv⟩
          | exact ⟨(h _).1, (h _).2⟩
      · cases hs
  | setLightSignals wait forks =>
      obtain ⟨-, rfl⟩ := of_guard hs
      intro sig
      refine ⟨?_, by cases sig <;> exact (h _).2⟩
      simp only
      rw [readout_setLightSignals]
      cases sig with
      | leftLight => exact (h .leftLight).2
      | rightLight => exact (h .rightLight).2
      | _ => exact (h _).1
  | setDisconnected wait =>
      obtain ⟨-, rfl⟩ := of_guard hs
      intro sig
      refine ⟨?_, by cases sig <;> exact (h _).2⟩
      have hread : readout (d.m_canvas.setCommunicationStatus sounds false wait) sig = 0 := by
        refine (readout_stopSignalSound _ wait sig).trans ?_
        cases sig <;> rfl
      simp only
      rw [hread]
      exact hzero sig
  | blink _ | started | failedToStart | finished _ =>
      intro sig
      obtain ⟨hread, hlights⟩ := handler_readout rfl hs sig
      rw [hread, hlights]
      exact h sig

/-! ## Invariant -/

/-- A value shown was decoded from the commit it names, or is zero. -/
def Decoded (log : List (Buf SBUFLEN)) (sh : Shown) : Prop :=
  match sh.commit with
  | some i => ∃ b, log[i]? = some b ∧ sh.sig.read b = .ok sh.value
  | none => sh.value = 0

/-- Zero, and what has been shown for the signal. -/
def WasShown (shown : List Shown) (sig : Getter) (v : Int) : Prop :=
  v = 0 ∨ ∃ sh ∈ shown, sh.sig = sig ∧ sh.value = v

/-- What holds in every run whose frames arrive whole. -/
structure Inv (P : Path σ ε) (s : System σ) : Prop where
  svc : P.service.Inv s.window.svc
  reached : P.Reached s.calls s.window.svc
  loc : s.dashboard.loc = s.window.loc
  -- the buffer is cleared, or the latest commit
  cleared : s.window.cleared = true → (P.service.com s.window.svc).m_buffer = Buf.zero SBUFLEN
  latest : s.window.cleared = false →
    (P.log s.window.svc).getLast? = some (P.service.com s.window.svc).m_buffer
  decoded : ∀ sh ∈ s.shown, Decoded (P.log s.window.svc) sh
  sorted : (s.shown.filterMap (·.commit)).Pairwise (· ≤ ·)
  commit_lt : ∀ i ∈ s.shown.filterMap (·.commit), i < (P.log s.window.svc).length
  backed : Backed (WasShown s.shown) s.dashboard

variable {P} {s t : System σ}

/-- What a step of the tick is. -/
theorem step_tick {wait : Wait} {forks : Bool}
    (hs : step P sounds s (.tick wait forks) = some t) :
    ∃ window e dashboard, s.window.stepTick P.service = some window ∧
      tickEv P s.window wait forks = some e ∧ s.dashboard.step sounds e = some dashboard ∧
      t = { s with window, dashboard, shown := s.shown ++ reading P s.window } := by
  simp only [step] at hs
  split at hs
  · rename_i window dashboard hwindow hdashboard
    simp only [Option.some.injEq] at hs
    obtain ⟨e, he, hdashboard⟩ := Option.bind_eq_some_iff.mp hdashboard
    exact ⟨window, e, dashboard, hwindow, he, hdashboard, hs.symm⟩
  · cases hs

/-- What a step on the path is. -/
theorem step_path {e : ε} (hs : step P sounds s (.path e) = some t) :
    ∃ svc, P.service.step s.window.svc e = some svc ∧
      t = { s with
        window := s.window.record P.service svc (P.service.kind s.window.svc e)
        calls := s.calls ++ (P.setter e).toList } := by
  simp only [step] at hs
  split at hs
  · rename_i window hwindow
    simp only [Option.some.injEq] at hs
    obtain ⟨svc, hsvc, rfl⟩ := Window.step_worker hwindow
    exact ⟨svc, hsvc, hs.symm⟩
  · cases hs

/-- The call of a setter that an event is. -/
def setter (P : Path σ ε) : Ev ε → Option InsertCall
  | .path e => P.setter e
  | .timeout | .tick _ _ | .canvas _ => none

/-- Only steps on the path are calls of the setters. -/
theorem step_calls {e : Ev ε} (hs : step P sounds s e = some t) :
    t.calls = s.calls ++ (setter P e).toList := by
  cases e with
  | path e =>
      obtain ⟨svc, -, rfl⟩ := step_path hs
      rfl
  | tick wait forks =>
      obtain ⟨_, _, _, -, -, -, rfl⟩ := step_tick hs
      exact (List.append_nil _).symm
  | timeout =>
      simp only [step] at hs
      split at hs
      · simp only [Option.some.injEq] at hs
        exact hs ▸ (List.append_nil _).symm
      · cases hs
  | canvas e =>
      simp only [step, Option.ite_none_right_eq_some] at hs
      obtain ⟨-, hs⟩ := hs
      split at hs
      · simp only [Option.some.injEq] at hs
        exact hs ▸ (List.append_nil _).symm
      · cases hs

/-- The tick and the dashboard take the same step. -/
theorem tickEv_loc {w window : Window σ} {d dashboard : Dashboard} {wait : Wait} {forks : Bool}
    {e : Dashboard.Ev} (hl : d.loc = w.loc) (hw : w.stepTick P.service = some window)
    (he : tickEv P w wait forks = some e) (hd : d.step sounds e = some dashboard) :
    dashboard.loc = window.loc := by
  cases hloc : w.loc with
  | idle =>
      simp only [Window.stepTick, hloc] at hw
      cases hw
  | getStatus =>
      simp only [tickEv, hloc, Option.some.injEq] at he
      subst he
      obtain ⟨-, rfl⟩ := of_guard hd
      simp only [Window.stepTick, hloc] at hw
      split at hw <;> simp only [Option.some.injEq] at hw <;> subst hw
      · rename_i hstatus
        simp [hstatus]
      · rename_i hstatus
        simp [hstatus]
  | get sig =>
      obtain ⟨v, hv, rfl⟩ := Window.step_get hloc hw
      simp only [tickEv, hloc, hv, Except.toOption, Option.map_some, Option.some.injEq] at he
      subst he
      simp only [Dashboard.step, hl, hloc, Option.some.injEq] at hd
      subst hd
      cases sig <;> rfl
  | setConnected | setLightSignals | setDisconnected | clearBuffer =>
      simp only [tickEv, hloc, Option.some.injEq] at he
      subst he
      obtain ⟨-, rfl⟩ := of_guard hd
      simp only [Window.stepTick, hloc, Option.some.injEq] at hw
      subst hw
      rfl

theorem WasShown.append {shown more : List Shown} {sig : Getter} {v : Int}
    (h : WasShown shown sig v) : WasShown (shown ++ more) sig v := by
  rcases h with h | ⟨sh, hsh, h⟩
  · exact .inl h
  · exact .inr ⟨sh, List.mem_append_left _ hsh, h⟩

/-- A light is read as 0 or 1, which is what the canvas shows. -/
theorem shownAs_read {sig : Getter} {b : Buf SBUFLEN} {v : Int} (h : sig.read b = .ok v) :
    shownAs v sig = v := by
  rw [sig.read_values] at h
  have hv := Except.ok.inj h
  have hbit : ∀ x < 2, ∀ key ∈ [Setting.leftLight, Setting.rightLight],
      ((getterType key).extend (Setting.signalsLayout.length key) x != 0).toInt =
        (getterType key).extend (Setting.signalsLayout.length key) x := by decide
  cases sig with
  | leftLight =>
      rw [← hv]
      exact hbit _ (BitField.field_lt _ _ 1) _ (by simp [Getter.key])
  | rightLight =>
      rw [← hv]
      exact hbit _ (BitField.field_lt _ _ 1) _ (by simp [Getter.key])
  | _ => rfl

/-- The values shown are kept when more is committed. -/
theorem Decoded.append {log more : List (Buf SBUFLEN)} {sh : Shown} (h : Decoded log sh) :
    Decoded (log ++ more) sh := by
  unfold Decoded at h ⊢
  split at h
  · obtain ⟨b, hb, hread⟩ := h
    refine ⟨b, ?_, hread⟩
    rw [List.getElem?_append_left (List.getElem?_eq_some_iff.mp hb).1, hb]
  · exact h

/-- What a getter reads is zero, or decoded from the latest commit. -/
theorem Inv.decoded_reading (h : Inv P s) {sig : Getter} {v : Int}
    (hv : sig.read (P.service.com s.window.svc).m_buffer = .ok v) :
    Decoded (P.log s.window.svc) ⟨sig, v,
      if s.window.cleared then none else some ((P.log s.window.svc).length - 1)⟩ := by
  cases hc : s.window.cleared with
  | true =>
      have hzero : sig.read (Buf.zero SBUFLEN) = .ok 0 := by cases sig <;> decide
      rw [h.cleared hc, hzero] at hv
      exact (Except.ok.inj hv).symm
  | false =>
      refine ⟨_, ?_, hv⟩
      rw [← List.getLast?_eq_getElem?, h.latest hc]

/-- A getter's value goes to the canvas, or to the static variables. -/
theorem Inv.get (h : Inv P s) {sig : Getter} {v : Int} {window : Window σ} {dashboard : Dashboard}
    (hv : sig.read (P.service.com s.window.svc).m_buffer = .ok v)
    (hsvc : window.svc = s.window.svc) (hcleared : window.cleared = s.window.cleared)
    (hloc : dashboard.loc = window.loc) (hl : s.dashboard.loc = .get sig)
    (hd : s.dashboard.step sounds (.get v) = some dashboard) :
    Inv P { s with window, dashboard, shown := s.shown ++ [⟨sig, v,
      if s.window.cleared then none else some ((P.log s.window.svc).length - 1)⟩] } where
  svc := hsvc ▸ h.svc
  reached := hsvc ▸ h.reached
  loc := hloc
  cleared := by
    simp only
    rw [hsvc, hcleared]
    exact h.cleared
  latest := by
    simp only
    rw [hsvc, hcleared]
    exact h.latest
  decoded := by
    simp only
    rw [hsvc]
    intro sh hsh
    rcases List.mem_append.mp hsh with hsh | hsh
    · exact h.decoded sh hsh
    · rw [List.mem_singleton.mp hsh]
      exact h.decoded_reading hv
  sorted := by
    rw [List.filterMap_append, List.pairwise_append]
    refine ⟨h.sorted, by split <;> simp, ?_⟩
    intro i hi j hj
    -- earlier values were read from commits that are there
    have hlt := h.commit_lt i hi
    cases hc : s.window.cleared <;> simp [hc] at hj
    omega
  commit_lt := by
    simp only
    rw [hsvc, List.filterMap_append]
    intro i hi
    rcases List.mem_append.mp hi with hi | hi
    · exact h.commit_lt i hi
    · cases hc : s.window.cleared <;> simp [hc] at hi
      have hpos := List.length_pos_of_mem (List.mem_of_getLast? (h.latest hc))
      omega
  backed := by
    refine Backed.step (fun sig => ⟨(h.backed sig).1.append, (h.backed sig).2.append⟩)
      (fun sig => .inl rfl) ?_ hd
    intro sig' v' he hl'
    cases he
    rw [hl] at hl'
    cases hl'
    rw [shownAs_read hv]
    exact .inr ⟨_, List.mem_append_right _ (List.mem_singleton_self _), rfl, rfl⟩

/-- A step of the tick or of the canvas that reads nothing. -/
theorem Inv.keep (h : Inv P s) {window : Window σ} {e : Dashboard.Ev} {dashboard : Dashboard}
    (hsvc : window.svc = s.window.svc) (hcleared : window.cleared = s.window.cleared)
    (hloc : dashboard.loc = window.loc) (hd : s.dashboard.step sounds e = some dashboard)
    (he : ∀ v, e ≠ .get v) : Inv P { s with window, dashboard } where
  svc := hsvc ▸ h.svc
  reached := hsvc ▸ h.reached
  loc := hloc
  cleared := by
    simp only
    rw [hsvc, hcleared]
    exact h.cleared
  latest := by
    simp only
    rw [hsvc, hcleared]
    exact h.latest
  decoded := by
    simp only
    rw [hsvc]
    exact h.decoded
  sorted := h.sorted
  commit_lt := by
    simp only
    rw [hsvc]
    exact h.commit_lt
  backed := h.backed.step (fun _ => .inl rfl) (fun _ v hv => absurd hv (he v)) hd

/-- `clearBuffer()` leaves the commits alone. -/
theorem Inv.clear (h : Inv P s) {window : Window σ} {e : Dashboard.Ev} {dashboard : Dashboard}
    (hsvc : window.svc = P.service.clearBuffer s.window.svc) (hcleared : window.cleared = true)
    (hloc : dashboard.loc = window.loc) (hd : s.dashboard.step sounds e = some dashboard)
    (he : ∀ v, e ≠ .get v) : Inv P { s with window, dashboard } where
  svc := hsvc ▸ P.service.inv_clear h.svc
  reached := hsvc ▸ P.reached_clear h.reached
  loc := hloc
  cleared := by
    intro _
    simp only
    rw [hsvc, P.service.com_clear]
    rfl
  latest := by
    simp only
    rw [hcleared]
    intro hnot
    cases hnot
  decoded := by
    simp only
    rw [hsvc, P.log_clear]
    exact h.decoded
  sorted := h.sorted
  commit_lt := by
    simp only
    rw [hsvc, P.log_clear]
    exact h.commit_lt
  backed := h.backed.step (fun _ => .inl rfl) (fun _ v hv => absurd hv (he v)) hd

/-- A step of the tick. -/
theorem Inv.tick (h : Inv P s) {window : Window σ} {e : Dashboard.Ev} {dashboard : Dashboard}
    {wait : Wait} {forks : Bool} (hw : s.window.stepTick P.service = some window)
    (he : tickEv P s.window wait forks = some e)
    (hd : s.dashboard.step sounds e = some dashboard) :
    Inv P { s with window, dashboard, shown := s.shown ++ reading P s.window } := by
  have hloc : dashboard.loc = window.loc := tickEv_loc h.loc hw he hd
  have hnone : (∀ sig, s.window.loc ≠ .get sig) →
      s.shown ++ reading P s.window = s.shown ∧ ∀ v, e ≠ .get v := by
    intro hne
    cases hl : s.window.loc <;> simp only [tickEv, hl, Option.some.injEq] at he
    case idle => cases he
    case get sig => exact absurd hl (hne sig)
    all_goals
      subst he
      exact ⟨by simp [reading, hl], by simp⟩
  cases hl : s.window.loc with
  | get sig =>
      obtain ⟨v, hv, rfl⟩ := Window.step_get hl hw
      simp only [tickEv, hl, hv, Except.toOption, Option.map_some, Option.some.injEq] at he
      subst he
      have hread : reading P s.window = [⟨sig, v,
          if s.window.cleared then none else some ((P.log s.window.svc).length - 1)⟩] := by
        simp only [reading, hl, hv]
      rw [hread]
      exact h.get hv rfl rfl hloc (h.loc.trans hl) hd
  | clearBuffer =>
      obtain ⟨hshown, he'⟩ := hnone (by simp [hl])
      simp only [Window.stepTick, hl, Option.some.injEq] at hw
      subst hw
      rw [hshown]
      exact h.clear rfl rfl hloc hd he'
  | _ =>
      obtain ⟨hshown, he'⟩ := hnone (by simp [hl])
      obtain ⟨hsvc, hcleared⟩ := Window.stepTick_svc (by simp [hl]) hw
      rw [hshown]
      exact h.keep hsvc hcleared hloc hd he'

/-- A step on the path that is allowed. -/
theorem Inv.path (h : Inv P s) {e : ε} (hallow : P.allowed s.window.svc e) {svc : σ}
    (hsvc : P.service.step s.window.svc e = some svc) :
    Inv P { s with
      window := s.window.record P.service svc (P.service.kind s.window.svc e)
      calls := s.calls ++ (P.setter e).toList } := by
  have hlog := P.log_step h.svc hsvc
  have hinv := P.service.inv_step h.svc hsvc
  have hreached := P.reached_step h.reached hallow hsvc
  have hdecoded : ∀ sh ∈ s.shown, Decoded (P.log svc) sh := by
    intro sh hsh
    rw [hlog]
    exact (h.decoded sh hsh).append
  have hlt : ∀ i ∈ s.shown.filterMap (·.commit), i < (P.log svc).length := by
    intro i hi
    rw [hlog, List.length_append]
    exact Nat.lt_add_right _ (h.commit_lt i hi)
  cases hk : P.service.kind s.window.svc e with
  | commit =>
      rw [hk, if_pos rfl] at hlog
      refine ⟨hinv, hreached, h.loc, fun hnot => (by cases hnot), fun _ => ?_, hdecoded, h.sorted,
        hlt, h.backed⟩
      simp only [Window.record]
      rw [hlog, List.getLast?_append]
      rfl
  | drop | other =>
      rw [hk, if_neg (by decide), List.append_nil] at hlog
      have hbuf := (P.service.step_m_buffer h.svc hsvc (by simp [hk])).1
      refine ⟨hinv, hreached, h.loc, ?_, ?_, hdecoded, h.sorted, hlt, h.backed⟩
      · simp only [Window.record]
        rw [hbuf]
        exact h.cleared
      · simp only [Window.record]
        rw [hbuf, hlog]
        exact h.latest

theorem start_inv (P : Path σ ε) : Inv P (start P) where
  svc := P.start_inv
  reached := P.start_reached
  loc := rfl
  cleared := fun _ => P.start_buffer
  latest := nofun
  decoded := nofun
  sorted := List.Pairwise.nil
  commit_lt := nofun
  backed := by
    intro sig
    cases sig <;> exact ⟨.inl rfl, .inl rfl⟩

/-- A handler of the canvas is no step of the tick. -/
theorem handler_loc {d d' : Dashboard} {e : Dashboard.Ev} (he : isHandler e = true)
    (hs : d.step sounds e = some d') : d'.loc = d.loc ∧ ∀ v, e ≠ .get v := by
  cases e with
  | blink visible =>
      simp only [Dashboard.step, Option.some.injEq] at hs
      exact ⟨hs ▸ rfl, fun _ hget => by cases hget⟩
  | started | failedToStart | finished forks =>
      obtain ⟨-, rfl⟩ := of_guard hs
      exact ⟨rfl, fun _ hget => by cases hget⟩
  | _ => cases he

/-- Every step keeps the invariant, given that frames arrive whole. -/
theorem Inv.step (h : Inv P s) {e : Ev ε} (hallow : Allowed P s e)
    (hs : System.step P sounds s e = some t) : Inv P t := by
  cases e with
  | timeout =>
      simp only [System.step] at hs
      split at hs
      · rename_i window dashboard hwindow hdashboard
        simp only [Option.some.injEq] at hs
        subst hs
        have hd := hdashboard
        obtain ⟨-, rfl⟩ := of_guard hwindow
        obtain ⟨-, rfl⟩ := of_guard hdashboard
        exact h.keep rfl rfl rfl hd fun _ hget => by cases hget
      · cases hs
  | tick wait forks =>
      obtain ⟨window, e, dashboard, hw, he, hd, rfl⟩ := step_tick hs
      exact h.tick hw he hd
  | path e =>
      obtain ⟨svc, hsvc, rfl⟩ := step_path hs
      exact h.path hallow hsvc
  | canvas e =>
      simp only [System.step, Option.ite_none_right_eq_some] at hs
      obtain ⟨he, hs⟩ := hs
      split at hs
      · rename_i dashboard hd
        simp only [Option.some.injEq] at hs
        subst hs
        obtain ⟨hloc, hget⟩ := handler_loc he hd
        exact h.keep rfl rfl (hloc.trans h.loc) hd hget
      · cases hs

/-! ## From the setters to the canvas -/

/-- A value shown is what the setters had set after so many of their calls, or that of a
    cleared buffer. -/
def ShownAfter (calls : List InsertCall) (sh : Shown) : Option Nat → Prop
  | some t => t ≤ calls.length ∧ sh.value = lastSet (calls.take t) sh.sig
  | none => sh.value = 0

/-- The values shown, each after so many calls of the setters.  The numbers never go
    back. -/
def Displayed (calls : List InsertCall) (shown : List Shown) : Prop :=
  ∃ dated : List (Shown × Option Nat), dated.map Prod.fst = shown ∧
    (dated.filterMap Prod.snd).Pairwise (· ≤ ·) ∧ ∀ d ∈ dated, ShownAfter calls d.1 d.2

/-- A commit that comes from calls decodes to what they have set. -/
theorem decoded_calls {calls : List InsertCall} {log : List (Buf SBUFLEN)} {ts : List Nat}
    (hlog : log.map Except.ok = ts.map fun t => runCalls (calls.take t)) {i : Nat}
    {b : Buf SBUFLEN} (hb : log[i]? = some b) {sig : Getter} {v : Int}
    (hv : sig.read b = .ok v) : ∃ t, ts[i]? = some t ∧ v = lastSet (calls.take t) sig := by
  have hi : (log.map (Except.ok (ε := Fault)))[i]? = some (.ok b) := by
    rw [List.getElem?_map, hb]
    rfl
  rw [hlog, List.getElem?_map, Option.map_eq_some_iff] at hi
  obtain ⟨t, ht, hrun⟩ := hi
  obtain ⟨m_buf, hok, hread⟩ := read_runCalls (calls.take t)
  rw [hok] at hrun
  cases hrun
  rw [hread] at hv
  exact ⟨t, ht, (Except.ok.inj hv).symm⟩

/-- In a sorted list later places hold no smaller numbers. -/
theorem le_of_sorted {ts : List Nat} (h : ts.Pairwise (· ≤ ·)) {i j a b : Nat} (hij : i ≤ j)
    (ha : ts[i]? = some a) (hb : ts[j]? = some b) : a ≤ b := by
  obtain ⟨hi, rfl⟩ := List.getElem?_eq_some_iff.mp ha
  obtain ⟨hj, rfl⟩ := List.getElem?_eq_some_iff.mp hb
  rcases Nat.lt_or_eq_of_le hij with hlt | rfl
  · exact List.pairwise_iff_getElem.mp h i j hi hj hlt
  · exact Nat.le_refl _

theorem Inv.displayed (h : Inv P s) : Displayed s.calls s.shown := by
  obtain ⟨ts, hsorted, hle, hlog⟩ := P.fromCalls h.reached
  refine ⟨s.shown.map fun sh => (sh, sh.commit.bind (ts[·]?)), ?_, ?_, ?_⟩
  · rw [List.map_map]
    exact List.map_id _
  · -- the commits read from never go back, and neither do their calls
    have hcomp : (s.shown.map fun sh => (sh, sh.commit.bind (ts[·]?))).filterMap Prod.snd =
        (s.shown.filterMap (·.commit)).filterMap (ts[·]?) := by
      rw [List.filterMap_map, List.filterMap_filterMap]
      rfl
    rw [hcomp, List.pairwise_filterMap]
    exact h.sorted.imp fun hij a ha b hb => le_of_sorted hsorted hij ha hb
  · intro d hd
    obtain ⟨sh, hsh, rfl⟩ := List.mem_map.mp hd
    have hdecoded := h.decoded sh hsh
    unfold Decoded at hdecoded
    cases hc : sh.commit with
    | none =>
        rw [hc] at hdecoded
        exact hdecoded
    | some i =>
        rw [hc] at hdecoded
        obtain ⟨b, hb, hv⟩ := hdecoded
        obtain ⟨t, ht, heq⟩ := decoded_calls hlog hb hv
        rw [Option.bind_some, ht]
        exact ⟨hle t (List.mem_of_getElem? ht), heq⟩

/-- Each value on the dashboard is what the setters had set after some of their calls. -/
theorem Inv.readout (h : Inv P s) (sig : Getter) :
    ∃ t ≤ s.calls.length, readout s.dashboard.m_canvas sig = lastSet (s.calls.take t) sig := by
  obtain ⟨ts, hsorted, hle, hlog⟩ := P.fromCalls h.reached
  have hzero : ∀ v : Int, v = 0 → ∃ t ≤ s.calls.length, v = lastSet (s.calls.take t) sig :=
    fun v hv => ⟨0, Nat.zero_le _, hv⟩
  rcases (h.backed sig).1 with hv | ⟨sh, hsh, hsig, hv⟩
  · exact hzero _ hv
  · have hdecoded := h.decoded sh hsh
    unfold Decoded at hdecoded
    rw [hsig, hv] at hdecoded
    split at hdecoded
    · obtain ⟨b, hb, hread⟩ := hdecoded
      obtain ⟨t, ht, heq⟩ := decoded_calls hlog hb hread
      exact ⟨t, hle t (List.mem_of_getElem? ht), heq⟩
    · exact hzero _ hdecoded

/-- What holds of the whole system at the end of a run. -/
theorem inv_of_run {es : List (Ev ε)} (h : Run (step P sounds) (Allowed P) (start P) es s) :
    Inv P s :=
  h.invariant (start_inv P) fun _ _ _ hi hallow hs => hi.step hallow hs

/-- The timer fires, and a tick of a connection that is up. -/
def tickRun : List (Ev ε) := .timeout :: List.replicate 8 (.tick .failedToStart true)

end System
end Speedometer
