/-
  Speedometer.Programs

  The user at the server's window, the setters its handlers call, a path to the client
  and the client's dashboard.

  `dashboard_shows_window`: whatever the dashboard shows of a signal, the server's widgets
  have shown, in the same order and within the signal's range; or it is the 0 of a signal
  not set yet, or of a connection given up.
-/

import Speedometer.Dashboards
import Speedometer.Server.Session

namespace Speedometer

open Cpp Setting Transition Client
open Server (Session)

/-- The user's session at the server's window, and the system its handlers call into. -/
structure Programs (σ : Type) where
  session : Session
  system : System σ

namespace Programs

/-- What can happen next. -/
inductive Ev (ε : Type)
  | act (a : Server.Window.Action)
  | system (e : System.Ev ε)
deriving DecidableEq

variable {σ ε : Type} (P : Path σ ε) (sounds : Sounds)

/-- A step.  The handlers of an action make their calls one after the other, and return
    before the next action. -/
def step (s : Programs σ) : Ev ε → Option (Programs σ)
  | .act a =>
      if s.system.calls = s.session.calls then
        match s.session.step a with
        | some session => some { s with session }
        | none => none
      else none
  | .system e =>
      if s.system.calls ++ (System.setter P e).toList <+: s.session.calls then
        match s.system.step P sounds e with
        | some system => some { s with system }
        | none => none
      else none

/-- After the constructor of the window, before its calls. -/
def start (w₀ : Server.Window) : Programs σ where
  session := Session.start w₀
  system := System.start P

/-- Frames arrive whole. -/
def Allowed (s : Programs σ) : Ev ε → Prop
  | .act _ => True
  | .system e => System.Allowed P s.system e

instance [∀ s e, Decidable (P.allowed s e)] (s : Programs σ) :
    (e : Ev ε) → Decidable (Allowed P s e)
  | .act _ => isTrue trivial
  | .system e => inferInstanceAs (Decidable (System.Allowed P s.system e))

/-- What holds in every run whose frames arrive whole. -/
structure Inv (s : Programs σ) : Prop where
  session : s.session.Inv
  system : s.system.Inv P
  calls : s.system.calls <+: s.session.calls

variable {P} {sounds} {s t : Programs σ}

theorem Inv.step (h : Inv P s) {e : Ev ε} (hallow : Allowed P s e)
    (hs : Programs.step P sounds s e = some t) : Inv P t := by
  cases e with
  | act a =>
      simp only [Programs.step, Option.ite_none_right_eq_some] at hs
      obtain ⟨-, hs⟩ := hs
      split at hs
      · rename_i session hsession
        simp only [Option.some.injEq] at hs
        subst hs
        refine ⟨h.session.step hsession, h.system, h.calls.trans ?_⟩
        exact Session.step_calls hsession
      · cases hs
  | system e =>
      simp only [Programs.step, Option.ite_none_right_eq_some] at hs
      obtain ⟨hnext, hs⟩ := hs
      split at hs
      · rename_i system hsystem
        simp only [Option.some.injEq] at hs
        subst hs
        refine ⟨h.session, h.system.step hallow hsystem, ?_⟩
        rw [System.step_calls hsystem]
        exact hnext
      · cases hs

theorem inv_of_run {w₀ : Server.Window} (hnew : Server.Window.new {} = .ok w₀) {es : List (Ev ε)}
    (h : Run (Programs.step P sounds) (Allowed P) (start P w₀) es s) : Inv P s :=
  h.invariant ⟨Session.start_inv hnew, System.start_inv P, List.nil_prefix⟩
    fun _ _ _ hi hallow hs => hi.step hallow hs

/-! ## From the widgets to the dashboard -/

/-- A value shown of a signal is what the widgets have shown of it in one of the windows,
    or 0. -/
def ShownIn (windows : List Server.Window) (sh : Shown) : Option Nat → Prop
  | some j => ∃ w, windows[j]? = some w ∧ sh.value = w.shows sh.sig
  | none => sh.value = 0

/-- What is shown of a signal follows what the widgets show, which may be passed over but
    is never gone back to. -/
def Follows (windows : List Server.Window) (shown : List Shown) (sig : Getter) : Prop :=
  ∃ dated : List (Shown × Option Nat), dated.map Prod.fst = shown.filter (·.sig = sig) ∧
    (dated.filterMap Prod.snd).Pairwise (· ≤ ·) ∧ ∀ d ∈ dated, ShownIn windows d.1 d.2

/-- The window after so many calls, as far as a signal is concerned. -/
theorem Inv.lastMade_shows (h : Inv P s) {n : Nat} (hn : n ≤ s.system.calls.length)
    (sig : Getter) :
    match Session.lastMade (s.session.made.take n) sig with
    | some j => ∃ w, s.session.windows[j]? = some w ∧
        lastSet (s.system.calls.take n) sig = w.shows sig
    | none => lastSet (s.system.calls.take n) sig = 0 := by
  have htake : s.system.calls.take n = s.session.calls.take n := by
    obtain ⟨rest, hrest⟩ := h.calls
    rw [← hrest, List.take_append_of_le_length hn]
  rw [htake]
  exact h.session.lastMade_shows n sig

/-- What the dashboard shows of a signal is 0 or what the widgets have shown. -/
theorem Inv.readout (h : Inv P s) (sig : Getter) :
    System.readout s.system.dashboard.m_canvas sig = 0 ∨
      ∃ w ∈ s.session.windows, System.readout s.system.dashboard.m_canvas sig = w.shows sig := by
  obtain ⟨n, hn, hread⟩ := h.system.readout sig
  have hlast := h.lastMade_shows hn sig
  rw [hread]
  cases hj : Session.lastMade (s.session.made.take n) sig with
  | none =>
      rw [hj] at hlast
      exact .inl hlast
  | some j =>
      rw [hj] at hlast
      obtain ⟨w, hw, heq⟩ := hlast
      exact .inr ⟨w, List.mem_of_getElem? hw, heq⟩

/-- The constructor's calls, and a speed is set. -/
def newRun : List (Ev EndToEnd.Ev) :=
  (Server.Window.newCalls.map fun call => .system (.path (.insert call))) ++
    [.act (.slide .sld_speed 7), .system (.path (.insert (.speed 7)))]

/-- The frame is sent, received and copied. -/
def frameRun : List EndToEnd.Ev :=
  EndToEnd.connectRun ++
    [.server .tau, .server (.send 3), .client (.worker (.read (.data [7, 0x44, 0]))),
     .client (.worker .tau), .client (.worker .tau), .client (.worker .tau)]

/-- And the timer fires. -/
def speedRun : List (Ev EndToEnd.Ev) :=
  newRun ++ frameRun.map (fun e => .system (.path e)) ++ System.tickRun.map .system

end Programs
end Speedometer
