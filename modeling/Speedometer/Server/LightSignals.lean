/-
  Speedometer.Server.LightSignals

  What the worker's snapshots hold of the two lights while the GUI thread runs
  the setters.

  `setLightSignals` takes the lock once for each light, so a snapshot can fall
  between the two.  `snapshot_lights` says what it holds then, and that it holds
  the pair of the latest call otherwise.
-/

import Speedometer.Codec
import Speedometer.Lib.Run
import Speedometer.Server.TcpService
import Speedometer.Server.UartService

namespace Speedometer.Server

open Cpp Setting Transition

/-! ## Services -/

/-- A service whose worker sends copies of the buffer the setters write. -/
structure Service (σ ε : Type) where
  step : σ → ε → Option σ
  com : σ → ComService
  setBuf : σ → Buf SBUFLEN → σ
  temp_buf : σ → Buf SBUFLEN
  /-- the step copies `m_buf` to `temp_buf` -/
  Copies : σ → ε → Prop
  com_setBuf : ∀ s m_buf, (com (setBuf s m_buf)).m_buf = m_buf
  step_m_buf : ∀ {s e t}, step s e = some t → (com t).m_buf = (com s).m_buf
  step_copies : ∀ {s e t}, step s e = some t → Copies s e → temp_buf t = (com s).m_buf

/-- The TCP service. -/
def tcpService : Service TcpService.State TcpService.Ev where
  step := TcpService.step
  com := TcpService.State.toComService
  setBuf := fun s m_buf => { s with m_buf }
  temp_buf := TcpService.State.temp_buf
  Copies := fun s e => e = .tau ∧ s.loc = .snapshot
  com_setBuf := fun _ _ => rfl
  step_m_buf := fun hs => (TcpService.step_effect hs).m_buf
  step_copies := fun hs hc => (TcpService.step_effect hs).temp_buf.trans (if_pos hc)

/-- The UART service. -/
def uartService : Service UartService.State UartService.Ev where
  step := UartService.step
  com := UartService.State.toComService
  setBuf := fun s m_buf => { s with m_buf }
  temp_buf := UartService.State.temp_buf
  Copies := fun s e => e = .tau ∧ s.loc = .snapshot
  com_setBuf := fun _ _ => rfl
  step_m_buf := fun hs => (UartService.step_effect hs).m_buf
  step_copies := fun hs hc => (UartService.step_effect hs).temp_buf.trans (if_pos hc)

/-! ## The GUI thread and the worker -/

/-- A service and the GUI thread that calls its setters. -/
structure Gui (σ : Type) where
  svc : σ
  /-- the pairs `setLightSignals` has been called with, the latest one first, and
      last the pair of the initial buffer -/
  pairs : List (Bool × Bool)
  /-- the argument `right` of a call that has only inserted `left` so far -/
  half : Option Bool := none

namespace Gui

/-- What can happen next. -/
inductive Ev (ε : Type)
  | setSpeed (speed_kph : BitVec 8)
  | setTemp (temp_c : BitVec 8)
  | setBattery (bat_prc : BitVec 8)
  /-- the call, up to its first `insert_helper` -/
  | setLightSignals (left right : Bool)
  /-- its second `insert_helper` -/
  | insertRight
  | worker (e : ε)

variable {σ ε : Type} (S : Service σ ε)

/-- One `insert_helper` on the service's buffer. -/
def insert (s : Gui σ) (call : InsertCall) : Option (Gui σ) :=
  match call.run (S.com s.svc).m_buf with
  | .ok m_buf => some { s with svc := S.setBuf s.svc m_buf }
  | .error _ => none

/-- A step of either thread.  The GUI thread is busy with one setter at a time. -/
def step (s : Gui σ) : Ev ε → Option (Gui σ)
  | .setSpeed speed_kph => if s.half = none then s.insert S (.speed speed_kph) else none
  | .setTemp temp_c => if s.half = none then s.insert S (.temp temp_c) else none
  | .setBattery bat_prc => if s.half = none then s.insert S (.battery bat_prc) else none
  | .setLightSignals left right =>
      if s.half = none then
        { s with pairs := (left, right) :: s.pairs, half := some right }.insert S (.leftLight left)
      else none
  | .insertRight =>
      match s.half with
      | some right => { s with half := none }.insert S (.rightLight right)
      | none => none
  | .worker e =>
      match S.step s.svc e with
      | some svc => some { s with svc }
      | none => none

/-- The two light bits of a buffer. -/
def lights (m_buf : Buf SBUFLEN) : Bool × Bool :=
  (values signalsLayout m_buf leftLight == 1, values signalsLayout m_buf rightLight == 1)

/-- Before the first setter runs. -/
def start (svc : σ) : Gui σ where
  svc
  pairs := [lights (S.com svc).m_buf]

/-- `insert_helper` sets its own light and keeps the other. -/
theorem lights_insertCall {m_buf m_buf' : Buf SBUFLEN} {call : InsertCall}
    (h : call.run m_buf = .ok m_buf') :
    lights m_buf' =
      match call with
      | .leftLight left => (left, (lights m_buf).2)
      | .rightLight right => ((lights m_buf).1, right)
      | _ => lights m_buf := by
  obtain ⟨m_buf₁, hrun, hval⟩ := values_insertCall m_buf call
  rw [h, Except.ok.injEq] at hrun
  subst hrun
  have hlight : ∀ sig, signalsLayout.length sig = 1 → ∀ b,
      (boolToInt b).toNat % 2 ^ signalsLayout.length sig = if b then 1 else 0 := by
    intro sig hsig b
    rw [hsig]
    cases b <;> rfl
  cases call with
  | leftLight left =>
      have hne : rightLight ≠ leftLight := by decide
      simp only [lights, hval, InsertCall.sig, InsertCall.val, Function.update_self,
        Function.update_of_ne hne, hlight leftLight rfl]
      cases left <;> rfl
  | rightLight right =>
      have hne : leftLight ≠ rightLight := by decide
      simp only [lights, hval, InsertCall.sig, InsertCall.val, Function.update_self,
        Function.update_of_ne hne, hlight rightLight rfl]
      cases right <;> rfl
  | speed v | temp v | battery v =>
      simp only [lights, hval, InsertCall.sig]
      rw [Function.update_of_ne (by decide), Function.update_of_ne (by decide)]

/-- What the light bits of `m_buf` are: the latest pair, or its left half with the
    right half of the pair before it while `setLightSignals` is between its two calls. -/
inductive Explains (s : Gui σ) : Bool × Bool → Prop
  | idle {pair : Bool × Bool} {rest : List (Bool × Bool)} :
      s.half = none → s.pairs = pair :: rest → Explains s pair
  | between {pair before : Bool × Bool} {rest : List (Bool × Bool)} :
      s.half = some pair.2 → s.pairs = pair :: before :: rest → Explains s (pair.1, before.2)

variable {S} {s t : Gui σ}

/-- What one `insert_helper` does to the state. -/
theorem insert_eq {call : InsertCall} (hs : s.insert S call = some t) :
    t.pairs = s.pairs ∧ t.half = s.half ∧
      call.run (S.com s.svc).m_buf = .ok (S.com t.svc).m_buf := by
  simp only [insert] at hs
  split at hs
  · rename_i m_buf hrun
    simp only [Option.some.injEq] at hs
    subst hs
    exact ⟨rfl, rfl, by rw [hrun, S.com_setBuf]⟩
  · cases hs

/-- The explanation does not depend on the service. -/
theorem Explains.congr {shown : Bool × Bool} (h : s.Explains shown) (hpairs : t.pairs = s.pairs)
    (hhalf : t.half = s.half) : t.Explains shown := by
  cases h with
  | idle hidle hp => exact .idle (hhalf.trans hidle) (hpairs.trans hp)
  | between hbusy hp => exact .between (hhalf.trans hbusy) (hpairs.trans hp)

/-- The setters other than `setLightSignals` leave the lights alone. -/
theorem Explains.other (h : s.Explains (lights (S.com s.svc).m_buf)) {call : InsertCall}
    (hcall : call.sig ≠ leftLight ∧ call.sig ≠ rightLight) (hs : s.insert S call = some t) :
    t.Explains (lights (S.com t.svc).m_buf) := by
  obtain ⟨hpairs, hhalf, hrun⟩ := insert_eq hs
  have hlights := lights_insertCall hrun
  cases call with
  | leftLight left => exact absurd rfl hcall.1
  | rightLight right => exact absurd rfl hcall.2
  | _ => exact hlights ▸ h.congr hpairs hhalf

/-- Every step keeps the lights explained. -/
theorem Explains.step (h : s.Explains (lights (S.com s.svc).m_buf)) {e : Ev ε}
    (hs : step S s e = some t) : t.Explains (lights (S.com t.svc).m_buf) := by
  cases e with
  | setSpeed v | setTemp v | setBattery v =>
      simp only [Gui.step, Option.ite_none_right_eq_some] at hs
      exact h.other (by simp only [InsertCall.sig]; decide) hs.2
  | setLightSignals left right =>
      simp only [Gui.step, Option.ite_none_right_eq_some] at hs
      obtain ⟨hidle, hs⟩ := hs
      obtain ⟨hpairs, hhalf, hrun⟩ := insert_eq hs
      have hlights : lights (S.com t.svc).m_buf = (left, (lights (S.com s.svc).m_buf).2) :=
        lights_insertCall hrun
      rw [hlights]
      generalize lights (S.com s.svc).m_buf = shown at h
      cases h with
      | idle _ hp =>
          -- the right light is still that of the pair before
          rw [hp] at hpairs
          exact .between hhalf hpairs
      | between hbusy _ =>
          rw [hidle] at hbusy
          cases hbusy
  | insertRight =>
      simp only [Gui.step] at hs
      split at hs
      · rename_i right hbusy
        obtain ⟨hpairs, hhalf, hrun⟩ := insert_eq hs
        have hlights : lights (S.com t.svc).m_buf = ((lights (S.com s.svc).m_buf).1, right) :=
          lights_insertCall hrun
        rw [hlights]
        generalize lights (S.com s.svc).m_buf = shown at h
        cases h with
        | idle hidle _ =>
            rw [hbusy] at hidle
            cases hidle
        | between hright hp =>
            rw [hbusy, Option.some.injEq] at hright
            subst hright
            exact .idle hhalf (hpairs.trans hp)
      · cases hs
  | worker e =>
      simp only [Gui.step] at hs
      split at hs
      · rename_i svc hsvc
        simp only [Option.some.injEq] at hs
        subst hs
        rw [S.step_m_buf hsvc]
        exact h.congr rfl rfl
      · cases hs

/-! ## Snapshots -/

/-- A snapshot of any service is explained by the calls so far. -/
theorem copy_explained {svc : σ} {es : List (Ev ε)} (h : Run (Gui.step S) Always (start S svc) es s)
    {e : ε} {svc' : σ} (hs : S.step s.svc e = some svc') (hc : S.Copies s.svc e) :
    s.Explains (lights (S.temp_buf svc')) := by
  rw [S.step_copies hs hc]
  exact h.invariant (I := fun s => s.Explains (lights (S.com s.svc).m_buf)) (.idle rfl rfl)
    fun _ _ _ hi _ hs => hi.step hs

/-- Every snapshot the TCP or the UART worker takes holds the light pair of the latest
    call of `setLightSignals` (of the initial buffer before the first call), or, only
    when it is taken between that call's two critical sections, the call's left light
    and the right light of the pair before it. -/
theorem snapshot_lights :
    (∀ svc es s svc', Run (Gui.step tcpService) Always (start tcpService svc) es s →
      s.svc.loc = .snapshot → TcpService.step s.svc .tau = some svc' →
      s.Explains (lights svc'.temp_buf)) ∧
    (∀ svc es s svc', Run (Gui.step uartService) Always (start uartService svc) es s →
      s.svc.loc = .snapshot → UartService.step s.svc .tau = some svc' →
      s.Explains (lights svc'.temp_buf)) :=
  ⟨fun _ _ _ _ h hl hs => copy_explained (S := tcpService) (e := .tau) h hs ⟨rfl, hl⟩,
    fun _ _ _ _ h hl hs => copy_explained (S := uartService) (e := .tau) h hs ⟨rfl, hl⟩⟩

/-- Both lights are switched on while the worker is about to take a snapshot. -/
def warningRun : List (Ev TcpService.Ev) :=
  [.worker (.listen 0), .worker .tau, .worker (.accept 7), .worker .tau, .worker .tau,
   .worker .tau, .setLightSignals true true]

theorem snapshot_lights_warning :
    ∃ s svc', Run (Gui.step tcpService) Always (start tcpService {}) warningRun s ∧
      TcpService.step s.svc .tau = some svc' ∧ s.Explains (lights svc'.temp_buf) := by
  obtain ⟨s, hrun, hl, hsome⟩ : ∃ s, Run (Gui.step tcpService) Always (start tcpService {})
      warningRun s ∧ s.svc.loc = .snapshot ∧ (TcpService.step s.svc .tau).isSome :=
    Run.exists_of_exec (by decide)
  obtain ⟨svc', hsvc⟩ := Option.isSome_iff_exists.mp hsome
  exact ⟨s, svc', hrun, hsvc, snapshot_lights.1 _ _ _ _ hrun hl hsvc⟩

/-- The snapshot shows the left light alone, which no call asked for. -/
theorem snapshot_between_lights :
    ∃ es s svc', Run (Gui.step tcpService) Always (start tcpService {}) es s ∧
      s.svc.loc = .snapshot ∧ TcpService.step s.svc .tau = some svc' ∧
      lights svc'.temp_buf ∉ s.pairs := by
  obtain ⟨s, hrun, hl, svc', hsvc, hnot⟩ : ∃ s, Run (Gui.step tcpService) Always
      (start tcpService {}) warningRun s ∧ s.svc.loc = .snapshot ∧
      ∃ svc' ∈ TcpService.step s.svc .tau, lights svc'.temp_buf ∉ s.pairs :=
    Run.exists_of_exec (by decide)
  exact ⟨_, s, svc', hrun, hl, hsvc, hnot⟩

end Gui
end Speedometer.Server
