/-
  Speedometer.Client.Window

  The timer tick of the desktop client's `Window` against the worker of its
  communication service.

  The tick reads `m_status` once and then either takes the lock once for each
  signal or clears the buffer, in steps the worker's can fall between.  `Service`
  is what the tick relies on of a service; `Inv` is what holds in every run over
  one.
-/

import Mathlib.Logic.Function.Basic
import Speedometer.Client.ComService
import Speedometer.Lib.Run

namespace Speedometer.Client

open Cpp Transition

/-! ## Services -/

/-- What a step of a worker does to the frames it publishes. -/
inductive Kind
  /-- it copies a frame into `m_buffer` -/
  | commit
  /-- it gives the connection up: `m_status = false` -/
  | drop
  | other
deriving DecidableEq, Repr

/-- A step is a copy only by its own condition, and gives up only by its own. -/
theorem Kind.of_commit {p q : Prop} [Decidable p] [Decidable q]
    (h : (if p then Kind.commit else if q then .drop else .other) = .commit) : p := by
  split at h
  · assumption
  · split at h <;> cases h

theorem Kind.of_drop {p q : Prop} [Decidable p] [Decidable q]
    (h : (if p then Kind.commit else if q then .drop else .other) = .drop) : q := by
  split at h
  · cases h
  · split at h
    · assumption
    · cases h

/-- A service whose worker publishes frames in `m_buffer`. -/
structure Service (σ ε : Type) where
  step : σ → ε → Option σ
  com : σ → ComService
  /-- `clearBuffer()`, called from another thread -/
  clearBuffer : σ → σ
  kind : σ → ε → Kind
  /-- the frames copied since the port or socket was last opened -/
  frames : σ → List (Buf SBUFLEN)
  /-- the worker has copied a frame and is about to set `m_status` -/
  raising : σ → Bool
  Inv : σ → Prop
  com_clear : ∀ s, com (clearBuffer s) = (com s).clearBuffer
  frames_clear : ∀ s, frames (clearBuffer s) = frames s
  raising_clear : ∀ s, raising (clearBuffer s) = raising s
  inv_clear : ∀ {s}, Inv s → Inv (clearBuffer s)
  inv_step : ∀ {s e t}, Inv s → step s e = some t → Inv t
  step_commit : ∀ {s e t}, Inv s → step s e = some t → kind s e = .commit →
    frames t = frames s ++ [(com t).m_buffer]
  step_m_buffer : ∀ {s e t}, Inv s → step s e = some t → kind s e ≠ .commit →
    (com t).m_buffer = (com s).m_buffer ∧ (frames t = frames s ∨ frames t = [])
  step_drop : ∀ {s e t}, step s e = some t → kind s e = .drop →
    (com t).m_status = false ∧ raising t = false
  /-- while `m_status` is true the connection stays the same until it is given up -/
  step_status : ∀ {s e t}, Inv s → step s e = some t → kind s e ≠ .drop →
    (com s).m_status = true → (com t).m_status = true ∧ (kind s e = .other → frames t = frames s)
  /-- `m_status` is set before the first frame of a connection or right after it -/
  step_up : ∀ {s e t}, Inv s → step s e = some t → kind s e = .other → frames t ≠ [] →
    ((com t).m_status || raising t) = true → ((com s).m_status || raising s) = true

/-- The connection is reported up, or about to be. -/
def Service.up {σ ε : Type} (S : Service σ ε) (s : σ) : Bool := (S.com s).m_status || S.raising s

/-! ## The tick -/

/-- The signals a tick reads, in its order, each under the lock. -/
inductive Getter
  | speed
  | temp
  | battery
  | leftLight
  | rightLight
deriving DecidableEq, Repr

/-- The getter's `read`. -/
def Getter.read : Getter → Buf SBUFLEN → Result Int
  | .speed => getSpeed
  | .temp => getTemp
  | .battery => getBattery
  | .leftLight => getLeftLight
  | .rightLight => getRightLight

/-- Its place in the tick. -/
def Getter.index : Getter → Nat
  | .speed => 0
  | .temp => 1
  | .battery => 2
  | .leftLight => 3
  | .rightLight => 4

theorem Getter.index_injective {sig sig' : Getter} (h : sig.index = sig'.index) : sig = sig' := by
  cases sig <;> cases sig' <;> first | rfl | cases h

/-- The next thing the tick does. -/
inductive TickLoc
  /-- nothing: the timer has not fired -/
  | idle
  /-- `if (m_com_service.getStatus())` -/
  | getStatus
  /-- `m_canvas.setCommunicationStatus(true)` -/
  | setConnected
  /-- a getter; the Canvas gets the value right after, the lights after both -/
  | get (sig : Getter)
  /-- `m_canvas.setLightSignals(left_light, right_light)` -/
  | setLightSignals
  /-- `m_canvas.setCommunicationStatus(false)` -/
  | setDisconnected
  /-- `m_com_service.clearBuffer()` -/
  | clearBuffer
deriving DecidableEq, Repr

/-- The tick has taken the branch of a connection that is up. -/
def TickLoc.connected : TickLoc → Bool
  | .setConnected | .get _ | .setLightSignals => true
  | _ => false

/-- Where the tick goes after a getter. -/
def Getter.next : Getter → TickLoc
  | .speed => .get .temp
  | .temp => .get .battery
  | .battery => .get .leftLight
  | .leftLight => .get .rightLight
  | .rightLight => .setLightSignals

/-- A service and the GUI thread. -/
structure Window (σ : Type) where
  svc : σ
  loc : TickLoc := .idle
  /-- the lambda's static `speed`, `temp`, `battery`, `left_light` and `right_light` -/
  locals : Getter → Int := fun _ => 0
  /-- the values `m_buffer` has had since the tick called `getStatus()` -/
  held : List (Buf SBUFLEN) := []
  /-- which of them each signal was read from -/
  instants : Getter → Nat := fun _ => 0
  /-- `m_status` has been true since the tick called `getStatus()` -/
  stayed : Bool := false
  /-- a frame of a connection that has not been given up was copied after the tick
      called `getStatus()`, or was announced only after it -/
  late : Bool := false
  /-- no frame has been copied since the buffer was last cleared -/
  cleared : Bool := true

namespace Window

/-- What can happen next. -/
inductive Ev (ε : Type)
  | timeout
  | tick
  | worker (e : ε)
deriving DecidableEq, Repr

variable {σ ε : Type} (S : Service σ ε)

/-- A step of the tick. -/
def stepTick (s : Window σ) : Option (Window σ) :=
  match s.loc with
  | .idle => none
  | .getStatus =>
      if (S.com s.svc).m_status then
        some { s with loc := .setConnected, held := [(S.com s.svc).m_buffer], stayed := true }
      else some { s with loc := .setDisconnected, late := S.raising s.svc }
  | .setConnected => some { s with loc := .get .speed }
  | .get sig =>
      match sig.read (S.com s.svc).m_buffer with
      | .ok v => some { s with
          loc := sig.next
          locals := Function.update s.locals sig v
          instants := Function.update s.instants sig (s.held.length - 1) }
      | .error _ => none
  | .setLightSignals => some { s with loc := .idle }
  | .setDisconnected => some { s with loc := .clearBuffer }
  | .clearBuffer => some { s with svc := S.clearBuffer s.svc, loc := .idle, cleared := true }

/-- Recording a step of the worker that leads to `svc`. -/
def record (s : Window σ) (svc : σ) : Kind → Window σ
  | .commit =>
      { s with svc, held := s.held ++ [(S.com svc).m_buffer], late := true, cleared := false }
  | .drop => { s with svc, stayed := false, late := false }
  | .other => { s with svc }

/-- A step of either thread. -/
def step (s : Window σ) : Ev ε → Option (Window σ)
  | .timeout => if s.loc = .idle then some { s with loc := .getStatus } else none
  | .tick => s.stepTick S
  | .worker e =>
      match S.step s.svc e with
      | some svc => some (s.record S svc (S.kind s.svc e))
      | none => none

/-- Before the timer first fires. -/
def start (svc : σ) : Window σ where
  svc

/-! ## Every run -/

/-- What holds in every run: unless it has been cleared, `m_buffer` is the latest frame
    of the connection. -/
structure Inv (s : Window σ) : Prop where
  svc : S.Inv s.svc
  latest : s.cleared = false → S.frames s.svc = [] ∨
    (S.frames s.svc).getLast? = some (S.com s.svc).m_buffer

variable {S} {s t : Window σ}

/-- What a step of the worker is. -/
theorem step_worker {e : ε} (hs : step S s (.worker e) = some t) :
    ∃ svc, S.step s.svc e = some svc ∧ t = s.record S svc (S.kind s.svc e) := by
  simp only [step] at hs
  split at hs
  · rename_i svc hsvc
    simp only [Option.some.injEq] at hs
    exact ⟨svc, hsvc, hs.symm⟩
  · cases hs

/-- What a getter's step of the tick is. -/
theorem step_get {sig : Getter} (hl : s.loc = .get sig) (hs : s.stepTick S = some t) :
    ∃ v, sig.read (S.com s.svc).m_buffer = .ok v ∧
      t = { s with
        loc := sig.next
        locals := Function.update s.locals sig v
        instants := Function.update s.instants sig (s.held.length - 1) } := by
  simp only [stepTick, hl] at hs
  split at hs
  · rename_i v hv
    simp only [Option.some.injEq] at hs
    exact ⟨v, hv, hs.symm⟩
  · cases hs

/-- Only `clearBuffer()` changes the service from the tick. -/
theorem stepTick_svc (hne : s.loc ≠ .clearBuffer) (hs : s.stepTick S = some t) :
    t.svc = s.svc ∧ t.cleared = s.cleared := by
  cases hl : s.loc with
  | clearBuffer => exact absurd hl hne
  | get sig =>
      obtain ⟨v, -, rfl⟩ := step_get hl hs
      exact ⟨rfl, rfl⟩
  | idle =>
      simp only [stepTick, hl] at hs
      cases hs
  | getStatus =>
      simp only [stepTick, hl] at hs
      split at hs <;>
        simp only [Option.some.injEq] at hs <;>
        exact hs ▸ ⟨rfl, rfl⟩
  | _ =>
      simp only [stepTick, hl, Option.some.injEq] at hs
      exact hs ▸ ⟨rfl, rfl⟩

theorem start_inv {svc : σ} (h : S.Inv svc) : Inv S (start svc) := ⟨h, nofun⟩

/-- Every step keeps the invariant. -/
theorem Inv.step (h : Inv S s) {e : Ev ε} (hs : step S s e = some t) : Inv S t := by
  cases e with
  | timeout =>
      obtain ⟨-, rfl⟩ := of_guard hs
      exact ⟨h.svc, h.latest⟩
  | tick =>
      by_cases hl : s.loc = .clearBuffer
      · simp only [Window.step, stepTick, hl, Option.some.injEq] at hs
        subst hs
        exact ⟨S.inv_clear h.svc, nofun⟩
      · obtain ⟨hsvc, hcleared⟩ := stepTick_svc hl hs
        exact ⟨hsvc ▸ h.svc, by rw [hsvc, hcleared]; exact h.latest⟩
  | worker e =>
      obtain ⟨svc, hsvc, rfl⟩ := step_worker hs
      have hinv := S.inv_step h.svc hsvc
      cases hk : S.kind s.svc e with
      | commit =>
          refine ⟨hinv, fun _ => .inr ?_⟩
          simp [record, S.step_commit h.svc hsvc hk]
      | drop | other =>
          obtain ⟨hbuf, hframes⟩ := S.step_m_buffer h.svc hsvc (by simp [hk])
          refine ⟨hinv, ?_⟩
          intro hc
          simp only [record] at hc ⊢
          rw [hbuf]
          rcases hframes with hf | hf
          · rw [hf]
            exact h.latest hc
          · exact .inl hf

/-- The invariant holds in every reachable state, whatever is asked of the steps. -/
theorem inv_of_run {svc : σ} (hsvc : S.Inv svc) {allowed : Window σ → Ev ε → Prop}
    {es : List (Ev ε)} (h : Run (Window.step S) allowed (start svc) es s) : Inv S s :=
  h.invariant (start_inv hsvc) fun _ _ _ hi _ hs => hi.step hs

/-! ## Where the values of a tick come from -/

/-- The number of signals the tick has read. -/
def readCount (s : Window σ) : Nat :=
  match s.loc with
  | .get sig => sig.index
  | .setLightSignals => 5
  | _ => 0

/-- Each signal has been read from a value `m_buffer` had during the tick, none from an
    earlier one than the signal before it. -/
structure Read (S : Service σ ε) (s : Window σ) : Prop where
  held : s.loc = .setConnected ∨ 0 < s.readCount ∨ s.loc = .get .speed →
    s.held.getLast? = some (S.com s.svc).m_buffer
  value : ∀ sig, sig.index < s.readCount →
    ∃ b, s.held[s.instants sig]? = some b ∧ sig.read b = .ok (s.locals sig)
  sorted : ∀ sig sig', sig.index ≤ sig'.index → sig'.index < s.readCount →
    s.instants sig ≤ s.instants sig'

theorem start_read (svc : σ) : Read S (start svc) where
  held := by simp [start, readCount]
  value := nofun
  sorted := nofun

/-- After a getter one signal more has been read. -/
theorem readCount_next {sig : Getter} (hl : t.loc = sig.next) : t.readCount = sig.index + 1 := by
  cases sig <;> simp [readCount, hl, Getter.next, Getter.index]

/-- A getter reads from the latest value. -/
theorem Read.get (h : Read S s) {sig : Getter} (hl : s.loc = .get sig) {v : Int}
    (hv : sig.read (S.com s.svc).m_buffer = .ok v) :
    Read S { s with
      loc := sig.next
      locals := Function.update s.locals sig v
      instants := Function.update s.instants sig (s.held.length - 1) } := by
  have hcount : s.readCount = sig.index := by simp [readCount, hl]
  have hlast : s.held.getLast? = some (S.com s.svc).m_buffer := by
    apply h.held
    cases sig <;> simp [hl, readCount, Getter.index]
  have hbefore : ∀ sig', sig'.index < sig.index → sig' ≠ sig := by
    rintro sig' hlt rfl
    exact Nat.lt_irrefl _ hlt
  have hle : ∀ sig', sig'.index < sig.index → s.instants sig' ≤ s.held.length - 1 := by
    intro sig' hlt
    obtain ⟨b, hb, -⟩ := h.value sig' (hcount ▸ hlt)
    have hlen := (List.getElem?_eq_some_iff.mp hb).1
    omega
  refine ⟨fun _ => hlast, ?_, ?_⟩
  · intro sig' hlt
    rw [readCount_next rfl] at hlt
    by_cases heq : sig' = sig
    · -- the signal read now, from the last value held
      subst heq
      refine ⟨(S.com s.svc).m_buffer, ?_, ?_⟩
      · simpa [List.getLast?_eq_getElem?] using hlast
      · simpa using hv
    · have hne : sig'.index ≠ sig.index := fun hi => heq (Getter.index_injective hi)
      simp only [Function.update_of_ne heq]
      exact h.value sig' (by omega)
  · intro sig₁ sig₂ h12 hlt
    rw [readCount_next rfl] at hlt
    by_cases heq : sig₂ = sig
    · -- no value held is later than the last one
      subst heq
      by_cases heq₁ : sig₁ = sig₂
      · rw [heq₁]
      · have hne : sig₁.index ≠ sig₂.index := fun hi => heq₁ (Getter.index_injective hi)
        simp only [Function.update_self, Function.update_of_ne heq₁]
        exact hle sig₁ (by omega)
    · have hne : sig₂.index ≠ sig.index := fun hi => heq (Getter.index_injective hi)
      have heq₁ : sig₁ ≠ sig := hbefore sig₁ (by omega)
      simp only [Function.update_of_ne heq, Function.update_of_ne heq₁]
      exact h.sorted sig₁ sig₂ h12 (by omega)

/-- Every step keeps the origin of the values. -/
theorem Read.step (h : Read S s) (hinv : S.Inv s.svc) {e : Ev ε} (hs : step S s e = some t) :
    Read S t := by
  cases e with
  | timeout =>
      obtain ⟨-, rfl⟩ := of_guard hs
      exact ⟨by simp [readCount], nofun, nofun⟩
  | tick =>
      cases hl : s.loc with
      | get sig =>
          obtain ⟨v, hv, rfl⟩ := step_get hl hs
          exact h.get hl hv
      | idle =>
          simp only [Window.step, stepTick, hl] at hs
          cases hs
      | getStatus =>
          simp only [Window.step, stepTick, hl] at hs
          split at hs <;> simp only [Option.some.injEq] at hs <;> subst hs
          · exact ⟨fun _ => rfl, nofun, nofun⟩
          · exact ⟨by simp [readCount], nofun, nofun⟩
      | setConnected =>
          simp only [Window.step, stepTick, hl, Option.some.injEq] at hs
          subst hs
          exact ⟨fun _ => h.held (.inl hl), nofun, nofun⟩
      | setLightSignals | setDisconnected | clearBuffer =>
          simp only [Window.step, stepTick, hl, Option.some.injEq] at hs
          subst hs
          exact ⟨by simp [readCount], nofun, nofun⟩
  | worker e =>
      obtain ⟨svc, hsvc, rfl⟩ := step_worker hs
      cases hk : S.kind s.svc e with
      | commit =>
          -- the values held before keep their places
          refine ⟨fun _ => by simp [record], ?_, h.sorted⟩
          intro sig hlt
          obtain ⟨b, hb, hread⟩ := h.value sig hlt
          have hlen := (List.getElem?_eq_some_iff.mp hb).1
          refine ⟨b, ?_, hread⟩
          simp only [record]
          rw [List.getElem?_append_left hlen, hb]
      | drop | other =>
          obtain ⟨hbuf, -⟩ := S.step_m_buffer hinv hsvc (by simp [hk])
          refine ⟨?_, h.value, h.sorted⟩
          intro hl
          simp only [record]
          rw [hbuf]
          exact h.held hl

/-- What a connected tick has read when it hands the lights over. -/
structure TickValues (s : Window σ) : Prop where
  /-- every value was decoded from one value `m_buffer` had during the tick, in order -/
  decoded : ∃ instants : Getter → Nat,
    (∀ sig, ∃ b, s.held[instants sig]? = some b ∧ sig.read b = .ok (s.locals sig)) ∧
    ∀ sig sig', sig.index ≤ sig'.index → instants sig ≤ instants sig'
  /-- all from the same one if no frame was copied during the tick -/
  single : ∀ b, s.held = [b] → ∀ sig : Getter, sig.read b = .ok (s.locals sig)

/-- The five values of a tick come from values `m_buffer` had during it, in order. -/
theorem tickValues {svc : σ} (hsvc : S.Inv svc) {es : List (Ev ε)}
    (h : Run (Window.step S) Always (start svc) es s) (hl : s.loc = .setLightSignals) :
    s.TickValues := by
  have hread : Read S s := h.invariant_of (J := Inv S) (I := Read S) (inv_of_run hsvc)
    (start_read svc) (fun _ _ _ hj hi _ hs => hi.step hj.svc hs)
  have hcount : ∀ sig : Getter, sig.index < s.readCount := by
    intro sig
    cases sig <;> simp [readCount, hl, Getter.index]
  refine ⟨⟨s.instants, ?_, ?_⟩, ?_⟩
  · intro sig
    exact hread.value sig (hcount sig)
  · intro sig sig' hle
    exact hread.sorted sig sig' hle (hcount sig')
  · intro b hb sig
    obtain ⟨b', hb', hv⟩ := hread.value sig (hcount sig)
    have hmem := List.mem_of_getElem? hb'
    rw [hb, List.mem_singleton] at hmem
    exact hmem ▸ hv

/-! ## Frames that are not lost -/

/-- No tick clears the buffer after a frame of the connection was copied, or announced,
    later than the tick called `getStatus()`. -/
def NoLateClear (s : Window σ) : Ev ε → Prop
  | .tick => s.loc = .clearBuffer → s.late = false
  | _ => True

instance (s : Window σ) : (e : Ev ε) → Decidable (s.NoLateClear e)
  | .tick => inferInstanceAs (Decidable (s.loc = .clearBuffer → s.late = false))
  | .timeout | .worker _ => isTrue trivial

/-- The frames of a connection that is up have not been cleared, and a tick that is about
    to clear the buffer finds no such connection. -/
structure Kept (S : Service σ ε) (s : Window σ) : Prop where
  live : S.frames s.svc ≠ [] → S.up s.svc = true → s.cleared = false
  pending : s.loc = .setDisconnected ∨ s.loc = .clearBuffer → s.late = false →
    S.frames s.svc ≠ [] → S.up s.svc = false

theorem start_kept {svc : σ} (h : S.frames svc = []) : Kept S (start svc) where
  live := fun hne => absurd h hne
  pending := by simp [start]

/-- Every step keeps the frames, given that no clearing comes late. -/
theorem Kept.step (h : Kept S s) (hinv : S.Inv s.svc) {e : Ev ε} (hlate : s.NoLateClear e)
    (hs : step S s e = some t) : Kept S t := by
  cases e with
  | timeout =>
      obtain ⟨-, rfl⟩ := of_guard hs
      exact ⟨h.live, by simp⟩
  | tick =>
      cases hl : s.loc with
      | clearBuffer =>
          simp only [Window.step, stepTick, hl, Option.some.injEq] at hs
          subst hs
          -- the tick decided to clear on a connection that is not up any more
          refine ⟨?_, by simp⟩
          intro hne hup
          have hdown := h.pending (.inr hl) (hlate hl) (S.frames_clear s.svc ▸ hne)
          simp only [Service.up, S.com_clear, S.raising_clear, ComService.clearBuffer] at hup hdown
          rw [hdown] at hup
          cases hup
      | getStatus =>
          simp only [Window.step, stepTick, hl] at hs
          split at hs <;> simp only [Option.some.injEq] at hs <;> subst hs
          · exact ⟨h.live, by simp⟩
          · -- `m_status` is false, and not about to be set unless `late` says so
            rename_i hstatus
            refine ⟨h.live, ?_⟩
            intro _ hraise _
            have hraise : S.raising s.svc = false := hraise
            simp only [Service.up, hraise, Bool.or_false]
            exact Bool.eq_false_iff.mpr hstatus
      | setDisconnected =>
          simp only [Window.step, stepTick, hl, Option.some.injEq] at hs
          subst hs
          exact ⟨h.live, fun _ => h.pending (.inl hl)⟩
      | get sig =>
          obtain ⟨v, -, rfl⟩ := step_get hl hs
          exact ⟨h.live, by cases sig <;> simp [Getter.next]⟩
      | idle =>
          simp only [Window.step, stepTick, hl] at hs
          cases hs
      | setConnected | setLightSignals =>
          simp only [Window.step, stepTick, hl, Option.some.injEq] at hs
          subst hs
          exact ⟨h.live, by simp⟩
  | worker e =>
      obtain ⟨svc, hsvc, rfl⟩ := step_worker hs
      cases hk : S.kind s.svc e with
      | commit => exact ⟨fun _ _ => rfl, nofun⟩
      | drop =>
          obtain ⟨hstatus, hraise⟩ := S.step_drop hsvc hk
          have hdown : S.up svc = false := by simp [Service.up, hstatus, hraise]
          refine ⟨?_, fun _ _ _ => hdown⟩
          intro _ hup
          simp only [record] at hup
          rw [hdown] at hup
          cases hup
      | other =>
          -- frames that are there were there before, and up now means up before
          have hframes : S.frames svc ≠ [] → S.frames svc = S.frames s.svc := fun hne =>
            (S.step_m_buffer hinv hsvc (by simp [hk])).2.resolve_right hne
          have hup : S.frames svc ≠ [] → S.up svc = true → S.up s.svc = true :=
            S.step_up hinv hsvc hk
          refine ⟨?_, ?_⟩
          · intro hne hu
            exact h.live (hframes hne ▸ hne) (hup hne hu)
          · intro hl hn hne
            have hdown := h.pending hl hn (hframes hne ▸ hne)
            apply Bool.eq_false_iff.mpr
            intro hu
            rw [hup hne hu] at hdown
            cases hdown

/-- While a connection is up and a frame has been copied since it was opened, `m_buffer`
    is the latest one. -/
def FrameKept (S : Service σ ε) (s : Window σ) : Prop :=
  (S.com s.svc).m_status = true → S.frames s.svc ≠ [] →
    (S.frames s.svc).getLast? = some (S.com s.svc).m_buffer

theorem frameKept {svc : σ} (hsvc : S.Inv svc) (hnew : S.frames svc = []) {es : List (Ev ε)}
    (h : Run (Window.step S) NoLateClear (start svc) es s) : FrameKept S s := by
  have hkept : Kept S s := h.invariant_of (J := Inv S) (I := Kept S) (inv_of_run hsvc)
    (start_kept hnew) (fun _ _ _ hj hi hlate hs => hi.step hj.svc hlate hs)
  intro hstatus hne
  have hcleared := hkept.live hne (by simp [Service.up, hstatus])
  exact ((inv_of_run hsvc h).latest hcleared).resolve_left hne

/-! ## Values of the open connection -/

/-- A tick that has seen the connection up reads the first signal only when a frame has
    been copied since the connection was opened and the buffer was last cleared. -/
def FrameFirst (S : Service σ ε) (s : Window σ) : Ev ε → Prop
  | .tick => s.loc = .get .speed → s.stayed = true → s.cleared = false ∧ S.frames s.svc ≠ []
  | _ => True

instance (s : Window σ) : (e : Ev ε) → Decidable (s.FrameFirst S e)
  | .tick => inferInstanceAs (Decidable
      (s.loc = .get .speed → s.stayed = true → s.cleared = false ∧ S.frames s.svc ≠ []))
  | .timeout | .worker _ => isTrue trivial

/-- What a tick has read while `m_status` stayed true are frames of the connection. -/
structure Live (S : Service σ ε) (s : Window σ) : Prop where
  status : s.loc.connected = true → s.stayed = true → (S.com s.svc).m_status = true
  frame : 0 < s.readCount → s.stayed = true → s.cleared = false ∧ S.frames s.svc ≠ []
  value : ∀ sig : Getter, sig.index < s.readCount → s.stayed = true →
    ∃ b ∈ S.frames s.svc, sig.read b = .ok (s.locals sig)

theorem start_live (svc : σ) : Live S (start svc) := ⟨nofun, nofun, nofun⟩

theorem connected_of_readCount (h : 0 < s.readCount) : s.loc.connected = true := by
  unfold readCount at h
  cases hl : s.loc <;> simp [hl, TickLoc.connected] at h ⊢

/-- A getter reads a frame of the connection. -/
theorem Live.get (h : Live S s) (hinv : Inv S s) {sig : Getter} (hl : s.loc = .get sig)
    (hfirst : s.FrameFirst S (.tick : Ev ε)) {v : Int}
    (hv : sig.read (S.com s.svc).m_buffer = .ok v) :
    Live S { s with
      loc := sig.next
      locals := Function.update s.locals sig v
      instants := Function.update s.instants sig (s.held.length - 1) } := by
  have hcount : s.readCount = sig.index := by simp [readCount, hl]
  have hframe : s.stayed = true → s.cleared = false ∧ S.frames s.svc ≠ [] := by
    intro hstayed
    by_cases hsig : sig = .speed
    · exact hfirst (hsig ▸ hl) hstayed
    · -- an earlier getter has seen to it
      refine h.frame ?_ hstayed
      rw [hcount]
      cases sig <;> simp_all [Getter.index]
  refine ⟨fun _ => h.status (by simp [hl, TickLoc.connected]), fun _ => hframe, ?_⟩
  intro sig' hlt hstayed
  rw [readCount_next rfl] at hlt
  by_cases heq : sig' = sig
  · -- the buffer is the latest frame of the connection
    subst heq
    obtain ⟨hcleared, hne⟩ := hframe hstayed
    have hlast := (hinv.latest hcleared).resolve_left hne
    exact ⟨_, List.mem_of_getLast? hlast, by simpa using hv⟩
  · have hne : sig'.index ≠ sig.index := fun hi => heq (Getter.index_injective hi)
    simp only [Function.update_of_ne heq]
    exact h.value sig' (by omega) hstayed

/-- Every step keeps the values live, given that a frame comes first. -/
theorem Live.step (h : Live S s) (hinv : Inv S s) {e : Ev ε} (hfirst : s.FrameFirst S e)
    (hs : step S s e = some t) : Live S t := by
  cases e with
  | timeout =>
      obtain ⟨-, rfl⟩ := of_guard hs
      exact ⟨nofun, nofun, nofun⟩
  | tick =>
      cases hl : s.loc with
      | get sig =>
          obtain ⟨v, hv, rfl⟩ := step_get hl hs
          exact h.get hinv hl hfirst hv
      | idle =>
          simp only [Window.step, stepTick, hl] at hs
          cases hs
      | getStatus =>
          simp only [Window.step, stepTick, hl] at hs
          split at hs <;> simp only [Option.some.injEq] at hs <;> subst hs
          · rename_i hstatus
            exact ⟨fun _ _ => hstatus, nofun, nofun⟩
          · exact ⟨nofun, nofun, nofun⟩
      | setConnected =>
          simp only [Window.step, stepTick, hl, Option.some.injEq] at hs
          subst hs
          exact ⟨fun _ => h.status (by simp [hl, TickLoc.connected]), nofun, nofun⟩
      | setLightSignals | setDisconnected | clearBuffer =>
          simp only [Window.step, stepTick, hl, Option.some.injEq] at hs
          subst hs
          exact ⟨nofun, nofun, nofun⟩
  | worker e =>
      obtain ⟨svc, hsvc, rfl⟩ := step_worker hs
      cases hk : S.kind s.svc e with
      | drop => exact ⟨fun _ => nofun, fun _ => nofun, fun _ _ => nofun⟩
      | commit =>
          have hframes := S.step_commit hinv.svc hsvc hk
          refine ⟨?_, fun _ _ => ⟨rfl, by simp [record, hframes]⟩, ?_⟩
          · intro hc hst
            exact (S.step_status hinv.svc hsvc (by simp [hk]) (h.status hc hst)).1
          · intro sig hlt hst
            obtain ⟨b, hb, hread⟩ := h.value sig hlt hst
            exact ⟨b, by simp [record, hframes, hb], hread⟩
      | other =>
          -- while `m_status` stays true the connection and its frames stay
          have hkeep := fun hstatus => S.step_status hinv.svc hsvc (by simp [hk]) hstatus
          have hframes : 0 < s.readCount → s.stayed = true → S.frames svc = S.frames s.svc :=
            fun hc hst => (hkeep (h.status (connected_of_readCount hc) hst)).2 hk
          refine ⟨fun hc hst => (hkeep (h.status hc hst)).1, ?_, ?_⟩
          · intro hc hst
            simp only [record]
            rw [hframes hc hst]
            exact h.frame hc hst
          · intro sig hlt hst
            simp only [record]
            rw [hframes (Nat.zero_lt_of_lt hlt) hst]
            exact h.value sig hlt hst

/-- The values of a tick during which `m_status` stayed true are decoded from frames of
    the connection. -/
theorem liveValues {svc : σ} (hsvc : S.Inv svc) {es : List (Ev ε)}
    (h : Run (Window.step S) (FrameFirst S) (start svc) es s) (hl : s.loc = .setLightSignals)
    (hstayed : s.stayed = true) :
    (S.com s.svc).m_status = true ∧
      ∀ sig : Getter, ∃ b ∈ S.frames s.svc, sig.read b = .ok (s.locals sig) := by
  have hlive : Live S s := h.invariant_of (J := Inv S) (I := Live S) (inv_of_run hsvc)
    (start_live svc) (fun _ _ _ hj hi hfirst hs => hi.step hj hfirst hs)
  refine ⟨hlive.status (by simp [hl, TickLoc.connected]) hstayed, ?_⟩
  intro sig
  apply hlive.value sig _ hstayed
  cases sig <;> simp [readCount, hl, Getter.index]

end Window
end Speedometer.Client
