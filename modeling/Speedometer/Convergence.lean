/-
  Speedometer.Convergence

  When the user has stopped, the dashboard catches up with the server's window.

  Over TCP a commit made from the last value of `m_buf` is followed only by commits of
  the same value, on whatever connections, until a setter is called again.  A tick that
  begins then, with the connection up and the buffer not cleared since, reads that value
  and leaves the dashboard with what the widgets show (`dashboard_catches_up`).
-/

import Speedometer.Programs

namespace Speedometer

open Cpp Transition Client
open Server (InsertCall Session)

/-! ## Ticks over a steady path -/

namespace System

variable {σ ε : Type}

/-- The service is up and publishes the given values as long as the path only takes steps
    that `quiet` admits. -/
structure Steady (P : Path σ ε) (V : Getter → Int) (quiet : σ → ε → Prop) (K : σ → Prop) :
    Prop where
  status : ∀ svc, K svc → (P.service.com svc).m_status = true
  read : ∀ svc, K svc → ∀ sig : Getter, sig.read (P.service.com svc).m_buffer = .ok (V sig)
  step : ∀ svc e svc', K svc → quiet svc e → P.service.step svc e = some svc' → K svc'

/-- The path only takes steps that `quiet` admits. -/
def Quietly (quiet : σ → ε → Prop) (s : System σ) : Ev ε → Prop
  | .path e => quiet s.window.svc e
  | .timeout | .tick _ _ | .canvas _ => True

/-- Where a tick puts the value it reads: the lights go to the canvas only at its end. -/
def held (d : Dashboard) : Getter → Int
  | .speed => readout d.m_canvas .speed
  | .temp => readout d.m_canvas .temp
  | .battery => readout d.m_canvas .battery
  | .leftLight => lights d .leftLight
  | .rightLight => lights d .rightLight

/-- The signals a tick has read when it gets to a point. -/
def hasRead : TickLoc → Getter → Prop
  | .get sig, sig' => sig'.index < sig.index
  | .setLightSignals, _ => True
  | _, _ => False

theorem hasRead_next {sig sig' : Getter} (h : hasRead sig.next sig') :
    sig' = sig ∨ hasRead (.get sig) sig' := by
  cases sig <;> cases sig' <;> simp [hasRead, Getter.next, Getter.index] at h ⊢

theorem held_get (d : Dashboard) (sig sig' : Getter) (v : Int) :
    held (d.get sig v) sig' = if sig' = sig then shownAs v sig else held d sig' := by
  cases sig <;> cases sig' <;> rfl

/-- What a tick over a steady path has done so far. -/
structure Catching (V : Getter → Int) (K : σ → Prop) (s : System σ) : Prop where
  svc : K s.window.svc
  loc : s.dashboard.loc = s.window.loc
  up : s.window.loc ≠ .setDisconnected ∧ s.window.loc ≠ .clearBuffer
  holds : ∀ sig, hasRead s.window.loc sig → held s.dashboard sig = V sig
  shown : s.window.loc = .idle → ∀ sig, readout s.dashboard.m_canvas sig = V sig

variable {P : Path σ ε} {sounds : Sounds} {V : Getter → Int} {quiet : σ → ε → Prop}
  {K : σ → Prop} {s t : System σ}

theorem Catching.tick (hK : Steady P V quiet K) (h : Catching V K s) {wait : Wait} {forks : Bool}
    (hs : System.step P sounds s (.tick wait forks) = some t) : Catching V K t := by
  obtain ⟨window, e, dashboard, hw, he, hd, rfl⟩ := step_tick hs
  have hloc := tickEv_loc h.loc hw he hd
  have hstatus := hK.status _ h.svc
  cases hl : s.window.loc with
  | idle =>
      rw [tickEv, hl] at he
      cases he
  | setDisconnected => exact absurd hl h.up.1
  | clearBuffer => exact absurd hl h.up.2
  | getStatus =>
      simp only [Window.stepTick, hl, hstatus, if_true, Option.some.injEq] at hw
      subst hw
      exact ⟨h.svc, hloc, by simp, fun _ hread => hread.elim, fun hidle => by cases hidle⟩
  | setConnected =>
      simp only [Window.stepTick, hl, Option.some.injEq] at hw
      subst hw
      exact ⟨h.svc, hloc, by simp, fun _ hread => absurd hread (Nat.not_lt_zero _),
        fun hidle => by cases hidle⟩
  | get sig =>
      obtain ⟨v, hv, rfl⟩ := Window.step_get hl hw
      have hshown := shownAs_read hv
      have hread := hK.read _ h.svc sig
      rw [hv] at hread
      cases hread
      simp only [tickEv, hl, hv, Except.toOption, Option.map_some, Option.some.injEq] at he
      subst he
      simp only [Dashboard.step, h.loc, hl, Option.some.injEq] at hd
      subst hd
      refine ⟨h.svc, hloc, by cases sig <;> simp [Getter.next], fun sig' hread => ?_, ?_⟩
      · rw [held_get]
        split
        · rename_i heq
          rw [hshown, heq]
        · rename_i hne
          exact h.holds sig' (hl ▸ (hasRead_next hread).resolve_left hne)
      · intro hidle
        cases sig <;> cases hidle
  | setLightSignals =>
      simp only [Window.stepTick, hl, Option.some.injEq] at hw
      simp only [tickEv, hl, Option.some.injEq] at he
      subst hw he
      obtain ⟨-, rfl⟩ := of_guard hd
      have hheld : ∀ sig, held s.dashboard sig = V sig := fun sig => h.holds sig (hl ▸ trivial)
      refine ⟨h.svc, hloc, by simp, fun _ hread => hread.elim, fun _ sig => ?_⟩
      rw [readout_setLightSignals, ← hheld sig]
      cases sig <;> rfl

theorem Catching.step (hK : Steady P V quiet K) (h : Catching V K s) {e : Ev ε}
    (hquiet : Quietly quiet s e) (hs : System.step P sounds s e = some t) : Catching V K t := by
  cases e with
  | tick wait forks => exact h.tick hK hs
  | timeout =>
      simp only [System.step] at hs
      split at hs
      · rename_i window dashboard hwindow hdashboard
        simp only [Option.some.injEq] at hs
        subst hs
        obtain ⟨-, rfl⟩ := of_guard hwindow
        obtain ⟨-, rfl⟩ := of_guard hdashboard
        exact ⟨h.svc, rfl, by simp, fun _ hread => hread.elim, fun hidle => by cases hidle⟩
      · cases hs
  | path e =>
      obtain ⟨svc, hsvc, rfl⟩ := step_path hs
      have hK' : K svc := hK.step _ _ _ h.svc hquiet hsvc
      have hwindow : ∀ kind, (s.window.record P.service svc kind).svc = svc ∧
          (s.window.record P.service svc kind).loc = s.window.loc := by
        intro kind
        cases kind <;> exact ⟨rfl, rfl⟩
      obtain ⟨hsvc', hloc⟩ := hwindow (P.service.kind s.window.svc e)
      refine ⟨?_, ?_, ?_, ?_, ?_⟩
      · rwa [hsvc']
      · exact h.loc.trans hloc.symm
      · rw [hloc]
        exact h.up
      · rw [hloc]
        exact h.holds
      · rw [hloc]
        exact h.shown
  | canvas e =>
      simp only [System.step, Option.ite_none_right_eq_some] at hs
      obtain ⟨he, hs⟩ := hs
      split at hs
      · rename_i dashboard hd
        simp only [Option.some.injEq] at hs
        subst hs
        have hkeep := handler_readout he hd
        have hheld : ∀ sig, held dashboard sig = held s.dashboard sig := by
          intro sig
          cases sig
          exacts [(hkeep .speed).1, (hkeep .temp).1, (hkeep .battery).1, (hkeep .leftLight).2,
            (hkeep .rightLight).2]
        exact ⟨h.svc, (handler_loc he hd).1.trans h.loc, h.up,
          fun sig hread => (hheld sig).trans (h.holds sig hread),
          fun hl sig => (hkeep sig).1.trans (h.shown hl sig)⟩
      · cases hs

/-- A tick begins. -/
theorem Catching.begin (hloc : s.dashboard.loc = s.window.loc) (hbegun : s.window.loc = .getStatus)
    (hsvc : K s.window.svc) : Catching V K s := by
  refine ⟨hsvc, hloc, by simp [hbegun], ?_, ?_⟩
  · rw [hbegun]
    exact fun _ hread => hread.elim
  · rw [hbegun]
    intro hidle
    cases hidle

end System

/-! ## Over TCP -/

namespace EndToEnd

variable {s s' : EndToEnd}

/-- The client has committed a frame from a snapshot that was taken after the last call of
    a setter. -/
def Arrived (s : EndToEnd) : Prop :=
  ∃ k i, i < (s.client.commits k).length ∧ (s.instants k)[i]? = some (s.hist.length - 1)

/-- It is the latest of the instants of the commits. -/
theorem Arrived.mem_committed (h : Arrived s) (hinv : Inv s) :
    s.hist.length - 1 ∈ s.committed := by
  obtain ⟨k, i, hi, ht⟩ := h
  have hk : k < s.client.conns := by
    by_contra hk
    rw [hinv.client.framed.commits_fresh k (Nat.le_of_not_lt hk)] at hi
    exact absurd hi (Nat.not_lt_zero i)
  refine List.mem_flatMap.mpr ⟨k, List.mem_range.mpr hk, ?_⟩
  apply List.mem_of_getElem?
  rw [List.getElem?_take_of_lt hi, ht]

/-- Then what has been committed last is the value `m_buf` has. -/
theorem Arrived.last (h : Arrived s) (hinv : Inv s) :
    s.client.log.getLast? = some s.server.m_buf := by
  have hmem := h.mem_committed hinv
  have hne : s.committed ≠ [] := List.ne_nil_of_mem hmem
  -- its instant is no earlier, and there is no later one
  have hle := hinv.committed_sorted.rel_getLast hmem
  have hlog := congrArg List.getLast? hinv.log_committed
  rw [List.getLast?_map, List.getLast?_map, List.getLast?_eq_getLast_of_ne_nil hne,
    Option.map_some] at hlog
  obtain ⟨b, hb, hval⟩ := Option.map_eq_some_iff.mp hlog
  have hlt := (List.getElem?_eq_some_iff.mp hval.symm).1
  have heq : s.committed.getLast hne = s.hist.length - 1 := by omega
  rw [heq, ← List.getLast?_eq_getElem?, hinv.copied.current] at hval
  rw [hb, hval]

/-- It stays so until a setter is called. -/
theorem Arrived.step (h : Arrived s) {e : Ev} (he : e.setter = none)
    (hs : EndToEnd.step s e = some s') : Arrived s' := by
  obtain ⟨k, i, hi, ht⟩ := h
  have heff := step_effect hs
  have hcommits : s.client.commits k <+: s'.client.commits k := by
    cases e with
    | client e => exact Receiver.commits_prefix (step_client hs).1 k
    | _ => rw [heff.client rfl]
  obtain ⟨more, hmore⟩ := heff.instants k
  refine ⟨k, i, Nat.lt_of_lt_of_le hi hcommits.length_le, ?_⟩
  rw [heff.hist he, ← hmore, List.getElem?_append_left (List.getElem?_eq_some_iff.mp ht).1, ht]

/-- The client publishes the latest value, and is connected. -/
structure Current (calls : List InsertCall) (s : EndToEnd) : Prop where
  reached : Reached calls s
  arrived : s.Arrived
  published : s.client.log.getLast? = some s.client.svc.m_buffer
  status : s.client.svc.m_status = true

/-- A step that calls no setter and does not give the connection up. -/
def Rests (s : EndToEnd) (e : Ev) : Prop :=
  s.WholeSends e ∧ e.setter = none ∧ embedding.kind s e ≠ .drop

theorem Current.step {calls : List InsertCall} (h : Current calls s) {e : Ev} (hrests : s.Rests e)
    (hs : EndToEnd.step s e = some s') : Current calls s' := by
  obtain ⟨hwhole, he, hdrop⟩ := hrests
  have hreached := h.reached.step hwhole hs
  rw [he, Option.toList_none, List.append_nil] at hreached
  refine ⟨hreached, h.arrived.step he hs, ?_, ?_⟩
  · rw [log_step hs]
    split
    · exact List.getLast?_concat
    · rename_i hcommit
      have hbuf := (embedding.service.step_m_buffer h.reached.serves hs hcommit).1
      rw [List.append_nil, h.published]
      exact congrArg some hbuf.symm
  · exact (embedding.service.step_status h.reached.serves hs hdrop h.status).1

theorem Current.read {calls : List InsertCall} (h : Current calls s) (sig : Getter) :
    sig.read s.client.svc.m_buffer = .ok (lastSet calls sig) := by
  have hbuf := h.arrived.last h.reached.inv
  rw [h.published, Option.some.injEq] at hbuf
  have hlen := h.reached.recorded.length
  have hlast := h.reached.inv.copied.current
  rw [List.getLast?_eq_getElem?, hlen, Nat.add_sub_cancel] at hlast
  have hcalls := h.reached.recorded.value _ _ hlast
  rw [List.take_length] at hcalls
  obtain ⟨m_buf, hok, hread⟩ := read_runCalls calls
  rw [hcalls, Except.ok.injEq] at hok
  rw [hbuf, hok, hread]

theorem steady (calls : List InsertCall) :
    System.Steady path (lastSet calls) Rests (Current calls) where
  status := fun _ h => h.status
  read := fun _ h => h.read
  step := fun _ _ _ h hrests hs => h.step hrests hs

end EndToEnd

/-! ## The user at rest -/

namespace Server.Window

/-- The getters read from `m_buf` what the widgets show. -/
theorem Agrees.read_shows {w : Window} (h : w.Agrees) (sig : Getter) :
    sig.read w.m_buf = .ok (w.shows sig) := by
  cases sig with
  | speed => exact h.getter .sld_speed
  | temp => exact h.getter .sld_temp
  | battery => exact h.getter .sld_bat
  | leftLight => exact h.getLights.1
  | rightLight => exact h.getLights.2

end Server.Window

/-- All the calls of the setters together set what the widgets show now. -/
theorem Server.Session.Inv.lastSet_calls {s : Session} (h : s.Inv) (sig : Getter) :
    lastSet s.calls sig = s.window.shows sig := by
  obtain ⟨m_buf, hok, hread⟩ := read_runCalls s.calls
  rw [h.m_buf, Except.ok.injEq] at hok
  have hagrees := (h.agrees _ (List.mem_of_getLast? h.last)).read_shows sig
  rw [hok, hread] at hagrees
  exact Except.ok.inj hagrees

namespace Programs

variable {sounds : Sounds} {s t : Programs EndToEnd}

/-- The user does nothing, frames arrive whole, and the client does not give the connection
    up. -/
def Rests (s : Programs EndToEnd) : Ev EndToEnd.Ev → Prop
  | .act _ => False
  | .system (.path e) => s.system.window.svc.WholeSends e ∧
      EndToEnd.embedding.kind s.system.window.svc e ≠ .drop
  | .system _ => True

instance (s : Programs EndToEnd) : (e : Ev EndToEnd.Ev) → Decidable (Rests s e)
  | .act _ => isFalse id
  | .system (.path e) => inferInstanceAs (Decidable (s.system.window.svc.WholeSends e ∧
      EndToEnd.embedding.kind s.system.window.svc e ≠ .drop))
  | .system .timeout | .system (.tick _ _) | .system (.canvas _) => isTrue trivial

/-- The user rests, and the dashboard catches up. -/
structure Resting (session : Session) (s : Programs EndToEnd) : Prop where
  session_eq : s.session = session
  calls : s.system.calls = session.calls
  catching : System.Catching (lastSet session.calls) (EndToEnd.Current session.calls) s.system

theorem Resting.step {session : Session} (h : Resting session s) {e : Ev EndToEnd.Ev}
    (hrests : Rests s e) (hs : Programs.step EndToEnd.path sounds s e = some t) :
    Resting session t := by
  cases e with
  | act a => exact hrests.elim
  | system e =>
      simp only [Programs.step, Option.ite_none_right_eq_some] at hs
      obtain ⟨hnext, hs⟩ := hs
      split at hs
      · rename_i system hsystem
        simp only [Option.some.injEq] at hs
        subst hs
        -- the handlers have made all their calls
        have hnone : System.setter EndToEnd.path e = none := by
          rw [h.session_eq, h.calls] at hnext
          have hle := hnext.length_le
          rw [List.length_append] at hle
          cases hsetter : System.setter EndToEnd.path e with
          | none => rfl
          | some call =>
              rw [hsetter, Option.toList_some, List.length_singleton] at hle
              omega
        refine ⟨h.session_eq, ?_, ?_⟩
        · rw [System.step_calls hsystem, hnone, h.calls]
          exact List.append_nil _
        · refine h.catching.step (EndToEnd.steady session.calls) ?_ hsystem
          cases e with
          | path e => exact ⟨hrests.1, hnone, hrests.2⟩
          | timeout | tick wait forks | canvas e => trivial
      · cases hs

/-- Over TCP: let a tick begin when the handlers have made their calls, and the client has
    committed a frame taken after them, is connected and has not cleared its buffer since.
    Then whatever the programs do while the user rests and the connection lasts, at the end
    of that tick, and whenever no tick is under way from then on, the dashboard shows what
    the widgets show. -/
theorem dashboard_catches_up {w₀ : Server.Window} (hnew : Server.Window.new {} = .ok w₀)
    {es fs : List (Ev EndToEnd.Ev)}
    (h : Run (Programs.step EndToEnd.path sounds) (Allowed EndToEnd.path)
      (start EndToEnd.path w₀) es s)
    (hcalls : s.system.calls = s.session.calls) (harrived : s.system.window.svc.Arrived)
    (hcleared : s.system.window.cleared = false)
    (hstatus : s.system.window.svc.client.svc.m_status = true)
    (hbegun : s.system.window.loc = .getStatus)
    (hnext : Run (Programs.step EndToEnd.path sounds) Rests s fs t)
    (hidle : t.system.window.loc = .idle) (sig : Getter) :
    System.readout t.system.dashboard.m_canvas sig = t.session.window.shows sig := by
  have hinv := inv_of_run hnew h
  have hcurrent : EndToEnd.Current s.session.calls s.system.window.svc := by
    refine ⟨?_, harrived, hinv.system.latest hcleared, hstatus⟩
    rw [← hcalls]
    exact hinv.system.reached
  have hstart : Resting s.session s :=
    ⟨rfl, hcalls, System.Catching.begin hinv.system.loc hbegun hcurrent⟩
  have hend := hnext.invariant hstart fun _ _ _ hr hrests hs => hr.step hrests hs
  rw [hend.catching.shown hidle sig, hend.session_eq]
  exact hinv.session.lastSet_calls sig

/-- The speed is set and sent, and the timer fires. -/
def sentRun : List (Ev EndToEnd.Ev) :=
  newRun ++ frameRun.map (fun e => .system (.path e)) ++ [.system .timeout]

/-- The tick, with the arrows blinking in between, while the server sends the frame again. -/
def restRun : List (Ev EndToEnd.Ev) :=
  List.replicate 4 (.system (.tick .failedToStart true)) ++
    [.system (.canvas (.blink false)), .system (.path (.server .tau))] ++
    List.replicate 4 (.system (.tick .failedToStart true))

theorem dashboard_catches_up_speed :
    ∃ w₀ s t, Server.Window.new {} = .ok w₀ ∧
      Run (Programs.step EndToEnd.path Dashboard.soundFiles) (Allowed EndToEnd.path)
        (start EndToEnd.path w₀) sentRun s ∧
      Run (Programs.step EndToEnd.path Dashboard.soundFiles) Rests s restRun t ∧
      t.session.window.shows .speed = 7 ∧
      ∀ sig, System.readout t.system.dashboard.m_canvas sig = t.session.window.shows sig := by
  obtain ⟨w₀, hnew, -⟩ := Server.Window.new_agrees {}
  have hexec : (Server.Window.new {}).toOption.any (fun w₀ =>
      (exec (Programs.step EndToEnd.path Dashboard.soundFiles) (Allowed EndToEnd.path)
        (start EndToEnd.path w₀) sentRun).any fun s => decide (
          (s.system.calls = s.session.calls ∧
            0 < (s.system.window.svc.client.commits 0).length ∧
            (s.system.window.svc.instants 0)[0]? = some (s.system.window.svc.hist.length - 1)) ∧
          (s.system.window.cleared = false ∧
            s.system.window.svc.client.svc.m_status = true ∧
            s.system.window.loc = .getStatus) ∧
          (exec (Programs.step EndToEnd.path Dashboard.soundFiles) Rests s restRun).any (fun t =>
            decide (t.system.window.loc = .idle ∧ t.session.window.shows .speed = 7)) = true)) =
      true := by
    decide
  rw [hnew, Except.toOption, Option.any_some] at hexec
  obtain ⟨s, hrun, ⟨hcalls, hcommits, hinstants⟩, ⟨hcleared, hstatus, hbegun⟩, hrest⟩ :=
    Run.exists_of_exec hexec
  obtain ⟨t, hnext, hidle, hspeed⟩ := Run.exists_of_exec hrest
  exact ⟨w₀, s, t, hnew, hrun, hnext, hspeed, dashboard_catches_up hnew hrun hcalls
    ⟨0, 0, hcommits, hinstants⟩ hcleared hstatus hbegun hnext hidle⟩

end Programs
end Speedometer
