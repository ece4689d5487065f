/-
  Speedometer.Server.Session

  The calls of the setters that the handlers of the server's window make, one action of
  the user after the other.

  `act_calls` says that what an action does to `m_buf` is what its calls do.  Each call
  sets its signal to what the widgets show once the action is done (`Session.Inv`).
-/

import Speedometer.Server.Window
import Speedometer.Setters

namespace Speedometer.Server

open Cpp Setting Client Transition

/-- What a client reads of a call's signal right after the call. -/
def InsertCall.value (call : InsertCall) : Int :=
  (getterType call.sig).extend (signalsLayout.length call.sig)
    (call.val.toNat % 2 ^ signalsLayout.length call.sig)

namespace Window

/-! ## Calls -/

/-- What the widgets show of a signal. -/
def shows (w : Window) : Getter → Int
  | .speed => (w.slider .sld_speed).value
  | .temp => (w.slider .sld_temp).value
  | .battery => (w.slider .sld_bat).value
  | .leftLight => (w.box_left.checked || w.box_warning.checked).toInt
  | .rightLight => (w.box_right.checked || w.box_warning.checked).toInt

/-- The calls `updateLights` makes. -/
def lightCalls (w : Window) : List InsertCall :=
  [.leftLight (w.box_left.checked || w.box_warning.checked),
   .rightLight (w.box_right.checked || w.box_warning.checked)]

/-- The calls the handlers of an action make. -/
def callsOf (w : Window) : Action → List InsertCall
  | .slide sld value =>
      let slider := (w.slider sld).setValue value
      if slider.value = (w.slider sld).value then [] else [insertCall slider.value sld]
  | .toggle box => (w.setChecked box !(w.box box).checked).lightCalls

/-- The calls the constructor makes. -/
def newCalls : List InsertCall :=
  [insertCall (signalsLayout.info batteryLevel).min .sld_bat,
   insertCall (signalsLayout.info temperature).min .sld_temp,
   insertCall (signalsLayout.info speed).min .sld_speed, .leftLight false, .rightLight false]

theorem invokeSetter_call {w u : Window} {sld : Sld} {value : Int}
    (h : w.invokeSetter sld value = .ok u) :
    (insertCall value sld).run w.m_buf = .ok u.m_buf ∧ u = w.setBuf u.m_buf := by
  rw [invokeSetter, setterMethod_eq, bind_eq_ok] at h
  obtain ⟨m_buf, hrun, h⟩ := h
  cases h
  exact ⟨hrun, rfl⟩

theorem updateLights_calls {w u : Window} (h : w.updateLights = .ok u) :
    w.lightCalls.foldlM InsertCall.run w.m_buf = .ok u.m_buf ∧ u = w.setBuf u.m_buf := by
  rw [updateLights, bind_eq_ok] at h
  obtain ⟨m_buf, hset, h⟩ := h
  cases h
  refine ⟨?_, rfl⟩
  rw [setLightSignals, bind_eq_ok] at hset
  obtain ⟨m_buf', hleft, hright⟩ := hset
  have hleft' : (InsertCall.leftLight (w.box_left.checked || w.box_warning.checked)).run w.m_buf =
      .ok m_buf' := hleft
  have hright' : (InsertCall.rightLight (w.box_right.checked || w.box_warning.checked)).run m_buf' =
      .ok m_buf := hright
  rw [lightCalls, List.foldlM_cons, hleft', ok_bind, List.foldlM_cons, hright', ok_bind]
  rfl

/-- What an action does to `m_buf` is what its calls do. -/
theorem act_calls {w u : Window} {a : Action} (h : w.act a = .ok u) :
    (w.callsOf a).foldlM InsertCall.run w.m_buf = .ok u.m_buf := by
  cases a with
  | slide sld value =>
      simp only [act, slide] at h
      simp only [callsOf]
      split at h
      · rename_i hsame
        cases h
        rw [if_pos hsame]
        rfl
      · rename_i hother
        rw [if_neg hother, List.foldlM_cons]
        have hrun := (invokeSetter_call h).1
        rw [show (insertCall _ sld).run w.m_buf = .ok u.m_buf from hrun]
        rfl
  | toggle box =>
      -- the handler that disables the other box changes no box's state
      cases box with
      | box_left | box_right | box_warning => exact (updateLights_calls h).1

/-- What the constructor does to `m_buf` is what its calls do; it leaves the sliders at
    the left and the boxes unchecked. -/
theorem new_calls {m_com_service : ComService} {w : Window} (h : new m_com_service = .ok w) :
    newCalls.foldlM InsertCall.run m_com_service.m_buf = .ok w.m_buf ∧
      (∀ sld : Sld, (w.slider sld).value = (signalsLayout.info sld.sig).min) ∧
      w.lightCalls = [.leftLight false, .rightLight false] := by
  have hspeed : signalsMap.get "speed" = .ok (signalsLayout.info speed) := Layout.get_key speed
  have htemp : signalsMap.get "temperature" = .ok (signalsLayout.info temperature) :=
    Layout.get_key temperature
  have hbat : signalsMap.get "battery_level" = .ok (signalsLayout.info batteryLevel) :=
    Layout.get_key batteryLevel
  rw [new, hspeed, ok_bind, htemp, ok_bind, hbat, ok_bind, bind_eq_ok] at h
  obtain ⟨w₁, h₁, h⟩ := h
  rw [bind_eq_ok] at h
  obtain ⟨w₂, h₂, h⟩ := h
  rw [bind_eq_ok] at h
  obtain ⟨w₃, h₃, h⟩ := h
  obtain ⟨hrun₁, hw₁⟩ := invokeSetter_call h₁
  obtain ⟨hrun₂, hw₂⟩ := invokeSetter_call h₂
  obtain ⟨hrun₃, hw₃⟩ := invokeSetter_call h₃
  obtain ⟨hrun, hw⟩ := updateLights_calls h
  have hlights : w₃.lightCalls = [.leftLight false, .rightLight false] := by
    rw [hw₃, hw₂, hw₁]
    rfl
  refine ⟨?_, ?_, ?_⟩
  · have hrun₁' : (insertCall (signalsLayout.info batteryLevel).min .sld_bat).run
        m_com_service.m_buf = .ok w₁.m_buf := hrun₁
    have hrun₂' : (insertCall (signalsLayout.info temperature).min .sld_temp).run w₁.m_buf =
        .ok w₂.m_buf := hrun₂
    have hrun₃' : (insertCall (signalsLayout.info speed).min .sld_speed).run w₂.m_buf =
        .ok w₃.m_buf := hrun₃
    rw [hlights] at hrun
    rw [newCalls, List.foldlM_cons, hrun₁', ok_bind, List.foldlM_cons, hrun₂', ok_bind,
      List.foldlM_cons, hrun₃', ok_bind]
    exact hrun
  · intro sld
    rw [hw, hw₃, hw₂, hw₁]
    cases sld <;> rfl
  · rw [hw]
    exact hlights

/-! ## What a call shows -/

/-- A call sets its signal to what the widgets show. -/
def Shows (w : Window) (call : InsertCall) : Prop :=
  ∀ sig : Getter, call.sig = sig.key → call.value = w.shows sig

theorem insertCall_shows {w : Window} {sld : Sld} (h : InTable sld (w.slider sld).value) :
    w.Shows (insertCall (w.slider sld).value sld) := by
  intro sig hsig
  have hvalue := extend_packed h
  cases sld with
  | sld_speed =>
      obtain rfl : Getter.speed = sig := Getter.key_injective hsig
      exact hvalue
  | sld_temp =>
      obtain rfl : Getter.temp = sig := Getter.key_injective hsig
      exact hvalue
  | sld_bat =>
      obtain rfl : Getter.battery = sig := Getter.key_injective hsig
      exact hvalue

theorem lightCalls_shows (w : Window) : ∀ call ∈ w.lightCalls, w.Shows call := by
  have hbit : ∀ b, (InsertCall.leftLight b).value = b.toInt ∧
      (InsertCall.rightLight b).value = b.toInt := by decide
  intro call hcall sig hsig
  rcases List.mem_pair.mp hcall with rfl | rfl
  · obtain rfl : Getter.leftLight = sig := Getter.key_injective hsig
    exact (hbit _).1
  · obtain rfl : Getter.rightLight = sig := Getter.key_injective hsig
    exact (hbit _).2

theorem newCalls_shows {m_com_service : ComService} {w : Window}
    (h : new m_com_service = .ok w) : ∀ call ∈ newCalls, w.Shows call := by
  obtain ⟨-, hmin, hlights⟩ := new_calls h
  obtain ⟨w', hnew, hagrees⟩ := new_agrees m_com_service
  rw [h] at hnew
  cases hnew
  -- the sliders show the values the calls have
  have hslider : ∀ sld, w.Shows (insertCall (signalsLayout.info sld.sig).min sld) :=
    fun sld => hmin sld ▸ insertCall_shows (hagrees.sliders sld).inTable
  have hlight := lightCalls_shows w
  rw [hlights] at hlight
  intro call hcall
  rcases List.mem_cons.mp hcall with rfl | hcall
  · exact hslider .sld_bat
  rcases List.mem_cons.mp hcall with rfl | hcall
  · exact hslider .sld_temp
  rcases List.mem_cons.mp hcall with rfl | hcall
  · exact hslider .sld_speed
  · exact hlight call hcall

/-- The calls of an action set their signals to what the widgets show after it. -/
theorem callsOf_shows {w u : Window} {a : Action} (hu : u.Agrees) (h : w.act a = .ok u) :
    ∀ call ∈ w.callsOf a, u.Shows call := by
  cases a with
  | slide sld value =>
      simp only [act, slide] at h
      simp only [callsOf]
      split at h
      · rename_i hsame
        rw [if_pos hsame]
        exact nofun
      · rename_i hother
        rw [if_neg hother]
        intro call hcall
        rw [List.mem_singleton.mp hcall]
        -- the slider has the value the call passes on
        have hslider : u.slider sld = (w.slider sld).setValue value := by
          rw [(invokeSetter_call h).2]
          exact Function.update_self ..
        have hshows := insertCall_shows (hu.sliders sld).inTable
        rwa [hslider] at hshows
  | toggle box =>
      cases box with
      | box_left | box_right | box_warning =>
          have hlights := lightCalls_shows u
          rw [(updateLights_calls h).2] at hlights ⊢
          exact hlights

end Window

/-! ## Sessions -/

/-- The last call for a signal decides what is read of it. -/
theorem lastSet_eq (calls : List InsertCall) (sig : Getter) :
    lastSet calls sig = ((calls.filter (·.sig = sig.key)).getLast?).elim 0 InsertCall.value := by
  induction calls using List.reverseRecOn with
  | nil => rfl
  | append_singleton calls call ih =>
      rw [List.filter_append, lastSet, List.map_append, lastInserted, List.foldl_append,
        ← lastInserted]
      by_cases h : call.sig = sig.key
      · simp [h, InsertCall.value]
      · simpa [h, lastSet] using ih

/-- The window after the constructor and after each action of the user, and the calls
    made so far, each with the number of the window that shows its value. -/
structure Session where
  window : Window
  windows : List Window
  made : List (Nat × InsertCall)

namespace Session

/-- The calls made so far. -/
def calls (s : Session) : List InsertCall := s.made.map Prod.snd

/-- After the constructor. -/
def start (w₀ : Window) : Session where
  window := w₀
  windows := [w₀]
  made := Window.newCalls.map (0, ·)

/-- An action of the user. -/
def step (s : Session) (a : Window.Action) : Option Session :=
  match s.window.step a with
  | some window => some
      { window
        windows := s.windows ++ [window]
        made := s.made ++ (s.window.callsOf a).map (s.windows.length, ·) }
  | none => none

/-- What holds after any actions. -/
structure Inv (s : Session) : Prop where
  last : s.windows.getLast? = some s.window
  agrees : ∀ w ∈ s.windows, w.Agrees
  m_buf : runCalls s.calls = .ok s.window.m_buf
  sorted : (s.made.map Prod.fst).Pairwise (· ≤ ·)
  shows : ∀ m ∈ s.made, ∃ w, s.windows[m.1]? = some w ∧ w.Shows m.2

theorem start_inv {w₀ : Window} (h : Window.new {} = .ok w₀) : Inv (start w₀) where
  last := rfl
  agrees := by
    obtain ⟨w, hnew, hagrees⟩ := Window.new_agrees {}
    rw [h] at hnew
    cases hnew
    intro w hw
    exact List.mem_singleton.mp hw ▸ hagrees
  m_buf := by
    have hcalls := (Window.new_calls h).1
    rwa [calls, start, List.map_map]
  sorted := by
    rw [start, List.map_map]
    decide
  shows := by
    intro m hm
    obtain ⟨call, hcall, rfl⟩ := List.mem_map.mp hm
    exact ⟨w₀, rfl, Window.newCalls_shows h call hcall⟩

variable {s t : Session}

theorem Inv.step (h : Inv s) {a : Window.Action} (hs : Session.step s a = some t) : Inv t := by
  simp only [Session.step] at hs
  split at hs
  · rename_i window hwindow
    simp only [Option.some.injEq] at hs
    subst hs
    have hmem : s.window ∈ s.windows := List.mem_of_getLast? h.last
    have hagrees : window.Agrees := (h.agrees _ hmem).step hwindow
    have hact : s.window.act a = .ok window := by
      simp only [Window.step, Option.ite_none_right_eq_some] at hwindow
      cases hu : s.window.act a with
      | ok u =>
          rw [hu] at hwindow
          exact congrArg _ (Option.some.inj hwindow.2)
      | error fault =>
          rw [hu] at hwindow
          cases hwindow.2
    refine ⟨by simp, ?_, ?_, ?_, ?_⟩
    · intro w hw
      rcases List.mem_append.mp hw with hw | hw
      · exact h.agrees w hw
      · exact List.mem_singleton.mp hw ▸ hagrees
    · have hcalls := h.m_buf
      simp only [calls, runCalls] at hcalls ⊢
      rw [List.map_append, List.foldlM_append, hcalls, ok_bind, List.map_map]
      simpa [Function.comp_def] using Window.act_calls hact
    · -- the new calls carry the number of the new window
      rw [List.map_append, List.map_map, List.pairwise_append]
      refine ⟨h.sorted, ?_, ?_⟩
      · rw [List.pairwise_map]
        exact List.pairwise_of_forall fun _ _ => Nat.le_refl _
      · intro i hi j hj
        obtain ⟨m, hm, rfl⟩ := List.mem_map.mp hi
        obtain ⟨_, -, rfl⟩ := List.mem_map.mp hj
        obtain ⟨w, hw, -⟩ := h.shows m hm
        exact Nat.le_of_lt (List.getElem?_eq_some_iff.mp hw).1
    · intro m hm
      rcases List.mem_append.mp hm with hm | hm
      · obtain ⟨w, hw, hshows⟩ := h.shows m hm
        refine ⟨w, ?_, hshows⟩
        rw [List.getElem?_append_left (List.getElem?_eq_some_iff.mp hw).1, hw]
      · obtain ⟨call, hcall, rfl⟩ := List.mem_map.mp hm
        exact ⟨window, by simp, Window.callsOf_shows hagrees hact call hcall⟩
  · cases hs

/-- An action only adds calls. -/
theorem step_calls {a : Window.Action} (hs : Session.step s a = some t) : s.calls <+: t.calls := by
  simp only [Session.step] at hs
  split at hs
  · simp only [Option.some.injEq] at hs
    rw [← hs, calls, calls, List.map_append]
    exact List.prefix_append _ _
  · cases hs

/-- The number of the window that the last call for a signal comes from. -/
def lastMade (made : List (Nat × InsertCall)) (sig : Getter) : Option Nat :=
  ((made.filter (·.2.sig = sig.key)).getLast?).map Prod.fst

/-- After some of the calls a signal has the value of the window its last call comes from,
    if there is one. -/
theorem Inv.lastMade_shows (h : Inv s) (n : Nat) (sig : Getter) :
    match lastMade (s.made.take n) sig with
    | some j => ∃ w, s.windows[j]? = some w ∧ lastSet (s.calls.take n) sig = w.shows sig
    | none => lastSet (s.calls.take n) sig = 0 := by
  have hlast : lastSet (s.calls.take n) sig =
      (((s.made.take n).filter (·.2.sig = sig.key)).getLast?).elim 0 (·.2.value) := by
    rw [lastSet_eq, calls, ← List.map_take, List.filter_map, List.getLast?_map]
    cases hl : ((s.made.take n).filter (·.2.sig = sig.key)).getLast? <;>
      simp [Function.comp_def, hl]
  rw [lastMade, hlast]
  cases hl : ((s.made.take n).filter (·.2.sig = sig.key)).getLast? with
  | none => rfl
  | some m =>
      have hm := List.mem_filter.mp (List.mem_of_getLast? hl)
      obtain ⟨w, hw, hshows⟩ := h.shows m (List.mem_of_mem_take hm.1)
      exact ⟨w, hw, hshows sig (of_decide_eq_true hm.2)⟩

end Session
end Speedometer.Server
