/-
  Speedometer.Server.Window

  The desktop server's window: three sliders and three check boxes whose handlers
  call the setters of `COMService`.

  `Agrees` ties the widgets to the packed buffer, signal by signal, and holds the
  two direction boxes to at most one being checked.  The constructor establishes it
  and every action of the user keeps it, so that after any sequence of actions the
  client's getters read off the buffer exactly what the widgets show.
-/

import Speedometer.Codec
import Speedometer.Lib.Run

namespace Speedometer.Server

open Cpp Setting Client Transition

/-! ## Widgets -/

/-- `QSlider`. -/
structure Slider where
  minimum : Int
  maximum : Int
  value : Int
  bounded : minimum ≤ value ∧ value ≤ maximum
deriving DecidableEq

namespace Slider

/-- The range and the value a slider is created with. -/
def fresh : Slider := ⟨0, 99, 0, by decide⟩

/-- A value moved into the slider's range. -/
def bound (minimum maximum value : Int) : Int := max minimum (min maximum value)

theorem bound_mem {minimum maximum : Int} (h : minimum ≤ maximum) (value : Int) :
    minimum ≤ bound minimum maximum value ∧ bound minimum maximum value ≤ maximum := by
  unfold bound
  omega

theorem bound_of_mem {minimum maximum value : Int} (h : minimum ≤ value ∧ value ≤ maximum) :
    bound minimum maximum value = value := by
  unfold bound
  omega

/-- `setValue`. -/
def setValue (slider : Slider) (value : Int) : Slider where
  minimum := slider.minimum
  maximum := slider.maximum
  value := bound slider.minimum slider.maximum value
  bounded := bound_mem (Int.le_trans slider.bounded.1 slider.bounded.2) value

/-- `setRange`, which bounds the value to the new range. -/
def setRange (slider : Slider) (minimum maximum : Int) : Slider where
  minimum := minimum
  maximum := max minimum maximum
  value := bound minimum (max minimum maximum) slider.value
  bounded := bound_mem (Int.le_max_left minimum maximum) slider.value

end Slider

/-- `QCheckBox`. -/
structure CheckBox where
  checked : Bool := false
  enabled : Bool := true
deriving DecidableEq

/-- The sliders of the window. -/
inductive Sld
  | sld_speed
  | sld_temp
  | sld_bat
deriving DecidableEq, Repr

/-- The check boxes of the window. -/
inductive Box
  | box_left
  | box_right
  | box_warning
deriving DecidableEq, Repr

namespace Sld

/-- `unit`. -/
def unit : Sld → String
  | sld_speed => "Kph"
  | sld_temp => "°C"
  | sld_bat => "%"

/-- The signal the slider sets. -/
def sig : Sld → signalsLayout.Key
  | sld_speed => speed
  | sld_temp => temperature
  | sld_bat => batteryLevel

/-- `(m_com_service.*setterMethod)(value)`: the argument is narrowed to the setter's
    `uint8_t` or `int8_t`. -/
def setterMethod (m_buf : Buf SBUFLEN) (value : Int) : Sld → Result (Buf SBUFLEN)
  | sld_speed => setSpeed m_buf (BitVec.ofInt 8 value)
  | sld_temp => setTemp m_buf (BitVec.ofInt 8 value)
  | sld_bat => setBattery m_buf (BitVec.ofInt 8 value)

/-- The client's getter of the slider's signal. -/
def getter (m_buffer : Buf SBUFLEN) : Sld → Result Int
  | sld_speed => getSpeed m_buffer
  | sld_temp => getTemp m_buffer
  | sld_bat => getBattery m_buffer

end Sld

/-- `QString("%1 %2").arg(value).arg(unit)`. -/
def labelText (value : Int) (unit : String) : String := toString value ++ " " ++ unit

/-! ## The window -/

/-- `Window`. -/
structure Window where
  slider : Sld → Slider := fun _ => .fresh
  valLabel : Sld → String := fun sld => labelText 0 sld.unit
  box_left : CheckBox := {}
  box_right : CheckBox := {}
  box_warning : CheckBox := {}
  m_com_service : ComService

namespace Window

/-- The buffer of the window's service. -/
def m_buf (w : Window) : Buf SBUFLEN := w.m_com_service.m_buf

/-- The window after a setter has left `m_buf`. -/
def setBuf (w : Window) (m_buf : Buf SBUFLEN) : Window :=
  { w with m_com_service := { w.m_com_service with m_buf } }

/-- The window with another state of one slider. -/
def setSlider (w : Window) (sld : Sld) (slider : Slider) : Window :=
  { w with slider := Function.update w.slider sld slider }

/-- `valLabel.setText(..)`. -/
def setText (w : Window) (sld : Sld) (value : Int) : Window :=
  { w with valLabel := Function.update w.valLabel sld (labelText value sld.unit) }

/-- The call of the slider's setter. -/
def invokeSetter (w : Window) (sld : Sld) (value : Int) : Result Window := do
  let m_buf ← sld.setterMethod w.m_buf value
  .ok (w.setBuf m_buf)

/-- The handler of a slider's `valueChanged`. -/
def valueChanged (w : Window) (sld : Sld) (value : Int) : Result Window :=
  (w.setText sld value).invokeSetter sld value

/-- `setupSlider`.  Nothing is connected to the slider yet when it is given its
    range and value. -/
def setupSlider (w : Window) (sld : Sld) (min max : Int) : Result Window :=
  let w := w.setSlider sld (((w.slider sld).setRange min max).setValue min)
  (w.setText sld min).invokeSetter sld min

/-- `updateLights`. -/
def updateLights (w : Window) : Result Window := do
  let is_left_active := w.box_left.checked || w.box_warning.checked
  let is_right_active := w.box_right.checked || w.box_warning.checked
  let m_buf ← setLightSignals w.m_buf is_left_active is_right_active
  .ok (w.setBuf m_buf)

/-- `Window::Window`. -/
def new (m_com_service : ComService) : Result Window := do
  let w : Window := { m_com_service }
  let speed_info ← signalsMap.get "speed"
  let temp_info ← signalsMap.get "temperature"
  let bat_info ← signalsMap.get "battery_level"
  let w ← w.setupSlider .sld_bat bat_info.min bat_info.max
  let w ← w.setupSlider .sld_temp temp_info.min temp_info.max
  let w ← w.setupSlider .sld_speed speed_info.min speed_info.max
  w.updateLights

/-- The slider is set to a value, which is signalled if it is another one. -/
def slide (w : Window) (sld : Sld) (value : Int) : Result Window :=
  let slider := (w.slider sld).setValue value
  if slider.value = (w.slider sld).value then .ok w
  else (w.setSlider sld slider).valueChanged sld slider.value

/-- The handlers of a box's `toggled`, in the order they are connected. -/
def toggled (w : Window) : Box → Bool → Result Window
  | .box_left, checked =>
      { w with box_right := { w.box_right with enabled := !checked } }.updateLights
  | .box_right, checked =>
      { w with box_left := { w.box_left with enabled := !checked } }.updateLights
  | .box_warning, _ => w.updateLights

/-- A check box. -/
def box (w : Window) : Box → CheckBox
  | .box_left => w.box_left
  | .box_right => w.box_right
  | .box_warning => w.box_warning

/-- The window with a box checked or not. -/
def setChecked (w : Window) : Box → Bool → Window
  | .box_left, checked => { w with box_left := { w.box_left with checked } }
  | .box_right, checked => { w with box_right := { w.box_right with checked } }
  | .box_warning, checked => { w with box_warning := { w.box_warning with checked } }

/-- What the user can do. -/
inductive Action
  | slide (sld : Sld) (value : Int)
  | toggle (box : Box)
deriving DecidableEq, Repr

/-- A slider moves within its range, and only an enabled box is toggled. -/
def Possible (w : Window) : Action → Prop
  | .slide sld value => (w.slider sld).minimum ≤ value ∧ value ≤ (w.slider sld).maximum
  | .toggle box => (w.box box).enabled = true

instance (w : Window) : (a : Action) → Decidable (w.Possible a)
  | .slide sld value =>
      inferInstanceAs (Decidable ((w.slider sld).minimum ≤ value ∧ value ≤ (w.slider sld).maximum))
  | .toggle box => inferInstanceAs (Decidable ((w.box box).enabled = true))

/-- An action of the user and the handlers it runs. -/
def act (w : Window) : Action → Result Window
  | .slide sld value => w.slide sld value
  | .toggle box => (w.setChecked box !(w.box box).checked).toggled box !(w.box box).checked

/-- One action of a sequence. -/
def step (w : Window) (a : Action) : Option Window :=
  if w.Possible a then (w.act a).toOption else none

/-! ## What the setters write -/

/-- The call of `insert_helper` a slider's setter makes. -/
def insertCall (value : Int) : Sld → InsertCall
  | .sld_speed => .speed (BitVec.ofInt 8 value)
  | .sld_temp => .temp (BitVec.ofInt 8 value)
  | .sld_bat => .battery (BitVec.ofInt 8 value)

theorem setterMethod_eq (m_buf : Buf SBUFLEN) (value : Int) (sld : Sld) :
    sld.setterMethod m_buf value = (insertCall value sld).run m_buf := by
  cases sld <;> rfl

/-- The bits a slider's value is packed to. -/
def packed (value : Int) (sld : Sld) : Nat :=
  (insertCall value sld).val.toNat % 2 ^ signalsLayout.length sld.sig

/-- The type the client reads a slider's signal at. -/
def readType : Sld → IntType
  | .sld_speed | .sld_bat => .unsigned .w8
  | .sld_temp => .signed .w8

theorem getter_eq (m_buffer : Buf SBUFLEN) (sld : Sld) :
    sld.getter m_buffer =
      .ok ((readType sld).extend (signalsLayout.length sld.sig)
        (values signalsLayout m_buffer sld.sig)) := by
  cases sld with
  | sld_speed => exact readSignal_values signalsLayout m_buffer speed (.unsigned .w8) (by decide)
  | sld_temp => exact readSignal_values signalsLayout m_buffer temperature (.signed .w8) (by decide)
  | sld_bat =>
      exact readSignal_values signalsLayout m_buffer batteryLevel (.unsigned .w8) (by decide)

/-- A value the table allows for a slider's signal. -/
def InTable (sld : Sld) (value : Int) : Prop :=
  (signalsLayout.info sld.sig).min ≤ value ∧ value ≤ (signalsLayout.info sld.sig).max

/-- Narrowing to `uint8_t` keeps a value that fits it. -/
theorem toInt_uint8 {value : Int} (h0 : 0 ≤ value) (h : value < 256) :
    ((BitVec.ofInt 8 value).setWidth 32).toInt = value := by
  obtain ⟨n, rfl⟩ := Int.eq_ofNat_of_zero_le h0
  have hnat : ((BitVec.ofInt 8 (n : Int)).setWidth 32).toNat = n := by
    rw [BitVec.ofInt_natCast, BitVec.toNat_setWidth, BitVec.toNat_ofNat]
    omega
  rw [BitVec.toInt_eq_toNat_of_lt (by omega), hnat]

/-- Narrowing to `int8_t` keeps a value that fits it. -/
theorem toInt_int8 {value : Int} (hmin : -128 ≤ value) (hmax : value < 128) :
    ((BitVec.ofInt 8 value).signExtend 32).toInt = value := by
  rw [BitVec.toInt_signExtend_of_le (by decide), BitVec.toInt_ofInt]
  exact Int.bmod_eq_of_le (by omega) (by omega)

/-- The narrowed argument is the value again as an `int`. -/
theorem insertCall_toInt {sld : Sld} {value : Int} (h : InTable sld value) :
    (insertCall value sld).val.toInt = value := by
  obtain ⟨hmin, hmax⟩ := h
  cases sld with
  | sld_speed =>
      have h0 : 0 ≤ value := hmin
      have h240 : value ≤ 240 := hmax
      exact toInt_uint8 h0 (by omega)
  | sld_temp =>
      have h60 : -60 ≤ value := hmin
      have h60' : value ≤ 60 := hmax
      exact toInt_int8 (by omega) (by omega)
  | sld_bat =>
      have h0 : 0 ≤ value := hmin
      have h100 : value ≤ 100 := hmax
      exact toInt_uint8 h0 (by omega)

/-- The table's ranges lie within what its bit lengths can stand for. -/
theorem inTable_inRange {sld : Sld} {value : Int} (h : InTable sld value) :
    (readType sld).InRange (signalsLayout.length sld.sig) value := by
  obtain ⟨hmin, hmax⟩ := h
  cases sld with
  | sld_speed =>
      have h240 : value ≤ 240 := hmax
      exact ⟨hmin, show value < 2 ^ 8 by omega⟩
  | sld_temp =>
      have h60 : -60 ≤ value := hmin
      have h60' : value ≤ 60 := hmax
      exact ⟨show -2 ^ 6 ≤ value by omega, show value < 2 ^ 6 by omega⟩
  | sld_bat =>
      have h100 : value ≤ 100 := hmax
      exact ⟨hmin, show value < 2 ^ 7 by omega⟩

/-- A value the table allows survives the narrowing, the packing and the extension. -/
theorem extend_packed {sld : Sld} {value : Int} (h : InTable sld value) :
    (readType sld).extend (signalsLayout.length sld.sig) (packed value sld) = value := by
  have hval := insertCall_toInt h
  have hlen : signalsLayout.length sld.sig ≤ 32 := by cases sld <;> decide
  have hrange := inTable_inRange h
  rw [← hval] at hrange
  rw [packed, extend_of_inRange (Layout.length_key_pos sld.sig) hlen hrange, hval]

/-- What the call of a slider's setter does. -/
theorem invokeSetter_eq (w : Window) (sld : Sld) (value : Int) :
    ∃ m_buf, w.invokeSetter sld value = .ok (w.setBuf m_buf) ∧
      values signalsLayout m_buf =
        Function.update (values signalsLayout w.m_buf) sld.sig (packed value sld) := by
  obtain ⟨m_buf, hrun, hval⟩ := values_insertCall w.m_buf (insertCall value sld)
  refine ⟨m_buf, ?_, ?_⟩
  · rw [invokeSetter, setterMethod_eq, hrun, ok_bind]
  · rw [hval, packed]
    cases sld <;> rfl

/-- What `setLightSignals` does. -/
theorem setLightSignals_eq (m_buf : Buf SBUFLEN) (left right : Bool) :
    ∃ m_buf', setLightSignals m_buf left right = .ok m_buf' ∧
      values signalsLayout m_buf' =
        Function.update (Function.update (values signalsLayout m_buf) leftLight left.toNat)
          rightLight right.toNat := by
  have hbit : ∀ b, (boolToInt b).toNat % 2 ^ 1 = b.toNat := by decide
  obtain ⟨m_buf₁, hrun₁, hval₁⟩ :=
    values_insertHelper signalsLayout m_buf (boolToInt left) leftLight
  obtain ⟨m_buf₂, hrun₂, hval₂⟩ :=
    values_insertHelper signalsLayout m_buf₁ (boolToInt right) rightLight
  refine ⟨m_buf₂, ?_, ?_⟩
  · show (insertHelper signalsLayout.map m_buf (boolToInt left) leftLight.sig_str >>= fun m_buf =>
      insertHelper signalsLayout.map m_buf (boolToInt right) rightLight.sig_str) = _
    rw [hrun₁, ok_bind, hrun₂]
  · rw [hval₂, hval₁]
    show Function.update (Function.update _ _ ((boolToInt left).toNat % 2 ^ 1)) _
      ((boolToInt right).toNat % 2 ^ 1) = _
    rw [hbit, hbit]

/-- What `updateLights` does. -/
theorem updateLights_eq (w : Window) :
    ∃ m_buf, w.updateLights = .ok (w.setBuf m_buf) ∧
      values signalsLayout m_buf =
        Function.update (Function.update (values signalsLayout w.m_buf) leftLight
          (w.box_left.checked || w.box_warning.checked).toNat) rightLight
          (w.box_right.checked || w.box_warning.checked).toNat := by
  obtain ⟨m_buf, hrun, hval⟩ := setLightSignals_eq w.m_buf
    (w.box_left.checked || w.box_warning.checked) (w.box_right.checked || w.box_warning.checked)
  exact ⟨m_buf, by rw [updateLights, hrun, ok_bind], hval⟩

/-! ## Agreement -/

/-- A slider has its signal's range, and its label and its signal show its value. -/
structure SliderAgrees (w : Window) (sld : Sld) : Prop where
  minimum : (w.slider sld).minimum = (signalsLayout.info sld.sig).min
  maximum : (w.slider sld).maximum = (signalsLayout.info sld.sig).max
  text : w.valLabel sld = labelText (w.slider sld).value sld.unit
  signal : values signalsLayout w.m_buf sld.sig = packed (w.slider sld).value sld

/-- Each direction box is disabled while the other one is checked. -/
structure Exclusive (w : Window) : Prop where
  left : w.box_left.enabled = !w.box_right.checked
  right : w.box_right.enabled = !w.box_left.checked
  apart : ¬(w.box_left.checked = true ∧ w.box_right.checked = true)

/-- The light signals show the boxes. -/
structure LightsAgree (w : Window) : Prop where
  left : values signalsLayout w.m_buf leftLight =
    (w.box_left.checked || w.box_warning.checked).toNat
  right : values signalsLayout w.m_buf rightLight =
    (w.box_right.checked || w.box_warning.checked).toNat

/-- The widgets and the buffer agree. -/
structure Agrees (w : Window) : Prop where
  sliders : ∀ sld, w.SliderAgrees sld
  boxes : w.Exclusive
  lights : w.LightsAgree

variable {w : Window} {sld : Sld}

theorem SliderAgrees.inTable (h : w.SliderAgrees sld) : InTable sld (w.slider sld).value := by
  rw [InTable, ← h.minimum, ← h.maximum]
  exact (w.slider sld).bounded

theorem sig_ne_light (sld : Sld) : sld.sig ≠ leftLight ∧ sld.sig ≠ rightLight := by
  cases sld <;> decide

theorem sig_injective {sld other : Sld} (h : other.sig = sld.sig) : other = sld := by
  cases sld <;> cases other <;> first | rfl | exact absurd h (by decide)

/-- A slider that is given a new state, with its label and its signal, agrees, and
    the others still do. -/
theorem SliderAgrees.set {slider : Slider} {m_buf : Buf SBUFLEN} {other : Sld}
    (h : other ≠ sld → w.SliderAgrees other)
    (hmin : slider.minimum = (signalsLayout.info sld.sig).min)
    (hmax : slider.maximum = (signalsLayout.info sld.sig).max)
    (hval : values signalsLayout m_buf =
      Function.update (values signalsLayout w.m_buf) sld.sig (packed slider.value sld)) :
    (((w.setSlider sld slider).setText sld slider.value).setBuf m_buf).SliderAgrees other := by
  by_cases heq : other = sld
  · -- the slider itself
    subst heq
    have hslider : Function.update w.slider other slider other = slider := Function.update_self ..
    constructor
    · exact (congrArg Slider.minimum hslider).trans hmin
    · exact (congrArg Slider.maximum hslider).trans hmax
    · show Function.update w.valLabel other _ other =
        labelText (Function.update w.slider other slider other).value other.unit
      rw [Function.update_self, Function.update_self]
    · show values signalsLayout m_buf other.sig =
        packed (Function.update w.slider other slider other).value other
      rw [hval, Function.update_self, Function.update_self]
  · -- another one
    have ho := h heq
    have hslider : Function.update w.slider sld slider other = w.slider other :=
      Function.update_of_ne heq ..
    constructor
    · exact (congrArg Slider.minimum hslider).trans ho.minimum
    · exact (congrArg Slider.maximum hslider).trans ho.maximum
    · show Function.update w.valLabel sld _ other =
        labelText (Function.update w.slider sld slider other).value other.unit
      rw [hslider, Function.update_of_ne heq, ho.text]
    · show values signalsLayout m_buf other.sig =
        packed (Function.update w.slider sld slider other).value other
      rw [hslider, hval, Function.update_of_ne (fun hs => heq (sig_injective hs)), ho.signal]

/-- A slider's signal is none of the lights. -/
theorem LightsAgree.set {slider : Slider} {m_buf : Buf SBUFLEN} {v : Nat}
    (hval : values signalsLayout m_buf =
      Function.update (values signalsLayout w.m_buf) sld.sig v) (h : w.LightsAgree) :
    (((w.setSlider sld slider).setText sld slider.value).setBuf m_buf).LightsAgree := by
  obtain ⟨hl, hr⟩ := sig_ne_light sld
  constructor
  · show values signalsLayout m_buf leftLight = _
    rw [hval, Function.update_of_ne (Ne.symm hl), h.left]
    rfl
  · show values signalsLayout m_buf rightLight = _
    rw [hval, Function.update_of_ne (Ne.symm hr), h.right]
    rfl

/-- `setupSlider` with the range of the table makes the slider agree. -/
theorem setupSlider_agrees (w : Window) (sld : Sld) :
    ∃ u, w.setupSlider sld (signalsLayout.info sld.sig).min (signalsLayout.info sld.sig).max =
        .ok u ∧
      (∀ other, (other ≠ sld → w.SliderAgrees other) → u.SliderAgrees other) ∧
      (w.Exclusive → u.Exclusive) := by
  have hle : (signalsLayout.info sld.sig).min ≤ (signalsLayout.info sld.sig).max := by
    cases sld <;> decide
  -- the slider as `setRange` and `setValue` leave it
  generalize hs : ((w.slider sld).setRange (signalsLayout.info sld.sig).min
    (signalsLayout.info sld.sig).max).setValue (signalsLayout.info sld.sig).min = slider
  have hmin : slider.minimum = (signalsLayout.info sld.sig).min := by rw [← hs]; rfl
  have hmax : slider.maximum = (signalsLayout.info sld.sig).max := by
    rw [← hs]
    exact Int.max_eq_right hle
  have hvalue : slider.value = (signalsLayout.info sld.sig).min := by
    rw [← hs]
    exact Slider.bound_of_mem ⟨Int.le_refl _, Int.le_max_left ..⟩
  obtain ⟨m_buf, hrun, hval⟩ := invokeSetter_eq
    ((w.setSlider sld slider).setText sld slider.value) sld slider.value
  refine ⟨((w.setSlider sld slider).setText sld slider.value).setBuf m_buf, ?_, ?_, ?_⟩
  · rw [← hrun, hvalue, setupSlider, hs]
  · intro other hother
    exact SliderAgrees.set hother hmin hmax hval
  · intro h
    exact ⟨h.left, h.right, h.apart⟩

/-- `updateLights` makes the lights agree, and keeps the sliders and the boxes. -/
theorem updateLights_agrees (hsliders : ∀ sld, w.SliderAgrees sld) (hboxes : w.Exclusive) :
    ∃ u, w.updateLights = .ok u ∧ u.Agrees := by
  obtain ⟨m_buf, hrun, hval⟩ := updateLights_eq w
  refine ⟨w.setBuf m_buf, hrun, ?_, ⟨hboxes.left, hboxes.right, hboxes.apart⟩, ?_⟩
  · intro sld
    obtain ⟨hl, hr⟩ := sig_ne_light sld
    refine ⟨(hsliders sld).minimum, (hsliders sld).maximum, (hsliders sld).text, ?_⟩
    show values signalsLayout m_buf sld.sig = _
    rw [hval, Function.update_of_ne hr, Function.update_of_ne hl]
    exact (hsliders sld).signal
  · have hne : leftLight ≠ rightLight := by decide
    constructor
    · show values signalsLayout m_buf leftLight = _
      rw [hval, Function.update_of_ne hne, Function.update_self]
      rfl
    · show values signalsLayout m_buf rightLight = _
      rw [hval, Function.update_self]
      rfl

/-- The constructor leaves the widgets and the buffer in agreement. -/
theorem new_agrees (m_com_service : ComService) :
    ∃ w, new m_com_service = .ok w ∧ w.Agrees := by
  obtain ⟨w₁, hrun₁, hs₁, hb₁⟩ := setupSlider_agrees { m_com_service } .sld_bat
  obtain ⟨w₂, hrun₂, hs₂, hb₂⟩ := setupSlider_agrees w₁ .sld_temp
  obtain ⟨w₃, hrun₃, hs₃, hb₃⟩ := setupSlider_agrees w₂ .sld_speed
  -- each slider agrees from its own call on, and the later calls keep it
  have hsliders : ∀ sld, w₃.SliderAgrees sld := by
    intro sld
    apply hs₃
    intro hspeed
    apply hs₂
    intro htemp
    apply hs₁
    intro hbat
    cases sld
    · exact absurd rfl hspeed
    · exact absurd rfl htemp
    · exact absurd rfl hbat
  obtain ⟨u, hrun, hu⟩ := updateLights_agrees hsliders (hb₃ (hb₂ (hb₁ ⟨rfl, rfl, by simp⟩)))
  refine ⟨u, ?_, hu⟩
  have hspeed : signalsMap.get "speed" = .ok (signalsLayout.info Sld.sld_speed.sig) :=
    Layout.get_key speed
  have htemp : signalsMap.get "temperature" = .ok (signalsLayout.info Sld.sld_temp.sig) :=
    Layout.get_key temperature
  have hbat : signalsMap.get "battery_level" = .ok (signalsLayout.info Sld.sld_bat.sig) :=
    Layout.get_key batteryLevel
  rw [new, hspeed, ok_bind, htemp, ok_bind, hbat, ok_bind, hrun₁, ok_bind, hrun₂, ok_bind, hrun₃,
    ok_bind, hrun]

/-- Moving a slider keeps the agreement. -/
theorem slide_agrees (h : w.Agrees) (sld : Sld) (value : Int) :
    ∃ u, w.slide sld value = .ok u ∧ u.Agrees := by
  by_cases hsame : ((w.slider sld).setValue value).value = (w.slider sld).value
  · -- nothing is signalled
    exact ⟨w, if_pos hsame, h⟩
  · generalize hs : (w.slider sld).setValue value = slider at hsame
    have hmin : slider.minimum = (signalsLayout.info sld.sig).min := by
      rw [← hs]
      exact (h.sliders sld).minimum
    have hmax : slider.maximum = (signalsLayout.info sld.sig).max := by
      rw [← hs]
      exact (h.sliders sld).maximum
    obtain ⟨m_buf, hrun, hval⟩ := invokeSetter_eq
      ((w.setSlider sld slider).setText sld slider.value) sld slider.value
    refine ⟨((w.setSlider sld slider).setText sld slider.value).setBuf m_buf, ?_, ?_, ?_, ?_⟩
    · rw [slide, hs, if_neg hsame, valueChanged, hrun]
    · intro other
      exact SliderAgrees.set (fun _ => h.sliders other) hmin hmax hval
    · exact ⟨h.boxes.left, h.boxes.right, h.boxes.apart⟩
    · exact h.lights.set hval

/-- A window whose sliders and service are the same has the same agreeing sliders. -/
theorem SliderAgrees.congr {u : Window} (h : w.SliderAgrees sld) (hslider : u.slider = w.slider)
    (hlabel : u.valLabel = w.valLabel) (hcom : u.m_com_service = w.m_com_service) :
    u.SliderAgrees sld := by
  obtain ⟨hmin, hmax, htext, hsignal⟩ := h
  rw [← hslider] at hmin hmax htext hsignal
  rw [← hlabel] at htext
  rw [m_buf, ← hcom] at hsignal
  exact ⟨hmin, hmax, htext, hsignal⟩

/-- Toggling an enabled box keeps the agreement. -/
theorem toggle_agrees (h : w.Agrees) {box : Box} (hpos : (w.box box).enabled = true) :
    ∃ u, w.act (.toggle box) = .ok u ∧ u.Agrees := by
  obtain ⟨hl, hr, hapart⟩ := h.boxes
  cases box with
  | box_left =>
      -- only an unchecked right box leaves the left one enabled
      have hright : w.box_right.checked = false := by simpa [Window.box, hl] using hpos
      exact updateLights_agrees (fun sld => (h.sliders sld).congr rfl rfl rfl)
        ⟨hl, rfl, by simp [setChecked, hright]⟩
  | box_right =>
      -- and the other way round
      have hleft : w.box_left.checked = false := by simpa [Window.box, hr] using hpos
      exact updateLights_agrees (fun sld => (h.sliders sld).congr rfl rfl rfl)
        ⟨rfl, hr, by simp [setChecked, hleft]⟩
  | box_warning =>
      -- the warning box is no part of the exclusion
      exact updateLights_agrees (fun sld => (h.sliders sld).congr rfl rfl rfl) ⟨hl, hr, hapart⟩

/-- Every action the user can take keeps the agreement. -/
theorem Agrees.act (h : w.Agrees) {a : Action} (hpos : w.Possible a) :
    ∃ u, w.act a = .ok u ∧ u.Agrees := by
  cases a with
  | slide sld value => exact slide_agrees h sld value
  | toggle box => exact toggle_agrees h hpos

theorem Agrees.step (h : w.Agrees) {a : Action} {u : Window} (hs : w.step a = some u) :
    u.Agrees := by
  rw [Window.step] at hs
  split at hs
  · rename_i hpos
    obtain ⟨v, hv, hagrees⟩ := h.act hpos
    rw [hv] at hs
    cases hs
    exact hagrees
  · cases hs

/-- In an agreeing window the client's getters return what the widgets show. -/
theorem Agrees.getter (h : w.Agrees) (sld : Sld) :
    sld.getter w.m_buf = .ok (w.slider sld).value := by
  rw [getter_eq, (h.sliders sld).signal, extend_packed (h.sliders sld).inTable]

theorem Agrees.getLights (h : w.Agrees) :
    getLeftLight w.m_buf = .ok (w.box_left.checked || w.box_warning.checked).toInt ∧
      getRightLight w.m_buf = .ok (w.box_right.checked || w.box_warning.checked).toInt := by
  have hbit : ∀ b : Bool, IntType.extend .bool 1 b.toNat = b.toInt := by decide
  have hleft := readSignal_values signalsLayout w.m_buf leftLight .bool (by decide)
  have hright := readSignal_values signalsLayout w.m_buf rightLight .bool (by decide)
  rw [h.lights.left] at hleft
  rw [h.lights.right] at hright
  exact ⟨hleft.trans (congrArg _ (hbit _)), hright.trans (congrArg _ (hbit _))⟩

/-- Whatever sequence of actions the user takes after the constructor, every handler is
    defined, the two direction boxes are never both checked, and the client's getters
    decode `m_buf` to what the sliders and the boxes show. -/
theorem window_agrees (m_com_service : ComService) :
    ∃ w₀, new m_com_service = .ok w₀ ∧ ∀ actions w, Run step Always w₀ actions w →
      ¬(w.box_left.checked = true ∧ w.box_right.checked = true) ∧
      getSpeed w.m_buf = .ok (w.slider .sld_speed).value ∧
      getTemp w.m_buf = .ok (w.slider .sld_temp).value ∧
      getBattery w.m_buf = .ok (w.slider .sld_bat).value ∧
      getLeftLight w.m_buf = .ok (w.box_left.checked || w.box_warning.checked).toInt ∧
      getRightLight w.m_buf = .ok (w.box_right.checked || w.box_warning.checked).toInt ∧
      ∀ a, w.Possible a → ∃ u, w.act a = .ok u := by
  obtain ⟨w₀, hnew, h₀⟩ := new_agrees m_com_service
  refine ⟨w₀, hnew, ?_⟩
  intro actions w hrun
  have h : w.Agrees := hrun.invariant h₀ fun _ _ _ hi _ hs => hi.step hs
  refine ⟨h.boxes.apart, h.getter .sld_speed, h.getter .sld_temp, h.getter .sld_bat,
    h.getLights.1, h.getLights.2, ?_⟩
  intro a hpos
  obtain ⟨u, hu, -⟩ := h.act hpos
  exact ⟨u, hu⟩

/-- A temperature below zero, a left turn and then the warning lights. -/
def coldTurn : List Action :=
  [.slide .sld_temp (-5), .toggle .box_left, .toggle .box_warning]

theorem window_agrees_warning :
    ∃ w₀ w, new {} = .ok w₀ ∧ Run step Always w₀ coldTurn w ∧
      getTemp w.m_buf = .ok (-5) ∧ getRightLight w.m_buf = .ok 1 := by
  obtain ⟨w₀, hnew, hagrees⟩ := window_agrees {}
  have hexec : (new {}).toOption.any (fun w₀ => (exec step Always w₀ coldTurn).any fun w =>
      decide ((w.slider .sld_temp).value = -5 ∧ w.box_warning.checked = true)) = true := by
    decide
  rw [hnew] at hexec
  obtain ⟨w, hrun, htemp, hwarning⟩ := Run.exists_of_exec hexec
  obtain ⟨-, -, hgetTemp, -, -, hgetRight, -⟩ := hagrees coldTurn w hrun
  rw [htemp] at hgetTemp
  rw [hwarning, Bool.or_true] at hgetRight
  exact ⟨w₀, w, hnew, hrun, hgetTemp, hgetRight⟩

end Window
end Speedometer.Server
