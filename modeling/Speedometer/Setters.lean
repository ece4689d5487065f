/-
  Speedometer.Setters

  The server's setters and the client's getters over one buffer: what each getter
  reads after any calls of the setters, from a buffer of zeros on.
-/

import Speedometer.Client.Window
import Speedometer.Codec

namespace Speedometer

open Cpp Setting Client
open Server (InsertCall)

/-- The buffer after calls of the setters, as `COMService` starts with it. -/
def runCalls (calls : List InsertCall) : Result (Buf SBUFLEN) :=
  calls.foldlM InsertCall.run (Buf.zero SBUFLEN)

/-- The signal a getter reads. -/
def Client.Getter.key : Getter → signalsLayout.Key
  | .speed => Setting.speed
  | .temp => Setting.temperature
  | .battery => Setting.batteryLevel
  | .leftLight => Setting.leftLight
  | .rightLight => Setting.rightLight

theorem Client.Getter.key_injective {sig sig' : Getter} (h : sig.key = sig'.key) : sig = sig' := by
  cases sig <;> cases sig' <;> first | rfl | exact absurd h (by decide)

/-- The value of the last call for a getter's signal, cut to the signal's length and
    extended as the getter's type asks; 0 if there was none. -/
def lastSet (calls : List InsertCall) (sig : Getter) : Int :=
  match lastInserted (calls.map fun call => (call.val, call.sig)) sig.key with
  | some val => (getterType sig.key).extend (signalsLayout.length sig.key)
      (val.toNat % 2 ^ signalsLayout.length sig.key)
  | none => 0

theorem runCalls_append (calls : List InsertCall) (call : InsertCall) :
    runCalls (calls ++ [call]) = runCalls calls >>= fun m_buf => call.run m_buf := by
  rw [runCalls, List.foldlM_append, ← runCalls]
  simp

/-- The calls are calls of `insert_helper`. -/
theorem runCalls_eq (calls : List InsertCall) :
    runCalls calls = insertAll signalsLayout (Buf.zero SBUFLEN)
      (calls.map fun call => (call.val, call.sig)) := by
  rw [runCalls, insertAll, List.foldlM_map]
  congr 1
  funext m_buf call
  exact InsertCall.run_eq m_buf call

/-- A getter reads its signal's variable. -/
theorem Client.Getter.read_values (sig : Getter) (m_buffer : Buf SBUFLEN) :
    sig.read m_buffer = .ok ((getterType sig.key).extend (signalsLayout.length sig.key)
      (values signalsLayout m_buffer sig.key)) := by
  have hT : ∀ sig : Getter,
      signalsLayout.length sig.key ≤ (getterType sig.key).bits := by
    intro sig
    cases sig <;> decide
  cases sig with
  | speed => exact readSignal_values signalsLayout m_buffer Setting.speed _ (hT .speed)
  | temp => exact readSignal_values signalsLayout m_buffer temperature _ (hT .temp)
  | battery => exact readSignal_values signalsLayout m_buffer batteryLevel _ (hT .battery)
  | leftLight => exact readSignal_values signalsLayout m_buffer Setting.leftLight _ (hT .leftLight)
  | rightLight =>
      exact readSignal_values signalsLayout m_buffer Setting.rightLight _ (hT .rightLight)

/-- After any calls of the setters every getter reads what was last set. -/
theorem read_runCalls (calls : List InsertCall) :
    ∃ m_buf, runCalls calls = .ok m_buf ∧
      ∀ sig : Getter, sig.read m_buf = .ok (lastSet calls sig) := by
  obtain ⟨m_buf, hok, hval⟩ := values_insertAll signalsLayout (Buf.zero SBUFLEN)
    (calls.map fun call => (call.val, call.sig))
  refine ⟨m_buf, (runCalls_eq calls).trans hok, ?_⟩
  intro sig
  rw [sig.read_values, hval, lastSet]
  cases lastInserted (calls.map fun call => (call.val, call.sig)) sig.key with
  | some val => rfl
  | none =>
      have hzero : values signalsLayout (Buf.zero SBUFLEN) sig.key = 0 := by
        cases sig <;> decide
      simp only [hzero]
      cases sig <;> rfl

end Speedometer
