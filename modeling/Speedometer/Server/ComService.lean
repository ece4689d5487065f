/-
  Speedometer.Server.ComService

  The desktop server's `COMService`: `insert_helper` and the setters that pack
  one signal each into `m_buf`.

  `insert_helper` assembles the buffer in a 32-bit word, replaces the signal's
  bits there and scatters the word back.  `insertBits_eq` says when this is
  defined and what it computes: on at most four bytes, for a signal of at most
  30 bits inside the buffer, it is `BitField.setField` on the buffer read as a
  little-endian number.
-/

import Mathlib.Tactic.IntervalCases
import Speedometer.Setting

namespace Speedometer.Server

open Cpp Setting

/-! ## Source -/

/-- `CHAR_BIT`. -/
def CHAR_BIT : Nat := 8

/-- The loop that fills `temp_buf`, from index `i - 1` down to `0`. -/
def fillTemp {n : Nat} (m_buf : Buf n) (buf_size : BitVec 32) (temp_buf : BitVec 32) :
    (i : Nat) → i ≤ n → Result (BitVec 32)
  | 0, _ => .ok temp_buf
  | i + 1, h => do
      let above ← int ((n - i) * CHAR_BIT)
      let byte ← shlInt (m_buf[i].setWidth 32) (buf_size - above).toNat
      fillTemp m_buf buf_size (temp_buf ||| byte) i (by omega)

/-- The loop that writes `temp_buf` back, after its iterations `0 .. i - 1`. -/
def storeTemp {n : Nat} (temp_buf : BitVec 32) (m_buf : Buf n) :
    (i : Nat) → i ≤ n → Result (Buf n)
  | 0, _ => .ok m_buf
  | i + 1, h => do
      let m_buf ← storeTemp temp_buf m_buf i (by omega)
      let byte ← shr temp_buf (i * CHAR_BIT)
      .ok (m_buf.set i ((byte &&& 0xFF).setWidth 8))

/-- `(1 << length) - 1`, computed on `int`. -/
def bitmask (length : Nat) : Result (BitVec 32) := do
  let one ← shlInt 1 length
  int (one.toInt - 1)

/-- The critical section of `insert_helper`. -/
def insertBits {n : Nat} (m_buf : Buf n) (val : BitVec 32) (signal_info : Info) :
    Result (Buf n) := do
  let buf_size ← int (n * CHAR_BIT)
  let temp_buf ← fillTemp m_buf buf_size 0 n (Nat.le_refl n)
  let mask ← bitmask signal_info.length.toNat
  let place ← shl mask signal_info.start.toNat
  let temp_buf := temp_buf &&& ~~~place
  let value ← shl (val &&& mask) signal_info.start.toNat
  let temp_buf := temp_buf ||| value
  storeTemp temp_buf m_buf n (Nat.le_refl n)

/-- `COMService::insert_helper`. -/
def insertHelper {n : Nat} (signals : SignalsMap) (m_buf : Buf n) (val : BitVec 32)
    (sig_str : String) : Result (Buf n) := do
  let signal_info ← signals.get sig_str
  insertBits m_buf val signal_info

/-- `COMService::setSpeed`. -/
def setSpeed (m_buf : Buf SBUFLEN) (speed_kph : BitVec 8) : Result (Buf SBUFLEN) :=
  insertHelper signalsMap m_buf (speed_kph.setWidth 32) "speed"

/-- `COMService::setTemp`. -/
def setTemp (m_buf : Buf SBUFLEN) (temp_c : BitVec 8) : Result (Buf SBUFLEN) :=
  insertHelper signalsMap m_buf (temp_c.signExtend 32) "temperature"

/-- `COMService::setBattery`. -/
def setBattery (m_buf : Buf SBUFLEN) (bat_prc : BitVec 8) : Result (Buf SBUFLEN) :=
  insertHelper signalsMap m_buf (bat_prc.setWidth 32) "battery_level"

/-- `static_cast<int>(b)` of a `bool`. -/
def boolToInt (b : Bool) : BitVec 32 := if b then 1 else 0

/-- `COMService::setLightSignals`. -/
def setLightSignals (m_buf : Buf SBUFLEN) (left right : Bool) : Result (Buf SBUFLEN) := do
  let m_buf ← insertHelper signalsMap m_buf (boolToInt left) "left_light"
  insertHelper signalsMap m_buf (boolToInt right) "right_light"

/-- The calls of `insert_helper` the setters make.  Each takes the lock once, so
    `setLightSignals` is two of them. -/
inductive InsertCall
  | speed (speed_kph : BitVec 8)
  | temp (temp_c : BitVec 8)
  | battery (bat_prc : BitVec 8)
  | leftLight (left : Bool)
  | rightLight (right : Bool)
deriving DecidableEq, Repr

/-- What a call does to the buffer. -/
def InsertCall.run (m_buf : Buf SBUFLEN) : InsertCall → Result (Buf SBUFLEN)
  | .speed speed_kph => setSpeed m_buf speed_kph
  | .temp temp_c => setTemp m_buf temp_c
  | .battery bat_prc => setBattery m_buf bat_prc
  | .leftLight left => insertHelper signalsMap m_buf (boolToInt left) "left_light"
  | .rightLight right => insertHelper signalsMap m_buf (boolToInt right) "right_light"

/-- The signal a setter's call writes. -/
def InsertCall.sig : InsertCall → signalsLayout.Key
  | .speed _ => Setting.speed
  | .temp _ => Setting.temperature
  | .battery _ => Setting.batteryLevel
  | .leftLight _ => Setting.leftLight
  | .rightLight _ => Setting.rightLight

/-- The value it passes, as an `int`. -/
def InsertCall.val : InsertCall → BitVec 32
  | .speed speed_kph => speed_kph.setWidth 32
  | .temp temp_c => temp_c.signExtend 32
  | .battery bat_prc => bat_prc.setWidth 32
  | .leftLight left => boolToInt left
  | .rightLight right => boolToInt right

theorem InsertCall.run_eq (m_buf : Buf SBUFLEN) (call : InsertCall) :
    call.run m_buf = insertHelper signalsMap m_buf call.val call.sig.sig_str := by
  cases call <;> rfl

/-- The members of the server's `COMService` that its threads share. -/
structure ComService where
  m_buf : Buf SBUFLEN := Buf.zero SBUFLEN
  m_status : Bool := false
deriving DecidableEq

/-! ## The two loops -/

/-- A byte promoted to `int` can be shifted to any of the four byte places. -/
theorem shlInt_byte (b : BitVec 8) {i : Nat} (hi : i < 4) :
    shlInt (b.setWidth 32) (8 * i) = .ok (BitVec.ofNat 32 (2 ^ (8 * i) * b.toNat)) := by
  have hb : b.toNat < 2 ^ 8 := b.isLt
  have hw : (b.setWidth 32).toNat = b.toNat := by
    rw [BitVec.toNat_setWidth, Nat.mod_eq_of_lt (by omega)]
  have hpos : 0 ≤ (b.setWidth 32).toInt := by
    rw [BitVec.toInt_eq_toNat_of_lt (by omega)]
    omega
  have hfit : b.toNat * 2 ^ (8 * i) < 2 ^ 32 := by
    have hle : 2 ^ (8 * i) ≤ 2 ^ 24 := Nat.pow_le_pow_right (by decide) (by omega)
    calc b.toNat * 2 ^ (8 * i) ≤ b.toNat * 2 ^ 24 := Nat.mul_le_mul_left _ hle
      _ < 2 ^ 32 := by omega
  rw [shlInt, if_pos (by omega), if_pos ⟨hpos, by rwa [hw]⟩]
  congr 1
  apply BitVec.eq_of_toNat_eq
  rw [BitVec.toNat_shiftLeft, hw, BitVec.toNat_ofNat, Nat.shiftLeft_eq, Nat.mul_comm]

/-- The shift count the filling loop computes for index `i` is `8 * i`. -/
theorem place_eq {n i : Nat} (hn : n ≤ 4) (hi : i < n) :
    (BitVec.ofNat 32 (n * CHAR_BIT) - BitVec.ofNat 32 ((n - i) * CHAR_BIT)).toNat = 8 * i := by
  simp only [CHAR_BIT, BitVec.toNat_sub, BitVec.toNat_ofNat]
  omega

/-- On at most four bytes the filling loop ors in the bytes below index `i`, each
    at its little-endian place. -/
theorem fillTemp_eq {n : Nat} (hn : n ≤ 4) (m_buf : Buf n) (temp_buf : BitVec 32) (i : Nat)
    (hi : i ≤ n) :
    fillTemp m_buf (BitVec.ofNat 32 (n * CHAR_BIT)) temp_buf i hi =
      .ok (temp_buf ||| BitVec.ofNat 32 (LittleEndian.leNat (m_buf.toList.take i))) := by
  induction i generalizing temp_buf with
  | zero => simp [fillTemp]
  | succ i ih =>
      have habove : int (((n : Int) - i) * CHAR_BIT) =
          .ok (BitVec.ofNat 32 ((n - i) * CHAR_BIT)) := by
        have hcast : ((n : Int) - i) * CHAR_BIT = ((n - i) * CHAR_BIT : Nat) := by
          rw [Nat.cast_mul, Nat.cast_sub (by omega)]
        rw [hcast, int_natCast (by unfold CHAR_BIT; omega)]
      have hlt : LittleEndian.leNat (m_buf.toList.take i) < 2 ^ (8 * i) := by
        have h := LittleEndian.leNat_lt (m_buf.toList.take i)
        rwa [List.length_take, Vector.length_toList, Nat.min_eq_left (by omega)] at h
      have htake : LittleEndian.leNat (m_buf.toList.take (i + 1)) =
          2 ^ (8 * i) * m_buf[i].toNat ||| LittleEndian.leNat (m_buf.toList.take i) := by
        rw [LittleEndian.leNat_take_succ (by rw [Vector.length_toList]; omega),
          Nat.two_pow_add_eq_or_of_lt hlt, Vector.getElem_toList]
      rw [fillTemp, habove, ok_bind, place_eq hn hi, shlInt_byte m_buf[i] (by omega), ok_bind, ih,
        htake, BitVec.ofNat_or, BitVec.or_assoc]

/-- On at most four bytes the storing loop overwrites the first `i` bytes with
    those of `temp_buf`. -/
theorem storeTemp_eq {n : Nat} (hn : n ≤ 4) (temp_buf : BitVec 32) (m_buf : Buf n) (i : Nat)
    (hi : i ≤ n) :
    ∃ m_buf', storeTemp temp_buf m_buf i hi = .ok m_buf' ∧
      m_buf'.toList = LittleEndian.leBytes i temp_buf.toNat ++ m_buf.toList.drop i := by
  induction i with
  | zero => exact ⟨m_buf, rfl, by simp [LittleEndian.leBytes]⟩
  | succ i ih =>
      obtain ⟨m_buf', hstore, hlist⟩ := ih (by omega)
      have hshr : shr temp_buf (i * CHAR_BIT) = .ok (temp_buf >>> (i * CHAR_BIT)) := by
        apply shr_ok
        unfold CHAR_BIT
        omega
      refine ⟨m_buf'.set i ((temp_buf >>> (i * CHAR_BIT) &&& 0xFF).setWidth 8), ?_, ?_⟩
      · rw [storeTemp, hstore, ok_bind, hshr, ok_bind]
      · have hbyte : (temp_buf >>> (i * CHAR_BIT) &&& 0xFF).setWidth 8 =
            BitVec.ofNat 8 (temp_buf.toNat >>> (8 * i)) := by
          apply BitVec.eq_of_toNat_eq
          rw [BitVec.toNat_setWidth, BitVec.toNat_and, BitVec.toNat_ushiftRight,
            BitVec.toNat_ofNat, CHAR_BIT, Nat.mul_comm i 8]
          exact congrArg (· % 2 ^ 8) (Nat.and_two_pow_sub_one_eq_mod _ 8) |>.trans
            (Nat.mod_mod _ _)
        have hdrop : m_buf.toList.drop i = m_buf[i] :: m_buf.toList.drop (i + 1) := by
          rw [List.drop_eq_getElem_cons (by rw [Vector.length_toList]; omega),
            Vector.getElem_toList]
        rw [Vector.toList_set, hlist, hdrop, hbyte, LittleEndian.leBytes_succ,
          List.set_append_right _ _ (by simp)]
        simp

/-! ## The critical section as a field update -/

/-- For a length of at most 30 bits the mask is the low `length` bits. -/
theorem bitmask_eq {len : Nat} (hlen : len ≤ 30) :
    bitmask len = .ok (BitVec.ofNat 32 (2 ^ len - 1)) := by
  have hpow : 2 ^ len ≤ 2 ^ 30 := Nat.pow_le_pow_right (by decide) hlen
  have hpos : 0 < 2 ^ len := Nat.two_pow_pos len
  have hone : (1#32 <<< len).toNat = 2 ^ len := by
    rw [BitVec.toNat_shiftLeft, Nat.shiftLeft_eq]
    simp only [BitVec.toNat_ofNat]
    omega
  have hint : (1#32 <<< len).toInt - 1 = (2 ^ len - 1 : Nat) := by
    rw [BitVec.toInt_eq_toNat_of_lt (by omega), hone]
    omega
  have hshl : shlInt 1 len = .ok (1#32 <<< len) := by
    have hfit : (0 : Int) ≤ (1#32).toInt ∧ (1#32).toNat * 2 ^ len < 2 ^ 32 := by
      refine ⟨by decide, ?_⟩
      simp only [BitVec.toNat_ofNat]
      omega
    exact (if_pos (by omega)).trans (if_pos hfit)
  rw [bitmask, hshl, ok_bind, hint, int_natCast (by omega)]

/-- Clearing the masked bits and oring in the masked value is a field update. -/
theorem replace_toNat (temp_buf val : BitVec 32) {start len : Nat} (h : start + len ≤ 32) :
    ((temp_buf &&& ~~~(BitVec.ofNat 32 (2 ^ len - 1) <<< start)) |||
      ((val &&& BitVec.ofNat 32 (2 ^ len - 1)) <<< start)).toNat =
      BitField.setField temp_buf.toNat start len val.toNat := by
  apply Nat.eq_of_testBit_eq
  intro i
  rw [BitField.testBit_setField]
  simp only [BitVec.testBit_toNat, BitVec.getLsbD_or, BitVec.getLsbD_and, BitVec.getLsbD_not,
    BitVec.getLsbD_shiftLeft, BitVec.getLsbD_ofNat, Nat.testBit_two_pow_sub_one]
  by_cases hs : start ≤ i
  · by_cases hl : i < start + len
    · -- a bit of the field
      have h1 : i < 32 := by omega
      have h2 : i - start < len := by omega
      have h3 : i - start < 32 := by omega
      have h4 : ¬ i < start := by omega
      simp [hs, hl, h1, h2, h3, h4]
    · -- above the field, possibly above the word
      have h2 : ¬ i - start < len := by omega
      by_cases h1 : i < 32
      · simp [hl, h1, h2]
      · simp [hl, h1, h2, BitVec.getLsbD_of_ge _ _ (Nat.le_of_not_lt h1)]
  · -- below the field
    have h1 : i < 32 := by omega
    have h4 : i < start := by omega
    simp [hs, h1, h4]

/-- On at most four bytes, for a signal of at most 30 bits that starts below bit 32
    and ends inside the buffer, the critical section is defined and overwrites
    exactly the signal's field with the low bits of `val`. -/
theorem insertBits_eq {n : Nat} (hn : n ≤ 4) (m_buf : Buf n) (val : BitVec 32)
    (signal_info : Info) (hlen : signal_info.length.toNat ≤ 30)
    (hstart : signal_info.start.toNat < 32)
    (hin : signal_info.start.toNat + signal_info.length.toNat ≤ 8 * n) :
    ∃ m_buf', insertBits m_buf val signal_info = .ok m_buf' ∧
      m_buf'.toNat = BitField.setField m_buf.toNat signal_info.start.toNat
        signal_info.length.toNat val.toNat := by
  -- the word before the update is the buffer
  have hsize : int ((n : Int) * CHAR_BIT) = .ok (BitVec.ofNat 32 (n * CHAR_BIT)) := by
    rw [← Nat.cast_mul, int_natCast (by unfold CHAR_BIT; omega)]
  have hfill := fillTemp_eq hn m_buf 0 n (Nat.le_refl n)
  have htemp : (0#32 ||| BitVec.ofNat 32 (LittleEndian.leNat (m_buf.toList.take n))).toNat =
      m_buf.toNat := by
    have hle : 2 ^ (8 * n) ≤ 2 ^ 32 := Nat.pow_le_pow_right (by decide) (by omega)
    have hlt : LittleEndian.leNat m_buf.toList < 2 ^ 32 := lt_of_lt_of_le m_buf.toNat_lt hle
    rw [BitVec.zero_or, List.take_of_length_le (by simp), BitVec.toNat_ofNat,
      Nat.mod_eq_of_lt hlt, Buf.toNat]
  generalize (0#32 ||| BitVec.ofNat 32 (LittleEndian.leNat (m_buf.toList.take n))) = temp_buf
    at hfill htemp
  obtain ⟨m_buf', hstore, hlist⟩ := storeTemp_eq hn
    ((temp_buf &&& ~~~(BitVec.ofNat 32 (2 ^ signal_info.length.toNat - 1) <<<
        signal_info.start.toNat)) |||
      ((val &&& BitVec.ofNat 32 (2 ^ signal_info.length.toNat - 1)) <<<
        signal_info.start.toNat))
    m_buf n (Nat.le_refl n)
  refine ⟨m_buf', ?_, ?_⟩
  · -- every step of the critical section is defined
    rw [insertBits, hsize, ok_bind, hfill, ok_bind, bitmask_eq hlen, ok_bind, shl_ok _ hstart,
      ok_bind, shl_ok _ hstart, ok_bind]
    exact hstore
  · -- the bytes written back are those of the updated word
    rw [Buf.toNat, hlist, LittleEndian.leNat_append, LittleEndian.leNat_leBytes,
      replace_toNat temp_buf val (by omega), htemp]
    have hdrop : m_buf.toList.drop n = [] := by simp
    rw [hdrop, LittleEndian.leNat_nil, Nat.mul_zero, Nat.zero_add,
      Nat.mod_eq_of_lt (BitField.setField_lt m_buf.toNat_lt hin)]

end Speedometer.Server
