/-
  Speedometer.Client.ComService

  The desktop client's `COMService`: `extract64` and `read<T>` take a signal out
  of the received buffer, and the getters read one signal each.

  `extract64_eq` gives both branches of `extract64` one meaning: the eight bytes
  from `byte_off` on, as a little-endian number, cut off at the end of the buffer.
  `read_window` says what `read<T>` makes of them: the addressed bits that lie
  within 64 bits of the field's first byte, extended as `T` asks.  A field that
  ends there is returned whole (`read_eq`); `read_addressed_iff` says when any
  field is.
-/

import Mathlib.Tactic.Linarith
import Speedometer.Setting

namespace Speedometer.Client

open Cpp Setting

/-! ## Source -/

/-- The byte loop of `extract64`, after its iterations `0 .. i - 1`. -/
def extractLoop {n : Nat} (m_buffer : Buf n) (byte_off : Nat) : Nat → Result (BitVec 64)
  | 0 => .ok 0
  | i + 1 => do
      let v ← extractLoop m_buffer byte_off i
      let byte ← m_buffer.load (byte_off + i)
      let place ← shl (byte.setWidth 64) (i <<< 3)
      .ok (v ||| place)

/-- `COMService::extract64`, on a little-endian host. -/
def extract64 {n : Nat} (m_buffer : Buf n) (byte_off : Nat) : Result (BitVec 64) :=
  -- the sum does not wrap: `m_buffer` is a member beside the mutex, so `n + 8` is a `size_t`
  if byte_off + 8 ≤ n then do
    let bytes ← m_buffer.memcpy byte_off 8
    .ok (BitVec.ofNat 64 (LittleEndian.leNat bytes))
  else
    extractLoop m_buffer byte_off (sizeSub n byte_off)

/-- `mask` of `read`: the low `bit_len` bits. -/
def readMask (bit_len : Nat) : Result (BitVec 64) := do
  if 64 ≤ bit_len then
    .ok (BitVec.allOnes 64)
  else
    let one ← shl 1#64 bit_len
    .ok (one - 1#64)

/-- `COMService::read<T>`. -/
def read {n : Nat} (T : IntType) (m_buffer : Buf n) (bit_off bit_len : Nat) : Result Int := do
  let byte_off := bit_off >>> 3
  if n < byte_off then .error .assertion
  let mask ← readMask bit_len
  let window ← extract64 m_buffer byte_off
  let window ← shr window (bit_off &&& 7)
  let bits := window &&& mask
  if T.isSigned ∧ 0 < bit_len ∧ bit_len < 64 then
    let sbit ← shl 1#64 (bit_len - 1)
    .ok (T.cast ((bits ^^^ sbit) - sbit))
  else
    .ok (T.cast bits)

/-- A getter: `read<T>` at the place the table gives a signal. -/
def readSignal {n : Nat} (signals : SignalsMap) (T : IntType) (m_buffer : Buf n)
    (sig_str : String) : Result Int := do
  let si ← signals.get sig_str
  read T m_buffer si.start.toNat si.length.toNat

/-- `COMService::getSpeed`. -/
def getSpeed (m_buffer : Buf SBUFLEN) : Result Int :=
  readSignal signalsMap (.unsigned .w8) m_buffer "speed"

/-- `COMService::getTemp`. -/
def getTemp (m_buffer : Buf SBUFLEN) : Result Int :=
  readSignal signalsMap (.signed .w8) m_buffer "temperature"

/-- `COMService::getBattery`. -/
def getBattery (m_buffer : Buf SBUFLEN) : Result Int :=
  readSignal signalsMap (.unsigned .w8) m_buffer "battery_level"

/-- The left half of `COMService::getLightSignals`, the `read` into `outl`. -/
def getLeftLight (m_buffer : Buf SBUFLEN) : Result Int :=
  readSignal signalsMap .bool m_buffer "left_light"

/-- The right half of `COMService::getLightSignals`, the `read` into `outr`. -/
def getRightLight (m_buffer : Buf SBUFLEN) : Result Int :=
  readSignal signalsMap .bool m_buffer "right_light"

/-- The members of the client's `COMService` that its threads share. -/
structure ComService where
  m_buffer : Buf SBUFLEN := Buf.zero SBUFLEN
  m_status : Bool := false
deriving DecidableEq

/-- `COMService::clearBuffer`. -/
def ComService.clearBuffer (com : ComService) : ComService :=
  { com with m_buffer := Buf.zero SBUFLEN }

/-! ## `extract64` -/

/-- The byte loop assembles the bytes it has read at their little-endian places. -/
theorem extractLoop_eq {n : Nat} (m_buffer : Buf n) (byte_off i : Nat) (hi : i ≤ 8)
    (hin : byte_off + i ≤ n) :
    extractLoop m_buffer byte_off i =
      .ok (BitVec.ofNat 64 (LittleEndian.leNat ((m_buffer.toList.drop byte_off).take i))) := by
  induction i with
  | zero => rfl
  | succ i ih =>
      have hlen : i < (m_buffer.toList.drop byte_off).length := by
        rw [List.length_drop, Vector.length_toList]
        omega
      have hlt : LittleEndian.leNat ((m_buffer.toList.drop byte_off).take i) < 2 ^ (8 * i) := by
        have h := LittleEndian.leNat_lt ((m_buffer.toList.drop byte_off).take i)
        rwa [List.length_take, Nat.min_eq_left (Nat.le_of_lt hlen)] at h
      have hbyte : m_buffer[byte_off + i].setWidth 64 <<< (i <<< 3) =
          BitVec.ofNat 64 (2 ^ (8 * i) * m_buffer[byte_off + i].toNat) := by
        apply BitVec.eq_of_toNat_eq
        rw [BitVec.toNat_shiftLeft, BitVec.toNat_setWidth_of_le (by decide), BitVec.toNat_ofNat,
          Nat.shiftLeft_eq i 3, Nat.shiftLeft_eq, Nat.mul_comm, Nat.mul_comm i]
      have hshift : i <<< 3 < 64 := by
        rw [Nat.shiftLeft_eq]
        omega
      rw [extractLoop, ih (by omega) (by omega), ok_bind, m_buffer.load_ok (by omega), ok_bind,
        shl_ok _ hshift, ok_bind, hbyte, LittleEndian.leNat_take_succ hlen,
        Nat.two_pow_add_eq_or_of_lt hlt, BitVec.ofNat_or, BitVec.or_comm, List.getElem_drop,
        Vector.getElem_toList]

/-- Both branches of `extract64` return the buffer shifted down by `byte_off`
    bytes, cut to 64 bits. -/
theorem extract64_eq {n : Nat} (m_buffer : Buf n) {byte_off : Nat} (h : byte_off ≤ n) :
    extract64 m_buffer byte_off = .ok (BitVec.ofNat 64 (m_buffer.toNat >>> (8 * byte_off))) := by
  have hcut : ∀ x, BitVec.ofNat 64 (x % 2 ^ (8 * 8)) = BitVec.ofNat 64 x := by
    intro x
    apply BitVec.eq_of_toNat_eq
    rw [BitVec.toNat_ofNat, BitVec.toNat_ofNat, Nat.mod_mod]
  rw [extract64]
  split
  · -- `memcpy`
    rename_i hfit
    rw [m_buffer.memcpy_ok hfit, ok_bind, LittleEndian.leNat_take, LittleEndian.leNat_drop, hcut,
      Buf.toNat]
  · -- the byte loop, up to the end of the buffer
    rename_i hshort
    have hsub : sizeSub n byte_off = n - byte_off := if_pos h
    rw [hsub, extractLoop_eq m_buffer byte_off (n - byte_off) (by omega) (by omega),
      List.take_of_length_le (by simp), LittleEndian.leNat_drop, Buf.toNat]

/-- For every buffer size and every offset inside the buffer `extract64` has a value, so
    it loads no byte past the end and no shift count reaches 64; the value is the sum of
    the bytes that are left, at most eight of them, each at its weight.  The subtraction
    of the loop's bound does not wrap, and where eight bytes are left the loop would
    return what `memcpy` does. -/
theorem extract64_eq_sum {n : Nat} (m_buffer : Buf n) {byte_off : Nat} (h : byte_off ≤ n) :
    sizeSub n byte_off + byte_off = n ∧
    (byte_off + 8 ≤ n → extract64 m_buffer byte_off = extractLoop m_buffer byte_off 8) ∧
    ∃ v, extract64 m_buffer byte_off = .ok v ∧
      v.toNat = ∑ i : Fin (min 8 (n - byte_off)), m_buffer[byte_off + i].toNat * 256 ^ (i : Nat) := by
  refine ⟨?_, ?_, ?_⟩
  · rw [sizeSub, if_pos h, Nat.sub_add_cancel h]
  · intro hfit
    rw [extract64, if_pos hfit, m_buffer.memcpy_ok hfit, ok_bind,
      extractLoop_eq m_buffer byte_off 8 (Nat.le_refl 8) hfit]
  · refine ⟨_, extract64_eq m_buffer h, ?_⟩
    have hin : byte_off + min 8 (n - byte_off) ≤ n := by omega
    have hlen : (m_buffer.toList.drop byte_off).length = n - byte_off := by simp
    rw [BitVec.toNat_ofNat, ← Buf.leNat_take_drop m_buffer hin, ← hlen, ← List.take_eq_take_min,
      LittleEndian.leNat_take, LittleEndian.leNat_drop, Buf.toNat]

/-- The last offset at which `memcpy` is taken, and the first at which the loop is. -/
theorem extract64_eq_sum_boundary :
    (∃ v, extract64 (Vector.replicate 9 1) 1 = .ok v ∧ v.toNat = 0x0101010101010101) ∧
    (∃ v, extract64 (Vector.replicate 9 1) 2 = .ok v ∧ v.toNat = 0x01010101010101) := by
  obtain ⟨-, -, v, hv, hsum⟩ := extract64_eq_sum (Vector.replicate 9 1) (show 1 ≤ 9 by decide)
  obtain ⟨-, -, w, hw, hsum'⟩ := extract64_eq_sum (Vector.replicate 9 1) (show 2 ≤ 9 by decide)
  exact ⟨⟨v, hv, hsum.trans (by decide)⟩, ⟨w, hw, hsum'.trans (by decide)⟩⟩

/-! ## `read<T>` -/

theorem readMask_eq {bit_len : Nat} (h : bit_len ≤ 64) :
    readMask bit_len = .ok (BitVec.ofNat 64 (2 ^ bit_len - 1)) := by
  rw [readMask]
  split
  · -- the mask of 64 bits is not computed by a shift
    have hlen : bit_len = 64 := by omega
    subst hlen
    rfl
  · rename_i hlt
    have hp : 2 ^ bit_len ≤ 2 ^ 63 := Nat.pow_le_pow_right (by decide) (by omega)
    have hpos : 0 < 2 ^ bit_len := Nat.two_pow_pos bit_len
    rw [shl_ok _ (by omega), ok_bind]
    congr 1
    apply BitVec.eq_of_toNat_eq
    rw [BitVec.toNat_sub, BitVec.toNat_shiftLeft, Nat.shiftLeft_eq]
    simp only [BitVec.toNat_ofNat]
    omega

/-- The masked window holds the bits of the addressed field that lie within the 64
    bits from its first byte on. -/
theorem window_toNat (x bit_off : Nat) {bit_len : Nat} (h : bit_len ≤ 64) :
    ((BitVec.ofNat 64 (x >>> (8 * (bit_off >>> 3))) >>> (bit_off % 8)) &&&
      BitVec.ofNat 64 (2 ^ bit_len - 1)).toNat =
      BitField.field x bit_off (min bit_len (64 - bit_off % 8)) := by
  apply Nat.eq_of_testBit_eq
  intro i
  rw [BitField.testBit_field]
  simp only [BitVec.testBit_toNat, BitVec.getLsbD_and, BitVec.getLsbD_ushiftRight,
    BitVec.getLsbD_ofNat, Nat.testBit_shiftRight, Nat.testBit_two_pow_sub_one]
  have hplace : 8 * (bit_off >>> 3) + (bit_off % 8 + i) = bit_off + i := by
    rw [Nat.shiftRight_eq_div_pow]
    omega
  rw [hplace]
  by_cases hi : i < min bit_len (64 - bit_off % 8)
  · -- a bit that the window and the mask both keep
    have h1 : bit_off % 8 + i < 64 := by omega
    have h2 : i < bit_len := by omega
    have h3 : i < 64 := by omega
    simp [hi, h1, h2, h3]
  · by_cases hlen : i < bit_len
    · -- a bit of the field that is shifted out of the window
      have h1 : ¬ bit_off % 8 + i < 64 := by omega
      simp only [h1, hi, decide_false, Bool.false_and]
    · simp only [hi, hlen, decide_false, Bool.and_false, Bool.false_and]

/-- Flipping the sign bit of a field shorter than the word and subtracting it
    sign-extends the field. -/
theorem flip_sub_toInt {bits : BitVec 64} {k : Nat} (hlen : k < 63)
    (hlt : bits.toNat < 2 ^ (k + 1)) :
    ((bits ^^^ (1#64 <<< k)) - 1#64 <<< k).toInt =
      (bits.toNat : Int).bmod (2 ^ (k + 1)) := by
  have hp : 2 ^ k ≤ 2 ^ 62 := Nat.pow_le_pow_right (by decide) (by omega)
  have hs : (1#64 <<< k).toNat = 2 ^ k := by
    rw [BitVec.toNat_shiftLeft, Nat.shiftLeft_eq]
    simp only [BitVec.toNat_ofNat]
    omega
  have hx : (bits ^^^ (1#64 <<< k)).toNat =
      if bits.toNat < 2 ^ k then bits.toNat + 2 ^ k else bits.toNat - 2 ^ k := by
    rw [BitVec.toNat_xor, hs, BitField.xor_two_pow hlt]
  have hxi : (bits ^^^ (1#64 <<< k)).toInt =
      if bits.toNat < 2 ^ k then (bits.toNat : Int) + 2 ^ k else bits.toNat - 2 ^ k := by
    rw [BitVec.toInt_eq_toNat_of_lt (by rw [hx]; rw [Nat.pow_succ] at hlt; split <;> omega), hx]
    split
    · push_cast
      rfl
    · rw [Nat.cast_sub (by omega)]
      push_cast
      rfl
  have hsi : (1#64 <<< k).toInt = 2 ^ k := by
    rw [BitVec.toInt_eq_toNat_of_lt (by omega), hs]
    push_cast
    rfl
  rw [BitVec.toInt_sub, hxi, hsi]
  have hsucc : 2 ^ (k + 1) = 2 ^ k * 2 := Nat.pow_succ 2 k
  rw [hsucc] at hlt ⊢
  have hcast : ((2 ^ k : Nat) : Int) = 2 ^ k := by push_cast; rfl
  split
  · rw [Int.add_sub_cancel, Int.bmod_eq_of_le (by omega) (by omega),
      Int.bmod_eq_of_le (by omega) (by omega)]
  · have hwrap := Int.sub_bmod_right (bits.toNat : Int) (2 ^ k * 2)
    rw [← hwrap, Int.bmod_eq_of_le (by omega) (by omega), Int.bmod_eq_of_le (by omega) (by omega)]
    omega

/-- Casting to a signed type at least as wide as the field keeps its value. -/
theorem cast_signed {bits : BitVec 64} {w : Width} {len : Nat} {v : Int}
    (hv : bits.toInt = v.bmod (2 ^ len)) (hw : len ≤ w.bits) :
    IntType.cast (.signed w) bits = v.bmod (2 ^ len) := by
  have hdvd : 2 ^ w.bits ∣ 2 ^ 64 := Nat.pow_dvd_pow 2 (by cases w <;> decide)
  have hle : 2 ^ len ≤ 2 ^ w.bits := Nat.pow_le_pow_right (by decide) hw
  have hlow : -(((2 ^ len : Nat) : Int) / 2) ≤ v.bmod (2 ^ len) := Int.le_bmod (Nat.two_pow_pos len)
  have hhigh : v.bmod (2 ^ len) < (((2 ^ len : Nat) : Int) + 1) / 2 :=
    Int.bmod_lt (Nat.two_pow_pos len)
  rw [IntType.cast, BitVec.toInt_setWidth, ← Int.bmod_bmod_of_dvd hdvd,
    ← BitVec.toInt_eq_toNat_bmod, hv]
  exact Int.bmod_eq_of_le (by omega) (by omega)

/-- Casting to an unsigned type or to `bool` keeps the value of a field that fits
    the type. -/
theorem cast_of_not_signed {T : IntType} {bits : BitVec 64} {len : Nat}
    (hT : T.isSigned = false) (hfit : len ≤ T.bits) (hlt : bits.toNat < 2 ^ len) :
    T.cast bits = bits.toNat := by
  have hle : 2 ^ len ≤ 2 ^ T.bits := Nat.pow_le_pow_right (by decide) hfit
  cases T with
  | bool =>
      have h2 : bits.toNat < 2 := lt_of_lt_of_le hlt hle
      by_cases h0 : bits = 0
      · simp [IntType.cast, h0]
      · have hne : bits.toNat ≠ 0 := fun h => h0 (BitVec.eq_of_toNat_eq h)
        rw [IntType.cast, if_neg h0]
        omega
  | unsigned w =>
      have hw : bits.toNat < 2 ^ w.bits := lt_of_lt_of_le hlt hle
      rw [IntType.cast, BitVec.toNat_setWidth, Nat.mod_eq_of_lt hw]
  | signed w => cases hT

/-- Every type of `read` fits into the 64-bit window. -/
theorem bits_le (T : IntType) : T.bits ≤ 64 := by
  cases T with
  | bool => decide
  | unsigned w => cases w <;> decide
  | signed w => cases w <;> decide

/-- `read<T>` returns the part of the addressed field that lies within the 64 bits from
    its first byte on, extended from the length of the whole field. -/
theorem read_window {n : Nat} (T : IntType) (m_buffer : Buf n) {bit_off bit_len : Nat}
    (hpos : 0 < bit_len) (hT : bit_len ≤ T.bits) (hin : bit_off ≤ 8 * n) :
    read T m_buffer bit_off bit_len =
      .ok (T.extend bit_len
        (BitField.field m_buffer.toNat bit_off (min bit_len (64 - bit_off % 8)))) := by
  have hlen : bit_len ≤ 64 := Nat.le_trans hT (bits_le T)
  have hbyte : bit_off >>> 3 ≤ n := by
    rw [Nat.shiftRight_eq_div_pow]
    omega
  have hsub : bit_off &&& 7 = bit_off % 8 := Nat.and_two_pow_sub_one_eq_mod bit_off 3
  have hbits := window_toNat m_buffer.toNat bit_off hlen
  have hlt := BitField.field_lt_of_le m_buffer.toNat bit_off
    (Nat.min_le_left bit_len (64 - bit_off % 8))
  rw [← hbits] at hlt ⊢
  rw [read, if_neg (by omega), readMask_eq hlen, extract64_eq m_buffer hbyte, hsub]
  simp only [ok_bind, shr_ok _ (show bit_off % 8 < 64 by omega)]
  generalize BitVec.ofNat 64 (m_buffer.toNat >>> (8 * (bit_off >>> 3))) >>> (bit_off % 8) &&&
    BitVec.ofNat 64 (2 ^ bit_len - 1) = bits at hlt ⊢
  split
  · -- sign-extension by flipping and subtracting the sign bit
    rename_i hsigned
    obtain ⟨hT', -, h64⟩ := hsigned
    obtain ⟨k, rfl⟩ := Nat.exists_eq_succ_of_ne_zero (Nat.pos_iff_ne_zero.mp hpos)
    rw [shl_ok _ (by omega), ok_bind, IntType.extend, if_pos hT']
    cases T with
    | bool | unsigned w => cases hT'
    | signed w =>
        exact congrArg _ (cast_signed (flip_sub_toInt (by omega) hlt) hT)
  · rename_i hsigned
    cases hT' : T.isSigned with
    | false =>
        rw [IntType.extend, hT', if_neg (by decide), cast_of_not_signed hT' hT hlt]
    | true =>
        -- only a 64-bit field is left: the whole word is its own sign extension
        have h64 : bit_len = 64 := by
          by_contra hne
          exact hsigned ⟨hT', hpos, by omega⟩
        subst h64
        rw [IntType.extend, hT', if_pos rfl]
        cases T with
        | bool | unsigned w => cases hT'
        | signed w => exact congrArg _ (cast_signed bits.toInt_eq_toNat_bmod hT)

/-- `read<T>` returns the addressed bits, zero-extended for an unsigned `T` and
    sign-extended for a signed one, whenever the field starts inside the buffer
    and lies within the 64 bits from its first byte on. -/
theorem read_eq {n : Nat} (T : IntType) (m_buffer : Buf n) {bit_off bit_len : Nat}
    (hpos : 0 < bit_len) (hT : bit_len ≤ T.bits) (hin : bit_off ≤ 8 * n)
    (hwin : bit_off % 8 + bit_len ≤ 64) :
    read T m_buffer bit_off bit_len =
      .ok (T.extend bit_len (BitField.field m_buffer.toNat bit_off bit_len)) := by
  have hmin : min bit_len (64 - bit_off % 8) = bit_len := Nat.min_eq_left (by omega)
  have h := read_window T m_buffer hpos hT hin
  rwa [hmin] at h

/-- For every buffer size, `read<T>` returns exactly the addressed bits, extended as `T`
    asks, if and only if no bit of the field past the eighth byte from its first byte is
    set: a field may end in a ninth byte, and `extract64` does not load it. -/
theorem read_addressed_iff {n : Nat} (T : IntType) (m_buffer : Buf n) {bit_off bit_len : Nat}
    (hpos : 0 < bit_len) (hT : bit_len ≤ T.bits) (hin : bit_off + bit_len ≤ 8 * n) :
    read T m_buffer bit_off bit_len =
        .ok (T.extend bit_len (BitField.field m_buffer.toNat bit_off bit_len)) ↔
      ∀ i, 8 * (bit_off / 8) + 64 ≤ i → i < bit_off + bit_len →
        m_buffer.toNat.testBit i = false := by
  have hlow : min bit_len (64 - bit_off % 8) ≤ bit_len := Nat.min_le_left ..
  have hlt := BitField.field_lt m_buffer.toNat bit_off bit_len
  have hlt' := BitField.field_lt_of_le m_buffer.toNat bit_off hlow
  rw [read_window T m_buffer hpos hT (by omega), Except.ok.injEq,
    IntType.extend_inj T hlt' hlt, BitField.field_eq_field_iff hlow]
  -- the field's bits past the window are those from the ninth byte on
  constructor
  · intro hzero i hwin hi
    exact hzero i (by omega) hi
  · intro hzero i hwin hi
    exact hzero i (by omega) hi

/-- A 64-bit field whose last bit, the first of a ninth byte, is zero. -/
theorem read_addressed_iff_nine :
    read (.signed .w64) (#v[0xFF, 0xFF, 0xFF, 0xFF, 0xFF, 0xFF, 0xFF, 0xFF, 2] : Buf 9) 1 64 =
      .ok (2 ^ 63 - 1) := by
  have hzero : ∀ i, 8 * (1 / 8) + 64 ≤ i → i < 1 + 64 →
      (Buf.toNat (#v[0xFF, 0xFF, 0xFF, 0xFF, 0xFF, 0xFF, 0xFF, 0xFF, 2] : Buf 9)).testBit i =
        false := by
    intro i hwin hi
    have h64 : i = 64 := by omega
    subst h64
    decide
  have h := (read_addressed_iff (.signed .w64)
    (#v[0xFF, 0xFF, 0xFF, 0xFF, 0xFF, 0xFF, 0xFF, 0xFF, 2] : Buf 9) (show 0 < 64 by decide)
    (by decide) (show 1 + 64 ≤ 8 * 9 by decide)).mpr hzero
  exact h.trans (by decide)

/-- With a one there the field is `2 ^ 63`, and `read` returns zero. -/
theorem read_ninth_byte :
    read (.unsigned .w64) (#v[0, 0, 0, 0, 0, 0, 0, 0, 1] : Buf 9) 1 64 = .ok 0 ∧
    read (.unsigned .w64) (#v[0, 0, 0, 0, 0, 0, 0, 0, 1] : Buf 9) 1 64 ≠
      .ok (IntType.extend (.unsigned .w64) 64
        (BitField.field (Buf.toNat (#v[0, 0, 0, 0, 0, 0, 0, 0, 1] : Buf 9)) 1 64)) := by
  decide

end Speedometer.Client
