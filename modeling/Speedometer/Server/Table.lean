/-
  Speedometer.Server.Table

  Which signal tables `insert_helper` can write.

  `SBUFLEN` and the `SIGNALS` table are meant to be changed, and the assertion of
  `build_map` is all that checks a table.  `insertHelper_admitted`: of the entries it
  accepts, the writer handles exactly those of a buffer of at most four bytes that
  have at most 30 bits and start below bit 32.
-/

import Speedometer.Server.ComService

namespace Speedometer.Server

open Cpp Setting

/-! ## Where the writer is defined -/

/-- The first byte the filling loop takes, the last of the buffer, is shifted by less
    than the width of `int`. -/
theorem fillTemp_defined {n : Nat} {m_buf : Buf n} {size temp_buf temp_buf' : BitVec 32}
    (hsize : int ((n : Int) * CHAR_BIT) = .ok size)
    (h : fillTemp m_buf size temp_buf n (Nat.le_refl n) = .ok temp_buf') : n ≤ 4 := by
  cases n with
  | zero => exact Nat.zero_le 4
  | succ i =>
      obtain ⟨⟨-, hlt⟩, rfl⟩ := of_int_ok hsize
      -- the byte is shifted by `size - CHAR_BIT`
      obtain ⟨above, habove, h⟩ := bind_eq_ok.mp h
      obtain ⟨byte, hbyte, -⟩ := bind_eq_ok.mp h
      obtain ⟨-, rfl⟩ := of_int_ok habove
      have hcount := lt_of_shlInt_ok hbyte
      have hone : ((i + 1 : Nat) : Int) - i = 1 := by omega
      rw [hone, Int.one_mul, ← Nat.cast_mul, BitVec.ofInt_natCast, BitVec.ofInt_natCast,
        BitVec.toNat_sub, BitVec.toNat_ofNat, BitVec.toNat_ofNat] at hcount
      simp only [CHAR_BIT] at hlt hcount
      omega

/-- The mask is defined up to a length of 30. -/
theorem bitmask_defined {len : Nat} {mask : BitVec 32} (h : bitmask len = .ok mask) :
    len ≤ 30 := by
  by_contra hlen
  obtain ⟨one, hone, -⟩ := bind_eq_ok.mp h
  have hlt := lt_of_shlInt_ok hone
  -- `(1 << 31) - 1` overflows
  have hlen' : len = 31 := by omega
  have h31 : bitmask 31 = .error .signedOverflow := by decide
  rw [hlen', h31] at h
  cases h

theorem insertBits_defined {n : Nat} {m_buf m_buf' : Buf n} {val : BitVec 32} {signal_info : Info}
    (h : insertBits m_buf val signal_info = .ok m_buf') :
    n ≤ 4 ∧ signal_info.length.toNat ≤ 30 ∧ signal_info.start.toNat < 32 := by
  obtain ⟨size, hsize, h⟩ := bind_eq_ok.mp h
  obtain ⟨temp_buf, hfill, h⟩ := bind_eq_ok.mp h
  obtain ⟨mask, hmask, h⟩ := bind_eq_ok.mp h
  obtain ⟨place, hplace, -⟩ := bind_eq_ok.mp h
  exact ⟨fillTemp_defined hsize hfill, bitmask_defined hmask, lt_of_shl_ok hplace⟩

/-- For every buffer size and every signal the assertion of `build_map` accepts, whatever
    the buffer and the value: `insert_helper` is defined, the signal lies inside the buffer
    and exactly its bits are replaced by the low bits of the value, if and only if the
    buffer has at most four bytes and the signal has at most 30 bits and starts below
    bit 32. -/
theorem insertHelper_admitted {n : Nat} {signals : SignalsMap} {sig_str : String}
    {signal_info : Info} (hget : signals.get sig_str = .ok signal_info)
    (hfits : fits n signal_info = true) (m_buf : Buf n) (val : BitVec 32) :
    (∃ m_buf', insertHelper signals m_buf val sig_str = .ok m_buf' ∧
      signal_info.start.toNat + signal_info.length.toNat ≤ 8 * n ∧
      ∀ i, m_buf'.toNat.testBit i =
        if signal_info.start.toNat ≤ i ∧
            i < signal_info.start.toNat + signal_info.length.toNat then
          val.toNat.testBit (i - signal_info.start.toNat)
        else m_buf.toNat.testBit i) ↔
      n ≤ 4 ∧ signal_info.length.toNat ≤ 30 ∧ signal_info.start.toNat < 32 := by
  rw [insertHelper, hget, ok_bind]
  constructor
  · -- its shifts say where the writer is defined
    rintro ⟨m_buf', hok, -, -⟩
    exact insertBits_defined hok
  · rintro ⟨hn, hlen, hstart⟩
    have hin := (fits_iff (by omega)).mp hfits
    obtain ⟨m_buf', hok, hnat⟩ := insertBits_eq hn m_buf val signal_info hlen hstart hin
    refine ⟨m_buf', hok, hin, ?_⟩
    intro i
    rw [hnat, BitField.testBit_setField]

theorem insertHelper_admitted_temperature :
    ∃ m_buf', insertHelper signalsMap (Buf.zero SBUFLEN) (-5) "temperature" = .ok m_buf' ∧
      m_buf'.toNat.testBit 14 = true := by
  obtain ⟨m_buf', hok, -, hbits⟩ := (insertHelper_admitted (n := SBUFLEN)
    (Layout.get_key temperature) (by decide) (Buf.zero SBUFLEN) (-5)).mpr (by decide)
  exact ⟨m_buf', hok, (hbits 14).trans (by decide)⟩

/-- A light in a buffer of five bytes, a signal that fills a buffer of four, and one whose
    start makes the sum of the assertion wrap: accepted, and not written. -/
theorem insertHelper_not_admitted :
    (fits 5 ⟨1, 0, 0, 1⟩ = true ∧
      insertHelper [("light", ⟨1, 0, 0, 1⟩)] (Buf.zero 5) 1 "light" = .error .shiftCount) ∧
    (fits 4 ⟨32, 0, 0, 1⟩ = true ∧
      insertHelper [("word", ⟨32, 0, 0, 1⟩)] (Buf.zero 4) 1 "word" = .error .shiftCount) ∧
    (fits 3 ⟨8, 0xFFFFFFF8, 0, 1⟩ = true ∧
      insertHelper [("far", ⟨8, 0xFFFFFFF8, 0, 1⟩)] (Buf.zero 3) 1 "far" =
        .error .shiftCount) := by
  decide

end Speedometer.Server
