/-
  Speedometer.Codec

  The wire format end to end: what the server's `insert_helper` writes is what
  the client's `read<T>` returns, and what `read<T>` returns is what
  `insert_helper` needs to write the same bytes again.

  The packed buffer implements a record of independent variables, one for each
  signal of the layout: `values` reads them all off the buffer, and one call of
  `insert_helper` is the assignment of one of them (`values_insertHelper`).  A
  sequence of calls is then a sequence of assignments (`values_insertAll`), in
  which only the last one for each signal counts (`insertAll_order`), and both
  round trips (`read_after_inserts`, `insert_after_reads`) follow from what
  `read<T>` makes of one variable.
-/

import Mathlib.Data.List.Induction
import Mathlib.Logic.Function.Basic
import Speedometer.Server.ComService
import Speedometer.Client.ComService

namespace Speedometer

open Cpp Setting Server Client

/-! ## The buffer as a record of variables -/

/-- The raw values of all signals of a layout in a buffer. -/
def values {n : Nat} (L : Layout n) (buf : Buf n) (sig : L.Key) : Nat :=
  BitField.field buf.toNat (L.start sig) (L.length sig)

/-- Calls of `insert_helper`, one after the other. -/
def insertAll {n : Nat} (L : Layout n) (m_buf : Buf n) (calls : List (BitVec 32 × L.Key)) :
    Result (Buf n) :=
  calls.foldlM (fun m_buf call => insertHelper L.map m_buf call.1 call.2.sig_str) m_buf

/-- The value of the last of `calls` for a signal, if there is one. -/
def lastInserted {n : Nat} {L : Layout n} (calls : List (BitVec 32 × L.Key)) (sig : L.Key) :
    Option (BitVec 32) :=
  calls.foldl (fun last call => if call.2 = sig then some call.1 else last) none

/-- On three bytes `insert_helper` is defined for every signal of a layout and
    overwrites exactly the signal's field. -/
theorem insertHelper_eq (L : Layout SBUFLEN) (m_buf : Buf SBUFLEN) (val : BitVec 32)
    (sig : L.Key) :
    ∃ m_buf', insertHelper L.map m_buf val sig.sig_str = .ok m_buf' ∧
      m_buf'.toNat = BitField.setField m_buf.toNat (L.start sig) (L.length sig) val.toNat := by
  have hin : (L.info sig).start.toNat + (L.info sig).length.toNat ≤ 24 := Layout.key_le_24 sig
  rw [insertHelper, Layout.get_key, ok_bind]
  exact insertBits_eq (by decide) m_buf val (L.info sig) (by omega) (by omega) hin

/-- One call of `insert_helper` assigns one variable. -/
theorem values_insertHelper (L : Layout SBUFLEN) (m_buf : Buf SBUFLEN) (val : BitVec 32)
    (sig : L.Key) :
    ∃ m_buf', insertHelper L.map m_buf val sig.sig_str = .ok m_buf' ∧
      values L m_buf' = Function.update (values L m_buf) sig (val.toNat % 2 ^ L.length sig) := by
  obtain ⟨m_buf', hok, hnat⟩ := insertHelper_eq L m_buf val sig
  refine ⟨m_buf', hok, ?_⟩
  funext other
  by_cases h : other = sig
  · -- the assigned variable
    subst h
    rw [Function.update_self, values, hnat, BitField.field_setField_self]
  · -- a variable with a range of its own
    rw [Function.update_of_ne h, values, hnat,
      BitField.field_setField_apart (Layout.key_apart (Ne.symm h)), values]

/-- One call of a setter assigns its signal. -/
theorem values_insertCall (m_buf : Buf SBUFLEN) (call : InsertCall) :
    ∃ m_buf', call.run m_buf = .ok m_buf' ∧
      values signalsLayout m_buf' =
        Function.update (values signalsLayout m_buf) call.sig
          (call.val.toNat % 2 ^ signalsLayout.length call.sig) := by
  rw [InsertCall.run_eq]
  exact values_insertHelper signalsLayout m_buf call.val call.sig

/-- A sequence of calls assigns each signal the last value inserted for it. -/
theorem values_insertAll (L : Layout SBUFLEN) (m_buf : Buf SBUFLEN)
    (calls : List (BitVec 32 × L.Key)) :
    ∃ m_buf', insertAll L m_buf calls = .ok m_buf' ∧
      ∀ sig, values L m_buf' sig =
        match lastInserted calls sig with
        | some val => val.toNat % 2 ^ L.length sig
        | none => values L m_buf sig := by
  -- on the last call: the calls before it have assigned their variables
  induction calls using List.reverseRecOn with
  | nil => exact ⟨m_buf, rfl, fun _ => rfl⟩
  | append_singleton calls call ih =>
      obtain ⟨m_buf₁, hok₁, hval₁⟩ := ih
      obtain ⟨m_buf₂, hok₂, hval₂⟩ := values_insertHelper L m_buf₁ call.1 call.2
      refine ⟨m_buf₂, ?_, ?_⟩
      · rw [insertAll, List.foldlM_append, ← insertAll, hok₁, ok_bind, List.foldlM_cons, hok₂]
        rfl
      · intro sig
        rw [hval₂, lastInserted, List.foldl_append, ← lastInserted]
        by_cases h : call.2 = sig
        · subst h
          simp
        · rw [Function.update_of_ne (Ne.symm h), hval₁]
          simp [h]

/-- A signal has a last value exactly if one of the calls is for it. -/
theorem lastInserted_isSome {L : Layout SBUFLEN} {calls : List (BitVec 32 × L.Key)}
    {sig : L.Key} : (lastInserted calls sig).isSome ↔ ∃ call ∈ calls, call.2 = sig := by
  induction calls using List.reverseRecOn with
  | nil => simp [lastInserted]
  | append_singleton calls call ih =>
      rw [lastInserted, List.foldl_append, ← lastInserted]
      by_cases h : call.2 = sig
      · simp [h]
      · simp [h, ih]

/-- Calls that insert `f sig` for each signal of `order`. -/
theorem lastInserted_map {L : Layout SBUFLEN} (f : L.Key → BitVec 32) {order : List L.Key}
    {sig : L.Key} (h : sig ∈ order) :
    lastInserted (order.map fun sig => (f sig, sig)) sig = some (f sig) := by
  induction order using List.reverseRecOn with
  | nil => cases h
  | append_singleton order last ih =>
      rw [List.map_append, lastInserted, List.foldl_append, ← lastInserted]
      by_cases heq : last = sig
      · subst heq
        simp
      · have hmem : sig ∈ order := by simpa [Ne.symm heq] using h
        simp [heq, ih hmem]

/-- The bits outside the signals inserted stay as they were. -/
theorem testBit_insertAll {L : Layout SBUFLEN} {m_buf m_buf' : Buf SBUFLEN}
    {calls : List (BitVec 32 × L.Key)} {i : Nat} (hok : insertAll L m_buf calls = .ok m_buf')
    (hi : ∀ call ∈ calls, ¬BitField.Covers (L.start call.2) (L.length call.2) i) :
    m_buf'.toNat.testBit i = m_buf.toNat.testBit i := by
  induction calls generalizing m_buf with
  | nil => rw [Except.ok.inj hok]
  | cons call calls ih =>
      obtain ⟨m_buf₁, hok₁, hnat⟩ := insertHelper_eq L m_buf call.1 call.2
      rw [insertAll, List.foldlM_cons, hok₁, ok_bind, ← insertAll] at hok
      rw [ih hok fun call hcall => hi call (List.mem_cons_of_mem _ hcall), hnat,
        BitField.testBit_setField_of_not_covers (hi call List.mem_cons_self)]

/-! ## The order of the calls -/

/-- Two sequences of calls of `insert_helper` that write the same signals, and agree on
    the low bits of the last value of each, leave the same bytes, whatever their order
    and whatever they overwrite on the way; no bit outside these signals changes. -/
theorem insertAll_order (L : Layout SBUFLEN) (m_buf : Buf SBUFLEN)
    (calls₁ calls₂ : List (BitVec 32 × L.Key))
    (hsame : ∀ sig, (∃ call ∈ calls₁, call.2 = sig) ↔ ∃ call ∈ calls₂, call.2 = sig)
    (hlast : ∀ sig val₁ val₂, lastInserted calls₁ sig = some val₁ →
      lastInserted calls₂ sig = some val₂ →
      val₁.toInt % 2 ^ L.length sig = val₂.toInt % 2 ^ L.length sig) :
    ∃ m_buf', insertAll L m_buf calls₁ = .ok m_buf' ∧ insertAll L m_buf calls₂ = .ok m_buf' ∧
      ∀ i, (∀ call ∈ calls₁, ¬BitField.Covers (L.start call.2) (L.length call.2) i) →
        m_buf'.toNat.testBit i = m_buf.toNat.testBit i := by
  obtain ⟨m_buf₁, hok₁, hval₁⟩ := values_insertAll L m_buf calls₁
  obtain ⟨m_buf₂, hok₂, hval₂⟩ := values_insertAll L m_buf calls₂
  have heq : m_buf₁ = m_buf₂ := by
    apply Buf.eq_of_toNat_eq
    apply BitField.eq_of_fields (p := fun sig => ∃ call ∈ calls₁, call.2 = sig)
    · -- a signal that is written: the last value decides
      intro sig hsig
      obtain ⟨val₁, h₁⟩ := Option.isSome_iff_exists.mp (lastInserted_isSome.mpr hsig)
      obtain ⟨val₂, h₂⟩ :=
        Option.isSome_iff_exists.mp (lastInserted_isSome.mpr ((hsame sig).mp hsig))
      have hmod := hlast sig val₁ val₂ h₁ h₂
      have hlen := Layout.length_key_le_32 sig
      rw [toInt_emod val₁ hlen, toInt_emod val₂ hlen] at hmod
      have hf₁ := hval₁ sig
      have hf₂ := hval₂ sig
      rw [h₁] at hf₁
      rw [h₂] at hf₂
      exact hf₁.trans ((Int.ofNat.inj hmod).trans hf₂.symm)
    · -- any other bit: both sequences leave it alone
      intro i hi
      rw [testBit_insertAll hok₁ fun call hcall => hi call.2 ⟨call, hcall, rfl⟩,
        testBit_insertAll hok₂ fun call hcall =>
          hi call.2 ((hsame call.2).mpr ⟨call, hcall, rfl⟩)]
  subst heq
  exact ⟨m_buf₁, hok₁, hok₂, fun i hi => testBit_insertAll hok₁ hi⟩

/-- The same speed and temperature, once in one call each and once with an earlier value
    and with values that only agree in the signals' low bits. -/
theorem insertAll_order_overwrite :
    ∃ m_buf',
      insertAll signalsLayout (Buf.zero SBUFLEN) [(7, speed), (-3, temperature)] =
        .ok m_buf' ∧
      insertAll signalsLayout (Buf.zero SBUFLEN)
        [(1, temperature), (125, temperature), (263, speed)] = .ok m_buf' := by
  have hsame : ∀ sig,
      (∃ call ∈ [((7 : BitVec 32), speed), (-3, temperature)], call.2 = sig) ↔
        ∃ call ∈ [((1 : BitVec 32), temperature), (125, temperature), (263, speed)],
          call.2 = sig := by
    intro sig
    simp only [List.mem_cons, List.not_mem_nil, or_false, exists_eq_or_imp, exists_eq_left]
    tauto
  have hlast : ∀ sig val₁ val₂,
      lastInserted [(7, speed), (-3, temperature)] sig = some val₁ →
      lastInserted [(1, temperature), (125, temperature), (263, speed)] sig = some val₂ →
      val₁.toInt % 2 ^ signalsLayout.length sig = val₂.toInt % 2 ^ signalsLayout.length sig := by
    intro sig val₁ val₂ h₁ h₂
    by_cases ht : temperature = sig
    · subst ht
      rw [← Option.some.inj h₁, ← Option.some.inj h₂]
      decide
    · by_cases hs : speed = sig
      · subst hs
        rw [← Option.some.inj h₁, ← Option.some.inj h₂]
        decide
      · simp [lastInserted, ht, hs] at h₁
  obtain ⟨m_buf', h₁, h₂, -⟩ := insertAll_order signalsLayout (Buf.zero SBUFLEN)
    [(7, speed), (-3, temperature)] [(1, temperature), (125, temperature), (263, speed)]
    hsame hlast
  exact ⟨m_buf', h₁, h₂⟩

/-! ## The round trip -/

/-- `read<T>` of a signal returns its variable, extended to `T`. -/
theorem read_values (L : Layout SBUFLEN) (m_buffer : Buf SBUFLEN) (sig : L.Key) (T : IntType)
    (hT : L.length sig ≤ T.bits) :
    read T m_buffer (L.start sig) (L.length sig) =
      .ok (T.extend (L.length sig) (values L m_buffer sig)) := by
  have hin := Layout.key_le_24 sig
  exact read_eq T m_buffer (Layout.length_key_pos sig) hT (Nat.le_of_add_right_le hin) (by omega)

/-- The lookup of a getter finds the signal's entry. -/
theorem readSignal_values (L : Layout SBUFLEN) (m_buffer : Buf SBUFLEN) (sig : L.Key)
    (T : IntType) (hT : L.length sig ≤ T.bits) :
    readSignal L.map T m_buffer sig.sig_str =
      .ok (T.extend (L.length sig) (values L m_buffer sig)) := by
  rw [readSignal, Layout.get_key, ok_bind]
  exact read_values L m_buffer sig T hT

/-- Reducing an `int` to a field and extending it back keeps every value the field
    can stand for. -/
theorem extend_of_inRange {T : IntType} {len : Nat} {val : BitVec 32} (hpos : 0 < len)
    (hlen : len ≤ 32) (h : T.InRange len val.toInt) :
    T.extend len (val.toNat % 2 ^ len) = val.toInt := by
  have hdvd : 2 ^ len ∣ 2 ^ 32 := Nat.pow_dvd_pow 2 hlen
  -- `int` to field to `T`: the field's modulus divides that of `int`
  cases hT : T.isSigned with
  | true =>
      rw [IntType.InRange, hT, if_pos rfl] at h
      have hsucc : 2 ^ len = 2 ^ (len - 1) * 2 := by
        rw [← Nat.pow_succ, Nat.succ_eq_add_one, Nat.sub_add_cancel hpos]
      have hcast : ((2 ^ (len - 1) : Nat) : Int) = 2 ^ (len - 1) := by push_cast; rfl
      rw [IntType.extend, hT, if_pos rfl, Int.natCast_emod, Int.emod_bmod,
        ← Int.bmod_bmod_of_dvd hdvd, ← BitVec.toInt_eq_toNat_bmod]
      exact Int.bmod_eq_of_le (by omega) (by omega)
  | false =>
      rw [IntType.InRange, hT, if_neg (by decide)] at h
      have hnat : val.toInt = val.toNat := by
        rw [BitVec.toInt_eq_toNat_cond] at h ⊢
        split at h <;> omega
      have hcast : ((2 ^ len : Nat) : Int) = 2 ^ len := by push_cast; rfl
      rw [IntType.extend, hT, if_neg (by decide), Nat.mod_eq_of_lt (by omega), hnat]

/-- Whatever calls of `insert_helper` the server makes, in whatever order, reading a
    signal back gives the last value inserted for it, cut to the signal's length and
    extended as the read type asks, so every value the field can stand for survives;
    a signal never inserted reads as before. -/
theorem read_after_inserts (L : Layout SBUFLEN) (m_buf : Buf SBUFLEN)
    (calls : List (BitVec 32 × L.Key)) (sig : L.Key) (T : IntType)
    (hT : L.length sig ≤ T.bits) :
    ∃ m_buffer, insertAll L m_buf calls = .ok m_buffer ∧
      match lastInserted calls sig with
      | some val =>
          read T m_buffer (L.start sig) (L.length sig) =
            .ok (T.extend (L.length sig) (val.toNat % 2 ^ L.length sig)) ∧
          (T.InRange (L.length sig) val.toInt →
            read T m_buffer (L.start sig) (L.length sig) = .ok val.toInt)
      | none =>
          ∃ v, read T m_buffer (L.start sig) (L.length sig) = .ok v ∧
            read T m_buf (L.start sig) (L.length sig) = .ok v := by
  obtain ⟨m_buffer, hok, hval⟩ := values_insertAll L m_buf calls
  have hin := Layout.key_le_24 sig
  refine ⟨m_buffer, hok, ?_⟩
  have hread := read_values L m_buffer sig T hT
  rw [hval] at hread
  cases hlast : lastInserted calls sig with
  | some val =>
      rw [hlast] at hread
      refine ⟨hread, ?_⟩
      intro hrange
      rw [hread, extend_of_inRange (Layout.length_key_pos sig) (by omega) hrange]
  | none =>
      rw [hlast] at hread
      exact ⟨_, hread, read_values L m_buf sig T hT⟩

theorem read_after_inserts_temperature :
    ∃ m_buffer,
      insertAll signalsLayout (Buf.zero SBUFLEN) [(-5, temperature), (1, leftLight)] =
        .ok m_buffer ∧
      read (.signed .w8) m_buffer 8 7 = .ok (-5) := by
  obtain ⟨m_buffer, hok, hread⟩ := read_after_inserts signalsLayout (Buf.zero SBUFLEN)
    [(-5, temperature), (1, leftLight)] temperature (.signed .w8) (by decide)
  exact ⟨m_buffer, hok, hread.2 (by decide)⟩

/-! ## Encoding what was decoded -/

/-- Reading the signals of `order` from `m_buffer` and inserting each value, converted to
    `int`, into `m_buf`. -/
def insertReads {n : Nat} (L : Layout n) (T : L.Key → IntType) (m_buffer m_buf : Buf n)
    (order : List L.Key) : Result (Buf n) :=
  order.foldlM (fun m_buf sig => do
    let val ← readSignal L.map (T sig) m_buffer sig.sig_str
    insertHelper L.map m_buf (BitVec.ofInt 32 val) sig.sig_str) m_buf

/-- The reads have values, so what is left are calls of `insert_helper`. -/
theorem insertReads_eq (L : Layout SBUFLEN) {T : L.Key → IntType}
    (hT : ∀ sig, L.length sig ≤ (T sig).bits) (m_buffer m_buf : Buf SBUFLEN)
    (order : List L.Key) :
    insertReads L T m_buffer m_buf order =
      insertAll L m_buf (order.map fun sig =>
        (BitVec.ofInt 32 ((T sig).extend (L.length sig) (values L m_buffer sig)), sig)) := by
  rw [insertReads, insertAll, List.foldlM_map]
  congr 1
  funext m_buf sig
  rw [readSignal_values L m_buffer sig (T sig) (hT sig), ok_bind]

/-- Masking the `int` of a value that was read gives the raw bits it was read from, the
    sign-extended ones included. -/
theorem ofInt_extend {T : IntType} {len raw : Nat} (hlen : len ≤ 32) (hraw : raw < 2 ^ len) :
    (BitVec.ofInt 32 (T.extend len raw)).toNat % 2 ^ len = raw := by
  apply Int.ofNat.inj
  rw [Int.ofNat_eq_natCast, Int.ofNat_eq_natCast, ← toInt_emod _ hlen, BitVec.toInt_ofInt,
    bmod_emod_two_pow _ hlen, IntType.extend_emod T hraw]

/-- Where the signals of a layout cover the whole buffer, the buffer is its signals. -/
theorem eq_of_values {L : Layout SBUFLEN} {buf buf' : Buf SBUFLEN}
    (hcover : ∀ i < 8 * SBUFLEN, ∃ sig, BitField.Covers (L.start sig) (L.length sig) i)
    (h : ∀ sig, values L buf sig = values L buf' sig) : buf = buf' := by
  have hhigh : ∀ (b : Buf SBUFLEN) (i : Nat), ¬ i < 8 * SBUFLEN → b.toNat.testBit i = false := by
    intro b i hi
    exact Nat.testBit_lt_two_pow
      (Nat.lt_of_lt_of_le b.toNat_lt (Nat.pow_le_pow_right (by decide) (Nat.le_of_not_lt hi)))
  apply Buf.eq_of_toNat_eq
  apply BitField.eq_of_fields (p := fun _ => True) (fun sig _ => h sig)
  intro i hi
  have hout : ¬ i < 8 * SBUFLEN := by
    intro hlt
    obtain ⟨sig, hsig⟩ := hcover i hlt
    exact hi sig trivial hsig
  rw [hhigh buf i hout, hhigh buf' i hout]

/-- Encoding undoes decoding: reading every signal of a received buffer and inserting the
    values into any other buffer, in any order, restores the received bytes, where the
    layout covers the buffer.  No value has to be within its signal's range. -/
theorem insert_after_reads (L : Layout SBUFLEN) (T : L.Key → IntType)
    (hT : ∀ sig, L.length sig ≤ (T sig).bits)
    (hcover : ∀ i < 8 * SBUFLEN, ∃ sig, BitField.Covers (L.start sig) (L.length sig) i)
    (m_buffer m_buf : Buf SBUFLEN) (order : List L.Key) (hall : ∀ sig, sig ∈ order) :
    insertReads L T m_buffer m_buf order = .ok m_buffer := by
  obtain ⟨m_buf', hok, hval⟩ := values_insertAll L m_buf (order.map fun sig =>
    (BitVec.ofInt 32 ((T sig).extend (L.length sig) (values L m_buffer sig)), sig))
  have heq : m_buf' = m_buffer := by
    apply eq_of_values hcover
    intro sig
    have hsig := hval sig
    rw [lastInserted_map _ (hall sig)] at hsig
    exact hsig.trans (ofInt_extend (Layout.length_key_le_32 sig) (BitField.field_lt ..))
  rw [insertReads_eq L hT, hok, heq]

/-- The read types of the client's getters. -/
def getterType (sig : signalsLayout.Key) : IntType :=
  if sig = temperature then .signed .w8
  else if sig = leftLight ∨ sig = rightLight then .bool
  else .unsigned .w8

/-- A buffer of ones, whose values are all outside their ranges, over a buffer of zeros. -/
theorem insert_after_reads_ones :
    insertReads signalsLayout getterType #v[0xFF, 0xFF, 0xFF] (Buf.zero SBUFLEN)
      [temperature, rightLight, speed, leftLight, batteryLevel] = .ok #v[0xFF, 0xFF, 0xFF] := by
  apply insert_after_reads
  · intro sig
    obtain rfl | rfl | rfl | rfl | rfl := signal_cases sig <;> decide
  · exact signals_cover
  · intro sig
    obtain rfl | rfl | rfl | rfl | rfl := signal_cases sig <;> decide

end Speedometer
