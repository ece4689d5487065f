/-
  Speedometer.Setting

  `shared/setting.h`: the size of the packed buffer, the signal table and the
  map built from it, which is what both desktop programs look signals up in.

  A `Layout n` is a signal map that a packed `n`-byte buffer can carry: its
  signals own non-empty, pairwise disjoint bit ranges inside the buffer.  The
  `SIGNALS` table is one (`signalsLayout`).  `build_map_layout` says which tables
  `build_map` accepts, and that it makes a layout of them.
-/

import Speedometer.Lib.BitField
import Speedometer.Cpp

namespace Speedometer

open Cpp

/-- `SBUFLEN`: the number of bytes the signals are packed into. -/
def SBUFLEN : Nat := 3

instance : NeZero SBUFLEN := ⟨by decide⟩

namespace Setting

/-- `Signal::Info`. -/
structure Info where
  length : BitVec 32
  start : BitVec 32
  min : Int
  max : Int
deriving DecidableEq, Repr

/-- `signals_map_t`, as the list of its entries. -/
abbrev SignalsMap := List (String × Info)

namespace SignalsMap

/-- `map[key] = val`. -/
def insert (map : SignalsMap) (key : String) (val : Info) : SignalsMap :=
  (key, val) :: map.filter (·.1 ≠ key)

/-- `map.at(key)`. -/
def get (map : SignalsMap) (key : String) : Result Info :=
  match map.lookup key with
  | some info => .ok info
  | none => .error .outOfRange

theorem mem_of_lookup {map : SignalsMap} {key : String} {val : Info}
    (h : map.lookup key = some val) : (key, val) ∈ map := by
  obtain ⟨l₁, l₂, rfl, -⟩ := List.lookup_eq_some_iff.mp h
  simp

end SignalsMap

/-- The `SIGNALS` table. -/
def SIGNALS : List (Info × String) :=
  [(⟨8, 0, 0, 240⟩, "speed"),
   (⟨7, 8, -60, 60⟩, "temperature"),
   (⟨7, 15, 0, 100⟩, "battery_level"),
   (⟨1, 22, 0, 1⟩, "left_light"),
   (⟨1, 23, 0, 1⟩, "right_light")]

/-- The condition `build_map` asserts of every table entry: the bytes needed for
    the bits up to `start + length`, computed in `uint32_t`, fit the buffer. -/
def fits (n : Nat) (val : Info) : Bool :=
  decide ((((val.start + val.length + 7) &&& ~~~7) >>> 3).toNat ≤ n)

/-- `Signal::build_map` for a buffer of `n` bytes. -/
def buildMap (n : Nat) (signals_tuple : List (Info × String)) : Result SignalsMap :=
  signals_tuple.foldlM
    (fun map (val, key) => if fits n val then .ok (map.insert key val) else .error .assertion) []

/-! ## Layouts -/

/-- A signal map whose signals own non-empty, pairwise disjoint bit ranges
    inside a buffer of `n` bytes. -/
structure Layout (n : Nat) where
  map : SignalsMap
  length_pos : ∀ e ∈ map, 0 < e.2.length.toNat
  inside : ∀ e ∈ map, e.2.start.toNat + e.2.length.toNat ≤ 8 * n
  apart : ∀ e₁ ∈ map, ∀ e₂ ∈ map, e₁.1 ≠ e₂.1 →
    BitField.Apart e₁.2.start.toNat e₁.2.length.toNat e₂.2.start.toNat e₂.2.length.toNat

namespace Layout

variable {n : Nat} (L : Layout n)

/-- The keys of a layout's signals. -/
@[ext] structure Key where
  sig_str : String
  found : (L.map.lookup sig_str).isSome
deriving DecidableEq

variable {L}

/-- The table entry of a signal. -/
def info (L : Layout n) (sig : L.Key) : Info := (L.map.lookup sig.sig_str).get sig.found

/-- The first bit of a signal. -/
def start (L : Layout n) (sig : L.Key) : Nat := (L.info sig).start.toNat

/-- The number of bits of a signal. -/
def length (L : Layout n) (sig : L.Key) : Nat := (L.info sig).length.toNat

theorem lookup_key (sig : L.Key) : L.map.lookup sig.sig_str = some (L.info sig) :=
  (Option.some_get sig.found).symm

theorem get_key (sig : L.Key) : L.map.get sig.sig_str = .ok (L.info sig) := by
  rw [SignalsMap.get, lookup_key sig]

theorem key_mem (sig : L.Key) : (sig.sig_str, L.info sig) ∈ L.map :=
  SignalsMap.mem_of_lookup (lookup_key sig)

theorem length_key_pos (sig : L.Key) : 0 < L.length sig := L.length_pos _ (key_mem sig)

theorem key_inside (sig : L.Key) : L.start sig + L.length sig ≤ 8 * n :=
  L.inside _ (key_mem sig)

/-- A layout of the shared buffer has 24 bits. -/
theorem key_le_24 {L : Layout SBUFLEN} (sig : L.Key) : L.start sig + L.length sig ≤ 24 :=
  key_inside sig

/-- Its signals are shorter than an `int`. -/
theorem length_key_le_32 {L : Layout SBUFLEN} (sig : L.Key) : L.length sig ≤ 32 := by
  have hin := key_le_24 sig
  omega

theorem key_apart {sig₁ sig₂ : L.Key} (h : sig₁ ≠ sig₂) :
    BitField.Apart (L.start sig₁) (L.length sig₁) (L.start sig₂) (L.length sig₂) :=
  L.apart _ (key_mem sig₁) _ (key_mem sig₂) (fun he => h (Key.ext he))

end Layout

/-! ## Every table -/

/-- What `build_map` asserts of an entry is that its bits lie inside the buffer, as long as
    their number does not wrap. -/
theorem fits_iff {n : Nat} {val : Info}
    (h : val.start.toNat + val.length.toNat + 7 < 2 ^ 32) :
    fits n val = true ↔ val.start.toNat + val.length.toNat ≤ 8 * n := by
  -- the bits the mask clears are shifted out
  have hmask : ∀ x : BitVec 32, (x &&& ~~~7) >>> 3 = x >>> 3 := by
    intro x
    apply BitVec.eq_of_getLsbD_eq
    intro i hi
    rw [BitVec.getLsbD_ushiftRight, BitVec.getLsbD_and, BitVec.getLsbD_ushiftRight]
    by_cases h32 : 3 + i < 32
    · have hset : ∀ j < 32, 3 ≤ j → (~~~(7 : BitVec 32)).getLsbD j = true := by decide
      rw [hset _ h32 (Nat.le_add_right 3 i), Bool.and_true]
    · rw [BitVec.getLsbD_of_ge _ _ (Nat.le_of_not_lt h32), Bool.false_and]
  have hadd : (val.start + val.length + 7).toNat = val.start.toNat + val.length.toNat + 7 := by
    have hsum : (val.start + val.length).toNat = val.start.toNat + val.length.toNat :=
      BitVec.toNat_add_of_lt (by omega)
    rw [BitVec.toNat_add_of_lt, hsum]
    · rfl
    · rw [hsum]
      exact h
  rw [fits, hmask, decide_eq_true_iff, BitVec.toNat_ushiftRight, Nat.shiftRight_eq_div_pow, hadd]
  omega

namespace SignalsMap

theorem lookup_filter {key k : String} (h : k ≠ key) (map : SignalsMap) :
    (map.filter (·.1 ≠ key)).lookup k = map.lookup k := by
  induction map with
  | nil => rfl
  | cons e map ih =>
      by_cases he : e.1 = key
      · have hk : (k == e.1) = false := beq_eq_false_iff_ne.mpr (he ▸ h)
        rw [List.filter_cons_of_neg (by simpa using he), ih, List.lookup_cons, hk]
      · rw [List.filter_cons_of_pos (by simpa using he), List.lookup_cons, List.lookup_cons, ih]

theorem lookup_insert (map : SignalsMap) (key : String) (val : Info) (k : String) :
    (map.insert key val).lookup k = if k = key then some val else map.lookup k := by
  rw [insert, List.lookup_cons]
  by_cases h : k = key
  · simp [h]
  · have hk : (k == key) = false := beq_eq_false_iff_ne.mpr h
    rw [hk, if_neg h]
    exact lookup_filter h map

/-- The entries of a table, inserted one after the other. -/
def insertTable (map : SignalsMap) (signals_tuple : List (Info × String)) : SignalsMap :=
  signals_tuple.foldl (fun map e => map.insert e.2 e.1) map

/-- The last entry of a key counts. -/
theorem lookup_insertTable (map : SignalsMap) (signals_tuple : List (Info × String))
    (key : String) :
    (map.insertTable signals_tuple).lookup key =
      ((signals_tuple.findRev? (·.2 = key)).map Prod.fst).or (map.lookup key) := by
  induction signals_tuple generalizing map with
  | nil => rfl
  | cons e signals_tuple ih =>
      rw [insertTable, List.foldl_cons, ← insertTable, ih, lookup_insert, List.findRev?]
      cases signals_tuple.findRev? (·.2 = key) with
      | some last => rfl
      | none =>
          by_cases h : e.2 = key
          · simp [h]
          · simp [h, Ne.symm h]

theorem mem_insertTable {map : SignalsMap} {signals_tuple : List (Info × String)}
    {entry : String × Info} (h : entry ∈ map.insertTable signals_tuple) :
    entry ∈ map ∨ (entry.2, entry.1) ∈ signals_tuple := by
  induction signals_tuple generalizing map with
  | nil => exact .inl h
  | cons e signals_tuple ih =>
      rcases ih h with h | h
      · rcases List.mem_cons.mp h with rfl | h
        · exact .inr List.mem_cons_self
        · exact .inl (List.mem_of_mem_filter h)
      · exact .inr (List.mem_cons_of_mem _ h)

end SignalsMap

/-- `build_map` inserts all entries, or none. -/
theorem buildMap_eq (n : Nat) (signals_tuple : List (Info × String)) :
    buildMap n signals_tuple =
      if signals_tuple.all (fits n ·.1) then .ok (SignalsMap.insertTable [] signals_tuple)
      else .error .assertion := by
  rw [buildMap]
  generalize ([] : SignalsMap) = map
  induction signals_tuple generalizing map with
  | nil => rfl
  | cons e signals_tuple ih =>
      rw [List.foldlM_cons, List.all_cons, SignalsMap.insertTable, List.foldl_cons,
        ← SignalsMap.insertTable]
      cases hfits : fits n e.1 with
      | true =>
          rw [Bool.true_and, ← ih]
          simp only [hfits, if_true]
          rfl
      | false =>
          simp only [hfits, Bool.false_and, Bool.false_eq_true, if_false]
          rfl

/-- A table whose signals own some bits each, no two of them a common one. -/
structure Tabled (signals_tuple : List (Info × String)) : Prop where
  length_pos : ∀ e ∈ signals_tuple, 0 < e.1.length.toNat
  nowrap : ∀ e ∈ signals_tuple, e.1.start.toNat + e.1.length.toNat + 7 < 2 ^ 32
  apart : ∀ e₁ ∈ signals_tuple, ∀ e₂ ∈ signals_tuple, e₁.2 ≠ e₂.2 →
    BitField.Apart e₁.1.start.toNat e₁.1.length.toNat e₂.1.start.toNat e₂.1.length.toNat

/-- `build_map` accepts a table exactly if its signals lie inside the buffer, as long as
    none of their sums wraps. -/
theorem buildMap_accepts_iff {n : Nat} {signals_tuple : List (Info × String)}
    (hnowrap : ∀ e ∈ signals_tuple, e.1.start.toNat + e.1.length.toNat + 7 < 2 ^ 32) :
    (∃ map, buildMap n signals_tuple = .ok map) ↔
      ∀ e ∈ signals_tuple, e.1.start.toNat + e.1.length.toNat ≤ 8 * n := by
  have hall : signals_tuple.all (fits n ·.1) = true ↔
      ∀ e ∈ signals_tuple, e.1.start.toNat + e.1.length.toNat ≤ 8 * n := by
    rw [List.all_eq_true]
    exact forall₂_congr fun e he => fits_iff (hnowrap e he)
  rw [← hall, buildMap_eq]
  constructor
  · rintro ⟨map, hok⟩
    by_contra hnot
    rw [if_neg hnot] at hok
    cases hok
  · intro hfits
    exact ⟨_, if_pos hfits⟩

/-- What it returns of an accepted table. -/
theorem eq_of_buildMap {n : Nat} {signals_tuple : List (Info × String)} {map : SignalsMap}
    (hok : buildMap n signals_tuple = .ok map) : map = SignalsMap.insertTable [] signals_tuple := by
  rw [buildMap_eq] at hok
  split at hok
  · exact (Except.ok.inj hok).symm
  · cases hok

/-- `build_map` accepts such a table exactly if its signals lie inside the buffer, and what
    it returns then is a layout, in which a key finds its last entry. -/
theorem build_map_layout {n : Nat} {signals_tuple : List (Info × String)}
    (h : Tabled signals_tuple) :
    ((∃ map, buildMap n signals_tuple = .ok map) ↔
      ∀ e ∈ signals_tuple, e.1.start.toNat + e.1.length.toNat ≤ 8 * n) ∧
    ∀ map, buildMap n signals_tuple = .ok map →
      (∃ L : Layout n, L.map = map) ∧
        ∀ key, map.lookup key = (signals_tuple.findRev? (·.2 = key)).map Prod.fst := by
  have haccepts := buildMap_accepts_iff (n := n) h.nowrap
  refine ⟨haccepts, fun map hok => ?_⟩
  have hinside := haccepts.mp ⟨map, hok⟩
  obtain rfl := eq_of_buildMap hok
  have hmem : ∀ {entry}, entry ∈ SignalsMap.insertTable [] signals_tuple →
      (entry.2, entry.1) ∈ signals_tuple :=
    fun hentry => (SignalsMap.mem_insertTable hentry).resolve_left List.not_mem_nil
  refine ⟨⟨{ map := SignalsMap.insertTable [] signals_tuple
             length_pos := fun _ he => h.length_pos _ (hmem he)
             inside := fun _ he => hinside _ (hmem he)
             apart := fun _ he₁ _ he₂ => h.apart _ (hmem he₁) _ (hmem he₂) }, rfl⟩, fun key => ?_⟩
  rw [SignalsMap.lookup_insertTable]
  exact Option.or_none

theorem build_map_layout_SIGNALS :
    ∃ map, buildMap SBUFLEN SIGNALS = .ok map ∧ (∃ L : Layout SBUFLEN, L.map = map) ∧
      map.lookup "speed" = some ⟨8, 0, 0, 240⟩ := by
  have htabled : Tabled SIGNALS := ⟨by decide, by decide, by decide⟩
  have hinside : ∀ e ∈ SIGNALS, e.1.start.toNat + e.1.length.toNat ≤ 8 * SBUFLEN := by decide
  obtain ⟨haccepts, hlayout⟩ := build_map_layout (n := SBUFLEN) htabled
  obtain ⟨map, hok⟩ := haccepts.mpr hinside
  obtain ⟨hL, hlookup⟩ := hlayout map hok
  exact ⟨map, hok, hL, hlookup "speed"⟩

/-- A number of bits that wraps passes the assertion. -/
example : fits SBUFLEN ⟨8, 0xFFFFFFF8, 0, 240⟩ = true := by decide

/-! ## The `SIGNALS` table is a layout -/

/-- The map behind `Setting::Signal::handle()`. -/
def signalsMap : SignalsMap :=
  [("right_light", ⟨1, 23, 0, 1⟩),
   ("left_light", ⟨1, 22, 0, 1⟩),
   ("battery_level", ⟨7, 15, 0, 100⟩),
   ("temperature", ⟨7, 8, -60, 60⟩),
   ("speed", ⟨8, 0, 0, 240⟩)]

/-- `signalsMap` is what `build_map` makes of the `SIGNALS` table: no assertion
    of it fails. -/
theorem buildMap_SIGNALS : buildMap SBUFLEN SIGNALS = .ok signalsMap := by decide

/-- The layout of the `SIGNALS` table. -/
def signalsLayout : Layout SBUFLEN where
  map := signalsMap
  length_pos := by decide
  inside := by decide
  apart := by decide

/-- The signals of the `SIGNALS` table. -/
def speed : signalsLayout.Key := ⟨"speed", by decide⟩
def temperature : signalsLayout.Key := ⟨"temperature", by decide⟩
def batteryLevel : signalsLayout.Key := ⟨"battery_level", by decide⟩
def leftLight : signalsLayout.Key := ⟨"left_light", by decide⟩
def rightLight : signalsLayout.Key := ⟨"right_light", by decide⟩

/-- These are all of them. -/
theorem signal_cases (sig : signalsLayout.Key) :
    sig = rightLight ∨ sig = leftLight ∨ sig = batteryLevel ∨ sig = temperature ∨
      sig = speed := by
  have hmem : sig.sig_str ∈ signalsMap.map Prod.fst := List.mem_map_of_mem (Layout.key_mem sig)
  simp only [Layout.Key.ext_iff]
  simpa [signalsMap, rightLight, leftLight, batteryLevel, temperature, speed] using hmem

/-- The table leaves no bit of the buffer unused. -/
theorem signals_cover : ∀ i < 8 * SBUFLEN, ∃ sig : signalsLayout.Key,
    BitField.Covers (signalsLayout.start sig) (signalsLayout.length sig) i := by
  have hlist : ∀ i < 8 * SBUFLEN,
      ∃ sig ∈ [speed, temperature, batteryLevel, leftLight, rightLight],
        BitField.Covers (signalsLayout.start sig) (signalsLayout.length sig) i := by decide
  intro i hi
  obtain ⟨sig, -, hsig⟩ := hlist i hi
  exact ⟨sig, hsig⟩

end Setting
end Speedometer
