import Mathlib.Algebra.Ring.Int.Defs
import Mathlib.Algebra.Ring.Nat
import Relata.Proofs.Integers

/-!
Timestamps on the wire. Main statement: sending and reading timestamps never fails, and is exact but
for the ends of the 64-bit range. There a distance does not fit its signed count, which is cut down
without notice: the count is wrong by just `2 ^ 64`.
-/
namespace Relata.Postgres

open Number

namespace Instant

variable {base t : Instant} {n : Int64} {z : Int}

theorem toInt_toCount (h : t.micros - base.micros = z) :
    (toCount base t).toInt = z.bmod (2 ^ 64) := by
  rw [toCount_eq, h]
  exact Int64.toInt_ofInt

/-- A distance that fits a signed count is counted exactly. -/
theorem toInt_toCount_of_fits (h : t.micros - base.micros = z) (hlow : Int64.minValue.toInt ≤ z)
    (hhigh : z ≤ Int64.maxValue.toInt) : (toCount base t).toInt = z := by
  rw [Int64.toInt_minValue] at hlow
  rw [Int64.toInt_maxValue] at hhigh
  rw [toInt_toCount h]
  exact Int.bmod_eq_of_le_mul_two (by omega) (by omega)

/-- Too far after, the count has become that of an instant before. -/
theorem toInt_toCount_of_above (h : t.micros - base.micros = z) (hlow : Int64.maxValue.toInt < z)
    (hhigh : z < 2 ^ 64) : (toCount base t).toInt = z - 2 ^ 64 := by
  rw [Int64.toInt_maxValue] at hlow
  rw [toInt_toCount h, ← Int.sub_bmod_right]
  exact Int.bmod_eq_of_le_mul_two (by omega) (by omega)

/-- Too far before, the count has become that of an instant after. -/
theorem toInt_toCount_of_below (h : t.micros - base.micros = z) (hlow : -2 ^ 64 ≤ z)
    (hhigh : z < Int64.minValue.toInt) : (toCount base t).toInt = z + 2 ^ 64 := by
  rw [Int64.toInt_minValue] at hhigh
  rw [toInt_toCount h, ← Int.add_bmod_right]
  exact Int.bmod_eq_of_le_mul_two (by omega) (by omega)

theorem elapsed_ofCount (base : Instant) (n : Int64) :
    (ofCount base n).micros - base.micros = n.toInt := by
  rw [ofCount_eq]
  exact add_sub_cancel_left _ _

/-- An instant that was made of a count is counted from the same instant as before. -/
theorem toCount_ofCount (base : Instant) (n : Int64) : toCount base (ofCount base n) = n := by
  rw [toCount_eq, elapsed_ofCount, Int64.ofInt_toInt]

theorem distance_ofCount (base : Instant) (n : Int64) :
    distance base (ofCount base n) = n.toInt.natAbs := by
  rw [distance, elapsed_ofCount]

/-- The signed count of a distance, before it gets its sign. -/
theorem toInt_ofNat_distance_iff (h : distance base t ≤ 2 ^ 63) :
    (Int64.ofNat (distance base t)).toInt = distance base t ↔ distance base t ≠ 2 ^ 63 := by
  constructor
  · intro hsame hlast
    rw [hlast] at hsame
    exact absurd hsame (by decide)
  · intro hne
    exact Int64.toInt_ofNat_of_lt (Nat.lt_of_le_of_ne h hne)

/-- The least count is the only one whose distance does not fit, and the only one whose negation
does not either. -/
theorem cut_ofCount_iff (base : Instant) (n : Int64) :
    ((Int64.ofNat (distance base (ofCount base n))).toInt = distance base (ofCount base n) ↔
        n ≠ Int64.minValue) ∧
      (Int64.ofNat (distance base (ofCount base n)) = Int64.minValue ↔ n = Int64.minValue) := by
  have hlow := n.le_toInt
  have hhigh := n.toInt_lt
  have hmin : n = Int64.minValue ↔ n.toInt.natAbs = 2 ^ 63 := by
    rw [← Int64.toInt_inj, Int64.toInt_minValue]
    omega
  have hle : distance base (ofCount base n) ≤ 2 ^ 63 := by
    rw [distance_ofCount]
    omega
  refine ⟨?_, ?_⟩
  · rw [toInt_ofNat_distance_iff hle, distance_ofCount, ne_eq, ne_eq, hmin]
  · rw [hmin, ← distance_ofCount base n]
    constructor
    · intro hcut
      by_contra hne
      have hsame := (toInt_ofNat_distance_iff hle).mpr hne
      rw [hcut, Int64.toInt_minValue] at hsame
      omega
    · intro hlast
      rw [hlast]
      decide

end Instant

variable {type : WireType}

theorem encode_timestamp (htype : type.isInstant = true) (m : Int64) :
    encode type (.timestamp m) =
      .ok (some (toWord 8 (Instant.toCount .wireEpoch (.ofCount .epoch m)).toInt)) := by
  cases type with
  | timestamp | timestamptz => rfl
  | _ => cases htype

theorem decode_timestamp (htype : type.isInstant = true) (w : Int64) :
    decode type (some (toWord 8 w.toInt)) =
      .value (.timestamp (Instant.toCount .epoch (.ofCount .wireEpoch w))) := by
  have hsized := sized?_toWord 8 w.toInt
  have hword := ofWord_toWord_long w
  cases type with
  | timestamp | timestamptz =>
    simp [decode, WireType.isKnown, decodeKnown?, hsized, hword]
  | _ => cases htype

/-- The count that is sent for a timestamp is the one from 2000, unless that is below what 64 bits
hold. -/
theorem toInt_toCount_wireEpoch (m : Int64) :
    (Instant.toCount .wireEpoch (.ofCount .epoch m)).toInt =
      if Int64.minValue.toInt ≤ m.toInt - 946684800000000 then m.toInt - 946684800000000
      else m.toInt - 946684800000000 + 2 ^ 64 := by
  have hlow := m.le_toInt
  have hhigh := m.toInt_lt
  have helapsed : (Instant.ofCount .epoch m).micros - Instant.wireEpoch.micros =
      m.toInt - 946684800000000 := by
    rw [Instant.ofCount_eq, Instant.epoch, Instant.wireEpoch, Int.zero_add]
  split
  next hfits =>
    have hmax : m.toInt - 946684800000000 ≤ Int64.maxValue.toInt := by
      rw [Int64.toInt_maxValue]
      omega
    exact Instant.toInt_toCount_of_fits helapsed hfits hmax
  next hbelow =>
    exact Instant.toInt_toCount_of_below helapsed (by omega) (Int.not_le.mp hbelow)

/-- The timestamp that is read from a count is the one from 1970, unless that is above what 64 bits
hold. -/
theorem toInt_toCount_epoch (w : Int64) :
    (Instant.toCount .epoch (.ofCount .wireEpoch w)).toInt =
      if w.toInt + 946684800000000 ≤ Int64.maxValue.toInt then w.toInt + 946684800000000
      else w.toInt + 946684800000000 - 2 ^ 64 := by
  have hlow := w.le_toInt
  have hhigh := w.toInt_lt
  have helapsed : (Instant.ofCount .wireEpoch w).micros - Instant.epoch.micros =
      w.toInt + 946684800000000 := by
    rw [Instant.ofCount_eq, Instant.epoch, Instant.wireEpoch, Int.sub_zero, Int.add_comm]
  split
  next hfits =>
    have hmin : Int64.minValue.toInt ≤ w.toInt + 946684800000000 := by
      rw [Int64.toInt_minValue]
      omega
    exact Instant.toInt_toCount_of_fits helapsed hmin hfits
  next habove =>
    exact Instant.toInt_toCount_of_above helapsed (Int.not_le.mp habove) (by omega)

/-- At a type of timestamps every timestamp is sent, and every eight bytes are read as one. What is
sent and read is exact where it fits 64 bits, and there alone; between counts of the same instant
nothing is lost, though the distance of the least count is cut down on the way. -/
theorem timestamps_exact (htype : type.isInstant = true) :
    (∀ m : Int64, ∃ w : Int64, encode type (.timestamp m) = .ok (some (toWord 8 w.toInt)) ∧
      w.toInt = if Int64.minValue.toInt ≤ m.toInt - 946684800000000
        then m.toInt - 946684800000000 else m.toInt - 946684800000000 + 2 ^ 64) ∧
    (∀ w : Int64, ∃ m : Int64, decode type (some (toWord 8 w.toInt)) = .value (.timestamp m) ∧
      m.toInt = if w.toInt + 946684800000000 ≤ Int64.maxValue.toInt
        then w.toInt + 946684800000000 else w.toInt + 946684800000000 - 2 ^ 64) ∧
    ∀ m : Int64, Instant.toCount .epoch (.ofCount .epoch m) = m ∧
      ((Int64.ofNat (Instant.distance .epoch (.ofCount .epoch m))).toInt =
        Instant.distance .epoch (.ofCount .epoch m) ↔ m ≠ Int64.minValue) ∧
      (Int64.ofNat (Instant.distance .epoch (.ofCount .epoch m)) = Int64.minValue ↔
        m = Int64.minValue) := by
  refine ⟨fun m => ?_, fun w => ?_, fun m => ?_⟩
  · exact ⟨_, encode_timestamp htype m, toInt_toCount_wireEpoch m⟩
  · exact ⟨_, decode_timestamp htype w, toInt_toCount_epoch w⟩
  · exact ⟨Instant.toCount_ofCount _ m, Instant.cut_ofCount_iff _ m⟩

theorem timestamps_exact_unzoned :
    ∃ w : Int64, encode .timestamp (.timestamp 0) = .ok (some (toWord 8 w.toInt)) ∧
      w.toInt = -946684800000000 := by
  obtain ⟨w, hencode, hw⟩ := (timestamps_exact (show WireType.timestamp.isInstant = true from rfl)).1 0
  exact ⟨w, hencode, by rw [hw]; decide⟩

/-- What a server sends for a time after all others is read as one long past. -/
theorem infinity_long_past :
    decode .timestamp (some [0x7f, 0xff, 0xff, 0xff, 0xff, 0xff, 0xff, 0xff]) =
        .value (.timestamp (-9222425352054775809)) ∧
      (-9222425352054775809 : Int64).toInt ≠
        ofWord [0x7f, 0xff, 0xff, 0xff, 0xff, 0xff, 0xff, 0xff] + 946684800000000 := by
  refine ⟨?_, by decide +kernel⟩
  have hlast : [0x7f, 0xff, 0xff, 0xff, 0xff, 0xff, 0xff, 0xff] = toWord 8 Int64.maxValue.toInt := by
    decide +kernel
  have hcount : Instant.toCount .epoch (.ofCount .wireEpoch Int64.maxValue) =
      -9222425352054775809 := by
    decide +kernel
  rw [hlast, decode_timestamp rfl, hcount]

end Relata.Postgres
