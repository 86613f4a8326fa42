/-!
Points of time, and the 64-bit counts of microseconds that stand for them. A count is made into an
instant and read from it by way of an unsigned offset from the instant it counts from.
-/
namespace Relata.Postgres

/-- A point of time, exactly, in microseconds since 1970. -/
structure Instant where
  micros : Int
  deriving DecidableEq, Repr

namespace Instant

/-- What timestamps count from. -/
def epoch : Instant := ⟨0⟩

/-- What a server counts from, the beginning of 2000. -/
def wireEpoch : Instant := ⟨946684800000000⟩

variable (base t : Instant) (n : Int64)

/-- The instant so many microseconds after another, or before it. -/
def ofCount : Instant :=
  let offset := n.toInt.natAbs
  if 0 ≤ n.toInt then ⟨base.micros + offset⟩ else ⟨base.micros - offset⟩

/-- How far two instants are apart. -/
def distance : Nat := (t.micros - base.micros).natAbs

/-- The microseconds from one instant to another. A distance past 64 bits is cut down to them before
it gets its sign. -/
def toCount : Int64 :=
  let offset := Int64.ofNat (distance base t)
  if base.micros ≤ t.micros then offset else -offset

theorem ofCount_eq : ofCount base n = ⟨base.micros + n.toInt⟩ := by
  unfold ofCount
  simp only
  split
  next h => rw [Int.natAbs_of_nonneg h]
  next h =>
    congr 1
    omega

theorem toCount_eq : toCount base t = Int64.ofInt (t.micros - base.micros) := by
  unfold toCount distance
  simp only
  rw [← Int64.ofInt_eq_ofNat]
  split
  next h => rw [Int.natAbs_of_nonneg (by omega)]
  next h =>
    rw [← Int64.ofInt_neg]
    congr 1
    omega

end Instant
end Relata.Postgres
