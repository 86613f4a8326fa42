import Relata.Number.Shortest

/-!
Decimal text with a bounded number of significant digits.
-/
namespace Relata.Number

/-- `m * 2 ^ q` rounded to `n` significant digits, a half away from zero. -/
def significant (n m : Nat) (q : Int) : Decimal :=
  if m = 0 then ⟨0, 0⟩
  else
    let num := m <<< q.toNat
    let den := 1 <<< (-q).toNat
    let k := floorLog10 num den - n + 1
    let num := num * Nat.pow 10 (-k).toNat
    let den := den * Nat.pow 10 k.toNat
    Decimal.strip (n + 1) ⟨(2 * num + den) / (2 * den), k⟩

/-- One digit, a point, the others or a zero, and a signed exponent of at least two digits. -/
def Decimal.scientificWithPoint (d : Decimal) : String :=
  let digits := (Nat.repr d.digits).toList
  let e := d.leading
  let exponent := Nat.repr e.natAbs
  let fraction := if digits.length ≤ 1 then ['0'] else digits.drop 1
  String.ofList (digits.take 1 ++ '.' :: fraction) ++ (if 0 ≤ e then "e+" else "e-") ++
    zeros (2 - exponent.length) ++ exponent

/-- Numbers of at most fifteen digits, always with a digit after the point: without an exponent from
`0.0001` up to below `10 ^ 15`. Zero has no sign. -/
def general (negative : Bool) (m : Nat) (q : Int) : String :=
  let d := significant 15 m q
  (if negative && m != 0 then "-" else "") ++
    if d.digits = 0 ∨ (-4 ≤ d.leading ∧ d.leading ≤ 14) then d.plain true
    else d.scientificWithPoint

end Relata.Number
