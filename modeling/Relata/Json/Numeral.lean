import Relata.Json.Basic
import Relata.Number.Reading

/-!
JSON numbers. An integer that fits 64 bits is kept; any other number becomes a double: as many
digits as fit 64 bits are rounded to a double, which is then scaled by a rounded power of ten, so
that long numerals may miss the nearest double by a last place.
-/
namespace Relata

open Number

/-- The parts of a numeral; the exponent has its sign and its digits. -/
structure JsonNumeral where
  negative : Bool
  whole : List Char
  fraction : Option (List Char)
  exponent : Option (Bool × List Char)

namespace JsonNumeral

/-- Takes digits while the number fits 64 bits; gives the number and the digits left. -/
def takeDigits (n : Nat) : List Char → Nat × List Char
  | [] => (n, [])
  | c :: rest =>
    let next := 10 * n + digitValue c
    if UInt64.size ≤ next then (n, c :: rest) else takeDigits next rest

def powerOfTen (n : Nat) : Double := Double.ofRatio false (Nat.pow 10 n) 1

/-- `x * 10 ^ e` in steps of at most 308; none if it is too large. -/
def scale : Nat → Double → Int → Option Double
  | 0, x, _ => some x
  | steps + 1, x, e =>
    if e.natAbs ≤ 308 then
      if 0 ≤ e then (some (x.mul (powerOfTen e.toNat))).filter Double.isFinite
      else some (x.div (powerOfTen e.natAbs))
    else if x.same Double.zero then some x
    else if 0 ≤ e then none
    else scale steps (x.div (powerOfTen 308)) (e + 308)

def signedDouble (negative : Bool) (x : Double) : Double := if negative then x.neg else x

/-- The largest exponent that is read as a number. -/
def maxExponent : Nat := Int32.maxValue.toInt.toNat

/-- The double for `n * 10 ^ e` with the exponent part of the numeral added to `e`. -/
def toDouble? (numeral : JsonNumeral) (n : Nat) (e : Int) : Option Double :=
  let x := Double.ofInt n
  (match numeral.exponent with
    | none => scale 4 x e
    | some (down, digits) =>
      let k := ofDigits digits
      if maxExponent < k then if n ≠ 0 ∧ ¬down then none else some Double.zero
      else scale 4 x (if down then e - k else e + k)).map (signedDouble numeral.negative)

/-- An integer without fraction and exponent; zero with a minus sign is a double, as is what does
not fit. -/
def ofWhole (negative : Bool) (n : Nat) : JsonNumber :=
  match WideInt.ofInt? (if negative then -(n : Int) else n) with
  | some z =>
    if negative ∧ n = 0 then .real (Double.ofRatio true 0 1) else .int z
  | none => .real (signedDouble negative (Double.ofInt n))

def toNumber? (numeral : JsonNumeral) : Option JsonNumber :=
  let (n, left) := takeDigits 0 numeral.whole
  match numeral.fraction, numeral.exponent with
  | none, none =>
    if left.isEmpty then some (ofWhole numeral.negative n)
    else (numeral.toDouble? n left.length).map .real
  | fraction, _ =>
    let digits := fraction.getD []
    let (m, unread) := takeDigits n digits
    (numeral.toDouble? m (left.length - (digits.length - unread.length))).map .real

/-- At least one digit, and what follows the digits. -/
def readDigits? (s : List Char) : Option (List Char × List Char) :=
  if (s.takeWhile isDigit).isEmpty then none else some (s.takeWhile isDigit, s.dropWhile isDigit)

/-- The digits before the point: no zero before another digit. -/
def readWhole? (s : List Char) : Option (List Char × List Char) :=
  match readDigits? s with
  | some ('0' :: _ :: _, _) => none
  | r => r

def readFraction? (s : List Char) : Option (Option (List Char) × List Char) :=
  match s with
  | '.' :: rest => (readDigits? rest).map fun r => (some r.1, r.2)
  | _ => some (none, s)

def readExponent? (s : List Char) : Option (Option (Bool × List Char) × List Char) :=
  match s with
  | c :: rest =>
    if c = 'e' ∨ c = 'E' then
      match rest with
      | '-' :: r => (readDigits? r).map fun r => (some (true, r.1), r.2)
      | '+' :: r => (readDigits? r).map fun r => (some (false, r.1), r.2)
      | r => (readDigits? r).map fun r => (some (false, r.1), r.2)
    else some (none, s)
  | [] => some (none, [])

/-- Reads the longest numeral at the front. -/
def read? (s : List Char) : Option (JsonNumber × List Char) := do
  let (negative, s) := match s with
    | '-' :: rest => (true, rest)
    | rest => (false, rest)
  let (whole, s) ← readWhole? s
  let (fraction, s) ← readFraction? s
  let (exponent, s) ← readExponent? s
  let n ← toNumber? ⟨negative, whole, fraction, exponent⟩
  return (n, s)

end JsonNumeral
end Relata
