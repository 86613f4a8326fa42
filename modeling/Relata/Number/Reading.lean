import Relata.Number.Binary
import Relata.Text.Basic

/-!
Numbers read from text: signed integers within bounds, and decimals rounded to the nearest
double-precision number.
-/
namespace Relata.Number

def digitValue (c : Char) : Nat := c.toNat - 48

def isDigit (c : Char) : Bool := '0' ≤ c && c ≤ '9'

/-- The number that decimal digits stand for. -/
def ofDigits (s : List Char) : Nat := s.foldl (fun n c => 10 * n + digitValue c) 0

/-- An optional sign and at least one digit, nothing else. -/
def readInt? (s : List Char) : Option Int :=
  let (negative, digits) := match s with
    | '-' :: rest => (true, rest)
    | '+' :: rest => (false, rest)
    | rest => (false, rest)
  if digits.isEmpty || !digits.all isDigit then none
  else some (if negative then -(ofDigits digits : Int) else ofDigits digits)

/-- The same, if the number lies between the bounds. -/
def readBounded? (lo hi : Int) (s : String) : Option Int :=
  (readInt? s.toList).filter fun z => lo ≤ z && z ≤ hi

/-- The 64-bit integer, if it fits. -/
def toLong? (z : Int) : Option Int64 :=
  if Int64.minValue.toInt ≤ z ∧ z ≤ Int64.maxValue.toInt then some (Int64.ofInt z) else none

/-- A number of digits past which every exponent overflows or vanishes. -/
def farAway : Int := 400

/-- `digits * 10 ^ exponent`, rounded once. -/
def Double.ofDecimal (negative : Bool) (digits : Nat) (exponent : Int) : Double :=
  let size : Int := (Nat.toDigits 10 digits).length + exponent
  if digits = 0 ∨ size < -farAway then Double.ofRatio negative 0 1
  else if farAway < size then Double.ofMeaning (.infinite negative)
  else Double.ofRatio negative (digits * Nat.pow 10 exponent.toNat) (Nat.pow 10 (-exponent).toNat)

/-- The mantissa and exponent parts of a decimal without its sign. -/
structure Numeral where
  whole : List Char
  point : Bool
  fraction : List Char
  exponent : Int

/-- A signed run of digits that ends the text. -/
def readExponent? (s : List Char) : Option Int :=
  match s with
  | [] => some 0
  | e :: rest => if e = 'e' ∨ e = 'E' then readInt? rest else none

/-- Digits, perhaps a point and digits, perhaps an exponent; the two runs of digits are not both
empty. -/
def readNumeral? (s : List Char) : Option Numeral := do
  let whole := s.takeWhile isDigit
  let (point, fraction, rest) := match s.dropWhile isDigit with
    | '.' :: r => (true, r.takeWhile isDigit, r.dropWhile isDigit)
    | r => (false, [], r)
  if whole.isEmpty && fraction.isEmpty then none
  else return ⟨whole, point, fraction, ← readExponent? rest⟩

def Numeral.toDouble (n : Numeral) (negative : Bool) : Double :=
  Double.ofDecimal negative (ofDigits (n.whole ++ n.fraction)) (n.exponent - n.fraction.length)

/-- A decimal, or a name for an infinity or for what is no number, in any case of letters. -/
def readDouble? (s : String) : Option Double :=
  let (negative, rest) := match s.toList with
    | '-' :: r => (true, r)
    | '+' :: r => (false, r)
    | r => (false, r)
  match Text.lowerAscii (String.ofList rest) with
  | "inf" | "infinity" => some (Double.ofMeaning (.infinite negative))
  | "nan" => some Double.notANumber
  | _ => (readNumeral? rest).map fun n => n.toDouble negative

end Relata.Number
