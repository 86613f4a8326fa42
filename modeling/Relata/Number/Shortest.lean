import Relata.Number.Binary

/-!
Shortest decimal text of binary floating-point numbers: the fewest digits that read back as the
same number, and of those the nearest to it. How the digits are laid out is a record, so that each
output format says where it differs.
-/
namespace Relata.Number

/-- The number `digits * 10 ^ exponent`. -/
structure Decimal where
  digits : Nat
  exponent : Int
  deriving DecidableEq, Repr

/-- The count of decimal digits; zero has one. -/
def digitCount (n : Nat) : Nat := (Nat.toDigits 10 n).length

/-- The largest `e` with `10 ^ e ≤ num / den`, both positive. -/
def floorLog10 (num den : Nat) : Int :=
  if den ≤ num then digitCount (num / den) - 1
  else
    let r := (den + num - 1) / num
    Int.negOfNat (if r ≤ 1 then 0 else digitCount (r - 1))

/-- Drops zeros at the end, at most `fuel` of them. -/
def Decimal.strip : Nat → Decimal → Decimal
  | 0, d => d
  | fuel + 1, d =>
    if d.digits ≠ 0 ∧ d.digits % 10 = 0 then strip fuel ⟨d.digits / 10, d.exponent + 1⟩ else d

/-- Which neighbour to take when two are equally near. -/
inductive Tie where
  | even
  | up
  deriving DecidableEq, Repr

/-- The point of the grid `10 ^ k` nearest to `m * 2 ^ q` among those that read back as it. The
interval of what reads back reaches half a last place up and down, only a quarter down where the
places below are finer, and holds its ends if `m` is even. -/
def onGrid (tie : Tie) (finerBelow : Bool) (m : Nat) (q k : Int) : Option Nat :=
  let scale := 4 * Nat.pow 10 (-k).toNat
  let place := scale <<< q.toNat
  let value := m * place
  let unit := 4 <<< (-q).toNat * Nat.pow 10 k.toNat
  let high := value + place / 2
  let low := value - (if finerBelow then place / 4 else place / 2)
  let holds (c : Nat) : Bool :=
    let x := c * unit
    if m % 2 = 0 then low ≤ x && x ≤ high else low < x && x < high
  let c := value / unit
  let below := value - c * unit
  let above := unit - below
  match holds c, holds (c + 1) with
  | false, false => none
  | true, false => some c
  | false, true => some (c + 1)
  | true, true =>
    if below < above then some c
    else if above < below then some (c + 1)
    else match tie with
      | .up => some (c + 1)
      | .even => some (c + c % 2)

/-- The grids for `n`, `n + 1`, … digits, at most `fuel` of them; `top` is the place of the
leading digit. -/
def firstGrid (tie : Tie) (finerBelow : Bool) (m : Nat) (q top : Int) : Nat → Nat → Decimal
  | 0, _ => ⟨0, 0⟩
  | fuel + 1, n =>
    let k := top - n + 1
    match onGrid tie finerBelow m q k with
    | some c => Decimal.strip 20 ⟨c, k⟩
    | none => firstGrid tie finerBelow m q top fuel (n + 1)

/-- The shortest decimal that reads back as `m * 2 ^ q` in the format. -/
def Format.shortest (f : Format) (tie : Tie) (m : Nat) (q : Int) : Decimal :=
  if m = 0 then ⟨0, 0⟩
  else
    let finerBelow := m == 1 <<< f.fractionBits && f.minExponent < q
    let top := floorLog10 (m <<< q.toNat) (1 <<< (-q).toNat)
    firstGrid tie finerBelow m q top 17 1

/-- How a decimal is written: which leading places are written without an exponent, whether a
whole number keeps one zero after the point, how ties between digits go. -/
structure Layout where
  tie : Tie
  positional : Int → Bool
  pointZero : Bool

def zeros (n : Nat) : String := String.ofList (List.replicate n '0')

/-- Digits without an exponent. -/
def Decimal.plain (d : Decimal) (pointZero : Bool) : String :=
  let text := Nat.repr d.digits
  if 0 ≤ d.exponent then
    text ++ (if d.digits = 0 then "" else zeros d.exponent.toNat) ++ (if pointZero then ".0" else "")
  else
    let places := (-d.exponent).toNat
    if places < text.length then
      let whole := text.length - places
      String.ofList (text.toList.take whole) ++ "." ++ String.ofList (text.toList.drop whole)
    else "0." ++ zeros (places - text.length) ++ text

/-- One digit, the others after a point, and a signed exponent. -/
def Decimal.scientific (d : Decimal) : String :=
  let text := Nat.repr d.digits
  let e := d.exponent + text.length - 1
  let mantissa :=
    match text.toList with
    | [] => ""
    | [c] => String.ofList [c]
    | c :: rest => String.ofList (c :: '.' :: rest)
  mantissa ++ "e" ++ (if 0 ≤ e then "+" else "-") ++ Nat.repr e.natAbs

/-- The place of the leading digit. -/
def Decimal.leading (d : Decimal) : Int := d.exponent + digitCount d.digits - 1

def Layout.write (layout : Layout) (d : Decimal) : String :=
  if d.digits = 0 ∨ layout.positional d.leading then d.plain layout.pointZero else d.scientific

/-- Numbers shown to a reader: never an exponent, whole numbers without a point. -/
def display : Layout := ⟨.up, fun _ => true, false⟩

def Format.show (f : Format) (layout : Layout) : Meaning → String
  | .notANumber => "NaN"
  | .infinite n => if n then "-inf" else "inf"
  | .finite n m q => (if n then "-" else "") ++ layout.write (f.shortest layout.tie m q)

def Double.display (x : Double) : String := double.show Number.display x.meaning

def Single.display (x : Single) : String := single.show Number.display x.meaning

/-- A number rounded to `places` digits after the point, a half to the even digit. -/
def Double.fixed (places : Nat) (x : Double) : String :=
  match x.meaning with
  | .notANumber => "NaN"
  | .infinite n => if n then "-inf" else "inf"
  | .finite n m q =>
    let scaled := roundDiv (m <<< q.toNat * Nat.pow 10 places) (1 <<< (-q).toNat)
    let fraction := Nat.repr (scaled % Nat.pow 10 places)
    (if n then "-" else "") ++ Nat.repr (scaled / Nat.pow 10 places) ++
      (if places = 0 then "" else "." ++ zeros (places - fraction.length) ++ fraction)

end Relata.Number
