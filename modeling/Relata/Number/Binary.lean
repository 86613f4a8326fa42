/-!
Binary floating-point numbers as bit patterns with exact meanings. A pattern decodes to an integer
times a power of two; every operation computes exactly on these and rounds once, to the nearest
number, and of two equally near ones to the even one.
-/
namespace Relata.Number

/-- The widths of the stored fraction and of the exponent field. -/
structure Format where
  fractionBits : Nat
  exponentBits : Nat

def single : Format := ⟨23, 8⟩

def double : Format := ⟨52, 11⟩

namespace Format

variable (f : Format)

/-- The exponent field of infinities and of what is no number. -/
def topField : Nat := (1 <<< f.exponentBits) - 1

/-- The exponent of the last place of the smallest numbers. -/
def minExponent : Int := 2 - ((1 <<< (f.exponentBits - 1) : Nat) : Int) - f.fractionBits

/-- The pattern of the positive infinity. -/
def infinityBits : Nat := f.topField <<< f.fractionBits

def signBit : Nat := 1 <<< (f.fractionBits + f.exponentBits)

end Format

/-- What a bit pattern stands for; a finite one for `m * 2 ^ q` with a sign. -/
inductive Meaning where
  | notANumber
  | infinite (negative : Bool)
  | finite (negative : Bool) (m : Nat) (q : Int)
  deriving DecidableEq, Repr

def Format.decode (f : Format) (bits : Nat) : Meaning :=
  let fraction := bits % 1 <<< f.fractionBits
  let field := bits >>> f.fractionBits % 1 <<< f.exponentBits
  let negative := bits / f.signBit % 2 == 1
  if field = f.topField then
    if fraction = 0 then .infinite negative else .notANumber
  else if field = 0 then .finite negative fraction f.minExponent
  else .finite negative (1 <<< f.fractionBits + fraction) (f.minExponent + field - 1)

/-- The quotient rounded to the nearest integer, a half to the even one. -/
def roundDiv (a b : Nat) : Nat :=
  let d := a / b
  let r := a % b
  if 2 * r < b then d else if b < 2 * r then d + 1 else d + d % 2

/-- The largest `e` with `2 ^ e ≤ num / den`, both positive. -/
def floorLog2 (num den : Nat) : Int :=
  let e : Int := (Nat.log2 num : Int) - Nat.log2 den
  if num <<< (-e).toNat < den <<< e.toNat then e - 1 else e

/-- The pattern of the positive number nearest to `num / den`; too large is infinite. -/
def Format.roundRatio (f : Format) (num den : Nat) : Nat :=
  if num = 0 then 0
  else
    let q := max (floorLog2 num den - f.fractionBits) f.minExponent
    let m := roundDiv (num <<< (-q).toNat) (den <<< q.toNat)
    min ((q - f.minExponent).toNat <<< f.fractionBits + m) f.infinityBits

def Format.withSign (f : Format) (negative : Bool) (magnitude : Nat) : Nat :=
  if negative then f.signBit + magnitude else magnitude

/-- The pattern nearest to `m * 2 ^ q` with the sign. -/
def Format.roundScaled (f : Format) (negative : Bool) (m : Nat) (q : Int) : Nat :=
  f.withSign negative (f.roundRatio (m <<< q.toNat) (1 <<< (-q).toNat))

/-- The integer part of `m * 2 ^ q`. -/
def wholePart (m : Nat) (q : Int) : Nat := m <<< q.toNat >>> (-q).toNat

namespace Meaning

/-- Toward zero, held between the bounds; what is no number counts as zero. -/
def truncate (lo hi : Int) : Meaning → Int
  | .notANumber => 0
  | .infinite negative => if negative then lo else hi
  | .finite negative m q =>
    let n : Int := if negative then -(wholePart m q : Int) else wholePart m q
    max lo (min hi n)

/-- A finite number as an integer times `2 ^ q`. -/
def signed (negative : Bool) (m : Nat) : Int := if negative then -(m : Int) else m

/-- Order of two numbers; none if one of them is no number. -/
def compare : Meaning → Meaning → Option Ordering
  | .notANumber, _ => none
  | _, .notANumber => none
  | .infinite a, .infinite b =>
    some (if a == b then .eq else if a then .lt else .gt)
  | .infinite a, .finite .. => some (if a then .lt else .gt)
  | .finite .., .infinite b => some (if b then .gt else .lt)
  | .finite a m p, .finite b n q =>
    let low := min p q
    some (Ord.compare (signed a (m <<< (p - low).toNat)) (signed b (n <<< (q - low).toNat)))

def negative : Meaning → Bool
  | .notANumber => false
  | .infinite n => n
  | .finite n _ _ => n

def negate : Meaning → Meaning
  | .notANumber => .notANumber
  | .infinite n => .infinite !n
  | .finite n m q => .finite (!n) m q

end Meaning

/-- The pattern of an exact meaning, rounded. -/
def Format.encode (f : Format) : Meaning → Nat
  | .notANumber => f.infinityBits + 1 <<< (f.fractionBits - 1)
  | .infinite n => f.withSign n f.infinityBits
  | .finite n m q => f.roundScaled n m q

/-- A double-precision number. -/
structure Double where
  bits : UInt64
  deriving DecidableEq, Repr, Inhabited

/-- A single-precision number. -/
structure Single where
  bits : UInt32
  deriving DecidableEq, Repr, Inhabited

namespace Double

def meaning (x : Double) : Meaning := double.decode x.bits.toNat

def ofBits (n : Nat) : Double := ⟨UInt64.ofNat n⟩

def ofMeaning (v : Meaning) : Double := ofBits (double.encode v)

def ofInt (z : Int) : Double := ofBits (double.roundScaled (z < 0) z.natAbs 0)

/-- The number nearest to `num / den` with the sign. -/
def ofRatio (negative : Bool) (num den : Nat) : Double :=
  ofBits (double.withSign negative (double.roundRatio num den))

def zero : Double := ⟨0⟩

def notANumber : Double := ofMeaning .notANumber

def isNaN (x : Double) : Bool := x.meaning == .notANumber

def isFinite (x : Double) : Bool :=
  match x.meaning with
  | .finite .. => true
  | _ => false

/-- Equality of numbers: zeros are equal, what is no number equals nothing. -/
def same (x y : Double) : Bool := x.meaning.compare y.meaning == some .eq

def less (x y : Double) : Bool := x.meaning.compare y.meaning == some .lt

def neg (x : Double) : Double :=
  if x.bits < 0x8000000000000000 then ⟨x.bits + 0x8000000000000000⟩
  else ⟨x.bits - 0x8000000000000000⟩

def add (x y : Double) : Double :=
  match x.meaning, y.meaning with
  | .notANumber, _ | _, .notANumber => notANumber
  | .infinite a, .infinite b => if a == b then x else notANumber
  | .infinite _, _ => x
  | _, .infinite _ => y
  | .finite a m p, .finite b n q =>
    let low := min p q
    let sum : Int := Meaning.signed a (m <<< (p - low).toNat) +
      Meaning.signed b (n <<< (q - low).toNat)
    if sum = 0 then ofMeaning (.finite (a && b) 0 0)
    else ofMeaning (.finite (sum < 0) sum.natAbs low)

def sub (x y : Double) : Double := x.add y.neg

def mul (x y : Double) : Double :=
  match x.meaning, y.meaning with
  | .notANumber, _ | _, .notANumber => notANumber
  | .infinite a, .infinite b => ofMeaning (.infinite (a != b))
  | .infinite a, .finite b n _ | .finite b n _, .infinite a =>
    if n = 0 then notANumber else ofMeaning (.infinite (a != b))
  | .finite a m p, .finite b n q => ofMeaning (.finite (a != b) (m * n) (p + q))

def div (x y : Double) : Double :=
  match x.meaning, y.meaning with
  | .notANumber, _ | _, .notANumber => notANumber
  | .infinite _, .infinite _ => notANumber
  | .infinite a, .finite b _ _ => ofMeaning (.infinite (a != b))
  | .finite a _ _, .infinite b => ofMeaning (.finite (a != b) 0 0)
  | .finite a m p, .finite b n q =>
    if n = 0 then if m = 0 then notANumber else ofMeaning (.infinite (a != b))
    else
      let e := p - q
      ofRatio (a != b) (m <<< e.toNat) (n <<< (-e).toNat)

end Double

namespace Single

def meaning (x : Single) : Meaning := single.decode x.bits.toNat

def ofBits (n : Nat) : Single := ⟨UInt32.ofNat n⟩

def ofInt (z : Int) : Single := ofBits (single.roundScaled (z < 0) z.natAbs 0)

def same (x y : Single) : Bool := x.meaning.compare y.meaning == some .eq

/-- The same number in double precision; what is no number keeps its sign and fraction. -/
def widen (x : Single) : Double :=
  match x.meaning with
  | .notANumber =>
    let b := x.bits.toNat
    Double.ofBits (double.withSign (b >>> 31 == 1)
      (double.infinityBits + 1 <<< 51 + (b % 1 <<< 22) <<< 29))
  | v => Double.ofMeaning v

end Single

/-- The nearest single-precision number. -/
def Double.narrow (x : Double) : Single :=
  match x.meaning with
  | .notANumber =>
    let b := x.bits.toNat
    Single.ofBits (single.withSign (b >>> 63 == 1)
      (single.infinityBits + 1 <<< 22 + (b % 1 <<< 51) >>> 29))
  | v => Single.ofBits (single.encode v)

end Relata.Number
