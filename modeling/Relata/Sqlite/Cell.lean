import Relata.Number.General
import Relata.Number.Reading
import Relata.Value

/-!
What a cell of a table holds, how cells are ordered, and how the affinity of a column changes them.
-/
namespace Relata.Sqlite

open Number

inductive Cell where
  | null
  | integer (n : Int64)
  | real (x : Double)
  | text (s : String)
  | blob (bs : List UInt8)
  deriving DecidableEq, Repr, Inhabited

/-- What a column would like to hold. -/
inductive Affinity where
  | blob
  | text
  | numeric
  | integer
  | real
  deriving DecidableEq, Repr

namespace Cell

def isNull : Cell → Bool
  | .null => true
  | _ => false

def typeName : Cell → String
  | .null => "null"
  | .integer _ => "integer"
  | .real _ => "real"
  | .text _ => "text"
  | .blob _ => "blob"

/-- What is no number cannot be held. -/
def ofDouble (x : Double) : Cell := if x.isNaN then .null else .real x

def ofValue : Value → Cell
  | .null => .null
  | .bool b => .integer (if b then 1 else 0)
  | .int n => .integer (Int64.ofInt n.toInt)
  | .long n => .integer n
  | .float x => ofDouble x.widen
  | .double x => ofDouble x
  | .string s => .text s
  | .bytes bs => .blob bs
  | .timestamp n => .integer n
  | .json d => .text d.render

def toValue : Cell → Value
  | .null => .null
  | .integer n => .long n
  | .real x => .double x
  | .text s => .string s
  | .blob bs => .bytes bs

def realText (x : Double) : String :=
  match x.meaning with
  | .notANumber => "NaN"
  | .infinite n => if n then "-Inf" else "Inf"
  | .finite n m q => general n m q

/-- The cell as text; none for null. -/
def toText? : Cell → Option String
  | .null => none
  | .integer n => some (Int.repr n.toInt)
  | .real x => some (realText x)
  | .text s => some s
  | .blob bs => some (String.fromUTF8? ⟨bs.toArray⟩ |>.getD "")

/-- The exact number that a number cell stands for. -/
def meaning? : Cell → Option Meaning
  | .integer n => some (.finite (n < 0) n.toInt.natAbs 0)
  | .real x => some x.meaning
  | _ => none

/-- Null comes first, then numbers, then texts, then bytes. -/
def rank : Cell → Nat
  | .null => 0
  | .integer _ => 1
  | .real _ => 1
  | .text _ => 2
  | .blob _ => 3

def compareBytes : List UInt8 → List UInt8 → Ordering
  | [], [] => .eq
  | [], _ => .lt
  | _, [] => .gt
  | a :: as, b :: bs => (compare a b).then (compareBytes as bs)

/-- The order in which cells are sorted. Numbers compare exactly, texts by their characters. -/
def order (a b : Cell) : Ordering :=
  match a.meaning?, b.meaning? with
  | some x, some y => (x.compare y).getD .eq
  | _, _ =>
    match a, b with
    | .text s, .text t => compare s t
    | .blob s, .blob t => compareBytes s t
    | a, b => compare a.rank b.rank

/-- An integer, or the nearest real number if it does not fit. -/
def ofInt (z : Int) : Cell :=
  match toLong? z with
  | some n => .integer n
  | none => .real (Double.ofInt z)

/-- A real number that is an integer within bounds, as that integer. -/
def integral? (x : Double) : Option Int64 :=
  match x.meaning with
  | .finite n m q =>
    let z : Int := if n then -(wholePart m q : Int) else wholePart m q
    if (Double.ofInt z).same x ∧ Int64.minValue.toInt < z ∧ z < Int64.maxValue.toInt then
      some (Int64.ofInt z)
    else none
  | _ => none

def compact (x : Double) : Cell :=
  match integral? x with
  | some n => .integer n
  | none => .real x

def isBlank (c : Char) : Bool := c == ' ' || (9 ≤ c.toNat && c.toNat ≤ 13)

/-- The number that a text is as a whole, blanks around it aside. -/
def readNumber? (s : String) : Option Cell :=
  let s := ((s.toList.dropWhile isBlank).reverse.dropWhile isBlank).reverse
  match readInt? s with
  | some z => some (ofInt z)
  | none =>
    let (negative, digits) := match s with
      | '-' :: r => (true, r)
      | '+' :: r => (false, r)
      | r => (false, r)
    (readNumeral? digits).map fun n => compact (n.toDouble negative)

/-- The longest number at the front of a text, blanks before it aside; zero if there is none. -/
def leadingNumber (s : String) : Cell :=
  let s := s.toList.dropWhile isBlank
  match (List.range (s.length + 1)).reverse.findSome? fun n => readNumber? (String.ofList (s.take n)) with
  | some c => c
  | none => .integer 0

/-- The cell as a number, for arithmetic and truth; none for null. -/
def toNumber? : Cell → Option Cell
  | .null => none
  | .text s => some (leadingNumber s)
  | .blob bs => some (leadingNumber (String.fromUTF8? ⟨bs.toArray⟩ |>.getD ""))
  | c => some c

/-- Whether a condition with this value holds; none if it is unknown. -/
def truth? (c : Cell) : Option Bool :=
  c.toNumber?.map fun n =>
    match n with
    | .integer n => n != 0
    | .real x => !x.same Double.zero
    | _ => false

def ofBool (b : Bool) : Cell := .integer (if b then 1 else 0)

def ofTruth : Option Bool → Cell
  | some b => ofBool b
  | none => .null

end Cell

namespace Affinity

def isNumeric : Affinity → Bool
  | .numeric => true
  | .integer => true
  | .real => true
  | _ => false

/-- Text that is a number becomes that number, and real numbers that are integers become integers. -/
def toNumeric : Cell → Cell
  | .text s => (Cell.readNumber? s).getD (.text s)
  | .real x => Cell.compact x
  | c => c

/-- What a column of the affinity holds when it is given the cell. -/
def apply : Affinity → Cell → Cell
  | .blob, c => c
  | .text, .integer n => .text (Int.repr n.toInt)
  | .text, .real x => .text (Cell.realText x)
  | .text, c => c
  | .numeric, c => toNumeric c
  | .integer, c => toNumeric c
  | .real, c =>
    match toNumeric c with
    | .integer n => .real (Double.ofInt n.toInt)
    | c => c

def containsWord (type word : String) : Bool := Text.contains type word

/-- The affinity that the declared type of a column gives it. -/
def ofDeclaredType (type : String) : Affinity :=
  let t := Text.lowerAscii type
  if containsWord t "int" then .integer
  else if containsWord t "char" || containsWord t "clob" || containsWord t "text" then .text
  else if containsWord t "blob" || t.isEmpty then .blob
  else if containsWord t "real" || containsWord t "floa" || containsWord t "doub" then .real
  else .numeric

end Affinity

/-- How two sides of a comparison are brought together. -/
inductive Coercion where
  | none
  | text
  | numeric
  deriving DecidableEq, Repr

namespace Coercion

/-- Two columns compare as numbers if one of them is numeric; a column and anything else compare as
the column would have it. -/
def ofSides : Option Affinity → Option Affinity → Coercion
  | some a, some b => if a.isNumeric || b.isNumeric then .numeric else .none
  | some a, Option.none | Option.none, some a =>
    if a.isNumeric then .numeric else if a = .text then .text else .none
  | Option.none, Option.none => .none

def isText : Cell → Bool
  | .text _ => true
  | _ => false

/-- The two cells as they are compared. -/
def apply : Coercion → Cell → Cell → Cell × Cell
  | .none, a, b => (a, b)
  | .text, a, b => if isText a || isText b then (Affinity.text.apply a, Affinity.text.apply b) else (a, b)
  | .numeric, a, b =>
    let number (c : Cell) : Cell :=
      match c with
      | .text s => (Cell.readNumber? s).getD (.text s)
      | c => c
    (number a, number b)

end Coercion
end Relata.Sqlite
