import Relata.Json.Printer
import Relata.Number.Reading
import Relata.Text.Lowercase

/-!
The values that are bound to statements and read from rows, and the views of a value as one of the
plain types.
-/
namespace Relata

open Number

/-- A timestamp counts microseconds since 1970; a document holds a nested projection. -/
inductive Value where
  | null
  | bool (b : Bool)
  | int (n : Int32)
  | long (n : Int64)
  | float (x : Single)
  | double (x : Double)
  | string (s : String)
  | bytes (bs : List UInt8)
  | timestamp (n : Int64)
  | json (d : Json)
  deriving Repr, Inhabited

namespace Value

def typeName : Value → String
  | .null => "null"
  | .bool _ => "bool"
  | .int _ => "int"
  | .long _ => "long"
  | .float _ => "float"
  | .double _ => "double"
  | .string _ => "string"
  | .bytes _ => "bytes"
  | .timestamp _ => "timestamp"
  | .json _ => "json"

def isNull : Value → Bool
  | .null => true
  | _ => false

/-- The words for truth values, in any case of letters. -/
def readBool? (s : String) : Option Bool :=
  match Text.lower s with
  | "true" | "1" | "yes" => some true
  | "false" | "0" | "no" => some false
  | _ => none

def toBool? : Value → Option Bool
  | .bool b => some b
  | .int n => some (n != 0)
  | .long n => some (n != 0)
  | .string s => readBool? s
  | .json d => d.toBool?
  | _ => none

def minInt : Int := Int32.minValue.toInt

def maxInt : Int := Int32.maxValue.toInt

def minLong : Int := Int64.minValue.toInt

def maxLong : Int := Int64.maxValue.toInt

theorem minInt_le (n : Int32) : minInt ≤ n.toInt := by
  rw [minInt, Int32.toInt_minValue]
  exact n.le_toInt

theorem le_maxInt (n : Int32) : n.toInt ≤ maxInt := by
  rw [maxInt, Int32.toInt_maxValue]
  exact n.toInt_le

theorem minLong_le (n : Int64) : minLong ≤ n.toInt := by
  rw [minLong, Int64.toInt_minValue]
  exact n.le_toInt

theorem le_maxLong (n : Int64) : n.toInt ≤ maxLong := by
  rw [maxLong, Int64.toInt_maxValue]
  exact n.toInt_le

/-- The value as a 32-bit integer. Floating-point numbers lose their fraction and are held within
the range; a long integer outside the range has no such view. -/
def toInt? : Value → Option Int32
  | .int n => some n
  | .long n =>
    if minInt ≤ n.toInt ∧ n.toInt ≤ maxInt then some (Int32.ofInt n.toInt) else none
  | .float x => some (Int32.ofInt (x.meaning.truncate minInt maxInt))
  | .double x => some (Int32.ofInt (x.meaning.truncate minInt maxInt))
  | .string s => (readBounded? minInt maxInt s).map Int32.ofInt
  | .bool b => some (if b then 1 else 0)
  | _ => none

/-- The value as a 64-bit integer. -/
def toLong? : Value → Option Int64
  | .long n => some n
  | .int n => some (Int64.ofInt n.toInt)
  | .float x => some (Int64.ofInt (x.meaning.truncate minLong maxLong))
  | .double x => some (Int64.ofInt (x.meaning.truncate minLong maxLong))
  | .string s => (readBounded? minLong maxLong s).map Int64.ofInt
  | .bool b => some (if b then 1 else 0)
  | .timestamp n => some n
  | .json d => d.toLong?
  | _ => none

def toDouble? : Value → Option Double
  | .double x => some x
  | .float x => some x.widen
  | .int n => some (Double.ofInt n.toInt)
  | .long n => some (Double.ofInt n.toInt)
  | .string s => readDouble? s
  | .json d => d.toDouble?
  | _ => none

def toStr? : Value → Option String
  | .string s => some s
  | _ => none

def boolText (b : Bool) : String := if b then "true" else "false"

/-- The value as text for a reader; every value has one. -/
def display : Value → String
  | .null => "null"
  | .bool b => boolText b
  | .int n => Int.repr n.toInt
  | .long n => Int.repr n.toInt
  | .float x => x.display
  | .double x => x.display
  | .string s => s
  | .bytes bs => "<" ++ Nat.repr bs.length ++ " bytes>"
  | .timestamp n => Int.repr n.toInt
  | .json d => d.render

def toBytes? : Value → Option (List UInt8)
  | .bytes bs => some bs
  | .string s => some s.toUTF8.toList
  | _ => none

def toJson? : Value → Option Json
  | .json d => some d
  | _ => none

/-- A scalar document becomes the value of its own type, with integers as long integers where they
fit; arrays and objects stay documents. -/
def ofJson : Json → Value
  | .null => .null
  | .bool b => .bool b
  | .number n =>
    match n.toLong? with
    | some z => .long z
    | none => .double n.toDouble
  | .string s => .string s
  | d => .json d

/-- Equality of values of one type; numbers compare as numbers, documents without regard to the
order of members. -/
def same : Value → Value → Bool
  | .null, .null => true
  | .bool a, .bool b => a == b
  | .int a, .int b => a == b
  | .long a, .long b => a == b
  | .float x, .float y => x.same y
  | .double x, .double y => x.same y
  | .string s, .string t => s == t
  | .bytes a, .bytes b => a == b
  | .timestamp a, .timestamp b => a == b
  | .json a, .json b => a.same b
  | _, _ => false

/-- An absent value is null. -/
def ofOption {α : Type} (f : α → Value) : Option α → Value
  | none => .null
  | some x => f x

end Value

/-- A row of results: values by column name. A column given again takes the last value. -/
abbrev Row := Keyed Value

end Relata
