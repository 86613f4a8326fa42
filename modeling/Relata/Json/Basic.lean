import Relata.Keyed
import Relata.Number.Binary

/-!
JSON documents. Objects keep the order of their members; integers are kept exactly over the signed
and unsigned 64-bit ranges, every other number is a double.
-/
namespace Relata

open Number

/-- An integer of the signed or the unsigned 64-bit range. -/
structure WideInt where
  val : Int
  low : Int64.minValue.toInt ≤ val
  high : val < UInt64.size
  deriving DecidableEq, Repr

namespace WideInt

def ofInt? (z : Int) : Option WideInt :=
  if h : Int64.minValue.toInt ≤ z ∧ z < UInt64.size then some ⟨z, h.1, h.2⟩ else none

end WideInt

inductive JsonNumber where
  | int (z : WideInt)
  | real (x : Double)
  deriving DecidableEq, Repr

inductive Json where
  | null
  | bool (b : Bool)
  | number (n : JsonNumber)
  | string (s : String)
  | array (items : List Json)
  | object (members : List (String × Json))
  deriving Repr, Inhabited

namespace JsonNumber

/-- Integers and doubles never equal each other; doubles compare as numbers. -/
def same : JsonNumber → JsonNumber → Bool
  | .int a, .int b => a.val == b.val
  | .real x, .real y => x.same y
  | _, _ => false

def toDouble : JsonNumber → Double
  | .int z => Double.ofInt z.val
  | .real x => x

/-- The integer, if it fits the signed 64-bit range. -/
def toLong? : JsonNumber → Option Int64
  | .int z => if z.val ≤ Int64.maxValue.toInt then some (Int64.ofInt z.val) else none
  | .real _ => none

end JsonNumber

namespace Json

mutual

/-- Equality of documents; the order of an object's members does not count. -/
def same : Json → Json → Bool
  | .null, .null => true
  | .bool a, .bool b => a == b
  | .number a, .number b => a.same b
  | .string a, .string b => a == b
  | .array a, .array b => sameItems a b
  | .object a, .object b => a.length == b.length && sameMembers a b
  | _, _ => false

def sameItems : List Json → List Json → Bool
  | [], [] => true
  | x :: xs, y :: ys => x.same y && sameItems xs ys
  | _, _ => false

/-- Every member of the first list has an equal one of its name in the second. -/
def sameMembers : List (String × Json) → List (String × Json) → Bool
  | [], _ => true
  | (name, x) :: rest, other =>
    (match other.lookup name with
      | some y => x.same y
      | none => false) && sameMembers rest other

end

mutual

/-- How deep arrays and objects are nested. -/
def depth : Json → Nat
  | .array items => depthItems items + 1
  | .object members => depthMembers members + 1
  | _ => 0

def depthItems : List Json → Nat
  | [] => 0
  | x :: xs => max x.depth (depthItems xs)

def depthMembers : List (String × Json) → Nat
  | [] => 0
  | (_, x) :: rest => max x.depth (depthMembers rest)

end

mutual

/-- A repeated member name keeps its first place and its last value, at every depth. -/
def merged : Json → Json
  | .array items => .array (mergedItems items)
  | .object members => .object (Keyed.ofList (mergedMembers members)).entries
  | d => d

def mergedItems : List Json → List Json
  | [] => []
  | x :: xs => x.merged :: mergedItems xs

def mergedMembers : List (String × Json) → List (String × Json)
  | [] => []
  | (name, x) :: rest => (name, x.merged) :: mergedMembers rest

end

def toBool? : Json → Option Bool
  | .bool b => some b
  | _ => none

def toLong? : Json → Option Int64
  | .number n => n.toLong?
  | _ => none

def toDouble? : Json → Option Double
  | .number n => some n.toDouble
  | _ => none

def ofInt (z : Int64) : Json :=
  match WideInt.ofInt? z.toInt with
  | some w => .number (.int w)
  | none => .null

end Json
end Relata
