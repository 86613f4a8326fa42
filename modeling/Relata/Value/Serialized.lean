import Relata.Json.Parser
import Relata.Value

/-!
Values as JSON documents that name the type of the value: an object with one member, whose name is
the type, or only the name for null. Reading takes no other member and no other type.
-/
namespace Relata

open Number

namespace Value

def tagged (name payload : String) : String :=
  "\x7b" ++ Json.quote name ++ ":" ++ payload ++ "\x7d"

def bytesText (bs : List UInt8) : String :=
  "[" ++ Text.joinWith "," (bs.map fun b => Nat.repr b.toNat) ++ "]"

/-- The JSON text that names the type of the value. -/
def serialize : Value → String
  | .null => Json.quote "Null"
  | .bool b => tagged "Bool" (boolText b)
  | .int n => tagged "Int" (Int.repr n.toInt)
  | .long n => tagged "Long" (Int.repr n.toInt)
  | .float x => tagged "Float" (Json.singleText x)
  | .double x => tagged "Double" (Json.doubleText x)
  | .string s => tagged "String" (Json.quote s)
  | .bytes bs => tagged "Bytes" (bytesText bs)
  | .timestamp n => tagged "Timestamp" (Int.repr n.toInt)
  | .json d => tagged "Json" d.render

def readLong? (lo hi : Int) : Json → Option Int
  | .number (.int z) => if lo ≤ z.val ∧ z.val ≤ hi then some z.val else none
  | _ => none

def readByte? (d : Json) : Option UInt8 :=
  (readLong? 0 255 d).map fun z => UInt8.ofNat z.toNat

/-- A payload read as the type that its name tells. -/
def readTagged? (name : String) (payload : Json) : Option Value :=
  match name, payload with
  | "Null", .null => some .null
  | "Bool", .bool b => some (.bool b)
  | "Int", d => (readLong? minInt maxInt d).map fun z => .int (Int32.ofInt z)
  | "Long", d => (readLong? minLong maxLong d).map fun z => .long (Int64.ofInt z)
  | "Float", .number (.int z) => some (.float (Single.ofInt z.val))
  | "Float", .number (.real x) => some (.float x.narrow)
  | "Double", .number n => some (.double n.toDouble)
  | "String", .string s => some (.string s)
  | "Bytes", .array items => (items.mapM readByte?).map .bytes
  | "Timestamp", d => (readLong? minLong maxLong d).map fun z => .timestamp (Int64.ofInt z)
  | "Json", d => some (.json d.merged)
  | _, _ => none

/-- Reads what `serialize` writes, and integers where a floating-point number is due. -/
def deserialize? (text : String) : Option Value :=
  match Json.parseMembers? text with
  | some (.string "Null") => some .null
  | some (.object [(name, payload)]) => readTagged? name payload
  | _ => none

end Value
end Relata
