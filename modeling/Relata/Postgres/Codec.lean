import Relata.Json.Parser
import Relata.Number.Bytes
import Relata.Postgres.Instant
import Relata.Value

/-!
Values as the bytes that a server exchanges, by the type that the server names. Numbers stand with
the highest byte first; timestamps count microseconds since 2000.
-/
namespace Relata.Postgres

open Number

inductive WireType where
  | bool
  | int2
  | int4
  | int8
  | float4
  | float8
  | bytea
  | json
  | jsonb
  | timestamp
  | timestamptz
  | text
  | varchar
  | bpchar
  | name
  | unknown
  | other (name : String)
  deriving DecidableEq, Repr

namespace WireType

def ofText : String → WireType
  | "bool" => .bool
  | "int2" => .int2
  | "int4" => .int4
  | "int8" => .int8
  | "float4" => .float4
  | "float8" => .float8
  | "bytea" => .bytea
  | "json" => .json
  | "jsonb" => .jsonb
  | "timestamp" => .timestamp
  | "timestamptz" => .timestamptz
  | "text" => .text
  | "varchar" => .varchar
  | "bpchar" => .bpchar
  | "name" => .name
  | "unknown" => .unknown
  | s => .other s

def display : WireType → String
  | .bool => "bool"
  | .int2 => "int2"
  | .int4 => "int4"
  | .int8 => "int8"
  | .float4 => "float4"
  | .float8 => "float8"
  | .bytea => "bytea"
  | .json => "json"
  | .jsonb => "jsonb"
  | .timestamp => "timestamp"
  | .timestamptz => "timestamptz"
  | .text => "text"
  | .varchar => "varchar"
  | .bpchar => "bpchar"
  | .name => "name"
  | .unknown => "unknown"
  | .other s => s

/-- Types whose values are read as text, those of extensions by their names. -/
def isText : WireType → Bool
  | .text => true
  | .varchar => true
  | .bpchar => true
  | .name => true
  | .unknown => true
  | .other s => s = "citext" || s = "ltree" || s = "lquery" || s = "ltxtquery"
  | _ => false

/-- The text stands after a version byte. -/
def isVersioned : WireType → Bool
  | .other s => s = "ltree" || s = "lquery" || s = "ltxtquery"
  | _ => false

end WireType

/-- Why a value cannot be sent. -/
inductive EncodeFault where
  | outOfRange
  | notADocument
  | mismatch (value : String) (type : WireType)
  deriving DecidableEq, Repr

namespace EncodeFault

/-- The text of the fault; what is wrong with a text that is no document, its parser says. -/
def message? : EncodeFault → Option String
  | .outOfRange => some "out of range integral type conversion attempted"
  | .notADocument => none
  | .mismatch value type => some ("cannot encode " ++ value ++ " value as " ++ type.display)

/-- The fault in brief, which is a word where the text comes from a library. -/
def brief : EncodeFault → String
  | .outOfRange => "range"
  | .notADocument => "json"
  | f => f.message?.getD ""

end EncodeFault

def textBytes (s : String) : List UInt8 := s.toUTF8.toList

/-- A text as the type has it. -/
def encodeText (type : WireType) (s : String) : List UInt8 :=
  if type.isVersioned then 1 :: textBytes s else textBytes s

/-- A document as text, after a version byte in the binary form. -/
def encodeDocument (type : WireType) (d : Json) : List UInt8 :=
  if type = .jsonb then 1 :: textBytes d.render else textBytes d.render

/-- An integer in so many bytes, if it fits. -/
def encodeSized (width : Nat) (n : Int64) : Except EncodeFault (List UInt8) :=
  if -(wordSize width : Int) ≤ 2 * n.toInt ∧ 2 * n.toInt < wordSize width then
    .ok (toWord width n.toInt)
  else .error .outOfRange

def encodeInteger (type : WireType) (n : Int64) : Except EncodeFault (List UInt8) :=
  match type with
  | .int2 => encodeSized 2 n
  | .int4 => encodeSized 4 n
  | .int8 => encodeSized 8 n
  | .float4 => .ok (toBytes 4 (Single.ofInt n.toInt).bits.toNat)
  | .float8 => .ok (toBytes 8 (Double.ofInt n.toInt).bits.toNat)
  | .text | .varchar | .bpchar => .ok (textBytes (Int.repr n.toInt))
  | _ => .error (.mismatch "long" type)

/-- The bytes of a value for a parameter of the type; none for null. -/
def encode (type : WireType) : Value → Except EncodeFault (Option (List UInt8))
  | .null => .ok none
  | .bool b => .ok (some [if b then 1 else 0])
  | .int n => (encodeInteger type (Int64.ofInt n.toInt)).map some
  | .long n => (encodeInteger type n).map some
  | .float x =>
    match type with
    | .float4 => .ok (some (toBytes 4 x.bits.toNat))
    | .float8 => .ok (some (toBytes 8 x.widen.bits.toNat))
    | _ => .error (.mismatch "float" type)
  | .double x =>
    match type with
    | .float4 => .ok (some (toBytes 4 x.narrow.bits.toNat))
    | .float8 => .ok (some (toBytes 8 x.bits.toNat))
    | _ => .error (.mismatch "double" type)
  | .string s =>
    match type with
    | .json | .jsonb =>
      match Json.parse? s with
      | some d => .ok (some (encodeDocument type d))
      | none => .error .notADocument
    | _ => .ok (some (encodeText type s))
  | .bytes bs => .ok (some bs)
  | .timestamp n =>
    match type with
    | .timestamp | .timestamptz =>
      let t := Instant.ofCount .epoch n
      .ok (some (toWord 8 (Instant.toCount .wireEpoch t).toInt))
    | _ => (encodeInteger type n).map some
  | .json d =>
    match type with
    | .json | .jsonb => .ok (some (encodeDocument type d))
    | _ => .ok (some (encodeText type d.render))

/-- The text that the bytes are, if they are one. -/
def textOfBytes? (bs : List UInt8) : Option String := String.fromUTF8? ⟨bs.toArray⟩

def decodeText? (type : WireType) (bs : List UInt8) : Option String :=
  if type.isVersioned then
    match bs with
    | version :: rest => if version = 1 then textOfBytes? rest else none
    | [] => none
  else textOfBytes? bs

/-- The bytes, if there are as many as the type has. -/
def sized? (width : Nat) (bs : List UInt8) : Option (List UInt8) :=
  if bs.length = width then some bs else none

def decodeDocument? (type : WireType) (bs : List UInt8) : Option Json :=
  match type, bs with
  | .jsonb, version :: rest => if version = 1 then (textOfBytes? rest).bind Json.parse? else none
  | .jsonb, [] => none
  | _, bs => (textOfBytes? bs).bind Json.parse?

/-- Bytes of a type that has values of its own; none if the bytes are not a value of it. -/
def decodeKnown? (type : WireType) (bs : List UInt8) : Option Value :=
  match type with
  | .bool => (sized? 1 bs).map fun bs => .bool (ofBytes bs != 0)
  | .int2 => (sized? 2 bs).map fun bs => .int (Int32.ofInt (ofWord bs))
  | .int4 => (sized? 4 bs).map fun bs => .int (Int32.ofInt (ofWord bs))
  | .int8 => (sized? 8 bs).map fun bs => .long (Int64.ofInt (ofWord bs))
  | .float4 => (sized? 4 bs).map fun bs => .float (Single.ofBits (ofBytes bs))
  | .float8 => (sized? 8 bs).map fun bs => .double (Double.ofBits (ofBytes bs))
  | .bytea => some (.bytes bs)
  | .json | .jsonb => (decodeDocument? type bs).map .json
  | .timestamp | .timestamptz =>
    (sized? 8 bs).map fun bs =>
      let t := Instant.ofCount .wireEpoch (Int64.ofInt (ofWord bs))
      .timestamp (Instant.toCount .epoch t)
  | _ => none

/-- The type has values of its own; the others are read as text if they can be. -/
def WireType.isKnown : WireType → Bool
  | .text => false
  | .varchar => false
  | .bpchar => false
  | .name => false
  | .unknown => false
  | .other _ => false
  | _ => true

inductive Decoded where
  | value (v : Value)
  /-- Not readable, and given as null. -/
  | unsupported
  | fault

/-- A column of a row. A type without values of its own is text, or else null. -/
def decode (type : WireType) (bs : Option (List UInt8)) : Decoded :=
  if type.isKnown then
    match bs with
    | none => .value .null
    | some bs =>
      match decodeKnown? type bs with
      | some v => .value v
      | none => .fault
  else if type.isText then
    match bs with
    | none => .value .null
    | some bs =>
      match decodeText? type bs with
      | some s => .value (.string s)
      | none => .unsupported
  else .unsupported

end Relata.Postgres
