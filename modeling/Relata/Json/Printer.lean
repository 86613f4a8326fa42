import Relata.Json.Basic
import Relata.Number.Shortest

/-!
Compact JSON text: no blanks, members in their order, and in strings only what must be escaped.
-/
namespace Relata

open Number

/-- Doubles in JSON have the fewest digits that read back, a half going to the even digit; they are
written without an exponent from `0.00001` up to below `10 ^ 16`, always with a digit after the
point. -/
def Json.doubles : Layout := ⟨.even, fun place => -5 ≤ place && place ≤ 15, true⟩

namespace Json

def hexDigit (n : Nat) : Char := Char.ofNat (if n < 10 then 48 + n else 87 + n)

/-- One character inside a string. -/
def escapeChar (c : Char) : List Char :=
  if c = '"' then ['\\', '"']
  else if c = '\\' then ['\\', '\\']
  else if c.toNat = 8 then ['\\', 'b']
  else if c.toNat = 12 then ['\\', 'f']
  else if c = '\n' then ['\\', 'n']
  else if c = '\r' then ['\\', 'r']
  else if c = '\t' then ['\\', 't']
  else if c.toNat < 0x20 then
    ['\\', 'u', '0', '0', hexDigit (c.toNat / 16), hexDigit (c.toNat % 16)]
  else [c]

def stringChars (s : String) : List Char := '"' :: (s.toList.flatMap escapeChar ++ ['"'])

/-- A finite double; JSON has no text for the others, which are written as null. -/
def doubleText (x : Double) : String :=
  if x.isFinite then double.show doubles x.meaning else "null"

/-- The digits are those of single precision. -/
def singleText (x : Single) : String :=
  match x.meaning with
  | .finite .. => single.show doubles x.meaning
  | _ => "null"

def numberText : JsonNumber → String
  | .int z => Int.repr z.val
  | .real x => doubleText x

mutual

def chars : Json → List Char
  | .null => "null".toList
  | .bool b => (if b then "true" else "false").toList
  | .number n => (numberText n).toList
  | .string s => stringChars s
  | .array [] => ['[', ']']
  | .array (x :: xs) => '[' :: (x.chars ++ charsItems xs)
  | .object [] => ['\x7b', '\x7d']
  | .object ((name, x) :: rest) =>
    '\x7b' :: (stringChars name ++ ':' :: (x.chars ++ charsMembers rest))

/-- The items after the first, and the end of the array. -/
def charsItems : List Json → List Char
  | [] => [']']
  | x :: xs => ',' :: (x.chars ++ charsItems xs)

def charsMembers : List (String × Json) → List Char
  | [] => ['\x7d']
  | (name, x) :: rest => ',' :: (stringChars name ++ ':' :: (x.chars ++ charsMembers rest))

end

def render (d : Json) : String := String.ofList d.chars

def quote (s : String) : String := String.ofList (stringChars s)

end Json
end Relata
