import Relata.Json.Numeral
import Relata.Text.Basic

/-!
JSON text to documents. Nesting is limited, and the limit is what the recursion runs on: a value
inside an array or object is read with a limit one smaller.
-/
namespace Relata.Json

/-- Arrays and objects may be nested this deep. -/
def maxDepth : Nat := 127

def isBlank (c : Char) : Bool := c == ' ' || c == '\n' || c == '\t' || c == '\r'

def skipBlanks (s : List Char) : List Char := s.dropWhile isBlank

def hexValue? (c : Char) : Option Nat :=
  if '0' ≤ c ∧ c ≤ '9' then some (c.toNat - 48)
  else if 'a' ≤ c ∧ c ≤ 'f' then some (c.toNat - 87)
  else if 'A' ≤ c ∧ c ≤ 'F' then some (c.toNat - 55)
  else none

def hexUnit? (a b c d : Char) : Option Nat := do
  return ((← hexValue? a) * 16 + (← hexValue? b)) * 256 + (← hexValue? c) * 16 + (← hexValue? d)

def isHighSurrogate (n : Nat) : Bool := 0xD800 ≤ n && n < 0xDC00

def isLowSurrogate (n : Nat) : Bool := 0xDC00 ≤ n && n < 0xE000

def shortEscape? (c : Char) : Option Char :=
  if c = '"' ∨ c = '\\' ∨ c = '/' then some c
  else if c = 'b' then some (Char.ofNat 8)
  else if c = 'f' then some (Char.ofNat 12)
  else if c = 'n' then some '\n'
  else if c = 'r' then some '\r'
  else if c = 't' then some '\t'
  else none

/-- The characters up to the closing quote mark, and what follows it. -/
def readString? : List Char → Option (List Char × List Char)
  | [] => none
  | '"' :: rest => some ([], rest)
  | '\\' :: 'u' :: a :: b :: c :: d :: rest =>
    match hexUnit? a b c d with
    | none => none
    | some n =>
      if isHighSurrogate n then
        match rest with
        | '\\' :: 'u' :: e :: f :: g :: h :: rest =>
          match hexUnit? e f g h with
          | none => none
          | some m =>
            if isLowSurrogate m then
              (readString? rest).map fun r =>
                (Char.ofNat (0x10000 + (n - 0xD800) * 0x400 + (m - 0xDC00)) :: r.1, r.2)
            else none
        | _ => none
      else if isLowSurrogate n then none
      else (readString? rest).map fun r => (Char.ofNat n :: r.1, r.2)
  | '\\' :: c :: rest =>
    match shortEscape? c with
    | none => none
    | some c => (readString? rest).map fun r => (c :: r.1, r.2)
  | c :: rest =>
    if c = '\\' ∨ c.toNat < 0x20 then none
    else (readString? rest).map fun r => (c :: r.1, r.2)

/-- One or more elements with commas between them, then the closing character. -/
def readItems? {α : Type} (element : List Char → Option (α × List Char)) (close : Char) :
    Nat → List Char → Option (List α × List Char)
  | 0, _ => none
  | fuel + 1, s =>
    match element s with
    | none => none
    | some (x, rest) =>
      match skipBlanks rest with
      | [] => none
      | c :: rest =>
        if c = close then some ([x], rest)
        else if c = ',' then
          (readItems? element close fuel rest).map fun r => (x :: r.1, r.2)
        else none

/-- What stands between brackets: nothing, or elements. -/
def readBody? {α : Type} (element : List Char → Option (α × List Char)) (close : Char)
    (s : List Char) : Option (List α × List Char) :=
  match skipBlanks s with
  | [] => none
  | c :: rest => if c = close then some ([], rest) else readItems? element close s.length s

/-- A name, a colon and a value. -/
def readMember? (value : List Char → Option (Json × List Char)) (s : List Char) :
    Option ((String × Json) × List Char) :=
  match skipBlanks s with
  | '"' :: rest =>
    match readString? rest with
    | none => none
    | some (name, rest) =>
      match skipBlanks rest with
      | ':' :: rest => (value rest).map fun r => ((String.ofList name, r.1), r.2)
      | _ => none
  | _ => none

/-- A value that is neither array nor object. -/
def readScalar? (s : List Char) : Option (Json × List Char) :=
  match skipBlanks s with
  | '"' :: rest => (readString? rest).map fun r => (.string (String.ofList r.1), r.2)
  | 'n' :: rest => (Text.stripPrefix? "ull".toList rest).map fun r => (.null, r)
  | 't' :: rest => (Text.stripPrefix? "rue".toList rest).map fun r => (.bool true, r)
  | 'f' :: rest => (Text.stripPrefix? "alse".toList rest).map fun r => (.bool false, r)
  | rest => (JsonNumeral.read? rest).map fun r => (.number r.1, r.2)

/-- A value whose arrays and objects are nested at most `limit` deep, members as they stand. -/
def readValue? : (limit : Nat) → List Char → Option (Json × List Char)
  | 0, s => readScalar? s
  | limit + 1, s =>
    match skipBlanks s with
    | '[' :: rest => (readBody? (readValue? limit) ']' rest).map fun r => (.array r.1, r.2)
    | '\x7b' :: rest =>
      (readBody? (readMember? (readValue? limit)) '\x7d' rest).map fun r => (.object r.1, r.2)
    | _ => readScalar? s

/-- A text that is one value, repeated members kept as they stand. -/
def parseMembers? (s : String) : Option Json :=
  match readValue? maxDepth s.toList with
  | some (d, rest) => if (skipBlanks rest).isEmpty then some d else none
  | none => none

/-- A text that is one value. -/
def parse? (s : String) : Option Json := (parseMembers? s).map merged

end Relata.Json
