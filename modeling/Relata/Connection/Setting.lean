import Relata.Json.Parser
import Relata.Number.Reading
import Relata.Text.Basic

/-!
Values of environment variables. A value is read as a flag, a number, a list, a table or a text by
its look; what does not look like any of the others as a whole is the text itself.
-/
namespace Relata

open Number

inductive Setting where
  | text (s : String)
  | number
  | flag
  | list
  | table
  deriving DecidableEq, Repr

namespace Setting

def isBlank (c : Char) : Bool :=
  c == ' ' || c == '\t' || c == '\n' || c == '\r' || c.toNat == 12

def skipBlanks (s : List Char) : List Char := s.dropWhile isBlank

/-- Characters that end a bare value. -/
def isSeparator (c : Char) : Bool :=
  c == ',' || c == '[' || c == ']' || c == '\x7b' || c == '\x7d'

def isKeyChar (c : Char) : Bool := c.isAlphanum || c == '_' || c == '-'

/-- The character for so many hexadecimal digits at the front. -/
def readCode? (digits : Nat) (s : List Char) : Option (Char × List Char) := do
  let front := s.take digits
  if front.length < digits then none
  else
    let n ← front.foldlM (fun n c => (Json.hexValue? c).map fun d => 16 * n + d) 0
    if h : n.isValidChar then some (Char.ofNatAux n h, s.drop digits) else none

/-- A quoted text after its opening mark, and what follows it. -/
def readQuoted? : (fuel : Nat) → List Char → Option (List Char × List Char)
  | 0, _ => none
  | _, [] => none
  | fuel + 1, c :: s =>
    if c = '"' then some ([], s)
    else if c = '\\' then
      match s with
      | [] => none
      | e :: s =>
        let escaped :=
          match e with
          | '"' => some ('"', s)
          | '\\' => some ('\\', s)
          | 'n' => some ('\n', s)
          | 't' => some ('\t', s)
          | 'r' => some ('\r', s)
          | 'b' => some (Char.ofNat 8, s)
          | 'f' => some (Char.ofNat 12, s)
          | 'u' => readCode? 4 s
          | 'U' => readCode? 8 s
          | _ => none
        match escaped with
        | none => none
        | some (x, s) => (readQuoted? fuel s).map fun r => (x :: r.1, r.2)
    else (readQuoted? fuel s).map fun r => (c :: r.1, r.2)

/-- A value without marks: a number if it looks like one. -/
def ofBare (s : String) : Setting :=
  if Text.contains s "." && (readDouble? s).isSome then .number
  else if (readBounded? Int64.minValue.toInt (UInt64.size - 1) s).isSome then .number
  else .text s

/-- Elements with commas between them up to the closing character. -/
def skipItems? (element : List Char → Option (List Char)) (close : Char) :
    Nat → List Char → Option (List Char)
  | 0, _ => none
  | fuel + 1, s =>
    match s with
    | c :: rest =>
      if c = close then some rest
      else
        match element s with
        | some (',' :: rest) => skipItems? element close fuel rest
        | some (c :: rest) => if c = close then some rest else none
        | _ => none
    | [] => none

/-- A key, an equals sign and a value. -/
def skipPair? (value : List Char → Option (Setting × List Char)) (s : List Char) :
    Option (List Char) :=
  let afterKey :=
    match skipBlanks s with
    | '"' :: rest => (readQuoted? rest.length rest).map Prod.snd
    | rest => if (rest.takeWhile isKeyChar).isEmpty then none else some (rest.dropWhile isKeyChar)
  match afterKey.map skipBlanks with
  | some ('=' :: rest) => (value rest).map Prod.snd
  | _ => none

/-- A value at the front, and what follows it; `depth` bounds the nesting. -/
def readValue? : (depth : Nat) → List Char → Option (Setting × List Char)
  | 0, _ => none
  | depth + 1, s =>
    let s := skipBlanks s
    let found : Option (Setting × List Char) :=
      match Text.stripPrefix? "true".toList s, Text.stripPrefix? "false".toList s with
      | some rest, _ => some (.flag, rest)
      | _, some rest => some (.flag, rest)
      | none, none =>
        match s with
        | '\x7b' :: rest =>
          (skipItems? (skipPair? (readValue? depth)) '\x7d' (rest.length + 1) rest).map
            fun r => (.table, r)
        | '[' :: rest =>
          (skipItems? (fun s => (readValue? depth s).map Prod.snd) ']' (rest.length + 1) rest).map
            fun r => (.list, r)
        | '"' :: rest =>
          (readQuoted? rest.length rest).map fun r => (.text (String.ofList r.1), r.2)
        | '\'' :: rest =>
          match rest with
          | c :: '\'' :: rest => some (.text (String.ofList [c]), rest)
          | _ => none
        | s =>
          let bare := s.takeWhile fun c => !isSeparator c
          some (ofBare (Text.trim (String.ofList bare)), s.dropWhile fun c => !isSeparator c)
    found.map fun r => (r.1, skipBlanks r.2)

/-- The setting that the value of a variable stands for; blanks around it do not count. -/
def ofValue (value : String) : Setting :=
  let s := Text.trim value
  match readValue? (s.length + 1) s.toList with
  | some (setting, []) => setting
  | _ => .text s

end Setting
end Relata
