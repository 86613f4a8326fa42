import Relata.Text.Basic

/-!
Connection parameters as text: pairs `name=value` with blanks between them. A value is a run of
characters without blanks, or stands between single quotes; in both, a backslash takes the next
character as it is.
-/
namespace Relata.KeyValue

open Text

def isNameChar (c : Char) : Bool := !isSpace c && c != '='

/-- A value up to the next blank, and what follows it. -/
def readPlain : List Char → List Char × List Char
  | [] => ([], [])
  | '\\' :: c :: s =>
    let r := readPlain s
    (c :: r.1, r.2)
  | ['\\'] => ([], [])
  | c :: s =>
    if isSpace c then ([], c :: s)
    else
      let r := readPlain s
      (c :: r.1, r.2)

/-- A value up to the closing quote mark, and what follows that. -/
def readQuoted? : List Char → Option (List Char × List Char)
  | [] => none
  | '\'' :: s => some ([], s)
  | '\\' :: c :: s => (readQuoted? s).map fun r => (c :: r.1, r.2)
  | ['\\'] => none
  | c :: s => (readQuoted? s).map fun r => (c :: r.1, r.2)

/-- A value without quote marks must not be empty. -/
def readValue? (s : List Char) : Option (List Char × List Char) :=
  match s with
  | '\'' :: s => readQuoted? s
  | s => if (readPlain s).1.isEmpty then none else some (readPlain s)

/-- The first pair and what follows it; nothing if no name stands in front. -/
def readPair? (s : List Char) : Option (Option ((String × String) × List Char)) :=
  let s := dropSpaces s
  let name := s.takeWhile isNameChar
  if name.isEmpty then some none
  else
    match dropSpaces (s.dropWhile isNameChar) with
    | '=' :: s =>
      match readValue? (dropSpaces s) with
      | some (value, s) => some (some ((String.ofList name, String.ofList value), s))
      | none => none
    | _ => none

def readPairs? : (fuel : Nat) → List Char → Option (List (String × String))
  | 0, _ => some []
  | fuel + 1, s =>
    match readPair? s with
    | none => none
    | some none => some []
    | some (some (pair, s)) => (readPairs? fuel s).map (pair :: ·)

/-- The pairs of a text, in order. -/
def read? (s : String) : Option (List (String × String)) := readPairs? s.length s.toList

end Relata.KeyValue
