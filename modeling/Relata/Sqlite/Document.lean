import Relata.Json.Parser
import Relata.Json.Printer
import Relata.Number.Bytes
import Relata.Sqlite.Cell
import Relata.Sqlite.Fault

/-!
Cells as parts of JSON documents. Text becomes a string, unless it is a document already; bytes are
allowed only where they are a document in binary form.
-/
namespace Relata.Sqlite.Document

open Number

/-- A real number in a document; one that is too large is written as one past every double. -/
def realText (x : Double) : String :=
  match x.meaning with
  | .notANumber => "null"
  | .infinite n => if n then "-9.0e+999" else "9.0e+999"
  | .finite n m q => general n m q

/-- The kind and the payload of the binary element at the front, and what follows it. -/
def readHeader? : List UInt8 → Option (Nat × List UInt8 × List UInt8)
  | [] => none
  | head :: rest =>
    let kind := head.toNat % 16
    let size := head.toNat / 16
    let width :=
      if size < 12 then 0 else if size = 12 then 1 else if size = 13 then 2 else if size = 14 then 4
      else 8
    let n := if size < 12 then size else ofBytes (rest.take width)
    let payload := (rest.drop width).take n
    if rest.length < width ∨ payload.length < n then none
    else some (kind, payload, rest.drop (width + n))

def payloadText (bs : List UInt8) : String := (String.fromUTF8? ⟨bs.toArray⟩).getD ""

/-- A number with a digit on both sides of its point. -/
def completeNumber (s : String) : String :=
  let (sign, digits) := match s.toList with
    | '-' :: r => (['-'], r)
    | '+' :: r => ([], r)
    | r => ([], r)
  let digits := match digits with
    | '.' :: r => '0' :: '.' :: r
    | r => r
  let whole := digits.takeWhile fun c => c != '.'
  let fraction := match digits.drop whole.length with
    | '.' :: r => if (r.takeWhile isDigit).isEmpty then '.' :: '0' :: r else '.' :: r
    | r => r
  String.ofList (sign ++ whole ++ fraction)

/-- An integer in hexadecimal digits as decimal text. -/
def hexNumber (s : String) : String :=
  let (sign, digits) := match s.toList with
    | '-' :: r => ("-", r)
    | '+' :: r => ("", r)
    | r => ("", r)
  sign ++ Nat.repr ((digits.drop 2).foldl (fun n c => 16 * n + (Json.hexValue? c).getD 0) 0)

/-- The elements between brackets; in an object, names and values take turns. -/
def joinElements (isObject : Bool) : (isName : Bool) → List String → String
  | _, [] => ""
  | _, [s] => s
  | isName, s :: t :: rest =>
    s ++ (if isObject && isName then ":" else ",") ++ joinElements isObject (!isName) (t :: rest)

mutual

/-- The text of a binary element at the front, and what follows it. -/
def readElement? : (fuel : Nat) → List UInt8 → Option (String × List UInt8)
  | 0, _ => none
  | fuel + 1, bs =>
    match readHeader? bs with
    | none => none
    | some (kind, payload, rest) =>
      let text := payloadText payload
      let body : Option String :=
        match kind with
        | 0 => some "null"
        | 1 => some "true"
        | 2 => some "false"
        | 3 | 5 => if payload.isEmpty then none else some text
        | 4 => if payload.isEmpty then none else some (hexNumber text)
        | 6 => if payload.isEmpty then none else some (completeNumber text)
        | 7 | 8 | 9 => some ("\"" ++ text ++ "\"")
        | 10 => some (Json.quote text)
        | 11 => (readElements? fuel payload).map fun es => "[" ++ joinElements false false es ++ "]"
        | 12 =>
          match readElements? fuel payload with
          | none => none
          | some es =>
            if es.length % 2 = 0 then some ("\x7b" ++ joinElements true true es ++ "\x7d") else none
        | _ => none
      body.map fun s => (s, rest)

def readElements? : (fuel : Nat) → List UInt8 → Option (List String)
  | 0, _ => none
  | fuel + 1, bs =>
    if bs.isEmpty then some []
    else
      match readElement? fuel bs with
      | none => none
      | some (s, rest) => (readElements? fuel rest).map (s :: ·)

end

/-- The bytes look like one binary element as a whole. -/
def isBinary (bs : List UInt8) : Bool :=
  match readHeader? bs with
  | some (kind, payload, rest) => kind ≤ 12 && rest.isEmpty && (2 < kind || payload.isEmpty)
  | none => false

/-- The cell as a part of a document; `isDocument` tells that the text of the cell is one. -/
def ofCell (isDocument : Bool) : Cell → Except Fault String
  | .null => .ok "null"
  | .integer n => .ok (Int.repr n.toInt)
  | .real x => .ok (realText x)
  | .text s => .ok (if isDocument then s else Json.quote s)
  | .blob bs =>
    if isBinary bs then
      match readElement? (2 * bs.length + 2) bs with
      | some (s, _) => .ok s
      | none => .error .malformedDocument
    else .error .blobInDocument

end Relata.Sqlite.Document
