import Relata.Json.Parser
import Relata.Sqlite.Cell
import Relata.Text.Quoted

/-!
Statement text as tokens. Each token keeps its source and the blanks and comments before it, so
that the tokens together are the text.
-/
namespace Relata.Sqlite

open Number

inductive TokenKind where
  | word (s : String)
  | quoted (s : String)
  | string (s : String)
  | blob (bs : List UInt8)
  | number (c : Cell)
  /-- A place for a parameter, with its number if it has one of its own. -/
  | parameter (number : Option Nat)
  | symbol (s : String)
  | illegal
  deriving DecidableEq, Repr

structure Token where
  kind : TokenKind
  skipped : List Char
  source : List Char
  deriving Repr

namespace Token

/-- Between tokens a byte order mark is as good as a blank. -/
def isSpace (c : Char) : Bool :=
  c == ' ' || c == '\t' || c == '\n' || c == '\r' || c.toNat == 12 || c.toNat == 0xFEFF

def isWordStart (c : Char) : Bool := c.isAlpha || c == '_' || 0x80 ≤ c.toNat

def isWordChar (c : Char) : Bool := c.isAlphanum || c == '_' || c == '$' || 0x80 ≤ c.toNat

/-- What stands before the next token: blanks and comments. -/
def skip : (fuel : Nat) → List Char → List Char × List Char
  | 0, s => ([], s)
  | fuel + 1, s =>
    match s with
    | '-' :: '-' :: rest =>
      let comment := rest.takeWhile (· != '\n')
      let r := skip fuel (rest.dropWhile (· != '\n'))
      ('-' :: '-' :: comment ++ r.1, r.2)
    | '/' :: '*' :: rest =>
      match Text.splitFirst? ['*', '/'] rest with
      | some (comment, rest) =>
        let r := skip fuel rest
        ('/' :: '*' :: comment ++ '*' :: '/' :: r.1, r.2)
      | none => (s, [])
    | c :: rest =>
      if isSpace c then
        let r := skip fuel rest
        (c :: r.1, r.2)
      else ([], s)
    | [] => ([], [])

/-- Digits, perhaps a fraction, perhaps an exponent: the count of characters. -/
def numberLength (s : List Char) : Nat :=
  let whole := s.takeWhile isDigit
  let rest := s.drop whole.length
  let fraction := match rest with
    | '.' :: r => '.' :: r.takeWhile isDigit
    | _ => []
  let rest := rest.drop fraction.length
  let exponent := match rest with
    | e :: r =>
      if e = 'e' ∨ e = 'E' then
        let (sign, r) := match r with
          | '+' :: r => (1, r)
          | '-' :: r => (1, r)
          | r => (0, r)
        let digits := (r.takeWhile isDigit).length
        if digits = 0 then 0 else 1 + sign + digits
      else 0
    | [] => 0
  whole.length + fraction.length + exponent

/-- The value of a numeral; integers that do not fit are real numbers. -/
def numeralCell (s : List Char) : Cell :=
  match s with
  | '0' :: x :: digits =>
    if x = 'x' ∨ x = 'X' then
      .integer (Int64.ofNat (digits.foldl (fun n c => 16 * n + (Json.hexValue? c).getD 0) 0))
    else decimal s
  | _ => decimal s
where
  decimal (s : List Char) : Cell :=
    match readInt? s with
    | some z => Cell.ofInt z
    | none =>
      match readNumeral? s with
      | some n => .real (n.toDouble false)
      | none => .null

def readNumber (s : List Char) : TokenKind × Nat :=
  let hexDigits := match s with
    | '0' :: x :: r =>
      if x = 'x' ∨ x = 'X' then (r.takeWhile fun c => (Json.hexValue? c).isSome).length else 0
    | _ => 0
  let n := if hexDigits = 0 then numberLength s else 2 + hexDigits
  let stuck := ((s.drop n).takeWhile isWordChar).length
  if stuck = 0 then (.number (numeralCell (s.take n)), n) else (.illegal, n + stuck)

/-- Pairs of hexadecimal digits as bytes. -/
def readHex? : List Char → Option (List UInt8)
  | [] => some []
  | [_] => none
  | a :: b :: rest => do
    return UInt8.ofNat (16 * (← Json.hexValue? a) + (← Json.hexValue? b)) :: (← readHex? rest)

/-- A quoted text with its closing mark: the kind of token and the count of characters. -/
def readQuoted (mark : Char) (make : String → TokenKind) (s : List Char) : TokenKind × Nat :=
  match Text.Quoted.readInside mark s with
  | some (inside, rest) => (make (String.ofList inside), 1 + (s.length - rest.length))
  | none => (.illegal, 1 + s.length)

def symbols : List String :=
  ["==", "<>", "<=", ">=", "!=", "||", "<<", ">>", "(", ")", ",", ".", ";", "=", "<", ">", "+", "-",
    "*", "/", "%", "&", "|", "~"]

/-- The token at the front of a text that is not empty, and the count of its characters. -/
def readOne (s : List Char) : TokenKind × Nat :=
  match s with
  | [] => (.illegal, 0)
  | c :: rest =>
    if c = '\'' then readQuoted '\'' .string rest
    else if c = '"' then readQuoted '"' .quoted rest
    else if c = '`' then readQuoted '`' .quoted rest
    else if c = '[' then
      match Text.splitFirst? [']'] rest with
      | some (inside, _) => (.quoted (String.ofList inside), inside.length + 2)
      | none => (.illegal, s.length)
    else if c = '?' then
      let digits := rest.takeWhile isDigit
      (.parameter (if digits.isEmpty then none else some (ofDigits digits)), 1 + digits.length)
    else if isDigit c || (c = '.' && rest.head?.any isDigit) then readNumber s
    else if (c = 'x' || c = 'X') && rest.head? = some '\'' then
      match readQuoted '\'' .string rest.tail with
      | (.string inside, n) =>
        match readHex? inside.toList with
        | some bs => (.blob bs, n + 1)
        | none => (.illegal, n + 1)
      | (_, n) => (.illegal, n + 1)
    else if isWordStart c then
      let word := s.takeWhile isWordChar
      (.word (String.ofList word), word.length)
    else
      match symbols.find? fun sym => Text.startsWith (String.ofList (s.take 2)) sym with
      | some sym => (.symbol sym, sym.length)
      | none => (.illegal, 1)

/-- The tokens of a text; what cannot be read is an illegal token. -/
def scan : (fuel : Nat) → List Char → List Token
  | 0, _ => []
  | fuel + 1, s =>
    let (skipped, s) := skip (s.length + 1) s
    if s.isEmpty then []
    else
      let (kind, n) := readOne s
      ⟨kind, skipped, s.take n⟩ :: scan fuel (s.drop n)

/-- Gives each parameter without a number the one after the highest so far. -/
def numberParameters : (highest : Nat) → List Token → List Token
  | _, [] => []
  | highest, t :: rest =>
    match t.kind with
    | .parameter (some n) => t :: numberParameters (max highest n) rest
    | .parameter none =>
      { t with kind := .parameter (some (highest + 1)) } :: numberParameters (highest + 1) rest
    | _ => t :: numberParameters highest rest

/-- The count of parameters that a statement takes, which is the highest number among them. -/
def parameterCount (tokens : List Token) : Nat :=
  tokens.foldl
    (fun n t =>
      match t.kind with
      | .parameter (some m) => max n m
      | _ => n) 0

/-- The tokens of the first statement of a text, which ends at a semicolon or a character zero. -/
def ofText (sql : String) : List Token :=
  let s := sql.toList.takeWhile fun c => c.toNat != 0
  let tokens := (scan (s.length + 1) s).dropWhile fun t => t.kind = .symbol ";"
  numberParameters 0 (tokens.takeWhile fun t => t.kind != .symbol ";")

/-- The source of tokens in a row, without what stands before the first. -/
def sourceText : List Token → String
  | [] => ""
  | t :: rest => String.ofList (t.source ++ rest.flatMap fun t => t.skipped ++ t.source)

end Token
end Relata.Sqlite
