/-!
Quoted tokens: a quote mark, the text with each quote mark inside written twice, a quote mark.
Main statement: reading a token from the front of a text that does not go on with a quote mark
gives back the quoted text and what follows it, so no quoted token is the beginning of another.
-/
namespace Relata.Text.Quoted

/-- The inside of a token: each `q` is written twice. -/
def double (q : Char) : List Char → List Char
  | [] => []
  | c :: s => if c = q then q :: q :: double q s else c :: double q s

def token (q : Char) (s : List Char) : List Char := q :: (double q s ++ [q])

/-- Reads the inside of a token up to its closing mark: the text, and what follows the token. -/
def readInside (q : Char) : List Char → Option (List Char × List Char)
  | [] => none
  | [c] => if c = q then some ([], []) else none
  | c :: d :: s =>
    if c = q then
      if d = q then (readInside q s).map fun r => (q :: r.1, r.2) else some ([], d :: s)
    else (readInside q (d :: s)).map fun r => (c :: r.1, r.2)

/-- Reads one token from the front. -/
def read (q : Char) : List Char → Option (List Char × List Char)
  | [] => none
  | c :: s => if c = q then readInside q s else none

end Relata.Text.Quoted

namespace Relata

open Text

/-- An identifier as SQL text: between double quotes, with double quotes inside doubled. -/
def quoteIdent (name : String) : String := String.ofList (Quoted.token '"' name.toList)

/-- A string literal as SQL text: between single quotes, with single quotes inside doubled. -/
def quoteLiteral (text : String) : String := String.ofList (Quoted.token '\'' text.toList)

@[simp] theorem toList_quoteIdent (name : String) :
    (quoteIdent name).toList = Quoted.token '"' name.toList := by
  simp [quoteIdent]

@[simp] theorem toList_quoteLiteral (text : String) :
    (quoteLiteral text).toList = Quoted.token '\'' text.toList := by
  simp [quoteLiteral]

end Relata
