/-!
Plain operations on text: white space, trimming, joining and searching. Each works on the list of
characters, so that statements about text are statements about lists.
-/
namespace Relata.Text

/-- The characters with the Unicode property `White_Space`. -/
def isSpace (c : Char) : Bool :=
  let n := c.toNat
  (9 ≤ n && n ≤ 13) || n == 0x20 || n == 0x85 || n == 0xA0 || n == 0x1680 ||
    (0x2000 ≤ n && n ≤ 0x200A) || n == 0x2028 || n == 0x2029 || n == 0x202F || n == 0x205F ||
    n == 0x3000

def dropSpaces (s : List Char) : List Char := s.dropWhile isSpace

/-- Drops the white space at the end. -/
def trimRight (s : List Char) : List Char := (dropSpaces s.reverse).reverse

def trim (s : String) : String := String.ofList (trimRight (dropSpaces s.toList))

/-- The strings in order, with `sep` between neighbours. -/
def joinWith (sep : String) : List String → String
  | [] => ""
  | [s] => s
  | s :: t :: rest => s ++ sep ++ joinWith sep (t :: rest)

@[simp] theorem joinWith_nil (sep : String) : joinWith sep [] = "" := rfl

@[simp] theorem joinWith_singleton (sep s : String) : joinWith sep [s] = s := rfl

/-- What follows `lead` in `s`, if `s` begins with it. -/
def stripPrefix? : (lead s : List Char) → Option (List Char)
  | [], s => some s
  | _ :: _, [] => none
  | p :: lead, c :: s => if p = c then stripPrefix? lead s else none

theorem stripPrefix?_append (lead s : List Char) : stripPrefix? lead (lead ++ s) = some s := by
  induction lead with
  | nil => rfl
  | cons p lead ih => simp [stripPrefix?, ih]

theorem eq_append_of_stripPrefix? {lead s rest : List Char}
    (h : stripPrefix? lead s = some rest) : s = lead ++ rest := by
  induction lead generalizing s with
  | nil => simpa [stripPrefix?] using h
  | cons p lead ih =>
    cases s with
    | nil => simp [stripPrefix?] at h
    | cons c s =>
      by_cases hc : p = c
      · subst hc
        have h' : stripPrefix? lead s = some rest := by simpa [stripPrefix?] using h
        simp [ih h']
      · simp [stripPrefix?, hc] at h

/-- What stands before and after the first occurrence of `needle`. -/
def splitFirst? (needle : List Char) : List Char → Option (List Char × List Char)
  | [] => (stripPrefix? needle []).map fun rest => ([], rest)
  | c :: s =>
    match stripPrefix? needle (c :: s) with
    | some rest => some ([], rest)
    | none => (splitFirst? needle s).map fun parts => (c :: parts.1, parts.2)

def contains (s needle : String) : Bool := (splitFirst? needle.toList s.toList).isSome

def startsWith (s lead : String) : Bool := (stripPrefix? lead.toList s.toList).isSome

/-- The pieces of `s` between the occurrences of `sep`. -/
def splitOnChar (sep : Char) : List Char → List (List Char)
  | [] => [[]]
  | c :: s =>
    if c = sep then [] :: splitOnChar sep s
    else match splitOnChar sep s with
      | [] => [[c]]
      | first :: rest => (c :: first) :: rest

/-- Upper-case ASCII letters become lower case; nothing else changes. -/
def lowerAscii (s : String) : String := String.ofList (s.toList.map Char.toLower)

/-- Equality up to the case of ASCII letters. -/
def sameAsciiLetters (s t : String) : Bool := lowerAscii s == lowerAscii t

end Relata.Text
