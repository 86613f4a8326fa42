import Relata.Text.CaseTable

/-!
Lower case of a text. A letter maps by itself, with one exception: a capital sigma at the end of a
word becomes the final sigma.
-/
namespace Relata.Text

def inRanges (ranges : List (Nat × Nat)) (c : Char) : Bool :=
  ranges.any fun r => r.1 ≤ c.toNat && c.toNat ≤ r.2

/-- The first character that case rules do not look through is a letter with case. -/
def casedNext (s : List Char) : Bool :=
  match s.dropWhile (inRanges caseIgnorableRanges) with
  | [] => false
  | c :: _ => inRanges casedRanges c

/-- The lower-case letters of one character, taken alone. -/
def lowerChar (c : Char) : List Char :=
  if c.toNat < 0x80 then [c.toLower]
  else if c.toNat = 0x130 then ['i', Char.ofNat 0x307]
  else
    match lowerRuns.find? fun run =>
        run.1 ≤ c.toNat && c.toNat ≤ run.2.1 && (c.toNat - run.1) % run.2.2.1 == 0 with
    | some run => [Char.ofNat (c.toNat + run.2.2.2).toNat]
    | none => [c]

/-- `before` holds what stands to the left, last character first. -/
def lowerFrom (before : List Char) : List Char → List Char
  | [] => []
  | c :: s =>
    (if c.toNat = 0x3A3 && casedNext before && !casedNext s then [Char.ofNat 0x3C2]
      else lowerChar c) ++ lowerFrom (c :: before) s

def lower (s : String) : String := String.ofList (lowerFrom [] s.toList)

end Relata.Text
