import Relata.Proofs.Quoted
import Relata.Sql.Piece

/-!
SQL text as a lexer sees it, read from left to right: tokens between quote marks, placeholders, and
single characters. Main statement: pieces of which none runs into the next are read back one by one,
so that no name, literal or operand can change what the text around it means.
-/
namespace Relata.Sql

open Text

inductive Lexeme where
  | name (s : String)
  | literal (s : String)
  | mark (s : String)
  | other (c : Char)
  deriving DecidableEq, Repr

namespace Lexeme

def name? : Lexeme → Option String
  | .name s => some s
  | _ => none

def mark? : Lexeme → Option String
  | .mark s => some s
  | _ => none

/-- What a token between the quote marks `q` is. -/
def quoted (q : Char) (s : String) : Lexeme := if q = '"' then .name s else .literal s

end Lexeme

def isQuote (c : Char) : Bool := c == '"' || c == '\''

/-- The characters with which placeholders begin, in whatever dialect. -/
def isMarkLead (c : Char) : Bool := c == '$' || c == '?' || c == ':' || c == '@'

/-- The lexemes of a text; none if a quote mark is left open. -/
def scan : List Char → Option (List Lexeme)
  | [] => some []
  | c :: s =>
    if isQuote c then
      match _h : Quoted.readInside c s with
      | some (inside, rest) => (scan rest).map (Lexeme.quoted c (String.ofList inside) :: ·)
      | none => none
    else if isMarkLead c then
      (scan (s.dropWhile Char.isDigit)).map (Lexeme.mark (String.ofList (c :: s.takeWhile Char.isDigit)) :: ·)
    else (scan s).map (Lexeme.other c :: ·)
termination_by s => s.length
decreasing_by
  · have hlt := Quoted.length_readInside _h
    simp only [List.length_cons]
    omega
  · have hle := (List.dropWhile_sublist (l := s) Char.isDigit).length_le
    simp only [List.length_cons]
    omega
  · simp

@[simp] theorem scan_nil : scan [] = some [] := by rw [scan]

/-- What may follow a quoted token or a placeholder without becoming a part of it. -/
def Detached (rest : List Char) : Prop := ∀ c ∈ rest.head?, isQuote c = false ∧ c.isDigit = false

@[simp] theorem detached_nil : Detached [] := by simp [Detached]

@[simp] theorem detached_cons {c : Char} {rest : List Char} :
    Detached (c :: rest) ↔ isQuote c = false ∧ c.isDigit = false := by simp [Detached]

theorem scan_token {q : Char} (hq : isQuote q = true) (s : List Char) {rest : List Char}
    (h : Detached rest) :
    scan (Quoted.token q s ++ rest) = (scan rest).map (Lexeme.quoted q (String.ofList s) :: ·) := by
  have hhead : rest.head? ≠ some q := by
    intro hc
    have hplain := (h q hc).1
    simp [hq] at hplain
  have hread : Quoted.readInside q (Quoted.double q s ++ [q] ++ rest) = some (s, rest) := by
    simpa using Quoted.readInside_double s hhead
  rw [Quoted.token, List.cons_append, scan, if_pos hq]
  split
  next inside rest' hsome =>
    rw [hread] at hsome
    obtain ⟨rfl, rfl⟩ := Prod.mk.inj (Option.some.inj hsome)
    rfl
  next hnone =>
    rw [hread] at hnone
    cases hnone

theorem takeWhile_digits {digits rest : List Char} (hd : ∀ c ∈ digits, c.isDigit = true)
    (h : Detached rest) :
    (digits ++ rest).takeWhile Char.isDigit = digits ∧
      (digits ++ rest).dropWhile Char.isDigit = rest := by
  have hrest : rest.takeWhile Char.isDigit = [] ∧ rest.dropWhile Char.isDigit = rest := by
    cases rest with
    | nil => simp
    | cons c rest => simp [(detached_cons.mp h).2]
  rw [List.takeWhile_append_of_pos hd, List.dropWhile_append_of_pos hd, hrest.1, hrest.2]
  simp

theorem scan_mark {lead : Char} {digits rest : List Char} (hl : isMarkLead lead = true)
    (hd : ∀ c ∈ digits, c.isDigit = true) (h : Detached rest) :
    scan (lead :: digits ++ rest) =
      (scan rest).map (Lexeme.mark (String.ofList (lead :: digits)) :: ·) := by
  have hq : isQuote lead = false := by
    simp only [isMarkLead, Bool.or_eq_true, beq_iff_eq] at hl
    rcases hl with ((rfl | rfl) | rfl) | rfl <;> rfl
  obtain ⟨htake, hdrop⟩ := takeWhile_digits hd h
  rw [List.cons_append, scan, if_neg (by simp [hq]), if_pos hl, htake, hdrop]

/-- A placeholder is a lead and digits. -/
theorem placeholder_eq (d : Dialect) (i : Nat) : ∃ lead digits, isMarkLead lead = true ∧
    (∀ c ∈ digits, c.isDigit = true) ∧ d.placeholder i = String.ofList (lead :: digits) := by
  cases d with
  | postgres =>
    refine ⟨'$', Nat.toDigits 10 (i + 1), rfl, fun c hc => ?_, ?_⟩
    · exact Nat.isDigit_of_mem_toDigits (by decide) (by decide) hc
    · rw [String.ofList_cons, ← Nat.repr_eq_ofList_toDigits]
      rfl
  | sqlite => exact ⟨'?', [], rfl, by simp, rfl⟩

theorem scan_placeholder (d : Dialect) (i : Nat) {rest : List Char} (h : Detached rest) :
    scan ((d.placeholder i).toList ++ rest) =
      (scan rest).map (Lexeme.mark (d.placeholder i) :: ·) := by
  obtain ⟨lead, digits, hlead, hdigits, heq⟩ := placeholder_eq d i
  rw [heq, String.toList_ofList]
  exact scan_mark hlead hdigits h

/-- A character that means nothing by itself. -/
def isPlain (c : Char) : Bool := !isQuote c && !isMarkLead c

theorem scan_plain {s : List Char} (hs : s.all isPlain = true) (rest : List Char) :
    scan (s ++ rest) = (scan rest).map (s.map Lexeme.other ++ ·) := by
  induction s with
  | nil => simp
  | cons c s ih =>
    obtain ⟨hc, hs⟩ := Bool.and_eq_true_iff.mp (List.all_cons.symm.trans hs)
    obtain ⟨hquote, hmark⟩ := Bool.and_eq_true_iff.mp hc
    rw [List.cons_append, scan, if_neg (by simpa using hquote), if_neg (by simpa using hmark), ih hs]
    simp [Function.comp_def]

/-- The lexemes of a text by itself. -/
def scanned (s : String) : List Lexeme := (scan s.toList).getD []

/-- Fixed text that is read as the same lexemes whatever follows it, with no name and no placeholder
among them. -/
structure Clean (s : String) : Prop where
  scan_append (rest : List Char) : scan (s.toList ++ rest) = (scan rest).map (scanned s ++ ·)
  inert : ∀ l ∈ scanned s, l.name? = none ∧ l.mark? = none

theorem scanned_plain {s : String} (h : s.toList.all isPlain = true) :
    scanned s = s.toList.map Lexeme.other := by
  have hscan := scan_plain h []
  rw [List.append_nil] at hscan
  simp [scanned, hscan]

theorem Clean.of_plain {s : String} (h : s.toList.all isPlain = true) : Clean s where
  scan_append rest := by rw [scanned_plain h, scan_plain h]
  inert := by
    rw [scanned_plain h]
    intro l hl
    obtain ⟨c, -, rfl⟩ := List.mem_map.mp hl
    exact ⟨rfl, rfl⟩

/-- The sequence is empty or begins with a text that is no part of a token before it. -/
def opens : List Piece → Bool
  | [] => true
  | .text s :: _ => s.toList.head?.any fun c => !isQuote c && !c.isDigit
  | _ => false

/-- No piece runs into the next. -/
def Closed : List Piece → Prop
  | [] => True
  | .text s :: rest => Clean s ∧ Closed rest
  | _ :: rest => opens rest ∧ Closed rest

/-- Closed, with nothing but plain characters in its fixed text. -/
def closes : List Piece → Bool
  | [] => true
  | .text s :: rest => s.toList.all isPlain && closes rest
  | _ :: rest => opens rest && closes rest

theorem Closed.of_closes {p : List Piece} (h : closes p = true) : Closed p := by
  induction p with
  | nil => trivial
  | cons x p ih =>
    cases x with
    | text s =>
      obtain ⟨hs, hp⟩ := Bool.and_eq_true_iff.mp h
      exact ⟨.of_plain hs, ih hp⟩
    | name | literal | slot =>
      obtain ⟨ho, hp⟩ := Bool.and_eq_true_iff.mp h
      exact ⟨ho, ih hp⟩

theorem opens_append {p q : List Piece} (hp : opens p) (hq : opens q) : opens (p ++ q) := by
  cases p with
  | nil => exact hq
  | cons x p =>
    cases x with
    | text s => exact hp
    | name | literal | slot => cases hp

theorem Closed.append {p q : List Piece} (hp : Closed p) (hq : Closed q) (ho : opens q) :
    Closed (p ++ q) := by
  induction p with
  | nil => exact hq
  | cons x p ih =>
    cases x with
    | text s => exact ⟨hp.1, ih hp.2⟩
    | name | literal | slot => exact ⟨opens_append hp.1 ho, ih hp.2⟩

theorem detached_render {p : List Piece} (h : opens p) (d : Dialect) (used : Nat) :
    Detached (render d used p) := by
  cases p with
  | nil => simp [render]
  | cons x p =>
    cases x with
    | text s =>
      obtain ⟨c, hc, hplain⟩ := (Option.any_eq_true _ _).mp h
      obtain ⟨cs, hs⟩ := List.head?_eq_some_iff.mp hc
      simpa [render, hs] using hplain
    | name | literal | slot => cases h

/-- The lexemes of pieces when `used` placeholders stand before them. -/
def lexemes (d : Dialect) : (used : Nat) → List Piece → List Lexeme
  | _, [] => []
  | used, .text s :: rest => scanned s ++ lexemes d used rest
  | used, .name n :: rest => .name n :: lexemes d used rest
  | used, .literal s :: rest => .literal s :: lexemes d used rest
  | used, .slot _ :: rest => .mark (d.placeholder used) :: lexemes d (used + 1) rest

/-- Pieces that do not run into each other are read back one by one. -/
theorem scan_render (d : Dialect) {p : List Piece} (h : Closed p) (used : Nat) :
    scan (render d used p) = some (lexemes d used p) := by
  induction p generalizing used with
  | nil => simp [render, lexemes]
  | cons x p ih =>
    cases x with
    | text s => rw [render, h.1.scan_append, ih h.2]; rfl
    | name n =>
      rw [render, scan_token rfl _ (detached_render h.1 d used), ih h.2]
      simp [lexemes, Lexeme.quoted]
    | literal s =>
      rw [render, scan_token rfl _ (detached_render h.1 d used), ih h.2]
      simp [lexemes, Lexeme.quoted]
    | slot v => rw [render, scan_placeholder d used (detached_render h.1 d (used + 1)), ih h.2]; rfl

/-- The names among pieces. -/
def names : List Piece → List String
  | [] => []
  | .name n :: rest => n :: names rest
  | _ :: rest => names rest

theorem Clean.filterMap_name {s : String} (h : Clean s) : (scanned s).filterMap Lexeme.name? = [] :=
  List.filterMap_eq_nil_iff.mpr fun l hl => (h.inert l hl).1

theorem Clean.filterMap_mark {s : String} (h : Clean s) : (scanned s).filterMap Lexeme.mark? = [] :=
  List.filterMap_eq_nil_iff.mpr fun l hl => (h.inert l hl).2

theorem filterMap_name_lexemes (d : Dialect) {p : List Piece} (h : Closed p) (used : Nat) :
    (lexemes d used p).filterMap Lexeme.name? = names p := by
  induction p generalizing used with
  | nil => rfl
  | cons x p ih =>
    cases x with
    | text s =>
      rw [lexemes, List.filterMap_append, h.1.filterMap_name, ih h.2]
      rfl
    | name | literal | slot => simp [lexemes, List.filterMap_cons, Lexeme.name?, names, ih h.2]

/-- The placeholders are numbered without a gap, one for each operand. -/
theorem filterMap_mark_lexemes (d : Dialect) {p : List Piece} (h : Closed p) (used : Nat) :
    (lexemes d used p).filterMap Lexeme.mark? =
      (List.range' used (operands p).length).map d.placeholder := by
  induction p generalizing used with
  | nil => rfl
  | cons x p ih =>
    cases x with
    | text s =>
      rw [lexemes, List.filterMap_append, h.1.filterMap_mark, ih h.2]
      rfl
    | name | literal => simpa [lexemes, List.filterMap_cons, Lexeme.mark?, operands] using ih h.2 used
    | slot => simp [lexemes, Lexeme.mark?, operands, ih h.2, List.range'_succ]

end Relata.Sql
