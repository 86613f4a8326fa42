import Relata.Proofs.Numeral
import Relata.Proofs.Quoted
import Relata.Sqlite.Parser

/-!
How the engine scans a text from its front: blanks are passed over, and a word, a quoted name, a mark
or a place for a parameter is taken as one token, whatever comes after it.
-/
namespace Relata.Sqlite.Token

open Relata.Number

variable {s rest : List Char} {c : Char} {k : TokenKind} {n fuel : Nat}

/-- Nothing is passed over before the text. -/
def Starts (s : List Char) : Prop := ∀ fuel, skip (fuel + 1) s = ([], s)

theorem starts_of_head (hspace : isSpace c = false) (hminus : c ≠ '-') (hslash : c ≠ '/') :
    Starts (c :: rest) := by
  intro fuel
  unfold skip
  split
  next heq => exact absurd (List.cons.inj heq).1 hminus
  next heq => exact absurd (List.cons.inj heq).1 hslash
  next heq =>
    obtain ⟨rfl, rfl⟩ := List.cons.inj heq
    rw [if_neg (by simp [hspace])]
  next heq => cases heq

theorem scan_nil (fuel : Nat) : scan fuel [] = [] := by
  cases fuel with
  | zero => rfl
  | succ fuel => rfl

/-- The token at the front, then those of what is left. -/
theorem scan_cons (hstarts : Starts (c :: rest)) (hread : readOne (c :: rest) = (k, n)) (fuel : Nat) :
    scan (fuel + 1) (c :: rest) =
      ⟨k, [], (c :: rest).take n⟩ :: scan fuel ((c :: rest).drop n) := by
  have hskip : skip ((c :: rest).length + 1) (c :: rest) = ([], c :: rest) := hstarts _
  simp only [scan, hskip, hread, List.isEmpty_cons, Bool.false_eq_true, if_false]

/-- The tokens after one more blank. -/
def spaced : List Token → List Token
  | [] => []
  | t :: ts => { t with skipped := ' ' :: t.skipped } :: ts

/-- A blank belongs to the token after it. -/
theorem scan_space (fuel : Nat) (s : List Char) :
    scan (fuel + 1) (' ' :: s) = spaced (scan (fuel + 1) s) := by
  have hskip : skip (s.length + 2) (' ' :: s) =
      (' ' :: (skip (s.length + 1) s).1, (skip (s.length + 1) s).2) := rfl
  simp only [scan, List.length_cons, hskip]
  by_cases hempty : (skip (s.length + 1) s).2.isEmpty = true
  · simp only [hempty, if_true, spaced]
  · simp only [hempty, Bool.false_eq_true, if_false, spaced]

/-- Letters that begin a word and nothing else. -/
def beginsWord (c : Char) : Bool :=
  isWordStart c && !isDigit c && !(['\'', '"', '`', '[', '?', '.', 'x', 'X', '-', '/'].contains c) &&
    !isSpace c

theorem starts_word (h : beginsWord c = true) : Starts (c :: rest) := by
  simp only [beginsWord, Bool.and_eq_true, Bool.not_eq_true', List.contains_eq_mem,
    decide_eq_false_iff_not, List.mem_cons, List.not_mem_nil, or_false, not_or] at h
  exact starts_of_head h.2 h.1.2.2.2.2.2.2.2.2.2.1 h.1.2.2.2.2.2.2.2.2.2.2

/-- A word goes on as far as there are letters. -/
theorem readOne_word {w : List Char} (hc : beginsWord c = true) (hw : w.all isWordChar = true)
    (hword : isWordChar c = true) (hstop : ∀ d ∈ rest.head?, isWordChar d = false) :
    readOne (c :: (w ++ rest)) = (.word (String.ofList (c :: w)), w.length + 1) := by
  simp only [beginsWord, Bool.and_eq_true, Bool.not_eq_true', List.contains_eq_mem,
    decide_eq_false_iff_not, List.mem_cons, List.not_mem_nil, or_false, not_or] at hc
  obtain ⟨⟨⟨hstart, hdigit⟩, hapostrophe, hquote, hback, hbracket, hmark, hdot, hx, hX, -, -⟩, -⟩ := hc
  have htake : (c :: (w ++ rest)).takeWhile isWordChar = c :: w := by
    have hall : ∀ d ∈ c :: w, isWordChar d = true := by
      simpa [hword] using hw
    rw [← List.cons_append, takeWhile_append_of_stop hstop, List.takeWhile_eq_self_iff.mpr hall]
  simp [readOne, hapostrophe, hquote, hback, hbracket, hmark, hdigit, hdot, hx, hX, hstart, htake]

theorem readOne_quote (s : List Char) : readOne ('"' :: s) = readQuoted '"' .quoted s := rfl

/-- Characters that begin marks, and a point, which may begin a number as well. -/
def beginsMark (c : Char) : Bool :=
  !isWordStart c && !isDigit c && !(['\'', '"', '`', '[', '?', 'x', 'X'].contains c)

/-- A mark is the first of all marks that the text begins with. -/
theorem readOne_symbol {sym : String} (hc : beginsMark c = true)
    (hdot : (c == '.' && rest.head?.any isDigit) = false)
    (hsym : (symbols.find? fun sym =>
      (Text.stripPrefix? sym.toList ((c :: rest).take 2)).isSome) = some sym) :
    readOne (c :: rest) = (.symbol sym, sym.length) := by
  simp only [beginsMark, Bool.and_eq_true, Bool.not_eq_true', List.contains_eq_mem,
    decide_eq_false_iff_not, List.mem_cons, List.not_mem_nil, or_false, not_or] at hc
  obtain ⟨⟨hstart, hdigit⟩, hapostrophe, hquote, hback, hbracket, hmark, hx, hX⟩ := hc
  simp only [List.take_succ_cons] at hsym
  simp only [beq_eq_decide] at hdot
  simp [readOne, hapostrophe, hquote, hback, hbracket, hmark, hdigit, hdot, hx, hX, hstart,
    Text.startsWith, hsym]

/-- A place for a parameter without a number. -/
theorem readOne_place (h : ∀ d ∈ rest.head?, isDigit d = false) :
    readOne ('?' :: rest) = (.parameter none, 1) := by
  have hdigits : rest.takeWhile isDigit = [] := by
    cases rest with
    | nil => rfl
    | cons d rest => simp [h d rfl]
  simp [readOne, hdigits]

/-- What follows a quote mark is a name, where it is closed, and else nothing that can be read. -/
theorem readQuoted_cases (s : List Char) :
    (∃ inside rest, Text.Quoted.readInside '"' s = some (inside, rest) ∧
      (readQuoted '"' .quoted s).1 = .quoted (String.ofList inside) ∧
      ('"' :: s).drop (readQuoted '"' .quoted s).2 = rest) ∨
    readQuoted '"' .quoted s = (.illegal, 1 + s.length) := by
  unfold readQuoted
  split
  next inside rest hinside =>
    obtain ⟨front, rfl⟩ := Text.Quoted.suffix_readInside hinside
    refine .inl ⟨inside, rest, hinside, rfl, ?_⟩
    rw [List.length_append, Nat.add_sub_cancel, Nat.add_comm, List.drop_succ_cons, List.drop_left]
  next => exact .inr rfl

theorem scan_word {w : List Char} (hc : beginsWord c = true) (hw : w.all isWordChar = true)
    (hword : isWordChar c = true) (hstop : ∀ d ∈ rest.head?, isWordChar d = false) (fuel : Nat) :
    scan (fuel + 1) (c :: (w ++ rest)) =
      ⟨.word (String.ofList (c :: w)), [], c :: w⟩ :: scan fuel rest := by
  have hread := readOne_word hc hw hword hstop
  rw [scan_cons (starts_word hc) hread, List.take_succ_cons, List.take_left, List.drop_succ_cons,
    List.drop_left]

/-- The part of a text that is read. -/
def untilZero (s : List Char) : List Char := s.takeWhile fun c => c.toNat != 0

theorem untilZero_append {lead : List Char} (h : ∀ c ∈ lead, c.toNat ≠ 0) (s : List Char) :
    untilZero (lead ++ s) = lead ++ untilZero s :=
  List.takeWhile_append_of_pos fun c hc => by simpa using h c hc

theorem ofText_eq (sql : String) :
    ofText sql = numberParameters 0
      (((scan ((untilZero sql.toList).length + 1) (untilZero sql.toList)).dropWhile
        fun t => t.kind = .symbol ";").takeWhile fun t => t.kind != .symbol ";") := rfl

/-- A word at the front of a text is the first token of its statement. -/
theorem ofText_word {sql : String} {t : Token} {ts : List Token} {w : String}
    (h : scan ((untilZero sql.toList).length + 1) (untilZero sql.toList) = t :: ts)
    (ht : t.kind = .word w) :
    ofText sql = t :: numberParameters 0 (ts.takeWhile fun t => t.kind != .symbol ";") := by
  rw [ofText_eq, h, List.dropWhile_cons, if_neg (by simp [ht]), List.takeWhile_cons, if_pos (by simp [ht])]
  simp only [numberParameters, ht]

/-- A word that a statement can begin with. -/
def leads (w : String) : Bool :=
  w.toList.head?.any beginsWord && w.toList.all fun c => isWordChar c && c.toNat != 0

/-- The first letter of a word that a statement can begin with, and the others. -/
theorem leads_cons {w : String} (h : leads w = true) : ∃ c cs, w.toList = c :: cs ∧
    beginsWord c = true ∧ ∀ d ∈ c :: cs, isWordChar d = true ∧ d.toNat ≠ 0 := by
  obtain ⟨hhead, hall⟩ := Bool.and_eq_true_iff.mp h
  simp only [List.all_eq_true, Bool.and_eq_true, bne_iff_ne] at hall
  cases hw : w.toList with
  | nil => simp [hw] at hhead
  | cons c cs =>
    rw [hw] at hall
    exact ⟨c, cs, rfl, by simpa [hw] using hhead, hall⟩

theorem untilZero_lead {w : String} (h : leads w = true) (s : List Char) :
    untilZero (w.toList ++ s) = w.toList ++ untilZero s := by
  obtain ⟨c, cs, hcs, -, hall⟩ := leads_cons h
  exact untilZero_append (fun d hd => (hall d (hcs ▸ hd)).2) s

theorem scan_lead {w : String} (h : leads w = true)
    (hstop : ∀ d ∈ rest.head?, isWordChar d = false) (fuel : Nat) :
    scan (fuel + 1) (w.toList ++ rest) = ⟨.word w, [], w.toList⟩ :: scan fuel rest := by
  obtain ⟨c, cs, hcs, hbegins, hall⟩ := leads_cons h
  have hchars : cs.all isWordChar = true :=
    List.all_eq_true.mpr fun d hd => (hall d (List.mem_cons_of_mem c hd)).1
  have hword : String.ofList (c :: cs) = w := by rw [← hcs, String.ofList_toList]
  rw [hcs, List.cons_append, scan_word hbegins hchars (hall c List.mem_cons_self).1 hstop, hword]

/-- A statement that begins with a word has it for its first token. -/
theorem ofText_lead {sql w : String} {x : List Char} (hw : leads w = true)
    (hsql : sql.toList = w.toList ++ ' ' :: x) :
    ∃ t fuel, t.kind = .word w ∧
      ofText sql = t :: numberParameters 0 ((scan (fuel + 1) (' ' :: untilZero x)).takeWhile
        fun t => t.kind != .symbol ";") := by
  obtain ⟨c, cs, hcs, -, -⟩ := leads_cons hw
  have huntil : untilZero sql.toList = w.toList ++ ' ' :: untilZero x := by
    rw [hsql, untilZero_lead hw]
    rfl
  have hstop : ∀ d ∈ (' ' :: untilZero x).head?, isWordChar d = false := by
    rintro d ⟨⟩
    rfl
  have hlength : (untilZero sql.toList).length = (untilZero x).length + cs.length + 1 + 1 := by
    rw [huntil, hcs]
    simp only [List.length_cons, List.length_append]
    omega
  have hscan := scan_lead hw hstop ((untilZero x).length + cs.length + 1 + 1)
  rw [← huntil, ← hlength] at hscan
  rw [hlength] at hscan
  exact ⟨_, _, rfl, ofText_word (by rw [hlength]; exact hscan) rfl⟩

end Relata.Sqlite.Token
