import Relata.Proofs.Confined

/-!
SQL text as tokens: words, signs, quoted names, literals, placeholders and single symbols. A path of
identifiers is one or more names or words with dots between them; the skeleton of a text shows each
path as a path and every other token as it stands. Main statements: text put together at separating
characters is read part by part, and paths that stand for each other leave the skeleton as it is.
-/
namespace Relata

namespace Text.Quoted

/-- A token that is closed is read alike whatever follows but a further quote mark. -/
theorem readInside_append {q : Char} {s inside rest b : List Char}
    (h : readInside q s = some (inside, rest)) (hb : b.head? ≠ some q) :
    readInside q (s ++ b) = some (inside, rest ++ b) := by
  obtain ⟨rfl, hhead⟩ := eq_of_readInside h
  have hrest : (rest ++ b).head? ≠ some q := by
    cases rest with
    | nil => exact hb
    | cons c rest => simpa using hhead
  rw [List.append_assoc, List.cons_append]
  exact readInside_double inside hrest

end Text.Quoted

namespace Sql

inductive Token where
  | name (s : String)
  | literal (s : String)
  | mark (s : String)
  | word (s : String)
  | sign (s : String)
  | symbol (c : Char)
  deriving DecidableEq, Repr

def isBlank (c : Char) : Bool :=
  c == ' ' || c == '\t' || c == '\n' || c == '\r' || c.toNat == 11 || c.toNat == 12

def isWordChar (c : Char) : Bool := c.isAlphanum || c == '_' || 0x80 ≤ c.toNat

/-- The characters that operators are made of. -/
def isSignChar (c : Char) : Bool := "+-*/<>=~!#%^&|".toList.contains c

/-- The character goes on with the word or sign that has been read so far. -/
def continues (run : List Char) (c : Char) : Bool :=
  run.getLast?.any fun l => isWordChar l && isWordChar c || isSignChar l && isSignChar c

/-- A word or a sign that has been read to its end; nothing if none had begun. -/
def ofRun : List Char → List Token
  | [] => []
  | c :: run =>
    [if isWordChar c then .word (String.ofList (c :: run)) else .sign (String.ofList (c :: run))]

/-- The tokens of lexemes behind a word or sign of which `run` has been read. -/
def tokens : (run : List Char) → List Lexeme → List Token
  | run, [] => ofRun run
  | run, .name s :: rest => ofRun run ++ .name s :: tokens [] rest
  | run, .literal s :: rest => ofRun run ++ .literal s :: tokens [] rest
  | run, .mark s :: rest => ofRun run ++ .mark s :: tokens [] rest
  | run, .other c :: rest =>
    if continues run c then tokens (run ++ [c]) rest
    else ofRun run ++
      if isWordChar c || isSignChar c then tokens [c] rest
      else if isBlank c then tokens [] rest
      else .symbol c :: tokens [] rest

/-- The tokens of a text; none if a quote mark is left open. -/
def read (s : List Char) : Option (List Token) := (scan s).map (tokens [])

/-- The character is no part of a token with others. -/
def separates (c : Char) : Bool :=
  !isQuote c && !isMarkLead c && !isWordChar c && !isSignChar c

/-- What may follow any text without becoming a part of its last token. -/
def Apart (rest : List Char) : Prop := ∀ c ∈ rest.head?, separates c = true

@[simp] theorem apart_nil : Apart [] := by simp [Apart]

@[simp] theorem apart_cons {c : Char} {rest : List Char} :
    Apart (c :: rest) ↔ separates c = true := by simp [Apart]

theorem Apart.append {a b : List Char} (ha : Apart a) (hb : Apart b) : Apart (a ++ b) := by
  cases a with
  | nil => exact hb
  | cons c a => exact apart_cons.mpr (apart_cons.mp ha)

section Separates

variable {c : Char} (h : separates c = true)

include h

theorem separates_kinds : isQuote c = false ∧ isMarkLead c = false ∧ isWordChar c = false ∧
    isSignChar c = false := by
  simpa [separates, and_assoc] using h

theorem scan_separating (rest : List Char) : scan (c :: rest) = (scan rest).map (.other c :: ·) := by
  obtain ⟨hquote, hmark, -, -⟩ := separates_kinds h
  rw [scan, if_neg (by simp [hquote]), if_neg (by simp [hmark])]

theorem not_continues (run : List Char) : continues run c = false := by
  obtain ⟨-, -, hword, hsign⟩ := separates_kinds h
  simp [continues, hword, hsign]

end Separates

theorem Apart.detached {rest : List Char} (h : Apart rest) : Detached rest := by
  intro c hc
  obtain ⟨hquote, -, hword, -⟩ := separates_kinds (h c hc)
  have halpha : c.isAlphanum = false := by
    simp only [isWordChar, Bool.or_eq_false_iff] at hword
    exact hword.1.1
  have hdigit : c.isDigit = false := by
    simp only [Char.isAlphanum, Bool.or_eq_false_iff] at halpha
    exact halpha.2
  exact ⟨hquote, hdigit⟩

theorem digits_append {s b : List Char} (hb : Detached b) :
    (s ++ b).takeWhile Char.isDigit = s.takeWhile Char.isDigit ∧
      (s ++ b).dropWhile Char.isDigit = s.dropWhile Char.isDigit ++ b := by
  induction s with
  | nil =>
    cases b with
    | nil => simp
    | cons c b => simp [(detached_cons.mp hb).2]
  | cons c s ih =>
    cases hc : c.isDigit with
    | true => simp [hc, ih]
    | false => simp [hc]

theorem scan_quoted {c : Char} {s inside rest : List Char} (hq : isQuote c = true)
    (hread : Text.Quoted.readInside c s = some (inside, rest)) :
    scan (c :: s) = (scan rest).map (Lexeme.quoted c (String.ofList inside) :: ·) := by
  rw [scan, if_pos hq]
  split
  next hsome =>
    rw [hread] at hsome
    obtain ⟨rfl, rfl⟩ := Prod.mk.inj (Option.some.inj hsome)
    rfl
  next hnone =>
    rw [hread] at hnone
    cases hnone

/-- A closed text is scanned alike whatever follows it apart. -/
theorem scan_append {a b : List Char} {ls : List Lexeme} (ha : scan a = some ls) (hb : Detached b) :
    scan (a ++ b) = (scan b).map (ls ++ ·) := by
  have hquote {q : Char} (hq : isQuote q = true) : b.head? ≠ some q := by
    intro hhead
    have hnot := (hb q hhead).1
    rw [hq] at hnot
    cases hnot
  induction a using scan.induct generalizing ls with
  | case1 =>
    rw [scan_nil] at ha
    obtain rfl := Option.some.inj ha
    simp
  | case2 c s hq inside rest hread ih =>
    rw [scan_quoted hq hread] at ha
    rw [List.cons_append, scan_quoted hq (Text.Quoted.readInside_append hread (hquote hq))]
    obtain ⟨ls', hls', rfl⟩ := Option.map_eq_some_iff.mp ha
    simp [ih hls', Function.comp_def]
  | case3 c s hq hnone =>
    rw [scan, if_pos hq] at ha
    split at ha
    next hsome =>
      rw [hnone] at hsome
      cases hsome
    next => cases ha
  | case4 c s hq hm ih =>
    obtain ⟨htake, hdrop⟩ := digits_append (s := s) hb
    rw [scan, if_neg hq, if_pos hm] at ha
    rw [List.cons_append, scan, if_neg hq, if_pos hm, htake, hdrop]
    obtain ⟨ls', hls', rfl⟩ := Option.map_eq_some_iff.mp ha
    simp [ih hls', Function.comp_def]
  | case5 c s hq hm ih =>
    rw [scan, if_neg hq, if_neg hm] at ha
    rw [List.cons_append, scan, if_neg hq, if_neg hm]
    obtain ⟨ls', hls', rfl⟩ := Option.map_eq_some_iff.mp ha
    simp [ih hls', Function.comp_def]

/-- The lexemes do not go on with a word or a sign. -/
def Breaks (ls : List Lexeme) : Prop := ∀ c, ls.head? = some (.other c) → separates c = true

theorem tokens_break {ls : List Lexeme} (h : Breaks ls) (run : List Char) :
    tokens run ls = ofRun run ++ tokens [] ls := by
  cases ls with
  | nil => simp [tokens, ofRun]
  | cons l ls =>
    cases l with
    | other c =>
      have hc := h c rfl
      rw [tokens, tokens, not_continues hc, not_continues hc]
      simp [ofRun]
    | name | literal | mark => simp [tokens, ofRun]

theorem tokens_append {ls ls' : List Lexeme} (h : Breaks ls') (run : List Char) :
    tokens run (ls ++ ls') = tokens run ls ++ tokens [] ls' := by
  induction ls generalizing run with
  | nil => rw [List.nil_append, tokens_break h, tokens]
  | cons l ls ih =>
    cases l with
    | other c =>
      rw [List.cons_append, tokens, tokens]
      split
      next => exact ih (run ++ [c])
      next =>
        rw [List.append_assoc]
        congr 1
        split
        next => exact ih [c]
        next =>
          split
          next => exact ih []
          next => rw [ih [], List.cons_append]
    | name | literal | mark => simp [tokens, ih]

/-- Text is read part by part. -/
theorem read_append {a b : List Char} {ts : List Token} (ha : read a = some ts) (hb : Apart b) :
    read (a ++ b) = (read b).map (ts ++ ·) := by
  obtain ⟨ls, hls, rfl⟩ := Option.map_eq_some_iff.mp ha
  unfold read
  rw [scan_append hls hb.detached, Option.map_map, Option.map_map]
  cases hscan : scan b with
  | none => rfl
  | some ls' =>
    have hbreaks : Breaks ls' := by
      cases b with
      | nil =>
        rw [scan_nil] at hscan
        obtain rfl := Option.some.inj hscan
        exact nofun
      | cons c b =>
        rw [scan_separating (apart_cons.mp hb)] at hscan
        obtain ⟨rest, -, rfl⟩ := Option.map_eq_some_iff.mp hscan
        intro c' hc'
        obtain rfl := Lexeme.other.inj (Option.some.inj hc')
        exact apart_cons.mp hb
    simp [tokens_append hbreaks]

/-- Words that are no identifiers, in one dialect or the other. -/
def reserved : List String :=
  ["add", "all", "alter", "analyse", "analyze", "and", "any", "array", "as", "asc", "asymmetric",
    "authorization", "autoincrement", "between", "binary", "both", "by", "case", "cast", "check",
    "collate", "collation", "column", "commit", "concurrently", "constraint", "create", "cross",
    "current_catalog", "current_date", "current_role", "current_schema", "current_time",
    "current_timestamp", "current_user", "default", "deferrable", "delete", "desc", "distinct", "do",
    "drop", "else", "end", "escape", "except", "exists", "false", "fetch", "for", "foreign", "freeze",
    "from", "full", "glob", "grant", "group", "having", "ilike", "in", "index", "initially", "inner",
    "insert", "intersect", "into", "is", "isnull", "join", "lateral", "leading", "left", "like",
    "limit", "localtime", "localtimestamp", "match", "natural", "not", "nothing", "notnull", "null",
    "offset", "on", "only", "or", "order", "outer", "overlaps", "placing", "primary", "references",
    "regexp", "returning", "right", "select", "session_user", "set", "similar", "some", "symmetric",
    "system_user", "table", "tablesample", "then", "to", "trailing", "transaction", "true", "union",
    "unique", "update", "user", "using", "values", "variadic", "verbose", "when", "where", "window",
    "with"]

namespace Token

/-- A quoted name, or a word that begins with no digit and is not reserved. -/
def isIdentifier : Token → Bool
  | .name _ => true
  | .word s => !s.toList.head?.any Char.isDigit && !reserved.contains (Text.lowerAscii s)
  | _ => false

/-- The token neither is a part of a path nor joins its parts. -/
def bounds (t : Token) : Bool := !t.isIdentifier && t != .symbol '.'

end Token

/-- Identifiers with dots between them. -/
def isPath : List Token → Bool
  | [] => false
  | [t] => t.isIdentifier
  | t :: .symbol '.' :: rest => t.isIdentifier && isPath rest
  | _ => false

/-- What is left of a text when paths are not told apart. -/
inductive Shape where
  | path
  | token (t : Token)
  deriving DecidableEq, Repr

def Token.shape (t : Token) : Shape := if t.isIdentifier then .path else .token t

/-- Each path of identifiers as a whole, and the other tokens one by one. -/
def shapes : List Token → List Shape
  | [] => []
  | t :: .symbol '.' :: u :: rest =>
    if t.isIdentifier && u.isIdentifier then shapes (u :: rest)
    else t.shape :: shapes (.symbol '.' :: u :: rest)
  | t :: rest => t.shape :: shapes rest

/-- The token skeleton of a text; none if a quote mark is left open. -/
def skeleton (s : String) : Option (List Shape) := (read s.toList).map shapes

theorem Token.bounds_iff {t : Token} : t.bounds = true ↔ t.isIdentifier = false ∧ t ≠ .symbol '.' := by
  simp [bounds]

theorem shapes_cons {t : Token} {rest : List Token} (h : rest.head? ≠ some (.symbol '.')) :
    shapes (t :: rest) = t.shape :: shapes rest := by
  rw [shapes]
  rintro u rest' rfl
  exact h rfl

theorem shapes_cons_of_bounds {t : Token} (ht : t.bounds = true) (rest : List Token) :
    shapes (t :: rest) = t.shape :: shapes rest := by
  by_cases hdot : rest.head? = some (.symbol '.')
  · obtain ⟨rest', rfl⟩ := List.head?_eq_some_iff.mp hdot
    cases rest' with
    | nil => rfl
    | cons u rest' => rw [shapes, (Token.bounds_iff.mp ht).1, Bool.false_and, if_neg Bool.false_ne_true]
  · exact shapes_cons hdot

theorem head_of_isPath {p : List Token} (h : isPath p = true) :
    ∃ t rest, p = t :: rest ∧ t.isIdentifier = true := by
  cases p using isPath.induct with
  | case1 => cases h
  | case2 t => exact ⟨t, [], rfl, h⟩
  | case3 t rest =>
    exact ⟨t, _, rfl, (Bool.and_eq_true_iff.mp h).1⟩
  | case4 p h1 h2 h3 =>
    rw [isPath] at h
    · cases h
    all_goals assumption

/-- A path that ends is one shape. -/
theorem shapes_path {p : List Token} (hp : isPath p = true) {t : Token} (ht : t.bounds = true)
    (rest : List Token) : shapes (p ++ t :: rest) = .path :: shapes (t :: rest) := by
  induction p using isPath.induct with
  | case1 => cases hp
  | case2 u =>
    have hident : u.isIdentifier = true := hp
    have hhead : (t :: rest).head? ≠ some (.symbol '.') := by
      intro heq
      exact (Token.bounds_iff.mp ht).2 (Option.some.inj heq)
    rw [List.singleton_append, shapes_cons hhead, Token.shape, if_pos hident]
  | case3 u p ih =>
    obtain ⟨hident, hrest⟩ := Bool.and_eq_true_iff.mp hp
    obtain ⟨v, p', rfl, hv⟩ := head_of_isPath hrest
    have hih := ih hrest
    simp only [List.cons_append] at hih ⊢
    rw [shapes, hident, hv, Bool.and_self, if_pos rfl, hih]
  | case4 p h1 h2 h3 =>
    rw [isPath] at hp
    · cases hp
    all_goals assumption

/-- A token that is no part of a path separates what stands before it. -/
theorem shapes_append {t : Token} (ht : t.bounds = true) (a rest : List Token) :
    shapes (a ++ t :: rest) = shapes a ++ shapes (t :: rest) := by
  obtain ⟨hident, hdot⟩ := Token.bounds_iff.mp ht
  induction a using shapes.induct with
  | case1 => rfl
  | case2 u v a hboth ih =>
    have hshape : shapes (u :: .symbol '.' :: v :: (a ++ t :: rest)) =
        shapes (v :: (a ++ t :: rest)) := by rw [shapes, if_pos hboth]
    rw [shapes, if_pos hboth]
    exact hshape.trans ih
  | case3 u v a hnot ih =>
    have hshape : shapes (u :: .symbol '.' :: v :: (a ++ t :: rest)) =
        u.shape :: shapes (.symbol '.' :: v :: (a ++ t :: rest)) := by rw [shapes, if_neg hnot]
    rw [shapes, if_neg hnot]
    exact hshape.trans (congrArg (u.shape :: ·) ih)
  | case4 u a hshort ih =>
    have hcons : shapes (u :: a) = u.shape :: shapes a := by
      rw [shapes]
      exact hshort
    rw [hcons, List.cons_append, List.cons_append, ← ih]
    by_cases hhead : (a ++ t :: rest).head? = some (.symbol '.')
    · cases a with
      | nil => exact absurd (Option.some.inj hhead) hdot
      | cons v a =>
        obtain rfl : v = .symbol '.' := Option.some.inj hhead
        cases a with
        | nil =>
          -- the dot stands before the separating token, and joins nothing
          rw [List.cons_append, List.nil_append, shapes, hident, Bool.and_false,
            if_neg Bool.false_ne_true]
        | cons w a => exact absurd rfl (hshort w a)
    · exact shapes_cons hhead

/-- Wherever one stands, the other may stand with the same skeleton. -/
def Exchangeable (x y : List Token) : Prop := ∀ a c, shapes (a ++ x ++ c) = shapes (a ++ y ++ c)

theorem Exchangeable.refl (x : List Token) : Exchangeable x x := fun _ _ => rfl

theorem Exchangeable.append {x x' y y' : List Token} (hx : Exchangeable x x')
    (hy : Exchangeable y y') : Exchangeable (x ++ y) (x' ++ y') := by
  intro a c
  have hfirst := hx a (y ++ c)
  have hsecond := hy (a ++ x') c
  simp only [List.append_assoc] at hfirst hsecond ⊢
  exact hfirst.trans hsecond

theorem Exchangeable.shapes_eq {x y : List Token} (h : Exchangeable x y) : shapes x = shapes y := by
  simpa using h [] []

/-- A path between tokens that bound it may be any other. -/
theorem exchangeable_path {p q : List Token} (hp : isPath p = true) (hq : isPath q = true)
    {s t : Token} (hs : s.bounds = true) (ht : t.bounds = true) :
    Exchangeable (s :: p ++ [t]) (s :: q ++ [t]) := by
  have hone {p : List Token} (hp : isPath p = true) (a c : List Token) :
      shapes (a ++ (s :: p ++ [t]) ++ c) = shapes a ++ s.shape :: .path :: shapes (t :: c) := by
    have hlist : a ++ (s :: p ++ [t]) ++ c = a ++ s :: (p ++ t :: c) := by simp
    rw [hlist, shapes_append hs, shapes_cons_of_bounds hs, shapes_path hp ht]
  intro a c
  rw [hone hp, hone hq]

end Sql
end Relata
