import Relata.Proofs.Lexeme
import Relata.Schema.Table

/-!
Statements that define tables, as a database reads them: a table with its columns and references, or
one more column of a table. Main statements: what is written for a table, or for one of its columns,
is read back as just that, whatever characters the names hold.
-/
namespace Relata

namespace Sql

/-- A name in a text; `before` holds what stands between it and the name before, last character
first. -/
structure Cue where
  before : List Char
  name : String

def cues (before : List Char) : List Lexeme → List Cue
  | [] => []
  | .other c :: rest => cues (c :: before) rest
  | .name n :: rest => ⟨before, n⟩ :: cues [] rest
  | _ :: rest => cues before rest

namespace Cue

/-- The name begins an entry of a list in brackets. -/
def isListed (c : Cue) : Bool :=
  match c.before with
  | ' ' :: ',' :: _ => true
  | ['(', ' '] => true
  | _ => false

def isTarget (c : Cue) : Bool := "REFERENCES ".toList.reverse.isPrefixOf c.before

/-- The references among names in order: each is a table, and the column named next. -/
def references : List Cue → List Reference
  | a :: b :: rest =>
    if a.isTarget then ⟨a.name, b.name⟩ :: references rest else references (b :: rest)
  | _ => []

def listed (l : List Cue) : List String := (l.filter isListed).map Cue.name

theorem references_cons {a : Cue} (h : a.isTarget = false) (l : List Cue) :
    references (a :: l) = references l := by
  cases l with
  | nil => rfl
  | cons b l => simp [references, h]

theorem listed_cons_of_pos {a : Cue} (h : a.isListed = true) (l : List Cue) :
    listed (a :: l) = a.name :: listed l := by simp [listed, h]

end Cue

/-- The cues of pieces, without the detour through their text. -/
def cuesOf (before : List Char) : List Piece → List Cue
  | [] => []
  | .text s :: rest => cuesOf (s.toList.reverse ++ before) rest
  | .name n :: rest => ⟨before, n⟩ :: cuesOf [] rest
  | _ :: rest => cuesOf before rest

theorem cues_map_other (before s : List Char) (rest : List Lexeme) :
    cues before (s.map .other ++ rest) = cues (s.reverse ++ before) rest := by
  induction s generalizing before with
  | nil => rfl
  | cons c s ih => simp [cues, ih]

theorem cues_lexemes (d : Dialect) {p : List Piece} (h : closes p = true) (before : List Char)
    (used : Nat) : cues before (lexemes d used p) = cuesOf before p := by
  induction p generalizing before used with
  | nil => rfl
  | cons x p ih =>
    cases x with
    | text s =>
      obtain ⟨hs, hp⟩ := Bool.and_eq_true_iff.mp h
      rw [lexemes, scanned_plain hs, cues_map_other, ih hp, cuesOf]
    | name | literal | slot =>
      obtain ⟨-, hp⟩ := Bool.and_eq_true_iff.mp h
      simp only [lexemes, cues, cuesOf, ih hp]

theorem closes_append {p q : List Piece} (hp : closes p = true) (hq : closes q = true)
    (ho : opens q) : closes (p ++ q) = true := by
  induction p with
  | nil => exact hq
  | cons x p ih =>
    cases x with
    | text s =>
      obtain ⟨hs, hp⟩ := Bool.and_eq_true_iff.mp hp
      exact Bool.and_eq_true_iff.mpr ⟨hs, ih hp⟩
    | name | literal | slot =>
      obtain ⟨hx, hp⟩ := Bool.and_eq_true_iff.mp hp
      exact Bool.and_eq_true_iff.mpr ⟨opens_append hx ho, ih hp⟩

/-- The parts after the first one, each behind its separator. -/
def behind (sep : String) (items : List (List Piece)) : List Piece :=
  items.flatMap (.text sep :: ·)

theorem separated_cons (sep : String) (p : List Piece) (items : List (List Piece)) :
    separated sep (p :: items) = p ++ behind sep items := by
  induction items generalizing p with
  | nil => simp [separated, behind]
  | cons q items ih => simp [separated, ih, behind]

theorem behind_closes {sep : String} (hs : closes [.text sep] = true) (ho : opens [.text sep])
    {items : List (List Piece)} (h : ∀ p ∈ items, closes p = true) :
    closes (behind sep items) = true ∧ opens (behind sep items) := by
  induction items with
  | nil => exact ⟨rfl, rfl⟩
  | cons p items ih =>
    obtain ⟨hrest, hopens⟩ := ih fun q hq => h q (List.mem_cons_of_mem p hq)
    have hp : closes (.text sep :: p) = true :=
      Bool.and_eq_true_iff.mpr ⟨(Bool.and_eq_true_iff.mp hs).1, h p List.mem_cons_self⟩
    exact ⟨closes_append hp hrest hopens, ho⟩

end Sql

open Sql

inductive Ddl where
  | create (table : String) (columns : List String) (references : List Reference)
  | addColumn (table column : String) (reference : Option Reference)
  deriving DecidableEq, Repr

namespace Ddl

def ofCues? : List Cue → Option Ddl
  | [] => none
  | table :: rest =>
    if table.before = "CREATE TABLE IF NOT EXISTS ".toList.reverse then
      some (.create table.name (Cue.listed rest) (Cue.references rest))
    else if table.before = "ALTER TABLE ".toList.reverse then
      match rest with
      | [] => none
      | column :: rest =>
        if column.before = " ADD COLUMN ".toList.reverse then
          some (.addColumn table.name column.name (Cue.references rest).head?)
        else none
    else none

/-- What a statement defines, if it is one of the two kinds. -/
def ofSql? (sql : String) : Option Ddl := (scan sql.toList).bind fun ls => ofCues? (cues [] ls)

theorem ofSql?_textOf {p : List Piece} (h : closes p = true) :
    ofSql? (textOf p) = ofCues? (cuesOf [] p) := by
  rw [ofSql?, textOf, String.toList_ofList, scan_render .sqlite (.of_closes h), Option.bind_some,
    cues_lexemes .sqlite h]

end Ddl

namespace Table

variable {d : Dialect}

theorem declaration_plain (c : Column) (d : Dialect) :
    (" " ++ c.declaration d).toList.all isPlain = true := by
  unfold Column.declaration
  cases c.isPrimaryKey <;> cases c.type <;> cases d <;> decide

theorem type_plain (t : ColumnType) (d : Dialect) :
    (" " ++ t.sql d).toList.all isPlain = true := by
  cases t <;> cases d <;> rfl

theorem columnPieces_closes (d : Dialect) (name : String) (c : Column) :
    closes (columnPieces d name c) = true := by
  have hplain := declaration_plain c d
  have ho : opens [.text (" " ++ c.declaration d)] = true := by simp [opens, isQuote]
  simp only [columnPieces, closes, hplain, ho, Bool.and_self]

theorem constraintPieces_closes (name : String) (r : Reference) :
    closes (constraintPieces name r) = true := rfl

theorem entries_close (t : Table) (d : Dialect) :
    ∀ p ∈ t.columns.entries.map (fun e => columnPieces d e.1 e.2) ++
      t.references.map fun r => constraintPieces r.1 r.2, closes p = true := by
  intro p hp
  rcases List.mem_append.mp hp with hp | hp
  · obtain ⟨e, -, rfl⟩ := List.mem_map.mp hp
    exact columnPieces_closes d e.1 e.2
  · obtain ⟨r, -, rfl⟩ := List.mem_map.mp hp
    exact constraintPieces_closes r.1 r.2

theorem createPieces_closes (t : Table) (d : Dialect) : closes (t.createPieces d) = true := by
  have hentries := entries_close t d
  unfold createPieces
  cases hitems : t.columns.entries.map (fun e => columnPieces d e.1 e.2) ++
      t.references.map fun r => constraintPieces r.1 r.2 with
  | nil => rfl
  | cons p items =>
    rw [hitems] at hentries
    have hsep : closes [.text ", "] = true := rfl
    obtain ⟨hrest, ho⟩ := behind_closes hsep rfl fun q hq =>
      hentries q (List.mem_cons_of_mem p hq)
    have hlist := closes_append (hentries p List.mem_cons_self) hrest ho
    rw [separated_cons]
    exact closes_append (q := [.text ")"]) hlist rfl rfl

theorem cuesOf_constraints (refs : List (String × Reference)) (before : List Char) :
    let cs := cuesOf before
      (behind ", " (refs.map fun r => constraintPieces r.1 r.2) ++ [.text ")"])
    Cue.listed cs = [] ∧ Cue.references cs = refs.map Prod.snd := by
  induction refs generalizing before with
  | nil => exact ⟨rfl, rfl⟩
  | cons r refs ih =>
    obtain ⟨hlisted, hrefs⟩ := ih ")".toList.reverse
    exact ⟨hlisted, congrArg (r.2 :: ·) hrefs⟩

/-- Behind the first entry, each column is listed after a comma, and each constraint holds a
reference. -/
theorem cuesOf_entries (d : Dialect) (columns : List (String × Column))
    (refs : List (String × Reference)) (before : List Char) :
    let cs := cuesOf before
      (behind ", " (columns.map (fun e => columnPieces d e.1 e.2) ++
        refs.map fun r => constraintPieces r.1 r.2) ++ [.text ")"])
    Cue.listed cs = columns.map Prod.fst ∧ Cue.references cs = refs.map Prod.snd := by
  induction columns generalizing before with
  | nil => exact cuesOf_constraints refs before
  | cons e columns ih =>
    obtain ⟨hlisted, hrefs⟩ := ih ((" " ++ e.2.declaration d).toList.reverse ++ [])
    refine ⟨?_, ?_⟩
    · exact (Cue.listed_cons_of_pos rfl _).trans (congrArg (e.1 :: ·) hlisted)
    · exact (Cue.references_cons rfl _).trans hrefs

/-- A new table is read back with its columns in order and its references in order. -/
theorem ofSql?_createSql (t : Table) (d : Dialect) :
    Ddl.ofSql? (t.createSql d) =
      some (.create t.name t.columnNames (t.references.map Prod.snd)) := by
  rw [createSql, Ddl.ofSql?_textOf (createPieces_closes t d)]
  unfold createPieces
  cases hcolumns : t.columns.entries with
  | nil =>
    unfold references columnNames Keyed.keys
    rw [hcolumns]
    rfl
  | cons e columns =>
    obtain ⟨hlisted, hrefs⟩ := cuesOf_entries d columns t.references
      ((" " ++ e.2.declaration d).toList.reverse ++ [])
    have hfirst (cs : List Cue) : some (Ddl.create t.name (Cue.listed (⟨['(', ' '], e.1⟩ :: cs))
        (Cue.references (⟨['(', ' '], e.1⟩ :: cs))) =
        some (Ddl.create t.name (e.1 :: Cue.listed cs) (Cue.references cs)) := by
      rw [Cue.listed_cons_of_pos rfl, Cue.references_cons rfl]
    have hnames : t.columnNames = e.1 :: columns.map Prod.fst := by
      unfold columnNames Keyed.keys
      rw [hcolumns, List.map_cons]
    simp only [List.map_cons, List.cons_append, separated_cons]
    rw [hnames, ← hlisted, ← hrefs]
    exact hfirst _

theorem addColumnPieces_closes (t : Table) (d : Dialect) (name : String) (c : Column) :
    closes (t.addColumnPieces d name c) = true := by
  have hplain := type_plain c.type d
  have ho : opens [.text (" " ++ c.type.sql d)] = true := by simp [opens, isQuote]
  have hlead : closes [.text "ALTER TABLE ", .name t.name, .text " ADD COLUMN ", .name name,
      .text (" " ++ c.type.sql d)] = true := by
    simp only [closes, hplain, ho, Bool.and_self]
    rfl
  unfold addColumnPieces
  cases c.reference with
  | none => exact closes_append hlead rfl rfl
  | some r => exact closes_append hlead rfl rfl

/-- A further column is read back with its reference. -/
theorem ofSql?_addColumn (t : Table) (d : Dialect) (name : String) (c : Column) :
    Ddl.ofSql? (textOf (t.addColumnPieces d name c)) = some (.addColumn t.name name c.reference) := by
  rw [Ddl.ofSql?_textOf (addColumnPieces_closes t d name c)]
  unfold addColumnPieces
  cases c.reference with
  | none => rfl
  | some r => rfl

end Table
end Relata
