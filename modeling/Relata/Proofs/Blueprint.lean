import Relata.Proofs.Ddl
import Relata.Proofs.Numeral

/-!
What a table is, as its statements spell it. A reader that knows nothing but quoted names and the fixed
text around them finds in the statement for a new table its name, its columns in order, each with its
type and whether it is a key, and its references in order; in the statement for one more column, the
table, the column, its type and its reference. Main statement: that is just what was declared,
whatever characters the names hold, so tables of the same statement are alike in all of it.
-/
namespace Relata

namespace Sql

open Text

/-- A text cut at its quoted names: what stands before the first, and each name with what stands
behind it. -/
structure Outline where
  lead : List Char
  parts : List (String × List Char)

namespace Outline

def behindName (n : String) (o : Outline) : Outline := ⟨[], (n, o.lead) :: o.parts⟩

def behindText (s : List Char) (o : Outline) : Outline := ⟨s ++ o.lead, o.parts⟩

def ofLexemes : List Lexeme → Outline
  | [] => ⟨[], []⟩
  | .name n :: rest => (ofLexemes rest).behindName n
  | .other c :: rest => (ofLexemes rest).behindText [c]
  | .mark s :: rest => (ofLexemes rest).behindText s.toList
  | .literal s :: rest => (ofLexemes rest).behindText (Quoted.token '\'' s.toList)

def ofSql? (sql : String) : Option Outline := (scan sql.toList).map ofLexemes

/-- The outline of pieces, without the detour through their text. -/
def ofPieces : List Piece → Outline
  | [] => ⟨[], []⟩
  | .name n :: rest => (ofPieces rest).behindName n
  | .text s :: rest => (ofPieces rest).behindText s.toList
  | .slot _ :: rest => (ofPieces rest).behindText "?".toList
  | .literal s :: rest => (ofPieces rest).behindText (Quoted.token '\'' s.toList)

/-- All that stands outside of names. -/
def texts (o : Outline) : List (List Char) := o.lead :: o.parts.map Prod.snd

theorem ofLexemes_map_other (s : List Char) (rest : List Lexeme) :
    ofLexemes (s.map .other ++ rest) = (ofLexemes rest).behindText s := by
  induction s with
  | nil => rfl
  | cons c s ih =>
    simp only [List.map_cons, List.cons_append, ofLexemes, ih]
    rfl

theorem ofLexemes_lexemes {p : List Piece} (h : closes p = true) (used : Nat) :
    ofLexemes (lexemes .sqlite used p) = ofPieces p := by
  induction p generalizing used with
  | nil => rfl
  | cons x p ih =>
    cases x with
    | text s =>
      obtain ⟨hs, hp⟩ := Bool.and_eq_true_iff.mp h
      rw [lexemes, scanned_plain hs, ofLexemes_map_other, ih hp, ofPieces]
    | name | literal | slot =>
      obtain ⟨-, hp⟩ := Bool.and_eq_true_iff.mp h
      simp only [lexemes, ofLexemes, ofPieces, ih hp, Dialect.placeholder]

theorem ofSql?_textOf {p : List Piece} (h : closes p = true) :
    ofSql? (textOf p) = some (ofPieces p) := by
  rw [ofSql?, textOf, String.toList_ofList, scan_render .sqlite (.of_closes h), Option.map_some,
    ofLexemes_lexemes h]

end Outline

end Sql

open Sql

/-- A column as a statement declares it. -/
structure Declared where
  name : String
  type : String
  isPrimaryKey : Bool
  deriving DecidableEq, Repr

/-- A new table, as a statement declares it. -/
structure Blueprint where
  table : String
  columns : List Declared
  references : List (String × Reference)
  deriving DecidableEq, Repr

namespace Blueprint

/-- The end of a text without its last word or words, if it ends in them. -/
def stripSuffix? (last s : List Char) : Option (List Char) :=
  (Text.stripPrefix? last.reverse s.reverse).map List.reverse

def keyWords : List Char := " PRIMARY KEY".toList

/-- A column from its name and the text behind it, up to the end of its entry. -/
def column? (name : String) : List Char → Option Declared
  | ' ' :: clause =>
    match stripSuffix? keyWords clause with
    | some type => some ⟨name, String.ofList type, true⟩
    | none => some ⟨name, String.ofList clause, false⟩
  | _ => none

/-- What ends an entry of a list in brackets. -/
def isWithin (c : Char) : Bool := c != ',' && c != ')'

/-- The references up to the end of the statement, where `lead` stands before the first. -/
def references? : (lead : List Char) → List (String × List Char) → Option (List (String × Reference))
  | lead, [] => if lead = [')'] then some [] else none
  | lead, (column, opening) :: (table, inner) :: (target, ')' :: next) :: rest =>
    if lead = ", FOREIGN KEY (".toList ∧ opening = ") REFERENCES ".toList ∧ inner = ['('] then
      (references? next rest).map ((column, ⟨table, target⟩) :: ·)
    else none
  | _, _ => none

/-- The entries up to the end of the statement: columns, and from the first that is none on,
references. -/
def entries? : (lead : List Char) → List (String × List Char) →
    Option (List Declared × List (String × Reference))
  | lead, [] => (references? lead []).map ([], ·)
  | lead, (name, text) :: rest =>
    if lead = ", ".toList then
      (column? name (text.takeWhile isWithin)).bind fun c =>
        (entries? (text.dropWhile isWithin) rest).map fun r => (c :: r.1, r.2)
    else (references? lead ((name, text) :: rest)).map ([], ·)

def ofOutline? (o : Outline) : Option Blueprint :=
  if o.lead = "CREATE TABLE IF NOT EXISTS ".toList then
    match o.parts with
    | [] => none
    | (table, text) :: rest =>
      if text = " ()".toList ∧ rest = [] then some ⟨table, [], []⟩
      else if text = " (".toList then
        (entries? ", ".toList rest).map fun r => ⟨table, r.1, r.2⟩
      else none
  else none

/-- What the statement for a new table declares. -/
def ofSql? (sql : String) : Option Blueprint := (Outline.ofSql? sql).bind ofOutline?

end Blueprint

/-- A column that is added to a table, as a statement declares it. -/
structure Addition where
  table : String
  column : String
  type : String
  reference : Option Reference
  deriving DecidableEq, Repr

namespace Addition

/-- The type behind a column's name. -/
def type? : List Char → Option String
  | ' ' :: clause => some (String.ofList clause)
  | _ => none

def ofOutline? (o : Outline) : Option Addition :=
  if o.lead = "ALTER TABLE ".toList then
    match o.parts with
    | [(table, add), (column, clause)] =>
      if add = " ADD COLUMN ".toList then
        (type? clause).map fun type => ⟨table, column, type, none⟩
      else none
    | [(table, add), (column, clause), (target, inner), (key, last)] =>
      if add = " ADD COLUMN ".toList ∧ inner = ['('] ∧ last = [')'] then
        ((Blueprint.stripSuffix? " REFERENCES ".toList clause).bind type?).map fun type =>
          ⟨table, column, type, some ⟨target, key⟩⟩
      else none
    | _ => none
  else none

/-- What the statement for one more column declares. -/
def ofSql? (sql : String) : Option Addition := (Outline.ofSql? sql).bind ofOutline?

end Addition

/-- The type of a column in the statement for a new table. Integer keys are filled in by the
database, for which a dialect may have types of its own. -/
def ColumnType.word (type : ColumnType) (isPrimaryKey : Bool) (d : Dialect) : String :=
  match d, isPrimaryKey, type with
  | .postgres, true, .integer => "SERIAL"
  | .postgres, true, .bigInt => "BIGSERIAL"
  | .sqlite, true, .bigInt => "INTEGER"
  | _, _, type => type.sql d

theorem Column.declaration_eq (c : Column) (d : Dialect) :
    c.declaration d = c.type.word c.isPrimaryKey d ++ if c.isPrimaryKey then " PRIMARY KEY" else "" := by
  obtain ⟨type, key, reference⟩ := c
  cases type <;> cases key <;> cases d <;> rfl

namespace Table

variable {d : Dialect}

/-- What the statement for a new table has to say. -/
def blueprint (t : Table) (d : Dialect) : Blueprint where
  table := t.name
  columns := t.columns.entries.map fun e =>
    ⟨e.1, e.2.type.word e.2.isPrimaryKey d, e.2.isPrimaryKey⟩
  references := t.references

open Blueprint

theorem stripSuffix?_append (s last : List Char) : stripSuffix? last (s ++ last) = some s := by
  rw [stripSuffix?, List.reverse_append, Text.stripPrefix?_append, Option.map_some,
    List.reverse_reverse]

theorem stripSuffix?_word (type : ColumnType) (isPrimaryKey : Bool) (d : Dialect) :
    stripSuffix? keyWords (type.word isPrimaryKey d).toList = none := by
  cases type <;> cases isPrimaryKey <;> cases d <;> decide

theorem column?_declaration (name : String) (c : Column) (d : Dialect) :
    column? name (" " ++ c.declaration d).toList =
      some ⟨name, c.type.word c.isPrimaryKey d, c.isPrimaryKey⟩ := by
  have hlead : (" " ++ c.declaration d).toList = ' ' :: (c.declaration d).toList := by simp
  rw [hlead, column?, Column.declaration_eq, String.toList_append]
  cases c.isPrimaryKey with
  | true =>
    have hkey : stripSuffix? keyWords ((c.type.word true d).toList ++ " PRIMARY KEY".toList) =
        some (c.type.word true d).toList := stripSuffix?_append _ _
    simp only [if_true, hkey, String.ofList_toList]
  | false => simp [stripSuffix?_word]

theorem declaration_within (c : Column) (d : Dialect) :
    (" " ++ c.declaration d).toList.all isWithin = true := by
  rw [Column.declaration_eq]
  cases c.type <;> cases c.isPrimaryKey <;> cases d <;> decide

/-- What follows some of the entries: the columns and the references that are still to come, and the
end of the statement. -/
def remaining (d : Dialect) (columns : List (String × Column)) (refs : List (String × Reference)) :
    Outline :=
  Outline.ofPieces (behind ", " (columns.map (fun e => columnPieces d e.1 e.2) ++
    refs.map fun r => constraintPieces r.1 r.2) ++ [.text ")"])

variable {columns : List (String × Column)} {refs : List (String × Reference)}

/-- A column's entry ends before the first character that is in no type and no key. -/
theorem remaining_stops : ∀ x ∈ (remaining d columns refs).lead.head?, isWithin x = false := by
  cases columns with
  | cons e columns => exact fun x hx => Option.some.inj hx ▸ rfl
  | nil =>
    cases refs with
    | cons r refs => exact fun x hx => Option.some.inj hx ▸ rfl
    | nil => exact fun x hx => Option.some.inj hx ▸ rfl

theorem references?_remaining (refs : List (String × Reference)) :
    references? (remaining d [] refs).lead (remaining d [] refs).parts = some refs := by
  induction refs with
  | nil => rfl
  | cons r refs ih =>
    have hstep : references? (remaining d [] (r :: refs)).lead (remaining d [] (r :: refs)).parts =
        (references? (remaining d [] refs).lead (remaining d [] refs).parts).map (r :: ·) :=
      if_pos ⟨rfl, rfl, rfl⟩
    rw [hstep, ih]
    rfl

theorem entries?_references (refs : List (String × Reference)) :
    entries? (remaining d [] refs).lead (remaining d [] refs).parts = some ([], refs) := by
  have hrefs := references?_remaining (d := d) refs
  cases refs with
  | nil => rfl
  | cons r refs =>
    have hlead : ", FOREIGN KEY (".toList ≠ ", ".toList := by decide
    have hstep : entries? (remaining d [] (r :: refs)).lead (remaining d [] (r :: refs)).parts =
        (references? (remaining d [] (r :: refs)).lead (remaining d [] (r :: refs)).parts).map
          ([], ·) := if_neg hlead
    rw [hstep, hrefs]
    rfl

theorem entries?_remaining (columns : List (String × Column)) (refs : List (String × Reference)) :
    entries? (remaining d columns refs).lead (remaining d columns refs).parts =
      some (columns.map fun e =>
        ⟨e.1, e.2.type.word e.2.isPrimaryKey d, e.2.isPrimaryKey⟩, refs) := by
  induction columns with
  | nil => exact entries?_references refs
  | cons e columns ih =>
    let next := remaining d columns refs
    let clause := (" " ++ e.2.declaration d).toList
    have hwithin : ∀ x ∈ clause, isWithin x = true := List.all_eq_true.mp (declaration_within e.2 d)
    have htake : (clause ++ next.lead).takeWhile isWithin = clause := by
      rw [takeWhile_append_of_stop remaining_stops, List.takeWhile_eq_self_iff.mpr hwithin]
    have hdrop : (clause ++ next.lead).dropWhile isWithin = next.lead := by
      rw [dropWhile_append_of_stop remaining_stops, List.dropWhile_eq_nil_iff.mpr hwithin,
        List.nil_append]
    have hstep : entries? (remaining d (e :: columns) refs).lead
        (remaining d (e :: columns) refs).parts =
        (column? e.1 ((clause ++ next.lead).takeWhile isWithin)).bind fun c =>
          (entries? ((clause ++ next.lead).dropWhile isWithin) next.parts).map fun r =>
            (c :: r.1, r.2) := if_pos rfl
    rw [hstep, htake, hdrop, column?_declaration, ih]
    rfl

/-- The first column stands behind a bracket, as the others do behind a comma. -/
theorem ofPieces_createPieces (t : Table) (d : Dialect) (h : t.columns.entries ≠ []) :
    (remaining d t.columns.entries t.references).lead = ", ".toList ∧
      Outline.ofPieces (t.createPieces d) = ⟨"CREATE TABLE IF NOT EXISTS ".toList,
        (t.name, " (".toList) :: (remaining d t.columns.entries t.references).parts⟩ := by
  obtain ⟨e, columns, hcolumns⟩ := List.exists_cons_of_ne_nil h
  unfold createPieces
  rw [hcolumns]
  simp only [List.map_cons, List.cons_append, separated_cons]
  exact ⟨rfl, rfl⟩

/-- The statement for a new table says what the table is. -/
theorem ofSql?_create (t : Table) (d : Dialect) :
    Blueprint.ofSql? (t.createSql d) = some (t.blueprint d) := by
  rw [createSql, Blueprint.ofSql?, Outline.ofSql?_textOf (createPieces_closes t d), Option.bind_some]
  by_cases hcolumns : t.columns.entries = []
  · unfold createPieces blueprint references
    rw [hcolumns]
    rfl
  · obtain ⟨hlead, hpieces⟩ := ofPieces_createPieces t d hcolumns
    have hentries := entries?_remaining (d := d) t.columns.entries t.references
    rw [hlead] at hentries
    have hopen : " (".toList ≠ " ()".toList := by decide
    have hread (rest : List (String × List Char)) :
        ofOutline? ⟨"CREATE TABLE IF NOT EXISTS ".toList, (t.name, " (".toList) :: rest⟩ =
          (entries? ", ".toList rest).map fun r => ⟨t.name, r.1, r.2⟩ :=
      (if_pos rfl).trans ((if_neg fun h => hopen h.1).trans (if_pos rfl))
    rw [hpieces, hread, hentries]
    rfl

theorem type?_sql (type : ColumnType) (d : Dialect) :
    Addition.type? (" " ++ type.sql d).toList = some (type.sql d) := by
  have hlead : (" " ++ type.sql d).toList = ' ' :: (type.sql d).toList := by simp
  rw [hlead, Addition.type?, String.ofList_toList]

theorem ofPieces_addColumnPieces (t : Table) (d : Dialect) (name : String) (c : Column) :
    Outline.ofPieces (t.addColumnPieces d name c) = ⟨"ALTER TABLE ".toList,
      (t.name, " ADD COLUMN ".toList) :: match c.reference with
        | none => [(name, (" " ++ c.type.sql d).toList)]
        | some r => [(name, (" " ++ c.type.sql d).toList ++ " REFERENCES ".toList),
            (r.table, ['(']), (r.column, [')'])]⟩ := by
  unfold addColumnPieces
  cases c.reference with
  | none =>
    have hend : (" " ++ c.type.sql d).toList ++ [] = (" " ++ c.type.sql d).toList :=
      List.append_nil _
    rw [← hend]
    rfl
  | some r => rfl

/-- The statement for one more column says what the column is. -/
theorem ofSql?_add (t : Table) (d : Dialect) (name : String) (c : Column) :
    Addition.ofSql? (textOf (t.addColumnPieces d name c)) =
      some ⟨t.name, name, c.type.sql d, c.reference⟩ := by
  rw [Addition.ofSql?, Outline.ofSql?_textOf (addColumnPieces_closes t d name c), Option.bind_some,
    ofPieces_addColumnPieces]
  have htype := type?_sql c.type d
  cases c.reference with
  | none =>
    have hread (clause : List Char) : Addition.ofOutline? ⟨"ALTER TABLE ".toList,
        [(t.name, " ADD COLUMN ".toList), (name, clause)]⟩ =
        (Addition.type? clause).map fun type => ⟨t.name, name, type, none⟩ :=
      (if_pos rfl).trans (if_pos rfl)
    rw [hread, htype]
    rfl
  | some r =>
    have hread (clause : List Char) : Addition.ofOutline? ⟨"ALTER TABLE ".toList,
        [(t.name, " ADD COLUMN ".toList), (name, clause), (r.table, ['(']), (r.column, [')'])]⟩ =
        ((Blueprint.stripSuffix? " REFERENCES ".toList clause).bind Addition.type?).map fun type =>
          ⟨t.name, name, type, some ⟨r.table, r.column⟩⟩ :=
      (if_pos rfl).trans (if_pos ⟨rfl, rfl, rfl⟩)
    rw [hread, stripSuffix?_append, Option.bind_some, htype]
    rfl

/-- No column is ever added as a key: a letter of that clause is nowhere outside of the names. -/
theorem add_unkeyed (t : Table) (d : Dialect) (name : String) (c : Column) :
    ∀ s ∈ (Outline.ofPieces (t.addColumnPieces d name c)).texts, ¬"PRIMARY KEY".toList <:+: s := by
  have htype : 'K' ∉ (" " ++ c.type.sql d).toList := by
    cases c.type <;> cases d <;> decide
  have hnone : ∀ s ∈ (Outline.ofPieces (t.addColumnPieces d name c)).texts, 'K' ∉ s := by
    rw [ofPieces_addColumnPieces]
    cases c.reference with
    | none =>
      show ∀ s ∈ ["ALTER TABLE ".toList, " ADD COLUMN ".toList, (" " ++ c.type.sql d).toList], 'K' ∉ s
      simp only [List.forall_mem_cons]
      exact ⟨by decide, by decide, htype, by simp⟩
    | some r =>
      show ∀ s ∈ ["ALTER TABLE ".toList, " ADD COLUMN ".toList,
        (" " ++ c.type.sql d).toList ++ " REFERENCES ".toList, ['('], [')']], 'K' ∉ s
      simp only [List.forall_mem_cons, List.mem_append, not_or]
      exact ⟨by decide, by decide, ⟨htype, by decide⟩, by decide, by decide, by simp⟩
  intro s hs hpart
  exact hnone s hs (hpart.subset (by decide))

/-- The columns that are declared to be primary keys. -/
def primaryKeys (t : Table) : List String :=
  (t.columns.entries.filter fun e => e.2.isPrimaryKey).map Prod.fst

/-- Tables of one blueprint, in whatever dialects, are alike up to the types of their columns. -/
theorem alike_of_blueprint {t t' : Table} {d d' : Dialect} (h : t.blueprint d = t'.blueprint d') :
    t.name = t'.name ∧ t.columnNames = t'.columnNames ∧ t.primaryKeys = t'.primaryKeys ∧
      t.references = t'.references := by
  have hnames (t : Table) (d : Dialect) :
      (t.blueprint d).columns.map Declared.name = t.columnNames := by
    simp [blueprint, columnNames, Keyed.keys, Function.comp_def]
  have hkeys (t : Table) (d : Dialect) : ((t.blueprint d).columns.filter
      Declared.isPrimaryKey).map Declared.name = t.primaryKeys := by
    simp [blueprint, primaryKeys, List.filter_map, Function.comp_def]
  refine ⟨congrArg Blueprint.table h, ?_, ?_, congrArg Blueprint.references h⟩
  · rw [← hnames t d, h, hnames]
  · rw [← hkeys t d, h, hkeys]

/-- The statements for a table and for each further column of it are read back as what was declared,
whatever characters the names hold. So tables that are created by one statement have the same name,
columns, keys and references; and no column is added as a key. -/
theorem declarations_read (t : Table) (d : Dialect) :
    Blueprint.ofSql? (t.createSql d) = some (t.blueprint d) ∧
    (∀ (t' : Table) (d' : Dialect), t.createSql d = t'.createSql d' → t.name = t'.name ∧
      t.columnNames = t'.columnNames ∧ t.primaryKeys = t'.primaryKeys ∧
      t.references = t'.references) ∧
    ∀ name,
      (t.addColumnSql? d name).bind Addition.ofSql? = ((t.columns.get? name).map fun c =>
        ⟨t.name, name, c.type.sql d, c.reference⟩) ∧
      ∀ sql, t.addColumnSql? d name = some sql → ∃ o, Outline.ofSql? sql = some o ∧
        ∀ s ∈ o.texts, ¬"PRIMARY KEY".toList <:+: s := by
  refine ⟨ofSql?_create t d, fun t' d' heq => ?_, fun name => ⟨?_, fun sql hsql => ?_⟩⟩
  · have hread := ofSql?_create t d
    rw [heq, ofSql?_create t' d'] at hread
    exact alike_of_blueprint (Option.some.inj hread).symm
  · unfold addColumnSql?
    cases t.columns.get? name with
    | none => rfl
    | some c => exact ofSql?_add t d name c
  · obtain ⟨c, -, rfl⟩ := Option.map_eq_some_iff.mp hsql
    exact ⟨_, Outline.ofSql?_textOf (addColumnPieces_closes t d name c), add_unkeyed t d name c⟩

/-- Two tables of one statement, with a name that looks like the end of an entry; they differ in the
type of a key that the database fills in. -/
theorem declarations_read_hostile :
    let t (type : ColumnType) := ((Table.ofName "a\" (").column "x\", PRIMARY KEY"
      (Column.ofType type).primaryKey).column "y) " ((Column.ofType .text).references "z\"" ", ")
    (t .integer).createSql .sqlite = (t .bigInt).createSql .sqlite ∧
      (t .integer).primaryKeys = (t .bigInt).primaryKeys ∧
      ∃ sql o, (t .integer).addColumnSql? .sqlite "y) " = some sql ∧
        Outline.ofSql? sql = some o ∧ ∀ s ∈ o.texts, ¬"PRIMARY KEY".toList <:+: s := by
  intro t
  obtain ⟨-, halike, hadd⟩ := declarations_read (t .integer) .sqlite
  have hsame : (t .integer).createSql .sqlite = (t .bigInt).createSql .sqlite := rfl
  obtain ⟨o, ho, hunkeyed⟩ := (hadd "y) ").2 _ rfl
  exact ⟨hsame, (halike (t .bigInt) .sqlite hsame).2.2.1, _, o, rfl, ho, hunkeyed⟩

end Table
end Relata
