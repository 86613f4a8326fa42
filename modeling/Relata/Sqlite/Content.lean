import Relata.Sqlite.Cell

/-!
What a database holds: tables with their columns, keys and references, and rows in the order of
their numbers. Names are found without regard to the case of ASCII letters.
-/
namespace Relata.Sqlite

structure TableColumn where
  name : String
  type : String
  affinity : Affinity
  isPrimaryKey : Bool
  /-- No two rows may hold the same, null aside. -/
  isUnique : Bool
  notNull : Bool
  deriving DecidableEq, Repr

/-- A column that refers to one of another table, to its primary key if none is named. -/
structure ForeignKey where
  column : Nat
  table : String
  target : Option String
  deriving DecidableEq, Repr

structure Shape where
  name : String
  columns : List TableColumn
  /-- The column that is the number of the row, if one is. -/
  rowNumber : Option Nat
  foreignKeys : List ForeignKey
  deriving DecidableEq, Repr

namespace Shape

def index? (s : Shape) (column : String) : Option Nat :=
  s.columns.findIdx? fun c => Text.sameAsciiLetters c.name column

/-- The column that a reference to the table means, if its values tell rows apart. -/
def targetIndex? (s : Shape) (target : Option String) : Option Nat :=
  match target with
  | none =>
    match s.rowNumber with
    | some i => some i
    | none => s.columns.findIdx? fun c => c.isPrimaryKey
  | some name =>
    (s.index? name).filter fun i =>
      s.rowNumber = some i || (s.columns[i]?.any fun c => c.isUnique)

end Shape

/-- A row with its number; the cells stand in the order of the columns. -/
structure StoredRow where
  number : Int
  cells : List Cell
  deriving DecidableEq, Repr

structure TableContent where
  shape : Shape
  /-- By ascending number. -/
  rows : List StoredRow
  deriving DecidableEq, Repr

structure Content where
  tables : List TableContent
  deriving DecidableEq, Repr

namespace Content

def empty : Content := ⟨[]⟩

instance : Inhabited Content := ⟨empty⟩

def table? (c : Content) (name : String) : Option TableContent :=
  c.tables.find? fun t => Text.sameAsciiLetters t.shape.name name

/-- The names of the catalog of tables. -/
def catalogNames : List String := ["sqlite_master", "sqlite_schema"]

def setTable (c : Content) (t : TableContent) : Content :=
  ⟨c.tables.map fun u => if Text.sameAsciiLetters u.shape.name t.shape.name then t else u⟩

/-- The references that mean the table, each with the shape of the table that it is of. -/
def referencesTo (c : Content) (name : String) : List (Shape × ForeignKey) :=
  c.tables.flatMap fun t =>
    (t.shape.foreignKeys.filter fun k => Text.sameAsciiLetters k.table name).map fun k => (t.shape, k)

end Content

namespace TableContent

def insertRow (r : StoredRow) : List StoredRow → List StoredRow
  | [] => [r]
  | s :: rest => if r.number < s.number then r :: s :: rest else s :: insertRow r rest

def insert (t : TableContent) (r : StoredRow) : TableContent := { t with rows := insertRow r t.rows }

def remove (t : TableContent) (number : Int) : TableContent :=
  { t with rows := t.rows.filter fun r => r.number != number }

/-- The highest number that a row can have. -/
def maxNumber : Int := Int64.maxValue.toInt

/-- The highest number up to `n` that none of the rows has; they come by descending number. -/
def freeNumber (n : Int) : List StoredRow → Int
  | [] => n
  | r :: rest => if r.number = n then freeNumber (n - 1) rest else n

/-- The number of a row that is given none: one more than the highest, as long as there is such a
number. -/
def nextNumber (t : TableContent) : Int :=
  match t.rows.getLast? with
  | some r => if r.number < maxNumber then r.number + 1 else freeNumber maxNumber t.rows.reverse
  | none => 1

end TableContent
end Relata.Sqlite
