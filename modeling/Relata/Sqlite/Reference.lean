import Relata.Sqlite.Content
import Relata.Sqlite.Fault

/-!
References between tables: what they must mean before a statement runs, and that no row refers to a
row that does not exist once it has run.
-/
namespace Relata.Sqlite

/-- A reference with the shape of the table that it is of. -/
abbrev OwnedKey := Shape × ForeignKey

namespace ForeignKey

/-- The reference means one of these columns of the table that it refers to. -/
def meansOneOf (k : ForeignKey) (parent : Shape) (columns : List Nat) : Bool :=
  columns.any fun i =>
    match parent.columns[i]?, k.target with
    | some c, some name => Text.sameAsciiLetters c.name name
    | some c, none => c.isPrimaryKey
    | none, _ => false

end ForeignKey

namespace Content

/-- A reference has to mean a table, and a column of it whose values tell its rows apart. -/
def checkTarget (c : Content) (k : OwnedKey) : Except Fault Unit :=
  match c.table? k.2.table with
  | none => .error (.noSuchTable ("main." ++ k.2.table))
  | some parent =>
    if (parent.shape.targetIndex? k.2.target).isSome then .ok ()
    else .error (.foreignKeyMismatch k.1.name k.2.table)

def checkTargets (c : Content) : List OwnedKey → Except Fault Unit
  | [] => .ok ()
  | k :: rest => do
    c.checkTarget k
    checkTargets c rest

/-- The references of a table, the last declared one first. -/
def ownKeys (s : Shape) : List OwnedKey := s.foreignKeys.reverse.map fun k => (s, k)

/-- The references that a row which comes or goes can concern. -/
def allKeys (c : Content) (s : Shape) : List OwnedKey := ownKeys s ++ c.referencesTo s.name

/-- The references that a change of these columns can concern. As soon as there is one, all that
mean the table count. -/
def touchedKeys (c : Content) (s : Shape) (columns : List Nat) : List OwnedKey :=
  let meant := c.referencesTo s.name
  if (s.foreignKeys.any fun k => columns.contains k.column) ||
      meant.any fun k => k.2.meansOneOf s columns then
    (ownKeys s).filter (fun k =>
      columns.contains k.2.column || Text.sameAsciiLetters k.2.table s.name) ++ meant
  else []

/-- No row of the referred table has the value in the column; null refers to nothing. -/
def isMissing (parent : TableContent) (column : Nat) (c : Cell) : Bool :=
  let affinity := (parent.shape.columns[column]?.map TableColumn.affinity).getD .blob
  !c.isNull &&
    !(parent.rows.any fun r => (affinity.apply c).order (r.cells.getD column .null) == .eq)

/-- A row refers to a value that only itself has, and that it has in another form. A row that comes
to stand beside the others is not taken for what it refers to then. -/
def missesItself (others : TableContent) (r : StoredRow) : Bool :=
  others.shape.foreignKeys.any fun k =>
    match others.shape.targetIndex? k.target with
    | none => false
    | some column =>
      let c := r.cells.getD k.column .null
      let own := r.cells.getD column .null
      let affinity := (others.shape.columns[column]?.map TableColumn.affinity).getD .blob
      Text.sameAsciiLetters k.table others.shape.name && others.shape.rowNumber != some column &&
        isMissing others column c && (affinity.apply c).order own == .eq && c.order own != .eq

/-- Some row refers to a row that does not exist. -/
def hasOrphan (c : Content) : Bool :=
  c.tables.any fun t => t.shape.foreignKeys.any fun k =>
    match c.table? k.table with
    | none => false
    | some parent =>
      match parent.shape.targetIndex? k.target with
      | none => false
      | some column => t.rows.any fun r => isMissing parent column (r.cells.getD k.column .null)

end Content
end Relata.Sqlite
