import Relata.Keyed
import Relata.Schema.Column
import Relata.Sql.Piece

/-!
Tables: named columns in declaration order, relations to other tables, and the statements that
create a table or give it a further column.
-/
namespace Relata

inductive RelationKind where
  /-- The declaring table holds the reference. -/
  | belongsTo
  /-- The target table holds the reference. -/
  | hasMany
  deriving DecidableEq, Repr

/-- A relation to the table `target`: `foreignKey` is the column that refers, `key` the column
referred to. -/
structure Relation where
  kind : RelationKind
  target : String
  foreignKey : String
  key : String
  deriving DecidableEq, Repr

namespace Relation

def belongsTo (target foreignKey : String) : Relation := ⟨.belongsTo, target, foreignKey, "id"⟩

def hasMany (target foreignKey : String) : Relation := ⟨.hasMany, target, foreignKey, "id"⟩

def withKey (r : Relation) (key : String) : Relation := { r with key := key }

end Relation

structure Table where
  name : String
  columns : Keyed Column
  relations : Keyed Relation
  deriving DecidableEq, Repr

namespace Table

def ofName (name : String) : Table := ⟨name, .empty, .empty⟩

def column (t : Table) (name : String) (c : Column) : Table :=
  { t with columns := t.columns.insert name c }

def relation (t : Table) (name : String) (r : Relation) : Table :=
  { t with relations := t.relations.insert name r }

def columnNames (t : Table) : List String := t.columns.keys

/-- The first column that is declared to be a primary key. -/
def primaryKey? (t : Table) : Option String :=
  (t.columns.entries.find? fun e => e.2.isPrimaryKey).map Prod.fst

/-- The references of the columns, each with its column. -/
def references (t : Table) : List (String × Reference) :=
  t.columns.entries.filterMap fun e => e.2.reference.map fun r => (e.1, r)

/-- The tables that the columns refer to, as often as they do. -/
def dependencies (t : Table) : List String := t.references.map fun r => r.2.table

open Sql

def columnPieces (dialect : Dialect) (name : String) (c : Column) : List Piece :=
  [.name name, .text (" " ++ c.declaration dialect)]

def referencePieces (r : Reference) : List Piece :=
  [.text "REFERENCES ", .name r.table, .text "(", .name r.column, .text ")"]

def constraintPieces (name : String) (r : Reference) : List Piece :=
  [.text "FOREIGN KEY (", .name name, .text ") "] ++ referencePieces r

def createPieces (t : Table) (dialect : Dialect) : List Piece :=
  [.text "CREATE TABLE IF NOT EXISTS ", .name t.name, .text " ("] ++
    separated ", " (t.columns.entries.map (fun e => columnPieces dialect e.1 e.2) ++
      t.references.map fun r => constraintPieces r.1 r.2) ++
    [.text ")"]

/-- Creates the table unless there is one of its name. References stand after all columns. -/
def createSql (t : Table) (dialect : Dialect) : String := textOf (t.createPieces dialect)

def addColumnPieces (t : Table) (dialect : Dialect) (name : String) (c : Column) : List Piece :=
  [.text "ALTER TABLE ", .name t.name, .text " ADD COLUMN ", .name name,
    .text (" " ++ c.type.sql dialect)] ++
    match c.reference with
    | some r => .text " " :: referencePieces r
    | none => []

/-- Adds a declared column to the table, never as a primary key. -/
def addColumnSql? (t : Table) (dialect : Dialect) (name : String) : Option String :=
  (t.columns.get? name).map fun c => textOf (t.addColumnPieces dialect name c)

end Table
end Relata
