import Relata.Dialect

/-!
Columns of a table: their types, keys and the columns they refer to.
-/
namespace Relata

inductive ColumnType where
  | integer
  | bigInt
  | real
  | text
  | boolean
  | json
  | timestamp
  deriving DecidableEq, Repr

namespace ColumnType

def name : ColumnType → String
  | .integer => "Integer"
  | .bigInt => "BigInt"
  | .real => "Real"
  | .text => "Text"
  | .boolean => "Boolean"
  | .json => "Json"
  | .timestamp => "Timestamp"

/-- The name of the type in statements. -/
def sql : ColumnType → Dialect → String
  | .integer, _ => "INTEGER"
  | .bigInt, _ => "BIGINT"
  | .real, .postgres => "DOUBLE PRECISION"
  | .real, .sqlite => "REAL"
  | .text, _ => "TEXT"
  | .boolean, _ => "BOOLEAN"
  | .json, .postgres => "JSONB"
  | .json, .sqlite => "TEXT"
  | .timestamp, .postgres => "TIMESTAMPTZ"
  | .timestamp, .sqlite => "TEXT"

def isInteger : ColumnType → Bool
  | .integer => true
  | .bigInt => true
  | _ => false

end ColumnType

/-- The column of another table, or of the same one, that a column refers to. -/
structure Reference where
  table : String
  column : String
  deriving DecidableEq, Repr

structure Column where
  type : ColumnType
  isPrimaryKey : Bool
  reference : Option Reference
  deriving DecidableEq, Repr

namespace Column

def ofType (type : ColumnType) : Column := ⟨type, false, none⟩

def primaryKey (c : Column) : Column := { c with isPrimaryKey := true }

def references (c : Column) (table column : String) : Column :=
  { c with reference := some ⟨table, column⟩ }

/-- The type with its key constraint, as a new table declares it. Integer keys are filled in by the
database. -/
def declaration (c : Column) (dialect : Dialect) : String :=
  if c.isPrimaryKey then
    if c.type.isInteger then dialect.identityColumn (c.type == .bigInt)
    else c.type.sql dialect ++ " PRIMARY KEY"
  else c.type.sql dialect

end Column
end Relata
