import Relata.Text.Lowercase

/-!
The SQL dialects, and the few places where their statements differ.
-/
namespace Relata

inductive Dialect where
  | postgres
  | sqlite
  deriving DecidableEq, Repr, Inhabited

namespace Dialect

def name : Dialect → String
  | .postgres => "postgres"
  | .sqlite => "sqlite"

/-- A number that stands for the dialect. -/
def code : Dialect → Nat
  | .postgres => 1
  | .sqlite => 3

/-- The dialect with exactly this name. -/
def ofName? : String → Option Dialect
  | "postgres" => some .postgres
  | "sqlite" => some .sqlite
  | _ => none

/-- The dialect that a reader means by `text`, in any case of letters. -/
def ofText? (text : String) : Option Dialect :=
  match Text.lower text with
  | "postgres" | "postgresql" => some .postgres
  | "sqlite" | "sqlite3" => some .sqlite
  | _ => none

/-- Why `text` names no dialect. -/
def unknownMessage (text : String) : String := "Invalid database type: '" ++ text ++ "'"

/-- The token for the parameter that comes after `index` others. -/
def placeholder (d : Dialect) (index : Nat) : String :=
  match d with
  | .postgres => "$" ++ Nat.repr (index + 1)
  | .sqlite => "?"

/-- The type and constraint of an integer primary key that the database fills in by itself. -/
def identityColumn (d : Dialect) (big : Bool) : String :=
  match d, big with
  | .postgres, false => "SERIAL PRIMARY KEY"
  | .postgres, true => "BIGSERIAL PRIMARY KEY"
  | .sqlite, _ => "INTEGER PRIMARY KEY"

/-- Gives one row if the table named by the parameter exists. -/
def tableExistsQuery (d : Dialect) : String :=
  match d with
  | .postgres =>
    "SELECT table_name::text AS table_name FROM information_schema.tables WHERE table_name = " ++
      d.placeholder 0 ++ " AND table_schema = 'public'"
  | .sqlite =>
    "SELECT name AS table_name FROM sqlite_master WHERE type = 'table' AND name = " ++
      d.placeholder 0

/-- Gives one row, with `column_name`, for each column of the table named by the parameter. -/
def columnsQuery (d : Dialect) : String :=
  match d with
  | .postgres =>
    "SELECT column_name::text AS column_name FROM information_schema.columns WHERE table_name = " ++
      d.placeholder 0 ++ " AND table_schema = 'public'"
  | .sqlite => "SELECT name AS column_name FROM pragma_table_info(" ++ d.placeholder 0 ++ ")"

@[simp] theorem ofName?_name (d : Dialect) : ofName? d.name = some d := by
  cases d <;> rfl

end Dialect
end Relata
