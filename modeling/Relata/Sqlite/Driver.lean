import Relata.Error
import Relata.Sqlite.Cell

/-!
What a connection needs of an engine, and how it tells apart what an engine reports.
-/
namespace Relata.Sqlite

/-- The columns and rows of a result. -/
structure ResultSet where
  columns : List String
  rows : List (List Cell)
  deriving DecidableEq, Repr

/-- An engine with states of type `ε`: all that it stores, and the database that is open, if one is.
How it carries out statements is its own affair; what it fails with is a message. -/
structure Driver (ε : Type) where
  /-- Opens the database of a path, in place of the one that was open. If that fails, the one that was
  open stays. -/
  openAt : String → ε → Except String Unit × ε
  /-- Leaves the database that is open. -/
  close : ε → ε
  /-- Runs a statement to its end, for its rows. -/
  query : String → List Cell → ε → Except String ResultSet × ε
  /-- Runs a statement for the number of rows that the last change was about. That the statement gives
  a row is an error. -/
  execute : String → List Cell → ε → Except String Nat × ε

/-- A statement that names a missing table is told apart from the rest. -/
def errorOf (message : String) : Error :=
  if Text.contains message "no such table" then .undefinedTable message else .sqlite message

end Relata.Sqlite
