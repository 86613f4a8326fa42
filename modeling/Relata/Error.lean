import Relata.Postgres.Codec
import Relata.Text.Basic
import Relata.Text.Lowercase

/-!
What can go wrong, each cause with its wording, and the two classes of errors that the rest of the
library tells apart: a statement that named a missing table, and a schema that cannot converge.
-/
namespace Relata

/-- What a server connection reports. -/
inductive ServerFault where
  | rejected (code message : String)
  | closed
  | parameterCount (expected given : Nat)
  | parameter (index : Nat) (fault : Postgres.EncodeFault)
  | column (index : Nat)
  deriving DecidableEq, Repr

namespace ServerFault

def message : ServerFault → String
  | .rejected .. => "db error"
  | .closed => "connection closed"
  | .parameterCount expected given =>
    "expected " ++ Nat.repr expected ++ " parameters but got " ++ Nat.repr given
  | .parameter index _ => "error serializing parameter " ++ Nat.repr index
  | .column index => "error deserializing column " ++ Nat.repr index

/-- What lies behind the fault in brief, if it has a cause of its own. -/
def cause? : ServerFault → Option String
  | .rejected code message => some (code ++ ": " ++ message)
  | .closed => none
  | .parameterCount .. => none
  | .parameter _ fault => some fault.brief
  | .column _ => some "decode"

end ServerFault

inductive Error where
  | connection (message : String)
  | connectionTimeout (milliseconds : Nat)
  | query (message : String)
  | queryTimeout (milliseconds : Nat)
  | undefinedTable (message : String)
  | typeMismatch (expected actual : String)
  | invalidConnectionString (message : String)
  | config (message : String)
  | tableNotFound (table : String)
  | columnNotFound (column : String)
  | relationNotFound (relation table : String)
  | invalidFilter (message : String)
  | transaction (message : String)
  | deadlock (tables : List String)
  | syncTimeout (passes : Nat) (tables : List String)
  | unsupported (message : String)
  | sqlite (message : String)
  | postgres (fault : ServerFault)
  | other (message : String)
  deriving DecidableEq, Repr

namespace Error

def message : Error → String
  | .connection m => "Connection error: " ++ m
  | .connectionTimeout n => "Connection timeout after " ++ Nat.repr n ++ "ms"
  | .query m => "Query execution error: " ++ m
  | .queryTimeout n => "Query timeout after " ++ Nat.repr n ++ "ms"
  | .undefinedTable m => "Undefined table: " ++ m
  | .typeMismatch expected actual =>
    "Type mismatch: expected " ++ expected ++ ", got " ++ actual
  | .invalidConnectionString m => "Invalid connection string: " ++ m
  | .config m => "Configuration error: " ++ m
  | .tableNotFound t => "Table not found: " ++ t
  | .columnNotFound c => "Column not found: " ++ c
  | .relationNotFound r t => "Relation '" ++ r ++ "' not found on " ++ t
  | .invalidFilter m => "Invalid filter: " ++ m
  | .transaction m => "Transaction error: " ++ m
  | .deadlock tables =>
    "Schema sync deadlocked; tables depend on each other or on a missing table: " ++
      Text.joinWith ", " tables
  | .syncTimeout passes tables =>
    "Schema sync timed out after " ++ Nat.repr passes ++ " passes; still pending: " ++
      Text.joinWith ", " tables
  | .unsupported m => "Unsupported operation: " ++ m
  | .sqlite m => "SQLite error: " ++ m
  | .postgres fault => "PostgreSQL error: " ++ fault.message
  | .other m => m

def notConnected : Error := .connection "Not connected to database"

def alreadyInTransaction : Error := .transaction "Already in a transaction"

def notInTransaction : Error := .transaction "Not in a transaction"

/-- Statements and connection attempts are given up after this many milliseconds. -/
def patience : Nat := 30000

/-- The text goes on with a name, its closing quote mark, and that it does not exist. -/
def missingAfter (s : List Char) : Bool :=
  match Text.splitFirst? ['"'] s with
  | some (_, rest) => (Text.stripPrefix? " does not exist".toList rest).isSome
  | none => false

/-- What stands to the left, last character first, ends in `of` as a word of its own. -/
def endsInOf (before : List Char) : Bool :=
  (Text.stripPrefix? ['f', 'o', ' '] (Text.dropSpaces before)).isSome

/-- Some place in the text says that a relation does not exist, and does not speak of a column of
it. `before` holds what stands to the left, last character first. -/
def namesMissingRelation (before : List Char) : List Char → Bool
  | [] => false
  | c :: s =>
    (match Text.stripPrefix? "relation \"".toList (c :: s) with
      | some rest => missingAfter rest && !endsInOf before
      | none => false) || namesMissingRelation (c :: before) s

/-- The message, in lower case, speaks of a table that does not exist. -/
def speaksOfMissingTable (message : String) : Bool :=
  let s := Text.lower message
  Text.contains s "no such table" || namesMissingRelation [] s.toList

/-- The error says that a statement named a table that does not exist, or not yet. -/
def isUndefinedRelation (e : Error) : Bool :=
  match e with
  | .undefinedTable _ => true
  | _ => speaksOfMissingTable e.message

/-- The error says that a schema could not be brought about. -/
def isConvergence : Error → Bool
  | .deadlock _ => true
  | .syncTimeout .. => true
  | _ => false

end Error
end Relata
