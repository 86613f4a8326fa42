/-!
Why the engine does not run a statement.
-/
namespace Relata.Sqlite

inductive Fault where
  | emptyStatement
  | syntaxError
  | noSuchTable (name : String)
  | noTables
  | tooManyTables
  | noSuchColumn (name : String)
  | ambiguousColumn (name : String)
  | noSuchFunction (name : String)
  | wrongArguments (name : String)
  | tooManyArguments (name : String)
  | misusedAggregate (name : String)
  | tableExists (name : String)
  | reservedName (name : String)
  | duplicateColumn (name : String)
  | manyPrimaryKeys (table : String)
  | unknownKeyColumn (name : String)
  | keyInAddedColumn
  | columnNotInTable (table column : String)
  | valueCount (given wanted : Nat)
  | parameterCount (given wanted : Nat)
  | uniqueBroken (table column : String)
  | nullNotAllowed (table column : String)
  | foreignKeyBroken
  | foreignKeyMismatch (child parent : String)
  | datatypeMismatch
  | blobInDocument
  | malformedDocument
  | overflow
  | alreadyInTransaction
  | noTransaction (control : String)
  | rowsReturned
  deriving DecidableEq, Repr

namespace Fault

def message : Fault → String
  | .emptyStatement => "not an error"
  | .syntaxError => "syntax error"
  | .noSuchTable n => "no such table: " ++ n
  | .noTables => "no tables specified"
  | .tooManyTables => "at most 64 tables in a join"
  | .noSuchColumn n => "no such column: " ++ n
  | .ambiguousColumn n => "ambiguous column name: " ++ n
  | .noSuchFunction n => "no such function: " ++ n
  | .wrongArguments n => "wrong number of arguments to function " ++ n ++ "()"
  | .tooManyArguments n => "too many arguments on function " ++ n
  | .misusedAggregate n => "misuse of aggregate function " ++ n ++ "()"
  | .tableExists n => "table " ++ n ++ " already exists"
  | .reservedName n => "object name reserved for internal use: " ++ n
  | .duplicateColumn n => "duplicate column name: " ++ n
  | .manyPrimaryKeys t => "table \"" ++ t ++ "\" has more than one primary key"
  | .unknownKeyColumn n => "unknown column \"" ++ n ++ "\" in foreign key definition"
  | .keyInAddedColumn => "Cannot add a key column"
  | .columnNotInTable t c => "table " ++ t ++ " has no column named " ++ c
  | .valueCount given wanted =>
    Nat.repr given ++ " values for " ++ Nat.repr wanted ++ " columns"
  | .parameterCount given wanted =>
    "Wrong number of parameters passed to query. Got " ++ Nat.repr given ++ ", needed " ++
      Nat.repr wanted
  | .uniqueBroken t c => "UNIQUE constraint failed: " ++ t ++ "." ++ c
  | .nullNotAllowed t c => "NOT NULL constraint failed: " ++ t ++ "." ++ c
  | .foreignKeyBroken => "FOREIGN KEY constraint failed"
  | .foreignKeyMismatch c p => "foreign key mismatch - \"" ++ c ++ "\" referencing \"" ++ p ++ "\""
  | .datatypeMismatch => "datatype mismatch"
  | .blobInDocument => "JSON cannot hold BLOB values"
  | .malformedDocument => "malformed JSON"
  | .overflow => "integer overflow"
  | .alreadyInTransaction => "cannot start a transaction within a transaction"
  | .noTransaction control => "cannot " ++ control ++ " - no transaction is active"
  | .rowsReturned => "Execute returned results - did you mean to call query?"

end Fault
end Relata.Sqlite
