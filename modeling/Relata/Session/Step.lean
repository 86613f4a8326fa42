import Relata.Guard
import Relata.Migration
import Relata.Model

/-!
The steps of a session with a database, and what each of them is answered with.
-/
namespace Relata.Session

/-- A table by its name in the registry, or described on the spot. -/
inductive TableRef where
  | named (name : String)
  | given (table : Table)

/-- A statement as text, or as a chain of steps on a table. -/
inductive Source where
  | statement (s : Statement)
  | built (table : TableRef) (steps : List BuildStep)

/-- What a model is asked to do. -/
inductive ModelStep where
  | create (record : List (String × Value))
  | get (id : Value) (options : FindOptions)
  | find (conditions : List (String × Predicate)) (options : FindOptions)
  | findJson (conditions : Json) (options : FindOptions)
  | all
  | update (id : Value) (record : List (String × Value))
  | delete (id : Value)
  | describe (options : FindOptions)

inductive Step where
  /-- To the database of the session if no target is given. -/
  | connect (target : Option String)
  | disconnect
  | begin
  | commit
  | rollback
  | isConnected
  | inTransaction
  | dialect
  | placeholder (index : Nat)
  | execute (sql : String)
  | executeWith (sql : String) (params : List Value)
  | query (sql : String)
  | queryWith (sql : String) (params : List Value)
  | fetch (source : Source)
  | run (source : Source)
  /-- With a registry of its own, if one is given; registering its tables leaves events. -/
  | sync (schema : Option (Schema × List Event))
  | syncTable (table : TableRef)
  /-- A model of the table, with or without the registry. -/
  | model (table : TableRef) (attach : Bool) (step : ModelStep)
  /-- Steps in a transaction, which end it at the first error unless they are marked; then the
  error to fail with, if one is given. -/
  | transaction (steps : List (Bool × Step)) (failure : Option Error)
  | guard (steps : List Step) (ending : GuardEnd)
  /-- How a guard stands. -/
  | guardFlags
  /-- A step while the database does not answer. -/
  | stalled (step : Step)

inductive Reply where
  | done
  | flag (b : Bool)
  | count (n : Nat)
  | text (s : String)
  | row (row : Row)
  | foundRow (row : Option Row)
  | rows (rows : List Row)
  | synced (report : SyncReport)
  | tableSynced (sync : TableSync)
  | model (table : String) (query : Except Error Statement) (relations : List String)
  | flags (committed rolledBack : Bool)
  | transaction (inner : List (Except Error Reply)) (ending : Except Error Unit)
  | guard (inner : List (Except Error Reply)) (ending : Except Error Unit) (inTransaction : Bool)

end Relata.Session
