import Relata.Action
import Relata.Dialect
import Relata.Sql.Piece

/-!
Database adapters: the operations that a database offers, whatever it is. Everything above speaks
to a database through these, and may assume nothing about how it answers.
-/
namespace Relata

/-- The operations of a database whose connection has states of type `σ`. -/
structure Adapter (σ : Type) where
  dialect : Dialect
  connect : String → Action σ Unit
  isConnected : σ → Bool
  disconnect : Action σ Unit
  /-- Runs a statement for its count of affected rows. -/
  execute : String → Action σ Nat
  executeWith : String → List Value → Action σ Nat
  /-- Runs a statement for its rows. -/
  query : String → Action σ (List Row)
  queryWith : String → List Value → Action σ (List Row)
  begin : Action σ Unit
  commit : Action σ Unit
  rollback : Action σ Unit
  inTransaction : σ → Bool

namespace Adapter

variable {σ τ α : Type}

def statementFields (s : Statement) : List (String × String) :=
  [("sql", s.sql), ("params", Nat.repr s.params.length)]

/-- The rows of a compiled statement. -/
def fetch (db : Adapter σ) (s : Statement) : Action σ (List Row) := do
  Action.log .debug "fetch" (statementFields s)
  db.queryWith s.sql s.params

/-- The count of rows that a compiled statement affects. -/
def run (db : Adapter σ) (s : Statement) : Action σ Nat := do
  Action.log .debug "run" (statementFields s)
  db.executeWith s.sql s.params

/-- Runs `body` in a transaction, which is committed if `body` succeeds, and rolled back with the
error of `body` otherwise. That a rollback fails is logged only. -/
def transaction (db : Adapter σ) (body : Action σ α) : Action σ α := do
  db.begin
  Action.log .debug "transaction started" [("dialect", db.dialect.name)]
  match ← body.attempt with
  | .ok x =>
    db.commit
    Action.log .debug "transaction committed" []
    return x
  | .error e =>
    match ← db.rollback.attempt with
    | .ok () => Action.log .debug "transaction rolled back" [Event.errorField e]
    | .error failure => Action.log .error "rollback failed" [Event.errorField failure]
    Action.fail e

/-- The same database beside a state that it does not see. -/
def beside (db : Adapter σ) : Adapter (σ × τ) where
  dialect := db.dialect
  connect target := (db.connect target).onFirst
  isConnected s := db.isConnected s.1
  disconnect := db.disconnect.onFirst
  execute sql := (db.execute sql).onFirst
  executeWith sql params := (db.executeWith sql params).onFirst
  query sql := (db.query sql).onFirst
  queryWith sql params := (db.queryWith sql params).onFirst
  begin := db.begin.onFirst
  commit := db.commit.onFirst
  rollback := db.rollback.onFirst
  inTransaction s := db.inTransaction s.1

end Adapter
end Relata
