import Relata.Adapter
import Relata.Sqlite.Driver

/-!
The connection to a database, whatever the engine. It keeps account of the transactions that are begun
through it; transaction statements that are sent as plain text pass it by. What takes too long is given
up with an error, but may still be carried out later on.
-/
namespace Relata.Sqlite

/-- What is handed over to be done with the open database. -/
inductive Job where
  | openAt (path : String)
  /-- A statement that begins or ends a transaction, and whether one has to be open before it. -/
  | control (sql : String) (active : Bool)
  | query (sql : String) (params : List Cell)
  | execute (sql : String) (params : List Cell)

structure Link (ε : Type) where
  engine : ε
  isOpen : Bool
  inTransaction : Bool
  /-- What was given up and has not been carried out since. -/
  late : List Job
  /-- Nothing that needs the database comes to an end. -/
  isStalled : Bool

namespace Link

variable {ε α : Type}

/-- No database is open. -/
def closed (engine : ε) : Link ε := ⟨engine, false, false, [], false⟩

/-- The engine, if it has a database open. -/
def opened : Action (Link ε) ε := do
  let s ← Action.get
  if s.isOpen then Action.pure s.engine else Action.fail .notConnected

/-- Keeps what a statement left of the engine, and passes its answer on. -/
def settle (r : Except String α × ε) : Action (Link ε) α := do
  Action.modify fun s => { s with engine := r.2 }
  match r.1 with
  | .ok x => Action.pure x
  | .error message => Action.fail (errorOf message)

/-- Does at once what needs the database, unless it would take too long: then it is given up. -/
def inTime (job : Job) (work : Action (Link ε) α) : Action (Link ε) α := do
  let s ← Action.get
  if s.isStalled then do
    Action.modify fun s => { s with late := s.late ++ [job] }
    Action.fail (.queryTimeout Error.patience)
  else work

variable (d : Driver ε)

/-- The database of a path takes the place of the one that was open. -/
def openNow (path : String) : Action (Link ε) Unit := do
  let s ← Action.get
  settle (d.openAt path s.engine)
  Action.modify fun s => { s with isOpen := true }

/-- Begins or ends a transaction; the account follows if the engine agrees. -/
def controlNow (sql : String) (active : Bool) : Action (Link ε) Unit := do
  let e ← opened
  let s ← Action.get
  if s.inTransaction != active then
    Action.fail (if active then .notInTransaction else .alreadyInTransaction)
  else do
    let _ ← settle (d.execute sql [] e)
    Action.modify fun s => { s with inTransaction := !active }

def executeNow (sql : String) (params : List Cell) : Action (Link ε) Nat := do
  let e ← opened
  settle (d.execute sql params e)

def rowOf (columns : List String) (cells : List Cell) : Row :=
  Keyed.ofList (columns.zip (cells.map Cell.toValue))

def queryNow (sql : String) (params : List Cell) : Action (Link ε) (List Row) := do
  let e ← opened
  let found ← settle (d.query sql params e)
  return found.rows.map (rowOf found.columns)

/-- What a job leaves, whatever it ends with. -/
def after (s : Link ε) : Job → Link ε
  | .openAt path => (openNow d path s).state
  | .control sql active => (controlNow d sql active s).state
  | .query sql params => (queryNow d sql params s).state
  | .execute sql params => (executeNow d sql params s).state

/-- A job that was given up is carried out after all. -/
def resume (i : Nat) (s : Link ε) : Link ε :=
  match s.late[i]? with
  | some job => after d { s with late := s.late.eraseIdx i } job
  | none => s

def control (sql : String) (active : Bool) : Action (Link ε) Unit :=
  inTime (.control sql active) (controlNow d sql active)

def execute (sql : String) (params : List Value) : Action (Link ε) Nat :=
  inTime (.execute sql (params.map Cell.ofValue)) (executeNow d sql (params.map Cell.ofValue))

def query (sql : String) (params : List Value) : Action (Link ε) (List Row) :=
  inTime (.query sql (params.map Cell.ofValue)) (queryNow d sql (params.map Cell.ofValue))

/-- Leaves the database that is open, and with it the transaction. -/
def reset : Action (Link ε) Unit :=
  Action.modify fun s =>
    { s with engine := d.close s.engine, isOpen := false, inTransaction := false }

def connect (path : String) : Action (Link ε) Unit := do
  reset d
  match ← (inTime (.openAt path) (openNow d path)).attempt with
  | .ok () => Action.log .debug "sqlite connection opened" [("path", path)]
  | .error (.queryTimeout n) => Action.fail (.connectionTimeout n)
  | .error e => Action.fail e

def disconnect : Action (Link ε) Unit := do
  reset d
  Action.log .debug "sqlite connection closed" []

def adapter : Adapter (Link ε) where
  dialect := .sqlite
  connect := connect d
  isConnected := Link.isOpen
  disconnect := disconnect d
  execute sql := execute d sql []
  executeWith := execute d
  query sql := query d sql []
  queryWith := query d
  begin := control d "BEGIN TRANSACTION" false
  commit := control d "COMMIT" true
  rollback := control d "ROLLBACK" true
  inTransaction := Link.inTransaction

end Link
end Relata.Sqlite
