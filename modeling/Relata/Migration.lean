import Relata.Adapter
import Relata.Schema.Registry
import Relata.Text.Debug

/-!
Synchronisation of a schema with a live database. Tables that are missing are created, columns that
are missing are added; nothing is ever removed. A table that refers to a table that is not there
yet is postponed to the next pass; a pass that postpones all its tables is the last one.
-/
namespace Relata

/-- What became of one table. -/
inductive TableSync where
  | created
  | altered (columns : List String)
  | unchanged
  deriving DecidableEq, Repr

structure SyncReport where
  passes : Nat
  created : List String
  altered : List (String × String)
  deriving DecidableEq, Repr

namespace SyncReport

def empty : SyncReport := ⟨0, [], []⟩

/-- Nothing was created or altered. -/
def isNoop (r : SyncReport) : Bool := r.created.isEmpty && r.altered.isEmpty

def add (r : SyncReport) (table : String) : TableSync → SyncReport
  | .created => { r with created := r.created ++ [table] }
  | .altered columns => { r with altered := r.altered ++ columns.map fun c => (table, c) }
  | .unchanged => r

end SyncReport

namespace Migration

variable {σ : Type}

def tableExists (db : Adapter σ) (name : String) : Action σ Bool := do
  let rows ← db.queryWith db.dialect.tableExistsQuery [.string name]
  return !rows.isEmpty

/-- The name of a column in a row of the catalog, in lower case. -/
def liveColumn? (row : Row) : Option String :=
  ((row.get? "column_name").bind Value.toStr?).map Text.lower

/-- The names of the columns that a table has, in lower case. -/
def liveColumns (db : Adapter σ) (name : String) : Action σ (List String) := do
  let rows ← db.queryWith db.dialect.columnsQuery [.string name]
  return rows.filterMap liveColumn?

def missingTable (name : String) : Error :=
  .undefinedTable ("relation \"" ++ name ++ "\" does not exist")

/-- Fails unless the table that is referred to exists or is the referring one itself. -/
def requireReferenced (db : Adapter σ) (table target : String) : Action σ Unit :=
  if target = table then pure ()
  else do
    let found ← tableExists db target
    if found then pure ()
    else do
      Action.log .debug "referenced table missing" [("table", table), ("references", target)]
      Action.fail (missingTable target)

def requireAll (db : Adapter σ) (table : String) : List String → Action σ Unit
  | [] => pure ()
  | target :: rest => do
    requireReferenced db table target
    requireAll db table rest

def createTable (db : Adapter σ) (t : Table) : Action σ TableSync := do
  requireAll db t.name t.dependencies
  let sql := t.createSql db.dialect
  Action.log .debug "creating table" [("table", t.name), ("sql", sql)]
  let _ ← db.execute sql
  Action.log .info "created table" [("table", t.name)]
  return .created

/-- Adds the columns one by one. -/
def addColumns (db : Adapter σ) (t : Table) : List (String × Column) → Action σ Unit
  | [] => pure ()
  | (name, c) :: rest => do
    let sql := Sql.textOf (t.addColumnPieces db.dialect name c)
    Action.log .debug "adding column" [("table", t.name), ("column", name), ("sql", sql)]
    let _ ← db.execute sql
    Action.log .info "added column" [("table", t.name), ("column", name)]
    addColumns db t rest

/-- The declared columns whose names are not among the live ones, whatever the case of letters. -/
def missingColumns (t : Table) (live : List String) : List (String × Column) :=
  t.columns.entries.filter fun e => !live.contains (Text.lower e.1)

/-- Every reference of a new column is checked before the first one is added. -/
def alterTable (db : Adapter σ) (t : Table) : Action σ TableSync := do
  Action.log .debug "table exists, comparing columns" [("table", t.name)]
  let live ← liveColumns db t.name
  let missing := missingColumns t live
  requireAll db t.name (missing.filterMap fun e => e.2.reference.map Reference.table)
  addColumns db t missing
  return if missing.isEmpty then .unchanged else .altered (missing.map Prod.fst)

/-- Creates the table if it is missing, else adds the columns that are. -/
def syncTable (db : Adapter σ) (t : Table) : Action σ TableSync := do
  if ← tableExists db t.name then alterTable db t else createTable db t

/-- Tries each pending table once. Gives the tables to try again and the report so far. -/
def syncPass (db : Adapter σ) : List Table → SyncReport → Action σ (List Table × SyncReport)
  | [], report => pure ([], report)
  | t :: rest, report => do
    match ← (syncTable db t).attempt with
    | .ok done => syncPass db rest (report.add t.name done)
    | .error e =>
      if e.isUndefinedRelation then
        Action.log .warn "postponing table until its references exist"
          [("table", t.name), ("pass", Nat.repr report.passes), Event.errorField e]
        let (postponed, report) ← syncPass db rest report
        return (t :: postponed, report)
      else
        Action.log .error "schema sync failed" [("table", t.name), Event.errorField e]
        Action.fail e

/-- Passes over the pending tables until none is left, at most `budget` of them. -/
def syncPasses (db : Adapter σ) : (budget : Nat) → List Table → SyncReport → Action σ SyncReport
  | _, [], report => pure report
  | 0, pending, report => do
    let names := pending.map Table.name
    Action.log .error "schema sync exceeded its pass budget"
      [("passes", Nat.repr report.passes), ("pending", Text.debugList names)]
    Action.fail (.syncTimeout report.passes names)
  | budget + 1, pending, report => do
    let report := { report with passes := report.passes + 1 }
    Action.log .debug "sync pass"
      [("pass", Nat.repr report.passes), ("pending", Nat.repr pending.length)]
    let (postponed, report) ← syncPass db pending report
    if postponed.length = pending.length then
      let names := postponed.map Table.name
      Action.log .error "schema sync deadlocked" [("pending", Text.debugList names)]
      Action.fail (.deadlock names)
    else syncPasses db budget postponed report

/-- Brings every registered table about, in as many passes as their references take. -/
def sync (db : Adapter σ) (schema : Schema) : Action σ SyncReport := do
  let tables := schema.toList
  Action.log .info "schema sync started"
    [("tables", Nat.repr tables.length), ("dialect", db.dialect.name)]
  let report ← syncPasses db (2 * tables.length) tables .empty
  Action.log .info "schema sync finished"
    [("passes", Nat.repr report.passes), ("created", Nat.repr report.created.length),
      ("altered", Nat.repr report.altered.length)]
  return report

end Migration
end Relata
