import Relata.Sqlite.Plan

/-!
The engine of one open database: what it holds, what a rollback would bring back, and how many rows
the last change touched.
-/
namespace Relata.Sqlite

structure Engine where
  content : Content
  /-- The content at the start of the open transaction. -/
  saved : Option Content
  changes : Nat
  deriving DecidableEq, Repr

namespace Engine

/-- A new database in memory. -/
def empty : Engine := ⟨.empty, none, 0⟩

instance : Inhabited Engine := ⟨empty⟩

/-- Ends the open transaction with this content. -/
def endWith (e : Engine) (c : Content) : Engine := { e with content := c, saved := none }

def noRows : ResultSet := ⟨[], []⟩

/-- What a change leaves of the engine. -/
def applyEffect (e : Engine) (f : Effect) : Engine :=
  let content := if f.undoesTransaction then e.saved.getD f.content else f.content
  { content := content
    saved := if f.undoesTransaction then none else e.saved
    changes := f.changed }

def addColumn (c : Content) (table : String) (column : TableColumn) (key : Option ForeignKey) :
    Except Fault Content :=
  match c.table? table with
  | none => .error (.noSuchTable table)
  | some t =>
    if column.notNull && !t.rows.isEmpty then .error (.nullNotAllowed table column.name)
    else
      let shape :=
        { t.shape with
          columns := t.shape.columns ++ [column]
          foreignKeys := t.shape.foreignKeys ++ key.toList }
      .ok (c.setTable ⟨shape, t.rows.map fun r => { r with cells := r.cells ++ [.null] }⟩)

def runPlan (e : Engine) (params : List Cell) : Plan → Except Fault ResultSet × Engine
  | .query q => (q.run e.content params, e)
  | .change c =>
    let f := c.run e.content params
    (f.answer, e.applyEffect f)
  | .createTable s => (.ok noRows, { e with content := ⟨e.content.tables ++ [⟨s, []⟩]⟩ })
  | .addColumn table column key =>
    match addColumn e.content table column key with
    | .ok c => (.ok noRows, { e with content := c })
    | .error f => (.error f, e)
  | .nothing => (.ok noRows, e)
  | .begin =>
    match e.saved with
    | none => (.ok noRows, { e with saved := some e.content })
    | some _ => (.error .alreadyInTransaction, e)
  | .commit =>
    match e.saved with
    | some _ => (.ok noRows, e.endWith e.content)
    | none => (.error (.noTransaction "commit"), e)
  | .rollback =>
    match e.saved with
    | some c => (.ok noRows, e.endWith c)
    | none => (.error (.noTransaction "rollback"), e)

/-- Runs the first statement of a text; the parameters must be as many as it takes. -/
def run (e : Engine) (sql : String) (params : List Cell) : Except Fault ResultSet × Engine :=
  match Plan.ofText e.content sql with
  | .error f => (.error f, e)
  | .ok (plan, wanted) =>
    if params.length = wanted then e.runPlan params plan
    else (.error (.parameterCount params.length wanted), e)

/-- Runs a statement for the number of rows that the last change touched. That the statement gives
rows is an error, but what it did stays done. -/
def execute (e : Engine) (sql : String) (params : List Cell) : Except Fault Nat × Engine :=
  match e.run sql params with
  | (.error f, e) => (.error f, e)
  | (.ok found, e) => (if found.rows.isEmpty then .ok e.changes else .error .rowsReturned, e)

/-- An answer with the fault, if it is one, as its message. -/
def told {α : Type} (r : Except Fault α × Engine) : Except String α × Engine :=
  (r.1.mapError Fault.message, r.2)

/-- The engine of databases in memory: each path is that of a new one. -/
def driver : Driver Engine where
  openAt _ _ := (.ok (), .empty)
  close _ := .empty
  query sql params e := told (e.run sql params)
  execute sql params e := told (e.execute sql params)

end Engine
end Relata.Sqlite
