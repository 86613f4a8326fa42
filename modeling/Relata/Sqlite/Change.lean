import Relata.Sqlite.Query
import Relata.Sqlite.Reference

/-!
Changes of data: rows inserted, updated and deleted under the constraints of their table. A change
of several rows goes row by row; a row that breaks a constraint stops it, is left out, or takes the
place of the rows in its way.
-/
namespace Relata.Sqlite

/-- Where the values of an inserted row come from: for each column, and for the number of the row,
the position of its value. -/
structure Layout where
  cells : List (Option Nat)
  number : Option Nat
  deriving Repr

/-- What an update sets: a column, or the number of the row. -/
abbrev Assignment := Option Nat × Term

/-- A change whose names are resolved. -/
inductive Change where
  | insert (conflict : Conflict) (shape : Shape) (layout : Layout) (rows : List (List Term))
      (returning : List Scope.Output)
  | update (conflict : Conflict) (shape : Shape) (sets : List Assignment) (condition : Term)
      (returning : List Scope.Output)
  | delete (shape : Shape) (condition : Term) (returning : List Scope.Output)
  deriving Repr

/-- What a statement did, and what it answers. -/
structure Effect where
  content : Content
  changed : Nat
  answer : Except Fault ResultSet
  /-- The transaction around the statement is undone as well. -/
  undoesTransaction : Bool

/-- A table in the midst of a change, with the number of rows changed and what they return, the last
one first. -/
structure Progress where
  table : TableContent
  changed : Nat
  returned : List (List Cell)

namespace TableContent

/-- The numbers of the rows that a row cannot stand beside. -/
def rivals (t : TableContent) (own : Option Int) (r : StoredRow) : List Int :=
  let equal (a b : List Cell) : Bool :=
    (t.shape.columns.zip (a.zip b)).any fun p =>
      p.1.isUnique && !p.2.1.isNull && p.2.1.order p.2.2 == .eq
  (t.rows.filter fun s => own != some s.number &&
    (s.number == r.number || equal s.cells r.cells)).map StoredRow.number

/-- The first column that may not be null and is. -/
def forbiddenNull? (s : Shape) (cells : List Cell) : Option TableColumn :=
  ((s.columns.zip cells).find? fun p => p.1.notNull && p.2.isNull).map Prod.fst

/-- Puts a row into the table, in the place of the row numbered `own` if there is one. There is no
table if the row is left out. -/
def store (t : TableContent) (conflict : Conflict) (own : Option Int) (r : StoredRow) :
    Except Fault (Option TableContent) :=
  let others := match own with
    | some n => t.remove n
    | none => t
  match forbiddenNull? t.shape r.cells with
  | some c => if conflict = .ignore then .ok none else .error (.nullNotAllowed t.shape.name c.name)
  | none =>
    let rivals := t.rivals own r
    if rivals.isEmpty then
      if Content.missesItself others r then .error .foreignKeyBroken
      else .ok (some (others.insert r))
    else
      match conflict with
      | .ignore => .ok none
      | .replace => .ok (some ((rivals.foldl remove others).insert r))
      | _ => .error (.uniqueBroken t.shape.name t.shape.name)

end TableContent

namespace Change

/-- A cell as the number of a row. -/
def rowNumber (c : Cell) : Except Fault Int :=
  match Affinity.toNumeric c with
  | .integer n => .ok n.toInt
  | _ => .error .datatypeMismatch

/-- The cells as the columns hold them; the column that is the number of the row holds that. -/
def storedCells (s : Shape) (number : Int) (cells : List Cell) : List Cell :=
  (s.columns.zip cells).zipIdx.map fun p =>
    if s.rowNumber = some p.2 then .integer (Int64.ofInt number) else p.1.1.affinity.apply p.1.2

/-- The progress after a row was stored or left out. -/
def advance (p : Progress) (returning : List Scope.Output) (params : List Cell) (row : StoredRow) :
    Option TableContent → Except Fault Progress
  | none => .ok p
  | some t => do
    let returned ← returning.mapM fun o => o.2.eval ⟨Origin.storedRow row, params, []⟩
    return ⟨t, p.changed + 1, returned :: p.returned⟩

def insertRow (conflict : Conflict) (layout : Layout) (returning : List Scope.Output)
    (params : List Cell) (p : Progress) (row : List Term) : Except Fault Progress := do
  let values ← row.mapM fun t => t.eval ⟨[], params, []⟩
  let number ← match (layout.number.bind fun i => values[i]?).getD .null with
    | .null => .ok p.table.nextNumber
    | c => rowNumber c
  let given := layout.cells.map fun i => (i.bind fun i => values[i]?).getD .null
  let r : StoredRow := ⟨number, storedCells p.table.shape number given⟩
  advance p returning params r (← p.table.store conflict none r)

/-- The last value that is set for a column, or for the number of the row. -/
def assigned? (values : List (Option Nat × Cell)) (target : Option Nat) : Option Cell :=
  (values.reverse.find? fun v => v.1 == target).map Prod.snd

def updateRow (conflict : Conflict) (sets : List Assignment) (returning : List Scope.Output)
    (params : List Cell) (p : Progress) (number : Int) : Except Fault Progress := do
  match p.table.rows.find? fun r => r.number == number with
  | none => return p
  | some old =>
    let values ← sets.mapM fun a => do
      return (a.1, ← a.2.eval ⟨Origin.storedRow old, params, []⟩)
    let number ← match assigned? values none with
      | some c => rowNumber c
      | none => .ok old.number
    let given := old.cells.zipIdx.map fun c => (assigned? values (some c.2)).getD c.1
    let r : StoredRow := ⟨number, storedCells p.table.shape number given⟩
    advance p returning params r (← p.table.store conflict (some old.number) r)

def deleteRow (returning : List Scope.Output) (params : List Cell) (p : Progress) (number : Int) :
    Except Fault Progress := do
  match p.table.rows.find? fun r => r.number == number with
  | none => return p
  | some old => advance p returning params old (some (p.table.remove number))

/-- Goes on until an item stops the change. -/
def each {α : Type} (step : Progress → α → Except Fault Progress) (p : Progress) :
    List α → Progress × Option Fault
  | [] => (p, none)
  | x :: rest =>
    match step p x with
    | .ok p => each step p rest
    | .error f => (p, some f)

/-- The fault is that of a row which breaks a constraint. -/
def breaksConstraint : Fault → Bool
  | .uniqueBroken .. => true
  | .nullNotAllowed .. => true
  | _ => false

def undone (c : Content) (f : Fault) : Effect := ⟨c, 0, .error f, false⟩

/-- The end of a change that began with content `c`. -/
def conclude (c : Content) (conflict : Conflict) (returning : List Scope.Output)
    (end_ : Progress × Option Fault) : Effect :=
  let p := end_.1
  let kept := c.setTable p.table
  match end_.2 with
  | none =>
    if kept.hasOrphan then undone c .foreignKeyBroken
    else
      let rows := if returning.isEmpty then [] else p.returned.reverse
      ⟨kept, p.changed, .ok ⟨returning.map Prod.fst, rows⟩, false⟩
  | some f =>
    if !breaksConstraint f then undone c f
    else
      match conflict with
      | .fail =>
        if kept.hasOrphan then undone c .foreignKeyBroken else ⟨kept, p.changed, .error f, false⟩
      | .rollback => ⟨c, 0, .error f, true⟩
      | _ => undone c f

/-- The numbers of the rows for which the condition holds. -/
def matching (t : TableContent) (condition : Term) (params : List Cell) : Except Fault (List Int) := do
  let rows ← t.rows.filterM fun r => do
    return (← condition.eval ⟨Origin.storedRow r, params, []⟩).truth? = some true
  return rows.map StoredRow.number

def startOf (c : Content) (s : Shape) : Progress := ⟨(c.table? s.name).getD ⟨s, []⟩, 0, []⟩

/-- Makes the change; what it returns is what its rows hold afterwards, or before they are
deleted. -/
def run (c : Content) (params : List Cell) : Change → Effect
  | .insert conflict shape layout rows returning =>
    conclude c conflict returning
      (each (insertRow conflict layout returning params) (startOf c shape) rows)
  | .update conflict shape sets condition returning =>
    let start := startOf c shape
    match matching start.table condition params with
    | .error f => undone c f
    | .ok numbers =>
      conclude c conflict returning
        (each (updateRow conflict sets returning params) start numbers)
  | .delete shape condition returning =>
    let start := startOf c shape
    match matching start.table condition params with
    | .error f => undone c f
    | .ok numbers => conclude c .abort returning (each (deleteRow returning params) start numbers)

end Change
end Relata.Sqlite
