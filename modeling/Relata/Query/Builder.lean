import Relata.Query.Command
import Relata.Schema.Registry

/-!
The query builder: a chain of steps on one table, compiled into one statement at the end. Steps may
come in any order; which statement it becomes is decided by the last step that says so.
-/
namespace Relata

namespace Query

inductive Operation where
  | select
  | insert
  | update
  | delete
  deriving DecidableEq, Repr

end Query

open Query

structure QueryBuilder where
  table : Table
  dialect : Dialect
  schema : Option Schema
  operation : Operation
  selection : Selection
  conditions : List Condition
  loads : List Load
  order : List (Key × Direction)
  limit : Option Nat
  offset : Option Nat
  record : Keyed Value

namespace QueryBuilder

/-- Selects all of the table. -/
def ofTable (table : Table) (dialect : Dialect) : QueryBuilder where
  table := table
  dialect := dialect
  schema := none
  operation := .select
  selection := .all
  conditions := []
  loads := []
  order := []
  limit := none
  offset := none
  record := .empty

/-- Gives the registry in which the targets of relations are looked up. -/
def withSchema (b : QueryBuilder) (schema : Schema) : QueryBuilder :=
  { b with schema := some schema }

def select (b : QueryBuilder) (columns : List String) : QueryBuilder :=
  { b with operation := .select, selection := Selection.ofTexts columns }

/-- Adds one condition. However conditions are stated, this is how each of them is kept. -/
def addCondition (b : QueryBuilder) (key : String) (operator : Operator) (operand : Value) :
    QueryBuilder :=
  { b with conditions := b.conditions ++ [⟨Key.ofText key, operator, operand⟩] }

def whereEq (b : QueryBuilder) (key : String) (operand : Value) : QueryBuilder :=
  b.addCondition key .eq operand

def whereGt (b : QueryBuilder) (key : String) (operand : Value) : QueryBuilder :=
  b.addCondition key .gt operand

def whereLt (b : QueryBuilder) (key : String) (operand : Value) : QueryBuilder :=
  b.addCondition key .lt operand

def whereGte (b : QueryBuilder) (key : String) (operand : Value) : QueryBuilder :=
  b.addCondition key .gte operand

def whereLte (b : QueryBuilder) (key : String) (operand : Value) : QueryBuilder :=
  b.addCondition key .lte operand

def whereLike (b : QueryBuilder) (key : String) (pattern : Value) : QueryBuilder :=
  b.addCondition key .contains pattern

/-- One condition alone. Each operator has a step of its own. -/
def single (b : QueryBuilder) (key : String) : Operator → Value → QueryBuilder
  | .eq => b.whereEq key
  | .gt => b.whereGt key
  | .lt => b.whereLt key
  | .gte => b.whereGte key
  | .lte => b.whereLte key
  | .contains => b.whereLike key

theorem single_eq (b : QueryBuilder) (key : String) (operator : Operator) (operand : Value) :
    b.single key operator operand = b.addCondition key operator operand := by
  cases operator <;> rfl

/-- Adds every comparison of a predicate on one column. -/
def satisfy (b : QueryBuilder) (key : String) (p : Predicate) : QueryBuilder :=
  p.comparisons.foldl (fun b c => b.addCondition key c.1 c.2) b

def whereAll (b : QueryBuilder) (conditions : List (String × Predicate)) : QueryBuilder :=
  conditions.foldl (fun b c => b.satisfy c.1 c.2) b

def whereJson (b : QueryBuilder) (conditions : Json) : Except Error QueryBuilder :=
  (Predicate.allOfJson conditions).map b.whereAll

/-- The columns of a relation's target, where the statement has to list them. -/
def targetFields (b : QueryBuilder) (target : String) : Except Error (List String) :=
  match b.dialect with
  | .postgres => .ok []
  | .sqlite =>
    match b.schema.bind fun s => s.get? target with
    | some t => .ok t.columnNames
    | none => .error (.tableNotFound target)

/-- Loads a declared relation with each row. A relation that is loaded already is left alone. -/
def load (b : QueryBuilder) (name : String) : Except Error QueryBuilder :=
  match b.table.relations.get? name with
  | none => .error (.relationNotFound name b.table.name)
  | some relation =>
    if b.loads.any fun l => l.name == name then .ok b
    else
      (b.targetFields relation.target).map fun fields =>
        { b with loads := b.loads ++ [⟨name, relation, fields⟩] }

def loadAll (b : QueryBuilder) : List String → Except Error QueryBuilder
  | [] => .ok b
  | name :: rest =>
    match b.load name with
    | .ok b => b.loadAll rest
    | .error e => .error e

def insert (b : QueryBuilder) (record : Keyed Value) : QueryBuilder :=
  { b with operation := .insert, record := record }

def update (b : QueryBuilder) (record : Keyed Value) : QueryBuilder :=
  { b with operation := .update, record := record }

def delete (b : QueryBuilder) : QueryBuilder := { b with operation := .delete }

def orderBy (b : QueryBuilder) (key : String) (direction : Direction) : QueryBuilder :=
  { b with order := b.order ++ [(Key.ofText key, direction)] }

def limitTo (b : QueryBuilder) (n : Nat) : QueryBuilder := { b with limit := some n }

def startAt (b : QueryBuilder) (n : Nat) : QueryBuilder := { b with offset := some n }

def toSelect (b : QueryBuilder) : Select where
  table := b.table.name
  primaryKey := b.table.primaryKey?
  selection := b.selection
  loads := b.loads
  conditions := b.conditions
  order := b.order
  limit := b.limit
  offset := b.offset

/-- The statement in structured form. An update must set something. -/
def command (b : QueryBuilder) : Except Error Command :=
  match b.operation with
  | .select => .ok (.select b.toSelect)
  | .insert => .ok (.insert b.table.name b.record)
  | .update =>
    if b.record.isEmpty then
      .error (.query ("UPDATE on " ++ quoteIdent b.table.name ++ " requires at least one column"))
    else .ok (.update b.table.name b.record b.conditions)
  | .delete => .ok (.delete b.table.name b.conditions)

def compile (b : QueryBuilder) : Except Error Statement :=
  b.command.map fun c => c.statement b.dialect

end QueryBuilder

/-- One step of a chain. -/
inductive BuildStep where
  | select (columns : List String)
  | whereAll (conditions : List (String × Predicate))
  | whereJson (conditions : Json)
  | compare (key : String) (operator : Operator) (operand : Value)
  | load (relation : String)
  | insert (record : List (String × Value))
  | update (record : List (String × Value))
  | delete
  | orderBy (key : String) (direction : Direction)
  | limit (n : Nat)
  | offset (n : Nat)
  | schema (s : Schema)

namespace BuildStep

def apply (b : QueryBuilder) : BuildStep → Except Error QueryBuilder
  | .select columns => .ok (b.select columns)
  | .whereAll conditions => .ok (b.whereAll conditions)
  | .whereJson conditions => b.whereJson conditions
  | .compare key operator operand => .ok (b.single key operator operand)
  | .load relation => b.load relation
  | .insert record => .ok (b.insert (.ofList record))
  | .update record => .ok (b.update (.ofList record))
  | .delete => .ok b.delete
  | .orderBy key direction => .ok (b.orderBy key direction)
  | .limit n => .ok (b.limitTo n)
  | .offset n => .ok (b.startAt n)
  | .schema s => .ok (b.withSchema s)

theorem apply_compare (b : QueryBuilder) (key : String) (operator : Operator) (operand : Value) :
    (compare key operator operand).apply b = .ok (b.addCondition key operator operand) :=
  congrArg Except.ok (b.single_eq key operator operand)

/-- All steps in order, up to the first that fails. -/
def applyAll (b : QueryBuilder) : List BuildStep → Except Error QueryBuilder
  | [] => .ok b
  | s :: rest =>
    match s.apply b with
    | .ok b => applyAll b rest
    | .error e => .error e

/-- What the chain compiles to after each step; a step that fails leaves the chain as it was. -/
def trail (b : QueryBuilder) : List BuildStep → List (Except Error Statement) × QueryBuilder
  | [] => ([], b)
  | s :: rest =>
    match s.apply b with
    | .ok b =>
      let r := trail b rest
      (b.compile :: r.1, r.2)
    | .error e =>
      let r := trail b rest
      (.error e :: r.1, r.2)

end BuildStep
end Relata
