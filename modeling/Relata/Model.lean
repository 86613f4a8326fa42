import Relata.Adapter
import Relata.Json.Parser
import Relata.Query.Builder

/-!
Models: a table of a database with the common statements on its rows. Rows are found by the primary
key of the table or by conditions; relations that are loaded with them come as documents.
-/
namespace Relata

structure FindOptions where
  relations : List String
  order : List (String × Direction)
  limit : Option Nat
  offset : Option Nat
  deriving Repr

namespace FindOptions

def none : FindOptions := ⟨[], [], .none, .none⟩

/-- Adds to a query what the options ask for. -/
def apply (o : FindOptions) (b : QueryBuilder) : Except Error QueryBuilder :=
  (b.loadAll o.relations).map fun b =>
    let b := o.order.foldl (fun b k => b.orderBy k.1 k.2) b
    let b := (o.limit.map b.limitTo).getD b
    (o.offset.map b.startAt).getD b

end FindOptions

/-- A table, with the registry in which the targets of its relations are looked up, if any. -/
structure Model where
  table : Table
  schema : Option Schema

namespace Model

variable {σ : Type}

/-- A new query of the table. -/
def query (m : Model) (dialect : Dialect) : QueryBuilder :=
  match m.schema with
  | some s => (QueryBuilder.ofTable m.table dialect).withSchema s
  | none => QueryBuilder.ofTable m.table dialect

/-- The column that tells rows apart. -/
def key (m : Model) : String := m.table.primaryKey?.getD "id"

/-- The document of one column, if the column holds the text of one. -/
def decodeColumn (table : String) (row : Row) (relation : String) : Row × List Event :=
  match row.get? relation with
  | some (.string text) =>
    match Json.parse? text with
    | some d => (row.insert relation (.json d), [])
    | none =>
      (row, [⟨.warn, "relation projection is not valid JSON",
        [("table", table), ("relation", relation), ("error", "")]⟩])
  | _ => (row, [])

def decodeRow (table : String) (row : Row) : List String → Row × List Event
  | [] => (row, [])
  | relation :: rest =>
    let first := decodeColumn table row relation
    let others := decodeRow table first.1 rest
    (others.1, first.2 ++ others.2)

/-- Texts in the columns of loaded relations become the documents that they are. -/
def decode (table : String) (relations : List String) : List Row → List Row × List Event
  | [] => ([], [])
  | row :: rest =>
    let first := decodeRow table row relations
    let others := decode table relations rest
    (first.1 :: others.1, first.2 ++ others.2)

/-- Rows of a query, with the relations that the options ask for. -/
def fetch (m : Model) (db : Adapter σ) (b : Except Error QueryBuilder) (o : FindOptions) :
    Action σ (List Row) := do
  let b ← Action.ofExcept b
  let b ← Action.ofExcept (o.apply b)
  let s ← Action.ofExcept b.compile
  let rows ← db.fetch s
  let (rows, events) := decode m.table.name o.relations rows
  Action.logAll events
  return rows

/-- Adds a row and gives it as it is stored. -/
def create (m : Model) (db : Adapter σ) (record : List (String × Value)) : Action σ Row := do
  let s ← Action.ofExcept ((m.query db.dialect).insert (.ofList record)).compile
  match ← db.fetch s with
  | row :: _ => return row
  | [] => Action.fail (.query ("INSERT into " ++ m.table.name ++ " returned no row"))

/-- The row with this key. -/
def get (m : Model) (db : Adapter σ) (id : Value) (o : FindOptions) : Action σ (Option Row) := do
  return (← m.fetch db (.ok ((m.query db.dialect).whereEq m.key id)) o).head?

def find (m : Model) (db : Adapter σ) (conditions : List (String × Predicate)) (o : FindOptions) :
    Action σ (List Row) :=
  m.fetch db (.ok ((m.query db.dialect).whereAll conditions)) o

def findJson (m : Model) (db : Adapter σ) (conditions : Json) (o : FindOptions) :
    Action σ (List Row) :=
  m.fetch db ((m.query db.dialect).whereJson conditions) o

def all (m : Model) (db : Adapter σ) : Action σ (List Row) := do
  let s ← Action.ofExcept (m.query db.dialect).compile
  db.fetch s

/-- Changes the row with this key and gives it as it is stored then. -/
def update (m : Model) (db : Adapter σ) (id : Value) (record : List (String × Value)) :
    Action σ (List Row) := do
  let b := ((m.query db.dialect).update (.ofList record)).whereEq m.key id
  let s ← Action.ofExcept b.compile
  db.fetch s

/-- Removes the row with this key and gives the count of removed rows. -/
def delete (m : Model) (db : Adapter σ) (id : Value) : Action σ Nat := do
  let b := (m.query db.dialect).delete.whereEq m.key id
  let s ← Action.ofExcept b.compile
  db.run s

end Model
end Relata
