import Relata.Adapter

/-!
A scripted database: it keeps a catalog of tables and their columns, answers the catalog queries
from it, and takes every other answer from a script. Rules make chosen calls fail. Every call is
recorded.
-/
namespace Relata

namespace Scripted

inductive CallName where
  | connect
  | disconnect
  | begin
  | commit
  | rollback
  | execute
  | query
  deriving DecidableEq, Repr

/-- A recorded call. The text is the statement or the connection string, if there is one. -/
structure Call where
  name : CallName
  sql : String
  params : Option (List Value)

/-- Fails the calls of a name whose text contains the given one, as often as it still may. -/
structure Rule where
  on : CallName
  contains : String
  /-- How often it still fires; without a bound if none. -/
  remaining : Option Nat
  error : Error

namespace Rule

def fires (r : Rule) (c : Call) : Bool :=
  r.on = c.name && Text.contains c.sql r.contains && r.remaining != some 0

def spent (r : Rule) : Rule := { r with remaining := r.remaining.map (· - 1) }

end Rule

structure State where
  connected : Bool
  inTransaction : Bool
  /-- The rows that the catalog has for the columns of each table. -/
  catalog : Keyed (List Row)
  rules : List Rule
  rows : List (List Row)
  counts : List Nat
  /-- The recorded calls, newest first. -/
  calls : List Call

namespace State

def start (catalog : Keyed (List Row)) (rules : List Rule) (rows : List (List Row))
    (counts : List Nat) : State :=
  ⟨true, false, catalog, rules, rows, counts, []⟩

end State

/-- The error of the first rule that fires, and the rules afterwards. -/
def applyRules (c : Call) : List Rule → Option (Error × List Rule)
  | [] => none
  | r :: rest =>
    if r.fires c then some (r.error, r.spent :: rest)
    else (applyRules c rest).map fun found => (found.1, r :: found.2)

/-- Records a call, which then fails by a rule or goes on with `effect`. -/
def call {α : Type} (c : Call) (effect : State → α × State) : Action State α := fun s =>
  let s := { s with calls := c :: s.calls }
  match applyRules c s.rules with
  | some (e, rules) => ⟨.error e, { s with rules := rules }, []⟩
  | none =>
    let r := effect s
    ⟨.ok r.1, r.2, []⟩

def columnRow (name : String) : Row := Keyed.ofList [("column_name", .string name)]

/-- The pieces of a text between the places where a comma and a blank stand. -/
def splitDefinitions : List Char → List (List Char)
  | [] => [[]]
  | ',' :: ' ' :: rest => [] :: splitDefinitions rest
  | c :: rest =>
    match splitDefinitions rest with
    | [] => [[c]]
    | piece :: pieces => (c :: piece) :: pieces

/-- What stands between the first opening and the last closing parenthesis. -/
def betweenParentheses (s : List Char) : List Char :=
  let inside := (s.dropWhile fun c => c != '(').drop 1
  ((inside.reverse.dropWhile fun c => c != ')').drop 1).reverse

/-- The columns that a statement declares after the name of the table. -/
def declaredColumns (s : List Char) : List String :=
  (splitDefinitions (betweenParentheses s)).filterMap fun piece =>
    (Text.Quoted.read '"' piece).map fun r => String.ofList r.1

/-- The table and the text after its name, if the statement begins with `lead`. -/
def readTable? (lead : String) (sql : List Char) : Option (String × List Char) := do
  let rest ← Text.stripPrefix? lead.toList sql
  let (name, rest) ← Text.Quoted.read '"' rest
  return (String.ofList name, rest)

/-- What a statement does to the catalog. -/
def applyStatement (catalog : Keyed (List Row)) (sql : List Char) : Keyed (List Row) :=
  match readTable? "CREATE TABLE IF NOT EXISTS " sql with
  | some (table, rest) =>
    if catalog.contains table then catalog
    else catalog.insert table ((declaredColumns rest).map columnRow)
  | none =>
    match readTable? "ALTER TABLE " sql with
    | none => catalog
    | some (table, rest) =>
      match readTable? " ADD COLUMN " rest with
      | none => catalog
      | some (column, _) =>
        catalog.insert table ((catalog.get? table).getD [] ++ [columnRow column])

def execute (sql : String) (params : Option (List Value)) : Action State Nat :=
  call ⟨.execute, sql, params⟩ fun s =>
    (s.counts.headD 0,
      { s with counts := s.counts.tail, catalog := applyStatement s.catalog sql.toList })

/-- The table that the first parameter names. -/
def namedTable (params : Option (List Value)) : Option String :=
  ((params.getD []).head?).bind Value.toStr?

def query (sql : String) (params : Option (List Value)) : Action State (List Row) :=
  call ⟨.query, sql, params⟩ fun s =>
    if Text.contains sql "information_schema.tables" || Text.contains sql "sqlite_master" then
      match namedTable params with
      | some t =>
        (if s.catalog.contains t then [Keyed.ofList [("table_name", .string t)]] else [], s)
      | none => ([], s)
    else if Text.contains sql "information_schema.columns" ||
        Text.contains sql "pragma_table_info" then
      match namedTable params with
      | some t => ((s.catalog.get? t).getD [], s)
      | none => ([], s)
    else (s.rows.headD [], { s with rows := s.rows.tail })

def control (name : CallName) (opened : Bool) : Action State Unit :=
  call ⟨name, "", none⟩ fun s => ((), { s with inTransaction := opened })

def adapter (dialect : Dialect) : Adapter State where
  dialect := dialect
  connect target := call ⟨.connect, target, none⟩ fun s => ((), { s with connected := true })
  isConnected := State.connected
  disconnect := call ⟨.disconnect, "", none⟩ fun s => ((), { s with connected := false })
  execute sql := execute sql none
  executeWith sql params := execute sql (some params)
  query sql := query sql none
  queryWith sql params := query sql (some params)
  begin := control .begin true
  commit := control .commit false
  rollback := control .rollback false
  inTransaction := State.inTransaction

end Scripted
end Relata
