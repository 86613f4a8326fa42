import Relata.Query.Filter
import Relata.Schema.Table

/-!
The statements on one table in structured form, and how they are written. A column key is either a
bare name, which belongs to the table, or a text with a dot, which is written as it stands.
-/
namespace Relata

inductive Direction where
  | ascending
  | descending
  deriving DecidableEq, Repr

namespace Direction

def sql : Direction → String
  | .ascending => "ASC"
  | .descending => "DESC"

end Direction

namespace Query

open Sql

/-- A key that conditions and orders are stated on. -/
inductive Key where
  | own (column : String)
  | dotted (text : String)
  deriving DecidableEq, Repr

namespace Key

def ofText (key : String) : Key := if key.toList.contains '.' then .dotted key else .own key

def pieces (table : String) : Key → List Piece
  | .own c => Sql.column table c
  | .dotted t => [.text t]

end Key

structure Condition where
  key : Key
  operator : Operator
  operand : Value
  deriving Repr

namespace Condition

def pieces (table : String) (c : Condition) : List Piece :=
  c.key.pieces table ++ [.text (" " ++ c.operator.sql ++ " "), .slot c.operand]

end Condition

/-- What is selected besides the loaded relations. -/
inductive Selection where
  | all
  | columns (texts : List String)
  deriving DecidableEq, Repr

namespace Selection

/-- No column, or a star in front, selects every column. -/
def ofTexts : List String → Selection
  | [] => .all
  | c :: rest => if c = "*" then .all else .columns (c :: rest)

def pieces (table : String) : Selection → List (List Piece)
  | .all => [[.name table, .text ".*"]]
  | .columns texts => texts.map fun t => [.text t]

end Selection

/-- A relation to load with each row, and the columns of its target where they have to be listed. -/
structure Load where
  name : String
  relation : Relation
  fields : List String
  deriving DecidableEq, Repr

namespace Load

/-- A column of the loaded table. -/
def targetColumn (l : Load) (name : String) : List Piece := Sql.column l.relation.target name

/-- The columns that are equal where rows belong together: one of the table and one of the target. -/
def joinKeys (l : Load) : String × String :=
  match l.relation.kind with
  | .belongsTo => (l.relation.foreignKey, l.relation.key)
  | .hasMany => (l.relation.key, l.relation.foreignKey)

def joinPieces (table : String) (l : Load) : List Piece :=
  [.text "LEFT JOIN ", .name l.relation.target, .text " ON "] ++
    Sql.column table l.joinKeys.1 ++ [.text " = "] ++ l.targetColumn l.joinKeys.2

def fieldPieces (l : Load) (field : String) : List Piece :=
  [.literal field, .text ", "] ++ l.targetColumn field

/-- The row of the target as one document. -/
def objectPieces (dialect : Dialect) (l : Load) : List Piece :=
  match dialect with
  | .postgres => [.name l.relation.target, .text ".*"]
  | .sqlite =>
    [.text "json_object("] ++ separated ", " (l.fields.map l.fieldPieces) ++ [.text ")"]

def aggregate : Dialect → String
  | .postgres => "json_agg"
  | .sqlite => "json_group_array"

/-- One target row as a document or null, or all of them as an array. -/
def projectionPieces (dialect : Dialect) (l : Load) : List Piece :=
  (match l.relation.kind, dialect with
    | .belongsTo, .postgres => [.text "to_json("] ++ l.objectPieces .postgres ++ [.text ")"]
    | .belongsTo, .sqlite =>
      [.text "CASE WHEN "] ++ l.targetColumn l.relation.key ++ [.text " IS NULL THEN NULL ELSE "] ++
        l.objectPieces .sqlite ++ [.text " END"]
    | .hasMany, dialect =>
      [.text ("COALESCE(" ++ aggregate dialect ++ "(")] ++ l.objectPieces dialect ++
        [.text ") FILTER (WHERE "] ++ l.targetColumn l.relation.foreignKey ++
        [.text " IS NOT NULL), '[]')"]) ++
    [.text " AS ", .name l.name]

end Load

/-- A query of one table with the relations to load. -/
structure Select where
  table : String
  primaryKey : Option String
  selection : Selection
  loads : List Load
  conditions : List Condition
  order : List (Key × Direction)
  limit : Option Nat
  offset : Option Nat
  deriving Repr

/-- The items in order, each only where it first comes. -/
def firsts {α : Type} [BEq α] : (seen : List α) → List α → List α
  | _, [] => []
  | seen, x :: rest =>
    if seen.contains x then firsts seen rest else x :: firsts (seen ++ [x]) rest

theorem mem_firsts {α : Type} [BEq α] [LawfulBEq α] {seen l : List α} {x : α} :
    x ∈ firsts seen l ↔ x ∈ l ∧ x ∉ seen := by
  induction l generalizing seen with
  | nil => simp [firsts]
  | cons y l ih =>
    by_cases hy : seen.contains y = true
    · simp only [firsts, hy, if_true, ih, List.mem_cons]
      rw [List.contains_iff_mem] at hy
      grind
    · simp only [firsts, hy, Bool.false_eq_true, if_false, List.mem_cons, ih, List.mem_append]
      rw [List.contains_iff_mem] at hy
      grind

theorem firsts_concat {α : Type} [BEq α] [LawfulBEq α] {seen l : List α} {x : α} :
    firsts seen (l ++ [x]) = if (seen ++ l).contains x then firsts seen l
      else firsts seen l ++ [x] := by
  induction l generalizing seen with
  | nil => simp [firsts]
  | cons y l ih =>
    by_cases hy : seen.contains y = true
    · have hcontains : (seen ++ y :: l).contains x = (seen ++ l).contains x := by
        rw [List.contains_iff_mem] at hy
        grind
      simp only [List.cons_append, firsts, hy, if_true, ih, hcontains]
    · have hcontains : (seen ++ [y] ++ l).contains x = (seen ++ y :: l).contains x := by simp
      simp only [List.cons_append, firsts, hy, Bool.false_eq_true, if_false, ih, hcontains]
      split <;> rfl

namespace Select

/-- The columns of the table that rows are grouped by, one for each loaded array. -/
def arrayKeys (s : Select) : List (String × String) :=
  (s.loads.filter fun l => l.relation.kind = .hasMany).map fun l =>
    (s.table, s.primaryKey.getD l.relation.key)

/-- The keys of the loaded single rows. -/
def objectKeys (s : Select) : List (String × String) :=
  (s.loads.filter fun l => l.relation.kind = .belongsTo).map fun l =>
    (l.relation.target, l.relation.key)

/-- The columns that rows are grouped by: none unless an array is loaded, else also the keys of the
loaded single rows, so that these depend on the grouping alone. -/
def groupKeys (s : Select) : List (String × String) :=
  if s.arrayKeys.isEmpty then [] else firsts [] (s.arrayKeys ++ s.objectKeys)

end Select

/-- A clause that is left out when there is nothing to list. -/
def clause (lead sep : String) (items : List (List Piece)) : List Piece :=
  if items.isEmpty then [] else .text lead :: separated sep items

def wherePieces (table : String) (conditions : List Condition) : List Piece :=
  clause " WHERE " " AND " (conditions.map fun c => c.pieces table)

def orderPieces (table : String) (order : List (Key × Direction)) : List Piece :=
  clause " ORDER BY " ", " (order.map fun o => o.1.pieces table ++ [.text (" " ++ o.2.sql)])

def countPieces (lead : String) : Option Nat → List Piece
  | some n => [.text (lead ++ Nat.repr n)]
  | none => []

def Select.pieces (dialect : Dialect) (s : Select) : List Piece :=
  [.text "SELECT "] ++
    separated ", " (s.selection.pieces s.table ++ s.loads.map fun l => l.projectionPieces dialect) ++
    [.text " FROM ", .name s.table] ++
    s.loads.flatMap (fun l => .text " " :: l.joinPieces s.table) ++
    wherePieces s.table s.conditions ++
    clause " GROUP BY " ", " (s.groupKeys.map fun k => Sql.column k.1 k.2) ++
    orderPieces s.table s.order ++ countPieces " LIMIT " s.limit ++ countPieces " OFFSET " s.offset

inductive Command where
  | select (s : Select)
  | insert (table : String) (record : Keyed Value)
  | update (table : String) (record : Keyed Value) (conditions : List Condition)
  | delete (table : String) (conditions : List Condition)
  deriving Repr

namespace Command

def insertPieces (table : String) (record : Keyed Value) : List Piece :=
  [.text "INSERT INTO ", .name table] ++
    (if record.isEmpty then [.text " DEFAULT VALUES"]
      else
        [.text " ("] ++ separated ", " (record.keys.map fun k => [.name k]) ++
          [.text ") VALUES ("] ++ separated ", " (record.values.map fun v => [.slot v]) ++
          [.text ")"]) ++
    [.text " RETURNING *"]

def updatePieces (table : String) (record : Keyed Value) (conditions : List Condition) :
    List Piece :=
  [.text "UPDATE ", .name table, .text " SET "] ++
    separated ", " (record.entries.map fun e => [.name e.1, .text " = ", .slot e.2]) ++
    wherePieces table conditions ++ [.text " RETURNING *"]

def deletePieces (table : String) (conditions : List Condition) : List Piece :=
  [.text "DELETE FROM ", .name table] ++ wherePieces table conditions

def pieces (dialect : Dialect) : Command → List Piece
  | .select s => s.pieces dialect
  | .insert table record => insertPieces table record
  | .update table record conditions => updatePieces table record conditions
  | .delete table conditions => deletePieces table conditions

def statement (dialect : Dialect) (c : Command) : Statement := Sql.statement dialect (c.pieces dialect)

end Command
end Query
end Relata
