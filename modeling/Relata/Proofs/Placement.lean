import Relata.Query.Builder

/-!
Where the parameters of a compiled statement stand. The text of every statement is written out from
names and operators alone, with each placeholder beside the column that it is for. Main statement:
what a query compiles to is that text, with its values in the order of the placeholders.
-/
namespace Relata

namespace Sql

variable {α : Type} {d : Dialect} {p q : List Piece}

/-- The text of pieces behind `used` placeholders. -/
def textFrom (d : Dialect) (used : Nat) (p : List Piece) : String := String.ofList (render d used p)

theorem textFrom_append (d : Dialect) (used : Nat) (p q : List Piece) :
    textFrom d used (p ++ q) = textFrom d used p ++ textFrom d (used + (operands p).length) q := by
  rw [textFrom, render_append, String.ofList_append]
  rfl

@[simp] theorem textFrom_nil (d : Dialect) (used : Nat) : textFrom d used [] = "" := rfl

@[simp] theorem textFrom_text (d : Dialect) (used : Nat) (s : String) (p : List Piece) :
    textFrom d used (.text s :: p) = s ++ textFrom d used p := by
  simp [textFrom, render]

@[simp] theorem textFrom_name (d : Dialect) (used : Nat) (n : String) (p : List Piece) :
    textFrom d used (.name n :: p) = quoteIdent n ++ textFrom d used p := by
  simp [textFrom, render, quoteIdent]

@[simp] theorem textFrom_slot (d : Dialect) (used : Nat) (v : Value) (p : List Piece) :
    textFrom d used (.slot v :: p) = d.placeholder used ++ textFrom d (used + 1) p := by
  simp [textFrom, render]

/-- Without slots it matters neither in which dialect nor behind what the pieces stand. -/
theorem textFrom_of_no_operands (h : operands p = []) (used : Nat) :
    textFrom d used p = textOf p := by
  have hrender : render d used p = render .sqlite 0 p := by
    induction p with
    | nil => rfl
    | cons x p ih =>
      cases x with
      | text | name | literal => simp only [render, ih h]
      | slot => cases h
  rw [textFrom, hrender, textOf]

theorem mapIdx_map {β γ : Type} (f : α → β) (g : Nat → β → γ) (l : List α) :
    (l.map f).mapIdx g = l.mapIdx fun i x => g i (f x) :=
  List.ext_getElem (by simp) (by simp)

/-- Items of `k` slots each: the item at `i` stands behind `k * i` placeholders. -/
theorem textFrom_separated {f : α → List Piece} {k : Nat} (hk : ∀ x, (operands (f x)).length = k)
    (sep : String) (used : Nat) (items : List α) :
    textFrom d used (separated sep (items.map f)) =
      Text.joinWith sep (items.mapIdx fun i x => textFrom d (used + k * i) (f x)) := by
  induction items generalizing used with
  | nil => rfl
  | cons x items ih =>
    cases items with
    | nil => simp [separated]
    | cons y items =>
      have hindex (i : Nat) : used + k + k * i = used + k * (i + 1) := by
        rw [Nat.mul_add, Nat.mul_one]
        omega
      have hrest := ih (used + k)
      simp only [List.map_cons, List.mapIdx_cons, hindex] at hrest
      simp only [List.map_cons, List.mapIdx_cons, separated, textFrom_append, textFrom_text, hk,
        hrest, Text.joinWith, Nat.mul_zero, Nat.add_zero, String.append_assoc]

theorem operands_flatMap (f : α → List Piece) (items : List α) :
    operands (items.flatMap f) = items.flatMap fun x => operands (f x) := by
  induction items with
  | nil => rfl
  | cons x items ih => simp [ih]

theorem operands_separated (sep : String) (items : List (List Piece)) :
    operands (separated sep items) = items.flatMap operands := by
  induction items with
  | nil => rfl
  | cons p items ih =>
    cases items with
    | nil => simp [separated]
    | cons q items => simpa [separated, operands] using ih

end Sql
namespace Query

open Sql

variable {d : Dialect} {table : String}

/-- What a condition compares and how, the operand aside. -/
def Condition.comparison (c : Condition) : Key × Operator := (c.key, c.operator)

def Key.text (table : String) : Key → String
  | .own c => quoteIdent table ++ "." ++ quoteIdent c
  | .dotted t => t

/-- A comparison with the parameter that `index` others stand before. -/
def comparisonText (d : Dialect) (table : String) (index : Nat) (c : Key × Operator) : String :=
  c.1.text table ++ " " ++ c.2.sql ++ " " ++ d.placeholder index

def whereText (d : Dialect) (table : String) (used : Nat) (cs : List (Key × Operator)) : String :=
  if cs.isEmpty then ""
  else " WHERE " ++ Text.joinWith " AND " (cs.mapIdx fun i c => comparisonText d table (used + i) c)

def assignmentText (d : Dialect) (index : Nat) (column : String) : String :=
  quoteIdent column ++ " = " ++ d.placeholder index

/-- The columns are listed first, and their placeholders in the same order after them. -/
def insertText (d : Dialect) (table : String) (columns : List String) : String :=
  "INSERT INTO " ++ quoteIdent table ++
    (if columns.isEmpty then " DEFAULT VALUES"
      else " (" ++ Text.joinWith ", " (columns.map quoteIdent) ++ ") VALUES (" ++
        Text.joinWith ", " (columns.mapIdx fun i _ => d.placeholder i) ++ ")") ++
    " RETURNING *"

/-- The comparisons come behind the parameters of all columns that are set. -/
def updateText (d : Dialect) (table : String) (columns : List String)
    (cs : List (Key × Operator)) : String :=
  "UPDATE " ++ quoteIdent table ++ " SET " ++ Text.joinWith ", " (columns.mapIdx (assignmentText d)) ++
    whereText d table columns.length cs ++ " RETURNING *"

def deleteText (d : Dialect) (table : String) (cs : List (Key × Operator)) : String :=
  "DELETE FROM " ++ quoteIdent table ++ whereText d table 0 cs

@[simp] theorem Key.operands_pieces (k : Key) : operands (k.pieces table) = [] := by
  cases k with
  | own => rfl
  | dotted => rfl

@[simp] theorem Key.textFrom_pieces (k : Key) (used : Nat) :
    textFrom d used (k.pieces table) = k.text table := by
  cases k with
  | own c => simp [pieces, Sql.column, text, String.append_assoc]
  | dotted t => simp [pieces, text]

@[simp] theorem Condition.operands_pieces (c : Condition) :
    operands (c.pieces table) = [c.operand] := by
  simp [pieces, operands]

@[simp] theorem Condition.textFrom_pieces (c : Condition) (used : Nat) :
    textFrom d used (c.pieces table) = comparisonText d table used c.comparison := by
  simp [pieces, textFrom_append, comparisonText, comparison, String.append_assoc]

@[simp] theorem operands_clause (lead sep : String) (items : List (List Piece)) :
    operands (clause lead sep items) = items.flatMap operands := by
  cases items with
  | nil => rfl
  | cons p items => simp [clause, operands, operands_separated]

@[simp] theorem operands_wherePieces (cs : List Condition) :
    operands (wherePieces table cs) = cs.map Condition.operand := by
  simp [wherePieces, List.flatMap_map, ← List.map_eq_flatMap]

theorem textFrom_wherePieces (cs : List Condition) (used : Nat) :
    textFrom d used (wherePieces table cs) =
      whereText d table used (cs.map Condition.comparison) := by
  cases cs with
  | nil => rfl
  | cons c cs =>
    have hlist := textFrom_separated (d := d) (f := fun c : Condition => c.pieces table) (k := 1)
      (fun c => by simp) " AND " used (c :: cs)
    simpa [wherePieces, clause, whereText, mapIdx_map] using hlist

namespace Command

variable {record : Keyed Value} {cs : List Condition}

theorem operands_columns (columns : List String) :
    operands (separated ", " (columns.map fun k => [.name k])) = [] := by
  simp [operands_separated, operands]

theorem operands_insertPieces : operands (insertPieces table record) = record.values := by
  cases he : record.entries with
  | nil => simp [insertPieces, Keyed.isEmpty, Keyed.values, he, operands]
  | cons e entries =>
    have hvalues :
        operands (separated ", " (record.values.map fun v => [.slot v])) = record.values := by
      simp [operands_separated, List.flatMap_map, operands]
    simp [insertPieces, Keyed.isEmpty, he, operands, hvalues, operands_columns]

theorem textFrom_insertPieces :
    textFrom d 0 (insertPieces table record) = insertText d table record.keys := by
  cases he : record.entries with
  | nil =>
    simp [insertPieces, insertText, Keyed.isEmpty, Keyed.keys, he, String.append_assoc]
  | cons e entries =>
    have hkeys := textFrom_separated (d := d) (f := fun k : String => [Piece.name k]) (k := 0)
      (fun _ => rfl) ", " 0 record.keys
    have hvalues := textFrom_separated (d := d) (f := fun v : Value => [Piece.slot v]) (k := 1)
      (fun _ => rfl) ", " 0 record.values
    have hnames : (record.keys.mapIdx fun _ k => quoteIdent k) = record.keys.map quoteIdent :=
      List.ext_getElem (by simp) (by simp)
    have hplaces : (record.values.mapIdx fun i _ => d.placeholder i) =
        record.keys.mapIdx fun i _ => d.placeholder i := by
      simp only [Keyed.values, Keyed.keys, mapIdx_map]
    have hlist : record.keys.isEmpty = false := by simp [Keyed.keys, he]
    simp [insertPieces, insertText, Keyed.isEmpty, he, hlist, textFrom_append, operands_columns, hkeys,
      hvalues, hnames, hplaces, String.append_assoc]

theorem operands_updatePieces :
    operands (updatePieces table record cs) = record.values ++ cs.map Condition.operand := by
  simp [updatePieces, operands, operands_separated, Keyed.values, List.flatMap_map,
    ← List.map_eq_flatMap]

theorem textFrom_updatePieces : textFrom d 0 (updatePieces table record cs) =
    updateText d table record.keys (cs.map Condition.comparison) := by
  have hset := textFrom_separated (d := d) (k := 1)
    (f := fun e : String × Value => [.name e.1, .text " = ", .slot e.2]) (fun _ => rfl) ", " 0
    record.entries
  have hcount : (operands (separated ", " (record.entries.map fun e =>
      [.name e.1, .text " = ", .slot e.2]))).length = record.keys.length := by
    simp [operands_separated, operands, Keyed.keys, List.flatMap_map, ← List.map_eq_flatMap]
  have hassign : (record.entries.mapIdx fun i e => assignmentText d i e.1) =
      record.keys.mapIdx (assignmentText d) := (mapIdx_map Prod.fst _ _).symm
  simp [updatePieces, updateText, hset, textFrom_append, textFrom_wherePieces, hcount, ← hassign,
    assignmentText, String.append_assoc]

theorem operands_deletePieces :
    operands (deletePieces table cs) = cs.map Condition.operand := by
  simp [deletePieces, operands]

theorem textFrom_deletePieces : textFrom d 0 (deletePieces table cs) =
    deleteText d table (cs.map Condition.comparison) := by
  simp [deletePieces, deleteText, textFrom_wherePieces, String.append_assoc]

end Command
namespace Load

theorem operands_objectPieces (l : Load) : operands (l.objectPieces d) = [] := by
  cases d with
  | postgres => rfl
  | sqlite =>
    have hfield (f : String) : operands (l.fieldPieces f) = [] := rfl
    simp [objectPieces, operands, operands_separated, hfield]

theorem operands_projectionPieces (l : Load) : operands (l.projectionPieces d) = [] := by
  have hcolumn (c : String) : operands (l.targetColumn c) = [] := rfl
  have hobject := l.operands_objectPieces (d := d)
  unfold projectionPieces
  cases l.relation.kind with
  | hasMany => simp [hobject, hcolumn, operands]
  | belongsTo =>
    cases d with
    | postgres => simp [hobject, operands]
    | sqlite => simp [hobject, hcolumn, operands]

end Load

namespace Select

/-- What stands before the conditions. -/
def before (d : Dialect) (s : Select) : List Piece :=
  [.text "SELECT "] ++
    separated ", " (s.selection.pieces s.table ++ s.loads.map fun l => l.projectionPieces d) ++
    [.text " FROM ", .name s.table] ++
    s.loads.flatMap fun l => .text " " :: l.joinPieces s.table

/-- What stands after the conditions. -/
def after (s : Select) : List Piece :=
  clause " GROUP BY " ", " (s.groupKeys.map fun k => Sql.column k.1 k.2) ++
    orderPieces s.table s.order ++ countPieces " LIMIT " s.limit ++ countPieces " OFFSET " s.offset

theorem operands_before (s : Select) : operands (s.before d) = [] := by
  have hselection : (s.selection.pieces s.table).flatMap operands = [] := by
    cases s.selection with
    | all => rfl
    | columns texts => simp [Selection.pieces, operands]
  have hjoin (l : Load) : operands (l.joinPieces s.table) = [] := rfl
  simp [before, operands, operands_separated, operands_flatMap, hselection, hjoin,
    Load.operands_projectionPieces]

theorem operands_after (s : Select) : operands s.after = [] := by
  have hcount (lead : String) (n : Option Nat) : operands (countPieces lead n) = [] := by
    cases n <;> rfl
  have hgroup (k : String × String) : operands (Sql.column k.1 k.2) = [] := rfl
  have horder (o : Key × Direction) :
      operands (o.1.pieces s.table ++ [.text (" " ++ o.2.sql)]) = [] := by
    simp [operands]
  simp only [after, orderPieces, operands_append, operands_clause, List.flatMap_map, hgroup, horder,
    hcount]
  simp

def sqlText (d : Dialect) (s : Select) : String :=
  textOf (s.before d) ++ whereText d s.table 0 (s.conditions.map Condition.comparison) ++ textOf s.after

theorem pieces_eq (s : Select) :
    s.pieces d = s.before d ++ wherePieces s.table s.conditions ++ s.after := by
  simp [pieces, before, after, List.append_assoc]

theorem operands_pieces (s : Select) :
    operands (s.pieces d) = s.conditions.map Condition.operand := by
  simp [pieces_eq, operands_before, operands_after]

theorem textFrom_pieces (s : Select) : textFrom d 0 (s.pieces d) = s.sqlText d := by
  rw [pieces_eq, textFrom_append, textFrom_append, textFrom_wherePieces,
    textFrom_of_no_operands s.operands_before, textFrom_of_no_operands s.operands_after,
    operands_before]
  rfl

end Select
end Query
open Query

namespace QueryBuilder

def comparisons (b : QueryBuilder) : List (Key × Operator) := b.conditions.map Condition.comparison

def operands (b : QueryBuilder) : List Value := b.conditions.map Condition.operand

/-- The text of the statement, in which no value has a part. -/
def sqlText (b : QueryBuilder) : String :=
  match b.operation with
  | .select => b.toSelect.sqlText b.dialect
  | .insert => insertText b.dialect b.table.name b.record.keys
  | .update => updateText b.dialect b.table.name b.record.keys b.comparisons
  | .delete => deleteText b.dialect b.table.name b.comparisons

/-- The values of the statement. -/
def bound (b : QueryBuilder) : List Value :=
  match b.operation with
  | .select | .delete => b.operands
  | .insert => b.record.values
  | .update => b.record.values ++ b.operands

/-- An update that sets nothing does not compile; everything else does. -/
theorem compile_eq (b : QueryBuilder) :
    b.compile = if b.operation = .update ∧ b.record.isEmpty then
        .error (.query ("UPDATE on " ++ quoteIdent b.table.name ++ " requires at least one column"))
      else .ok ⟨b.sqlText, b.bound⟩ := by
  have hstatement {c : Command} {text : String} {params : List Value}
      (htext : Sql.textFrom b.dialect 0 (c.pieces b.dialect) = text)
      (hparams : Sql.operands (c.pieces b.dialect) = params) :
      (Except.ok c).map (fun c => c.statement b.dialect) =
        (.ok ⟨text, params⟩ : Except Error Statement) := by
    rw [← htext, ← hparams]
    rfl
  unfold compile command sqlText bound
  cases b.operation with
  | select => exact hstatement b.toSelect.textFrom_pieces b.toSelect.operands_pieces
  | insert => exact hstatement Command.textFrom_insertPieces Command.operands_insertPieces
  | delete => exact hstatement Command.textFrom_deletePieces Command.operands_deletePieces
  | update =>
    by_cases hempty : b.record.isEmpty
    · simp [hempty, Except.map]
    · rw [if_neg hempty, if_neg (by simp [hempty])]
      exact hstatement Command.textFrom_updatePieces Command.operands_updatePieces

end QueryBuilder
end Relata
