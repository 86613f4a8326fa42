import Mathlib.Data.List.Dedup
import Mathlib.Logic.Function.Basic
import Relata.Query.Command

/-!
What a query that loads relations means: left joins, a filter, groups, and one field for each item of
the list. Main statement: the tree that is given a meaning here is written just as the query is.
-/
namespace Relata.Query

open Sql

/-- A column with the table it belongs to. -/
abbrev Qualified := String × String

/-- A row of a table as a document. -/
inductive Form where
  | whole (table : String)
  | object (fields : List (String × Qualified))

/-- An item of the list: the columns of a table; its row as a document; the same, but null where a
column is; or an array, maybe empty, of the rows where a column is not null. -/
inductive Item where
  | star (table : String)
  | whole (table name : String)
  | unlessNull (test : Qualified) (form : Form) (name : String)
  | collect (form : Form) (present : Qualified) (name : String)

structure Join where
  table : String
  left : Qualified
  right : Qualified

structure Tree where
  items : List Item
  table : String
  joins : List Join
  conditions : List Condition
  groups : List Qualified

/-! How trees are written. -/

def Qualified.pieces (q : Qualified) : List Piece := Sql.column q.1 q.2

def Form.pieces : Form → List Piece
  | .whole t => [.name t, .text ".*"]
  | .object fields =>
    [.text "json_object("] ++
      separated ", " (fields.map fun f => [.literal f.1, .text ", "] ++ Qualified.pieces f.2) ++
      [.text ")"]

def Item.pieces (d : Dialect) : Item → List Piece
  | .star t => [.name t, .text ".*"]
  | .whole t n => [.text "to_json("] ++ (Form.whole t).pieces ++ [.text ")"] ++ [.text " AS ", .name n]
  | .unlessNull q f n =>
    [.text "CASE WHEN "] ++ Qualified.pieces q ++ [.text " IS NULL THEN NULL ELSE "] ++ f.pieces ++
      [.text " END"] ++ [.text " AS ", .name n]
  | .collect f q n =>
    [.text ("COALESCE(" ++ Load.aggregate d ++ "(")] ++ f.pieces ++ [.text ") FILTER (WHERE "] ++
      Qualified.pieces q ++ [.text " IS NOT NULL), '[]')"] ++ [.text " AS ", .name n]

def Join.pieces (j : Join) : List Piece :=
  [.text "LEFT JOIN ", .name j.table, .text " ON "] ++ Qualified.pieces j.left ++ [.text " = "] ++
    Qualified.pieces j.right

def Tree.pieces (d : Dialect) (t : Tree) : List Piece :=
  [.text "SELECT "] ++ separated ", " (t.items.map (Item.pieces d)) ++
    [.text " FROM ", .name t.table] ++ t.joins.flatMap (fun j => .text " " :: j.pieces) ++
    clause " WHERE " " AND " (t.conditions.map fun c => c.pieces t.table) ++
    clause " GROUP BY " ", " (t.groups.map Qualified.pieces)

/-! What trees mean. -/

/-- A row of a table: its cells by the names of their columns. -/
abbrev Tuple (κ : Type) := String → κ

/-- The rows of each table. -/
abbrev Database (κ : Type) := String → List (Tuple κ)

/-- The rows that stand beside each other, by their tables; none where a join found no match. -/
abbrev Beside (κ : Type) := String → Option (Tuple κ)

/-- What cells are to comparisons: the value of a cell, which a null does not have, and whether a
cell meets a condition; and the column that a text with a dot is read as. -/
structure Meaning (κ γ : Type) where
  value : κ → Option γ
  holds : Operator → κ → Value → Bool
  resolve : String → Option Qualified

inductive Document (κ : Type) where
  | whole (row : Tuple κ)
  | object (fields : List (String × Option κ))

/-- A field of the answer; a document may be null. -/
inductive Field (κ : Type) where
  | row (row : Option (Tuple κ))
  | document (d : Option (Document κ))
  | array (ds : List (Option (Document κ)))

variable {κ γ : Type} [DecidableEq γ] (m : Meaning κ γ) (db : Database κ)

namespace Meaning

/-- Cells are equal if both have a value, and the same. -/
def same (x y : κ) : Bool :=
  match m.value x, m.value y with
  | some a, some b => a == b
  | _, _ => false

def column (table : String) : Key → Option Qualified
  | .own c => some (table, c)
  | .dotted text => m.resolve text

def cell (e : Beside κ) (q : Qualified) : Option κ := (e q.1).map fun r => r q.2

def valueAt (e : Beside κ) (q : Qualified) : Option γ := (cell e q).bind m.value

def sameAt (e : Beside κ) (p q : Qualified) : Bool :=
  match cell e p, cell e q with
  | some x, some y => m.same x y
  | _, _ => false

end Meaning

open Meaning

/-- Each matching row is put beside what stands there; without a match, none is. -/
def Join.extend (j : Join) (e : Beside κ) : List (Beside κ) :=
  let found := ((db j.table).map fun u => Function.update e j.table (some u)).filter fun e' =>
    m.sameAt e' j.left j.right
  if found.isEmpty then [Function.update e j.table none] else found

def Condition.holds (table : String) (e : Beside κ) (c : Condition) : Bool :=
  ((m.column table c.key).bind (cell e)).any fun x => m.holds c.operator x c.operand

namespace Tree

def joined (t : Tree) : List (Beside κ) :=
  t.joins.foldl (fun es j => es.flatMap (j.extend m db))
    ((db t.table).map fun r => Function.update (fun _ => none) t.table (some r))

def kept (t : Tree) : List (Beside κ) :=
  (t.joined m db).filter fun e => t.conditions.all (Condition.holds m t.table e)

end Tree

/-- Those that agree on the keys, taken together. -/
def grouped (keys : List Qualified) (es : List (Beside κ)) : List (List (Beside κ)) :=
  (es.map fun e => keys.map (m.valueAt e)).dedup.map fun k =>
    es.filter fun e => keys.map (m.valueAt e) = k

def Form.eval (e : Beside κ) : Form → Option (Document κ)
  | .whole t => (e t).map .whole
  | .object fields => some (.object (fields.map fun f => (f.1, cell e f.2)))

namespace Item

def isAggregate : Item → Bool
  | .collect .. => true
  | _ => false

/-- The value of an item over a group; what is no aggregate is taken from the first of the group. -/
def eval (g : List (Beside κ)) : Item → Field κ
  | .star t => .row (g.head?.bind fun e => e t)
  | .whole t _ => .document (g.head?.bind fun e => (Form.whole t).eval e)
  | .unlessNull q f _ =>
    .document (g.head?.bind fun e => if (m.valueAt e q).isSome then f.eval e else none)
  | .collect f q _ => .array ((g.filter fun e => (m.valueAt e q).isSome).map fun e => f.eval e)

end Item

namespace Tree

/-- The groups of a query: by its keys, or all in one if it only has aggregates, or each alone. -/
def gather (t : Tree) (es : List (Beside κ)) : List (List (Beside κ)) :=
  if !t.groups.isEmpty then grouped m t.groups es
  else if t.items.any Item.isAggregate then [es]
  else es.map fun e => [e]

/-- What a database may answer: it may visit rows, and list the rows of the answer, in any order. -/
def Answers (t : Tree) (out : List (List (Field κ))) : Prop :=
  ∃ visited, visited.Perm (t.kept m db) ∧
    out.Perm ((t.gather m visited).map fun g => t.items.map (Item.eval m g))

end Tree

/-! The tree of a query that loads relations. -/

namespace Load

variable (l : Load)

def form (d : Dialect) : Form :=
  match d with
  | .postgres => .whole l.relation.target
  | .sqlite => .object (l.fields.map fun f => (f, (l.relation.target, f)))

def item (d : Dialect) : Item :=
  match l.relation.kind, d with
  | .belongsTo, .postgres => .whole l.relation.target l.name
  | .belongsTo, .sqlite =>
    .unlessNull (l.relation.target, l.relation.key) (l.form .sqlite) l.name
  | .hasMany, d => .collect (l.form d) (l.relation.target, l.relation.foreignKey) l.name

def join (table : String) : Join :=
  ⟨l.relation.target, (table, l.joinKeys.1), (l.relation.target, l.joinKeys.2)⟩

theorem form_pieces (d : Dialect) : (l.form d).pieces = l.objectPieces d := by
  cases d with
  | postgres => rfl
  | sqlite =>
    simp only [form, Form.pieces, objectPieces, List.map_map]
    rfl

theorem item_pieces (d : Dialect) : (l.item d).pieces d = l.projectionPieces d := by
  unfold item projectionPieces
  cases l.relation.kind with
  | belongsTo =>
    cases d with
    | postgres => rfl
    | sqlite =>
      simp only [Item.pieces, form_pieces]
      rfl
  | hasMany =>
    simp only [Item.pieces, form_pieces]
    rfl

theorem join_pieces (table : String) : (l.join table).pieces = l.joinPieces table := rfl

end Load

namespace Select

def tree (d : Dialect) (s : Select) : Tree where
  items := .star s.table :: s.loads.map fun l => l.item d
  table := s.table
  joins := s.loads.map fun l => l.join s.table
  conditions := s.conditions
  groups := s.groupKeys

/-- The tree is written as the query is. -/
theorem tree_pieces (d : Dialect) {s : Select} (hall : s.selection = .all) (horder : s.order = [])
    (hlimit : s.limit = none) (hoffset : s.offset = none) : (s.tree d).pieces d = s.pieces d := by
  have hitems : (s.tree d).items.map (Item.pieces d) =
      s.selection.pieces s.table ++ s.loads.map fun l => l.projectionPieces d := by
    simp only [tree, hall, List.map_cons, List.map_map, Function.comp_def, Load.item_pieces]
    rfl
  have hjoins : (s.tree d).joins.flatMap (fun j => .text " " :: j.pieces) =
      s.loads.flatMap fun l => .text " " :: l.joinPieces s.table := by
    simp only [tree, List.flatMap_map, Load.join_pieces]
  have hgroups : (s.tree d).groups.map Qualified.pieces =
      s.groupKeys.map fun k => Sql.column k.1 k.2 := rfl
  simp only [Tree.pieces, Select.pieces, hitems, hjoins, hgroups, horder, hlimit,
    hoffset, wherePieces, orderPieces, countPieces, List.map_nil]
  simp [clause, tree]

end Select
end Relata.Query
