import Relata.Dialect
import Relata.Text.Quoted
import Relata.Value

/-!
Statements as sequences of pieces: fixed text, quoted names and literals, and slots for operands.
The operand sits in its slot, so the text of a statement and its list of parameters are two views
of one sequence: the parameters are the operands in the order of their placeholders.
-/
namespace Relata

/-- SQL text with placeholders, and the parameters in the order of the placeholders. -/
structure Statement where
  sql : String
  params : List Value
  deriving Repr

namespace Sql

inductive Piece where
  | text (s : String)
  | name (identifier : String)
  | literal (s : String)
  | slot (operand : Value)
  deriving Repr

/-- The text of the pieces when `used` placeholders stand before them. -/
def render (dialect : Dialect) : (used : Nat) → List Piece → List Char
  | _, [] => []
  | used, .text s :: rest => s.toList ++ render dialect used rest
  | used, .name n :: rest => Text.Quoted.token '"' n.toList ++ render dialect used rest
  | used, .literal s :: rest => Text.Quoted.token '\'' s.toList ++ render dialect used rest
  | used, .slot _ :: rest =>
    (dialect.placeholder used).toList ++ render dialect (used + 1) rest

def operands : List Piece → List Value
  | [] => []
  | .slot v :: rest => v :: operands rest
  | _ :: rest => operands rest

@[simp] theorem operands_append (p q : List Piece) : operands (p ++ q) = operands p ++ operands q := by
  induction p with
  | nil => rfl
  | cons x p ih => cases x <;> simp [operands, ih]

theorem render_append (dialect : Dialect) (used : Nat) (p q : List Piece) :
    render dialect used (p ++ q) =
      render dialect used p ++ render dialect (used + (operands p).length) q := by
  induction p generalizing used with
  | nil => simp [render, operands]
  | cons x p ih =>
    cases x <;> simp [render, operands, ih, Nat.add_assoc, Nat.add_comm]

def statement (dialect : Dialect) (pieces : List Piece) : Statement :=
  ⟨String.ofList (render dialect 0 pieces), operands pieces⟩

/-- The text of pieces without slots, which is the same in every dialect. -/
def textOf (pieces : List Piece) : String := String.ofList (render .sqlite 0 pieces)

/-- The parts in order, with `sep` between neighbours. -/
def separated (sep : String) : List (List Piece) → List Piece
  | [] => []
  | [p] => p
  | p :: q :: rest => p ++ .text sep :: separated sep (q :: rest)

/-- A column of a table, `"table"."column"`. -/
def column (table name : String) : List Piece := [.name table, .text ".", .name name]

end Sql
end Relata
