import Relata.Error
import Relata.Value

/-!
Conditions on columns: comparison operators, predicates on one column, and the reading of
conditions from a JSON object.
-/
namespace Relata

inductive Operator where
  | eq
  | gt
  | lt
  | gte
  | lte
  | contains
  deriving DecidableEq, Repr

namespace Operator

def name : Operator → String
  | .eq => "Eq"
  | .gt => "Gt"
  | .lt => "Lt"
  | .gte => "Gte"
  | .lte => "Lte"
  | .contains => "Contains"

def sql : Operator → String
  | .eq => "="
  | .gt => ">"
  | .lt => "<"
  | .gte => ">="
  | .lte => "<="
  | .contains => "LIKE"

/-- The operators that conditions may name; equality has no name. -/
def ofName? : String → Option Operator
  | "gt" => some .gt
  | "lt" => some .lt
  | "gte" => some .gte
  | "lte" => some .lte
  | "contains" => some .contains
  | _ => none

def read (text : String) : Except Error Operator :=
  match ofName? text with
  | some op => .ok op
  | none => .error (.invalidFilter ("unknown operator '" ++ text ++ "'"))

end Operator

/-- What a column is compared with: one value for equality, or operators with their operands. -/
inductive Predicate where
  | eq (operand : Value)
  | ops (comparisons : List (Operator × Value))
  deriving Repr

namespace Predicate

/-- The comparisons that a predicate stands for. -/
def comparisons : Predicate → List (Operator × Value)
  | .eq v => [(.eq, v)]
  | .ops cs => cs

def comparisonOfJson (key : String) (member : String × Json) :
    Except Error (Operator × Value) :=
  match Operator.ofName? member.1 with
  | some op => .ok (op, Value.ofJson member.2)
  | none =>
    .error (.invalidFilter ("unknown operator '" ++ member.1 ++ "' for '" ++ key ++ "'"))

/-- An object maps operators to operands; any other document is compared for equality. -/
def ofJson (key : String) : Json → Except Error Predicate
  | .object members => (members.mapM (comparisonOfJson key)).map .ops
  | d => .ok (.eq (Value.ofJson d))

/-- The conditions of an object, by column. Nothing is taken unless all of it can be read. -/
def allOfJson : Json → Except Error (List (String × Predicate))
  | .object members => members.mapM fun m => (ofJson m.1 m.2).map fun p => (m.1, p)
  | _ => .error (.invalidFilter "conditions must be a JSON object")

end Predicate
end Relata
