import Relata.Sqlite.Term
import Relata.Sqlite.Weight

/-!
The conditions of a query as single comparisons, and the ways into a table that they open.
-/
namespace Relata.Sqlite

/-- A stored table among the sources of a query. Its columns stand at consecutive places of a joined
row, the number of the row after them. -/
structure Leg where
  start : Nat
  shape : Shape
  /-- Rows to the left of it are kept also where none of its rows fits. -/
  keepsLeft : Bool
  deriving Repr

namespace Leg

def rowPlace (l : Leg) : Nat := l.start + l.shape.columns.length

def holds (l : Leg) (place : Nat) : Bool := l.start ≤ place && place ≤ l.rowPlace

/-- The column at a place. -/
def column? (l : Leg) (place : Nat) : Option TableColumn :=
  if l.start ≤ place then l.shape.columns[place - l.start]? else none

/-- The place of a column, of the number of the row also for the column that it is. -/
def settle (l : Leg) (place : Nat) : Nat :=
  if (l.shape.rowNumber.map fun i => l.start + i) = some place then l.rowPlace else place

end Leg

/-- A condition that has to hold. -/
structure Constraint where
  term : Term
  /-- The leg that keeps the rows to its left, if this is part of the condition of its join. -/
  owner : Option Nat
  /-- The legs that have to be there to tell whether it holds. -/
  legs : List Nat
  deriving Repr

/-- A way into a table: one of its columns is compared with what other legs give. -/
structure Approach where
  leg : Nat
  place : Nat
  op : BinaryOp
  needs : List Nat
  owner : Option Nat
  /-- The comparison orders the values as the column does. -/
  fits : Bool
  /-- The constraint that it is part of. -/
  source : Nat
  deriving Repr

namespace Constraint

/-- The parts of a condition that have to hold each; what always holds has none. -/
def conjuncts : Term → List Term
  | .cell (.integer 1) => []
  | .and a b => conjuncts a ++ conjuncts b
  | t => [t]

/-- A condition that is unknown or false for a row without anything in the leg. -/
def refusesNulls (l : Leg) : Term → Bool
  | .column place _ => l.holds place
  | .negate t => refusesNulls l t
  | .not t => refusesNulls l t
  | .and a b => refusesNulls l a && refusesNulls l b
  | .or a b => refusesNulls l a && refusesNulls l b
  | .compare .is _ _ _ => false
  | .compare .isNot _ _ _ => false
  | .compare _ _ a b => refusesNulls l a || refusesNulls l b
  | .arithmetic _ a b => refusesNulls l a || refusesNulls l b
  | .concat a b => refusesNulls l a || refusesNulls l b
  | _ => false

/-- Where a condition refuses rows without anything in a leg, that leg need not keep the rows to its
left. The conditions of such joins count as conditions themselves. -/
def settleLegs (known : List Term) : List (Leg × Term) → List (Leg × Term)
  | [] => []
  | (l, on) :: rest =>
    let keeps := l.keepsLeft && !known.any (refusesNulls l)
    let known := if l.keepsLeft && !keeps then known ++ conjuncts on else known
    ({ l with keepsLeft := keeps }, on) :: settleLegs known rest

/-- The legs that a term reads. -/
def legsOf (legs : List Leg) (t : Term) : List Nat :=
  (legs.zipIdx.filter fun l => t.places.any l.1.holds).map Prod.snd

def ofTerm (legs : List Leg) (owner : Option Nat) (t : Term) : Constraint :=
  ⟨t, owner, (legsOf legs t ++ owner.toList).eraseDups⟩

/-- The constraints of a query: those of its condition, then those of its joins. -/
def ofQuery (condition : Term) (joined : List (Leg × Term)) : List Constraint :=
  let legs := joined.map Prod.fst
  (conjuncts condition).map (ofTerm legs none) ++ joined.zipIdx.flatMap fun j =>
    (conjuncts j.1.2).map (ofTerm legs (if j.1.1.keepsLeft then some j.2 else none))

def mirrored : BinaryOp → BinaryOp
  | .lt => .gt
  | .le => .ge
  | .gt => .lt
  | .ge => .le
  | op => op

/-- The order of a comparison is the order of the column. -/
def orderFits (c : Coercion) (a : Affinity) : Bool :=
  match c with
  | .none => true
  | .text => a == .text
  | .numeric => a.isNumeric

def approach? (legs : List Leg) (source : Nat) (owner : Option Nat) (op : BinaryOp) (c : Coercion)
    (column other : Term) (further : List Nat) : Option Approach :=
  match column with
  | .column place affinity => do
    let (l, i) ← legs.zipIdx.find? fun l => l.1.holds place
    let needs := (legsOf legs other ++ further).eraseDups
    if needs.contains i then none
    else some ⟨i, l.settle place, op, needs, owner, orderFits c affinity, source⟩
  | _ => none

/-- The way in from the left side of a comparison, and the one from its right side. -/
def approaches (legs : List Leg) (source : Nat) (c : Constraint) :
    Option Approach × Option Approach :=
  match c.term with
  | .compare op coercion a b =>
    if [BinaryOp.eq, .lt, .le, .gt, .ge].contains op then
      let before := (c.owner.map List.range).getD []
      (approach? legs source c.owner op coercion a b [],
        approach? legs source c.owner (mirrored op) coercion b a before)
    else (none, none)
  | _ => (none, none)

/-- All ways in, first those from the left sides. -/
def allApproaches (legs : List Leg) (cs : List Constraint) : List Approach :=
  let found := cs.zipIdx.map fun c => approaches legs c.2 c.1
  found.filterMap Prod.fst ++ found.reverse.filterMap Prod.snd

/-- By how much the condition is thought to narrow down rows, if it is an equality. -/
def narrowing (c : Constraint) : Weight :=
  match c.term with
  | .compare .eq _ _ (.cell (.integer n)) => if -1 ≤ n.toInt ∧ n.toInt ≤ 1 then 10 else 20
  | .compare .eq _ a b => if (a.affinity?.or b.affinity?).isSome then 20 else 0
  | _ => 0

end Constraint
end Relata.Sqlite
