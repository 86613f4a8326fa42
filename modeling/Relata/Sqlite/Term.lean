import Relata.Sqlite.Content
import Relata.Sqlite.Document
import Relata.Sqlite.Statement

/-!
Expressions with their names resolved: columns are places in a row, and what a name means is settled
before the first row is seen.
-/
namespace Relata.Sqlite

open Number

inductive Function where
  | typeOf
  | coalesce
  | object
  | length
  | lower
  | upper
  | abs
  deriving DecidableEq, Repr

inductive Aggregate where
  | countAll
  | count
  | sum
  | total
  | average
  | least
  | greatest
  | groupArray
  deriving DecidableEq, Repr

inductive Term where
  | cell (c : Cell)
  | parameter (number : Nat)
  | column (place : Nat) (affinity : Affinity)
  | negate (t : Term)
  | not (t : Term)
  | and (a b : Term)
  | or (a b : Term)
  | compare (op : BinaryOp) (c : Coercion) (a b : Term)
  | like (text pattern : Term)
  | arithmetic (op : BinaryOp) (a b : Term)
  | concat (a b : Term)
  | caseOf (branches : List (Term × Term)) (otherwise : Term)
  | call (f : Function) (args : List Term)
  | aggregate (f : Aggregate) (arg : Term) (filter : Term)
  deriving Repr

namespace Term

def affinity? : Term → Option Affinity
  | .column _ a => some a
  | _ => none

/-- The term gives the text of a document. -/
def isDocument : Term → Bool
  | .call .object _ => true
  | .aggregate .groupArray _ _ => true
  | _ => false

/-- What a term is evaluated on: a row, the parameters, and the rows of the group. -/
structure Env where
  row : List Cell
  params : List Cell
  group : List (List Cell)

def compareCells (op : BinaryOp) (a b : Cell) : Cell :=
  match op with
  | .is => .ofBool (a.order b == .eq)
  | .isNot => .ofBool (a.order b != .eq)
  | op =>
    if a.isNull || b.isNull then .null
    else
      let o := a.order b
      .ofBool (match op with
        | .eq => o == .eq
        | .ne => o != .eq
        | .lt => o == .lt
        | .le => o != .gt
        | .gt => o == .gt
        | .ge => o != .lt
        | _ => false)

def sameLetter (a b : Char) : Bool := a.toLower == b.toLower

/-- Whether a text matches a pattern, in which `%` stands for any characters and `_` for one; the
case of ASCII letters does not count. -/
def likeChars : (pattern text : List Char) → Bool
  | [], [] => true
  | [], _ :: _ => false
  | '%' :: p, [] => likeChars p []
  | '%' :: p, c :: s => likeChars p (c :: s) || likeChars ('%' :: p) s
  | _ :: _, [] => false
  | q :: p, c :: s => (q == '_' || sameLetter q c) && likeChars p s
termination_by p s => p.length + s.length

/-- A text up to its first character zero. -/
def untilZero (s : String) : List Char := s.toList.takeWhile fun c => c.toNat != 0

def likeCells (text pattern : Cell) : Cell :=
  match text.toText?, pattern.toText? with
  | some s, some p => .ofBool (likeChars (untilZero p) (untilZero s))
  | _, _ => .null

def toDouble : Cell → Double
  | .integer n => Double.ofInt n.toInt
  | .real x => x
  | _ => Double.zero

def arithmeticCells (op : BinaryOp) (a b : Cell) : Cell :=
  match a.toNumber?, b.toNumber? with
  | some (.integer m), some (.integer n) =>
    match op with
    | .add => Cell.ofInt (m.toInt + n.toInt)
    | .sub => Cell.ofInt (m.toInt - n.toInt)
    | .mul => Cell.ofInt (m.toInt * n.toInt)
    | .div => if n = 0 then .null else Cell.ofInt (m.toInt.tdiv n.toInt)
    | _ => if n = 0 then .null else Cell.ofInt (m.toInt.tmod n.toInt)
  | some x, some y =>
    let (x, y) := (toDouble x, toDouble y)
    match op with
    | .add => Cell.ofDouble (x.add y)
    | .sub => Cell.ofDouble (x.sub y)
    | .mul => Cell.ofDouble (x.mul y)
    | .div => if y.same Double.zero then .null else Cell.ofDouble (x.div y)
    | _ =>
      let held (v : Meaning) : Int := v.truncate Int64.minValue.toInt Int64.maxValue.toInt
      let (m, n) := (held x.meaning, held y.meaning)
      if n = 0 then .null else .real (Double.ofInt (m.tmod n))
  | _, _ => .null

def negateCell (c : Cell) : Cell :=
  match c.toNumber? with
  | some (.integer n) => Cell.ofInt (-n.toInt)
  | some (.real x) => .real x.neg
  | _ => .null

def concatCells (a b : Cell) : Cell :=
  match a.toText?, b.toText? with
  | some s, some t => .text (s ++ t)
  | _, _ => .null

/-- Names and values in turns, as the members of an object. -/
def objectText : List (Bool × Cell) → Except Fault (List String)
  | (_, name) :: (isDocument, v) :: rest => do
    let value ← Document.ofCell isDocument v
    let others ← objectText rest
    match name with
    | .text n => return (Json.quote n ++ ":" ++ value) :: others
    | _ => .error (.wrongArguments "json_object")
  | _ => .ok []

def callCells (f : Function) (args : List (Bool × Cell)) : Except Fault Cell :=
  match f, args.map Prod.snd with
  | .typeOf, [c] => .ok (.text c.typeName)
  | .coalesce, cells => .ok ((cells.find? fun c => !c.isNull).getD .null)
  | .object, _ => do
    return .text ("\x7b" ++ Text.joinWith "," (← objectText args) ++ "\x7d")
  | .length, [.blob bs] => .ok (.integer (Int64.ofNat bs.length))
  | .length, [c] => .ok ((c.toText?.map fun s => .integer (Int64.ofNat (untilZero s).length)).getD .null)
  | .lower, [c] => .ok ((c.toText?.map fun s => .text (Text.lowerAscii s)).getD .null)
  | .upper, [c] =>
    .ok ((c.toText?.map fun s => .text (String.ofList (s.toList.map Char.toUpper))).getD .null)
  | .abs, [c] =>
    match c.toNumber? with
    | some (.integer n) =>
      if n = Int64.minValue then .error .overflow else .ok (.integer (Int64.ofNat n.toInt.natAbs))
    | some (.real x) => .ok (.real (if x.meaning.negative then x.neg else x))
    | _ => .ok .null
  | _, _ => .ok .null

/-- The sum of numbers: an integer as long as all of them are. -/
def sumCells (cells : List Cell) : Except Fault Cell :=
  let numbers := cells.filterMap Cell.toNumber?
  let integers := numbers.filterMap fun c =>
    match c with
    | .integer n => some n.toInt
    | _ => none
  if integers.length = numbers.length then
    match toLong? (integers.foldl (· + ·) 0) with
    | some n => .ok (.integer n)
    | none => .error .overflow
  else .ok (Cell.ofDouble (numbers.foldl (fun x c => x.add (toDouble c)) Double.zero))

def totalOf (cells : List Cell) : Double :=
  (cells.filterMap Cell.toNumber?).foldl (fun x c => x.add (toDouble c)) Double.zero

def extreme (wanted : Ordering) : List Cell → Cell
  | [] => .null
  | c :: rest => rest.foldl (fun best c => if c.order best == wanted then c else best) c

/-- An aggregate of the cells of a group. -/
def aggregateCells (f : Aggregate) (isDocument : Bool) (cells : List Cell) : Except Fault Cell :=
  let known := cells.filter fun c => !c.isNull
  match f with
  | .countAll => .ok (.integer (Int64.ofNat cells.length))
  | .count => .ok (.integer (Int64.ofNat known.length))
  | .sum => if known.isEmpty then .ok .null else sumCells known
  | .total => .ok (Cell.ofDouble (totalOf known))
  | .average =>
    if known.isEmpty then .ok .null
    else .ok (Cell.ofDouble ((totalOf known).div (Double.ofInt known.length)))
  | .least => .ok (extreme .lt known)
  | .greatest => .ok (extreme .gt known)
  | .groupArray => do
    let texts ← cells.mapM (Document.ofCell isDocument)
    return .text ("[" ++ Text.joinWith "," texts ++ "]")

mutual

def eval (env : Env) : Term → Except Fault Cell
  | .cell c => .ok c
  | .parameter n => .ok (env.params.getD (n - 1) .null)
  | .column place _ => .ok (env.row.getD place .null)
  | .negate t => do return negateCell (← t.eval env)
  | .not t => do return .ofTruth ((← t.eval env).truth?.map (!·))
  | .and a b => do
    match (← a.eval env).truth?, (← b.eval env).truth? with
    | some false, _ => return .ofBool false
    | _, some false => return .ofBool false
    | some true, some true => return .ofBool true
    | _, _ => return .null
  | .or a b => do
    match (← a.eval env).truth?, (← b.eval env).truth? with
    | some true, _ => return .ofBool true
    | _, some true => return .ofBool true
    | some false, some false => return .ofBool false
    | _, _ => return .null
  | .compare op c a b => do
    let (x, y) := c.apply (← a.eval env) (← b.eval env)
    return compareCells op x y
  | .like a b => do return likeCells (← a.eval env) (← b.eval env)
  | .arithmetic op a b => do return arithmeticCells op (← a.eval env) (← b.eval env)
  | .concat a b => do return concatCells (← a.eval env) (← b.eval env)
  | .caseOf branches otherwise => do
    match ← evalBranches env branches with
    | some c => return c
    | none => otherwise.eval env
  | .call f args => do callCells f (← evalArgs env args)
  | .aggregate f arg filter => do
    let cells ← env.group.filterMapM fun row => do
      let inner : Env := ⟨row, env.params, []⟩
      if (← filter.eval inner).truth? = some true then return some (← arg.eval inner) else return none
    aggregateCells f arg.isDocument cells

/-- The result of the first branch whose condition holds. -/
def evalBranches (env : Env) : List (Term × Term) → Except Fault (Option Cell)
  | [] => .ok none
  | (condition, result) :: rest => do
    if (← condition.eval env).truth? = some true then return some (← result.eval env)
    else evalBranches env rest

/-- The arguments, each with whether it is a document. -/
def evalArgs (env : Env) : List Term → Except Fault (List (Bool × Cell))
  | [] => .ok []
  | t :: rest => do
    let c ← t.eval env
    return (t.isDocument, c) :: (← evalArgs env rest)

end

mutual

/-- Whether an aggregate stands in the term. -/
def hasAggregate : Term → Bool
  | .negate t => t.hasAggregate
  | .not t => t.hasAggregate
  | .and a b => a.hasAggregate || b.hasAggregate
  | .or a b => a.hasAggregate || b.hasAggregate
  | .compare _ _ a b => a.hasAggregate || b.hasAggregate
  | .like a b => a.hasAggregate || b.hasAggregate
  | .arithmetic _ a b => a.hasAggregate || b.hasAggregate
  | .concat a b => a.hasAggregate || b.hasAggregate
  | .caseOf branches otherwise => branchesHaveAggregate branches || otherwise.hasAggregate
  | .call _ args => anyHasAggregate args
  | .aggregate .. => true
  | _ => false

def branchesHaveAggregate : List (Term × Term) → Bool
  | [] => false
  | (a, b) :: rest => a.hasAggregate || b.hasAggregate || branchesHaveAggregate rest

def anyHasAggregate : List Term → Bool
  | [] => false
  | t :: rest => t.hasAggregate || anyHasAggregate rest

end

mutual

/-- The places of the row that a term reads. -/
def places : Term → List Nat
  | .column place _ => [place]
  | .negate t => t.places
  | .not t => t.places
  | .and a b => a.places ++ b.places
  | .or a b => a.places ++ b.places
  | .compare _ _ a b => a.places ++ b.places
  | .like a b => a.places ++ b.places
  | .arithmetic _ a b => a.places ++ b.places
  | .concat a b => a.places ++ b.places
  | .caseOf branches otherwise => branchPlaces branches ++ otherwise.places
  | .call _ args => allPlaces args
  | .aggregate _ arg filter => arg.places ++ filter.places
  | _ => []

def branchPlaces : List (Term × Term) → List Nat
  | [] => []
  | (a, b) :: rest => a.places ++ b.places ++ branchPlaces rest

def allPlaces : List Term → List Nat
  | [] => []
  | t :: rest => t.places ++ allPlaces rest

end

end Term
end Relata.Sqlite
