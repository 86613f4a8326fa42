import Relata.Sqlite.Term

/-!
The columns that an expression may name, and the resolution of names to places in the row.
-/
namespace Relata.Sqlite

structure ScopeColumn where
  table : String
  name : String
  affinity : Affinity
  /-- Not among the columns that a star stands for. -/
  isHidden : Bool
  deriving Repr

abbrev Scope := List ScopeColumn

namespace Scope

/-- The names of the number of a row. -/
def rowNumberNames : List String := ["rowid", "_rowid_", "oid"]

def inTable (table : Option String) (c : ScopeColumn) : Bool :=
  match table with
  | none => true
  | some t => Text.sameAsciiLetters c.table t

/-- The places of the columns that a name can mean. -/
def places (s : Scope) (table : Option String) (name : String) : List (Nat × ScopeColumn) :=
  let all := s.zipIdx.map fun p => (p.2, p.1)
  let shown := all.filter fun p =>
    !p.2.isHidden && inTable table p.2 && Text.sameAsciiLetters p.2.name name
  if shown.isEmpty && rowNumberNames.contains (Text.lowerAscii name) then
    all.filter fun p => p.2.isHidden && inTable table p.2
  else shown

def fullName (table : Option String) (name : String) : String :=
  match table with
  | some t => t ++ "." ++ name
  | none => name

/-- What a name that is no column stands for: a text if it is quoted, else perhaps a truth value. -/
def constant? (name : Name) : Option Cell :=
  if name.isQuoted then some (.text name.text)
  else
    match Text.lowerAscii name.text with
    | "true" => some (.ofBool true)
    | "false" => some (.ofBool false)
    | _ => none

def column (s : Scope) (table : Option String) (name : Name) : Except Fault Term :=
  match s.places table name.text with
  | [(place, c)] => .ok (.column place c.affinity)
  | [] =>
    match if table.isNone then constant? name else none with
    | some c => .ok (.cell c)
    | none => .error (.noSuchColumn (fullName table name.text))
  | _ => .error (.ambiguousColumn (fullName table name.text))

def aggregate? (name : String) (star : Bool) (args : Nat) : Option Aggregate :=
  match name, star, args with
  | "count", true, _ => some .countAll
  | "count", false, 0 => some .countAll
  | "count", false, 1 => some .count
  | "sum", false, 1 => some .sum
  | "total", false, 1 => some .total
  | "avg", false, 1 => some .average
  | "min", false, 1 => some .least
  | "max", false, 1 => some .greatest
  | "json_group_array", false, 1 => some .groupArray
  | _, _, _ => none

def function? (name : String) (args : Nat) : Option Function :=
  match name with
  | "typeof" => if args = 1 then some .typeOf else none
  | "coalesce" => if 2 ≤ args then some .coalesce else none
  | "ifnull" => if args = 2 then some .coalesce else none
  | "json_object" => if args % 2 = 0 then some .object else none
  | "length" => if args = 1 then some .length else none
  | "lower" => if args = 1 then some .lower else none
  | "upper" => if args = 1 then some .upper else none
  | "abs" => if args = 1 then some .abs else none
  | _ => none

def knownNames : List String :=
  ["count", "sum", "total", "avg", "min", "max", "json_group_array", "typeof", "coalesce", "ifnull",
    "json_object", "length", "lower", "upper", "abs"]

/-- The number of arguments that a call may have. -/
def mostArguments : Nat := 127

def unknownCall (name : String) : Fault :=
  if knownNames.contains name then .wrongArguments name else .noSuchFunction name

def compareTerms (op : BinaryOp) (a b : Term) : Term :=
  .compare op (Coercion.ofSides a.affinity? b.affinity?) a b

def binary (op : BinaryOp) (a b : Term) : Term :=
  match op with
  | .or => .or a b
  | .and => .and a b
  | .like => .like a b
  | .notLike => .not (.like a b)
  | .add | .sub | .mul | .div | .rem => .arithmetic op a b
  | .concat => .concat a b
  | op => compareTerms op a b

mutual

/-- The term of an expression; aggregates are refused where they make no sense. -/
def resolve (s : Scope) (aggregates : Bool) : Expr → Except Fault Term
  | .literal c => .ok (.cell c)
  | .parameter n => .ok (.parameter n)
  | .column table name => s.column table name
  | .unary .negate e => do return .negate (← resolve s aggregates e)
  | .unary .not e => do return .not (← resolve s aggregates e)
  | .binary op a b => do return binary op (← resolve s aggregates a) (← resolve s aggregates b)
  | .caseOf operand branches otherwise => do
    let operand ← match operand with
      | some e => (resolve s aggregates e).map some
      | none => .ok none
    let branches ← resolveBranches s aggregates operand branches
    match otherwise with
    | some e => return .caseOf branches (← resolve s aggregates e)
    | none => return .caseOf branches (.cell .null)
  | .call name star args filter => do
    if mostArguments < args.length then .error (.tooManyArguments name)
    match aggregate? name star args.length with
    | some f =>
      if !aggregates then .error (.misusedAggregate name)
      else
        let terms ← resolveAll s false args
        let filter ← match filter with
          | some e => resolve s false e
          | none => .ok (.cell (.integer 1))
        return .aggregate f (terms.headD (.cell (.integer 1))) filter
    | none =>
      match if star || filter.isSome then none else function? name args.length with
      | some f => return .call f (← resolveAll s aggregates args)
      | none => .error (unknownCall name)

def resolveAll (s : Scope) (aggregates : Bool) : List Expr → Except Fault (List Term)
  | [] => .ok []
  | e :: rest => do return (← resolve s aggregates e) :: (← resolveAll s aggregates rest)

/-- Conditions of branches; with an operand they are comparisons with it. -/
def resolveBranches (s : Scope) (aggregates : Bool) (operand : Option Term) :
    List (Expr × Expr) → Except Fault (List (Term × Term))
  | [] => .ok []
  | (condition, result) :: rest => do
    let c ← resolve s aggregates condition
    let r ← resolve s aggregates result
    let others ← resolveBranches s aggregates operand rest
    return ((operand.map fun x => compareTerms .eq x c).getD c, r) :: others

end

/-- A condition that always holds if none is given. -/
def condition (s : Scope) : Option Expr → Except Fault Term
  | some e => s.resolve false e
  | none => .ok (.cell (.integer 1))

/-- A column of the result with its name. -/
abbrev Output := String × Term

/-- The columns that a star stands for. -/
def star (s : Scope) (table : Option String) : List Output :=
  (s.zipIdx.filter fun p => !p.1.isHidden && inTable table p.1).map fun p =>
    (p.1.name, .column p.2 p.1.affinity)

/-- The name of a column of the result: its label, else the name of the column that it is, else its
source. -/
def outputName (s : Scope) (label : Option String) (t : Term) (source : String) : String :=
  match label, t with
  | some a, _ => a
  | none, .column place _ => ((s[place]?).map ScopeColumn.name).getD source
  | none, _ => source

def outputs (s : Scope) (aggregates : Bool) : List ResultColumn → Except Fault (List Output)
  | [] => .ok []
  | .star :: rest => do return s.star none ++ (← outputs s aggregates rest)
  | .tableStar t :: rest => do
    let found := s.star (some t)
    if found.isEmpty then .error (.noSuchTable t)
    else return found ++ (← outputs s aggregates rest)
  | .expr e a source :: rest => do
    let t ← s.resolve aggregates e
    return (s.outputName a t source, t) :: (← outputs s aggregates rest)

end Scope
end Relata.Sqlite
