import Relata.Sqlite.Driver
import Relata.Sqlite.Route
import Relata.Sqlite.Scope

/-!
Queries: sources joined row by row, conditions, groups, order and limits.
-/
namespace Relata.Sqlite

/-- What the rows of a source come from: a stored table, the catalog of tables, or the catalog of the
columns of the table that a term names. -/
inductive Origin where
  | stored (table : String)
  | catalog
  | columnsOf (table : Term)
  deriving Repr

namespace Origin

/-- The columns of a stored table, and the number of the row as a hidden last one, which is called
like the column that it is. -/
def storedScope (name : String) (s : Shape) : Scope :=
  let number := (s.rowNumber.bind fun i => s.columns[i]?).map TableColumn.name
  (s.columns.map fun c => ⟨name, c.name, c.affinity, false⟩) ++
    [⟨name, number.getD "rowid", .integer, true⟩]

def storedRow (r : StoredRow) : List Cell := r.cells ++ [.integer (Int64.ofInt r.number)]

def visible (table : String) (columns : List (String × Affinity)) : Scope :=
  columns.map fun c => ⟨table, c.1, c.2, false⟩

def catalogColumns : List (String × Affinity) := [("type", .text), ("name", .text), ("tbl_name", .text)]

def catalogRows (c : Content) : List (List Cell) :=
  c.tables.flatMap fun t =>
    let n := Cell.text t.shape.name
    let keys := (t.shape.columns.filter fun c => c.isUnique).zipIdx.map fun p =>
      [Cell.text "index",
        .text ("sqlite_autoindex_" ++ t.shape.name ++ "_" ++ Nat.repr (p.2 + 1)), n]
    [Cell.text "table", n, n] :: keys

def infoColumns : List (String × Affinity) :=
  [("cid", .integer), ("name", .text), ("type", .text), ("notnull", .integer),
    ("dflt_value", .blob), ("pk", .integer)]

def infoRows (c : Content) (table : Cell) : List (List Cell) :=
  let columns := match table.toText?.bind c.table? with
    | some t => t.shape.columns
    | none => []
  columns.zipIdx.map fun p =>
    [.integer (Int64.ofNat p.2), .text p.1.name, .text p.1.type, .ofBool p.1.notNull, .null,
      .ofBool p.1.isPrimaryKey]

def rows (c : Content) (params : List Cell) : Origin → Except Fault (List (List Cell))
  | .stored table => .ok (((c.table? table).map fun t => t.rows.map storedRow).getD [])
  | .catalog => .ok (catalogRows c)
  | .columnsOf table => do return infoRows c (← table.eval ⟨[], params, []⟩)

/-- What a source means, and its columns. -/
def ofSource (c : Content) (s : Source) : Except Fault (Origin × Scope) := do
  let name := s.label.getD s.name
  match s.args with
  | some args =>
    if Text.lowerAscii s.name = "pragma_table_info" then
      let terms ← Scope.resolveAll [] false args
      return (.columnsOf (terms.headD (.cell .null)), visible name infoColumns)
    else .error (.noSuchTable s.name)
  | none =>
    match c.table? s.name with
    | some t => return (.stored s.name, storedScope name t.shape)
    | none =>
      if Content.catalogNames.contains (Text.lowerAscii s.name) then
        return (.catalog, visible name catalogColumns)
      else .error (.noSuchTable s.name)

end Origin

/-- A further source of a query, and the condition under which its rows are joined to a row. -/
structure JoinPlan where
  keepsLeft : Bool
  origin : Origin
  width : Nat
  on : Term
  deriving Repr

/-- A query whose names are resolved. Its rows are those of the first source, or one row without
columns, joined with those of the others. -/
structure Query where
  origin : Option Origin
  joins : List JoinPlan
  width : Nat
  condition : Term
  groupBy : List Term
  outputs : List Scope.Output
  orderBy : List (Term × Bool)
  limit : Option Term
  offset : Option Term
  /-- The places by which the joined rows are ordered, with what descends. -/
  visits : List (Nat × Bool)
  /-- In that order the rows of a group stand together. -/
  groupsTogether : Bool
  deriving Repr

namespace Query

/-- The names of result columns that a bare name in an order may mean. -/
def orderTerm (scope : Scope) (outputs : List Scope.Output) (e : Expr) : Except Fault Term :=
  let resolved := scope.resolve true e
  match e with
  | .column none name =>
    match outputs.find? fun o => Text.sameAsciiLetters o.1 name.text with
    | some o => .ok o.2
    | none => resolved
  | .literal (.integer n) =>
    match if 0 < n then outputs[n.toInt.toNat - 1]? else none with
    | some o => .ok o.2
    | none => resolved
  | _ => resolved

/-- A term in which no column may stand. -/
def constant? : Option Expr → Except Fault (Option Term)
  | none => .ok none
  | some e => (Scope.resolve [] false e).map some

def isStar : ResultColumn → Bool
  | .star => true
  | _ => false

/-- The stored tables that a query joins, if all of its sources are such. -/
def legs? (c : Content) : Nat → List (Origin × Bool) → Option (List Leg)
  | _, [] => some []
  | start, (.stored table, keepsLeft) :: rest => do
    let t ← c.table? table
    let others ← legs? c (start + t.shape.columns.length + 1) rest
    return ⟨start, t.shape, keepsLeft⟩ :: others
  | _, _ => none

/-- A limit that is written as a number. -/
def fixedLimit : Option Term → Option Nat
  | some (.cell (.integer n)) =>
    if 0 < n.toInt ∧ n.toInt ≤ Int32.maxValue.toInt then some n.toInt.toNat else none
  | _ => none

/-- The columns that two lists of terms mean are the same, one by one. -/
def sameColumns (legs : List Leg) (as bs : List Term) : Bool :=
  as.length == bs.length && (as.zip bs).all fun p =>
    match p.1 with
    | .column place _ => legs.any fun l => l.holds place && Trip.isColumn l (some (l.settle place)) p.2
    | _ => false

/-- The directions in which groups are sorted: those of the order, if there are as many. -/
def groupDirections (q : Query) : List Bool :=
  if q.orderBy.length = q.groupBy.length then q.orderBy.map Prod.snd
  else q.groupBy.map fun _ => false

/-- What a route is looked for. -/
def trip (q : Query) (legs : List Leg) : Trip :=
  let ons := Term.cell (.integer 1) :: q.joins.map JoinPlan.on
  let joined := Constraint.settleLegs (Constraint.conjuncts q.condition) (legs.zip ons)
  let terms := q.outputs.map Prod.snd ++ q.condition :: ons ++ q.groupBy ++ q.orderBy.map Prod.fst
  { legs := joined.map Prod.fst
    constraints := Constraint.ofQuery q.condition joined
    used := Term.allPlaces terms
    order := if q.groupBy.isEmpty then q.orderBy else q.groupBy.zip q.groupDirections
    isGrouping := !q.groupBy.isEmpty
    outputs := q.outputs.length
    limit := if q.groupBy.isEmpty then fixedLimit q.limit else none }

/-- Along a route that also gives the order of the groups, that order is kept. -/
def directed (q : Query) (t : Trip) (r : Route) : Route :=
  if t.isGrouping && r.isOrdered t && sameColumns t.legs q.groupBy (q.orderBy.map Prod.fst) then
    match OrderState.ofLoops { t with isGrouping := false } r.loops with
    | (some n, reversed) => if n = t.order.length then { r with reversed := reversed } else r
    | _ => r
  else r

/-- The query with the order in which its rows are visited. -/
def routed (q : Query) (legs : List Leg) : Query :=
  let t := q.trip legs
  match Route.best t with
  | some r => { q with visits := (q.directed t r).visits t, groupsTogether := r.isOrdered t }
  | none => q

/-- The number of tables that a query may join. -/
def mostTables : Nat := 64

/-- Settles what a query means: its sources first, then its names. -/
def ofStatement (c : Content) (s : SelectStatement) : Except Fault Query := do
  if mostTables ≤ s.joins.length then .error .tooManyTables
  let first ← s.source.mapM (Origin.ofSource c)
  let others ← s.joins.mapM fun j => do return (j, ← Origin.ofSource c j.source)
  let firstScope := (first.map Prod.snd).getD []
  let scope := firstScope ++ others.flatMap fun o => o.2.2
  let joins ← others.mapM fun o => do
    return (⟨o.1.keepsLeft, o.2.1, o.2.2.length, ← scope.condition o.1.on⟩ : JoinPlan)
  let condition ← scope.condition s.condition
  let groupBy ← scope.resolveAll false s.groupBy
  let outputs ←
    if s.source.isNone && s.columns.any isStar then .error .noTables
    else scope.outputs true s.columns
  let orderBy ← s.orderBy.mapM fun o => do return (← orderTerm scope outputs o.1, o.2)
  let limit ← constant? s.limit
  let offset ← constant? s.offset
  let q : Query :=
    { origin := first.map Prod.fst
      joins := joins
      width := scope.length
      condition := condition
      groupBy := groupBy
      outputs := outputs
      orderBy := orderBy
      limit := limit
      offset := offset
      visits := []
      groupsTogether := false }
  let sources := (q.origin.toList.map fun o => (o, false)) ++ joins.map fun j => (j.origin, j.keepsLeft)
  return ((legs? c 0 sources).map q.routed).getD q

/-- The right rows for which the condition holds together with the left row; where none does, a left
row that is kept stands alone. -/
def joinRow (params : List Cell) (j : JoinPlan) (right : List (List Cell)) (row : List Cell) :
    Except Fault (List (List Cell)) := do
  let matching ← right.filterM fun r => do
    return (← j.on.eval ⟨row ++ r, params, []⟩).truth? = some true
  if matching.isEmpty && j.keepsLeft then return [row ++ List.replicate j.width .null]
  else return matching.map (row ++ ·)

/-- Joins further sources, one after the other. -/
def joinAll (c : Content) (params : List Cell) (left : List (List Cell)) :
    List JoinPlan → Except Fault (List (List Cell))
  | [] => .ok left
  | j :: rest => do
    let right ← j.origin.rows c params
    let rows ← left.mapM (joinRow params j right)
    joinAll c params rows.flatten rest

def compareKeys : List (Cell × Bool) → List (Cell × Bool) → Ordering
  | (a, down) :: as, (b, _) :: bs =>
    let o := a.order b
    (if down then o.swap else o).then (compareKeys as bs)
  | _, _ => .eq

/-- The items by their keys; items with equal keys keep their order. -/
def sortByKeys {α : Type} (items : List (List (Cell × Bool) × α)) : List α :=
  (items.mergeSort fun a b => compareKeys a.1 b.1 != .gt).map Prod.snd

/-- Rows with equal keys together, in the order of the keys unless they stand together already. -/
def groups (together : Bool) (keyed : List (List (Cell × Bool) × List Cell)) :
    List (List (List Cell)) :=
  let sorted := if together then keyed else sortByKeys (keyed.map fun k => (k.1, k))
  (sorted.splitBy fun a b => compareKeys a.1 b.1 == .eq).map fun g => g.map Prod.snd

/-- The rows in the order in which they are visited. -/
def visited (q : Query) (rows : List (List Cell)) : List (List Cell) :=
  sortByKeys (rows.map fun r => (q.visits.map fun v => (r.getD v.1 .null, v.2), r))

/-- A limit or an offset as an integer. -/
def countOf (params : List Cell) : Option Term → Except Fault (Option Int)
  | none => .ok none
  | some t => do
    match Affinity.toNumeric (← t.eval ⟨[], params, []⟩) with
    | .integer n => return some n.toInt
    | _ => .error .datatypeMismatch

def cut {α : Type} (limit offset : Option Int) (items : List α) : List α :=
  let items := items.drop ((offset.getD 0).toNat)
  match limit with
  | some n => if n < 0 then items else items.take n.toNat
  | none => items

def isAggregated (q : Query) : Bool :=
  (q.outputs.any fun o => o.2.hasAggregate) || q.orderBy.any fun o => o.1.hasAggregate

/-- What the columns of each row of the result are evaluated on. -/
def envs (q : Query) (params : List Cell) (rows : List (List Cell)) : Except Fault (List Term.Env) :=
  if !q.groupBy.isEmpty then do
    let keyed ← rows.mapM fun r => do
      let keys ← q.groupBy.mapM fun t => t.eval ⟨r, params, []⟩
      return (keys.zip q.groupDirections, r)
    return (groups q.groupsTogether keyed).map fun g => ⟨g.headD [], params, g⟩
  else if q.isAggregated then
    .ok [⟨rows.headD (List.replicate q.width .null), params, rows⟩]
  else .ok (rows.map fun r => ⟨r, params, []⟩)

def run (q : Query) (c : Content) (params : List Cell) : Except Fault ResultSet := do
  let limit ← countOf params q.limit
  let offset ← countOf params q.offset
  let first ← match q.origin with
    | some o => o.rows c params
    | none => .ok [[]]
  let joined ← joinAll c params first q.joins
  let kept ← joined.filterM fun r => do
    return (← q.condition.eval ⟨r, params, []⟩).truth? = some true
  let keyed ← (← q.envs params (q.visited kept)).mapM fun env => do
    return (← q.orderBy.mapM fun o => do return (← o.1.eval env, o.2), env)
  let rows ← (cut limit offset (sortByKeys keyed)).mapM fun env =>
    q.outputs.mapM fun o => o.2.eval env
  return ⟨q.outputs.map Prod.fst, rows⟩

end Query
end Relata.Sqlite
