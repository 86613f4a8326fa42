import Relata.Sqlite.Constraint

/-!
The order in which the rows of a query are visited. Each table is reached in one of several ways, one
table inside the other; the route of the least estimated work is taken. A route changes the order of
the rows of a result alone, and which routes there are does not depend on what the tables hold.
-/
namespace Relata.Sqlite

/-- How the rows of a table are reached. -/
inductive Access where
  /-- In the order of their numbers. -/
  | scan
  /-- By a value that at most one row has. -/
  | single
  /-- By a value that many rows may have. They come in the order of the columns that the query
  uses. -/
  | gathered
  /-- In the order of a column that tells rows apart. -/
  | sorted (place : Nat) (nullable : Bool)
  deriving DecidableEq, Repr

/-- One way to reach a table, and the estimated work of it. -/
structure Loop where
  leg : Nat
  access : Access
  /-- The legs that have to be reached before. -/
  needs : List Nat
  setup : Weight
  run : Weight
  rows : Weight
  /-- It looks up a value, or keeps to a range of values. -/
  isBounded : Bool
  isLookup : Bool
  /-- The loop may help with the order that is wanted; zero if not. -/
  sortClass : Nat
  deriving Repr

/-- What a route is looked for. -/
structure Trip where
  legs : List Leg
  constraints : List Constraint
  /-- The places that the query reads. -/
  used : List Nat
  /-- The wanted order, with what is to descend. -/
  order : List (Term × Bool)
  /-- Rows that are equal by the order have to stand together, and no more. -/
  isGrouping : Bool
  outputs : Nat
  limit : Option Nat
  deriving Repr

namespace Trip

/-- The weight of a table whose size is not known. -/
def tableRows : Weight := 200

/-- The work of finding one entry of a search tree over a table. -/
def lookupRun : Weight := Weight.depth tableRows

/-- The rows that remain of a leg once all that is known about it has been checked. -/
def rowsLeft (t : Trip) (leg : Nat) (needs spent : List Nat) (rows : Weight) : Weight :=
  let checked := (t.constraints.zipIdx.filter fun c =>
    !spent.contains c.2 && c.1.legs.contains leg &&
      c.1.legs.all fun l => l == leg || needs.contains l).map Prod.fst
  min (rows - checked.length) (tableRows - (checked.map Constraint.narrowing).foldl max 0)

/-- The legs that have to come before a leg that keeps the rows to its left. -/
def before (i : Nat) (l : Leg) : List Nat := if l.keepsLeft then List.range i else []

/-- The legs of both lists, each once. -/
def united (a b : List Nat) : List Nat := (a ++ b).eraseDups

/-- The ways into a leg; one that keeps the rows to its left is entered by its own condition. -/
def approachesTo (t : Trip) (i : Nat) (l : Leg) : List Approach :=
  (Constraint.allApproaches t.legs t.constraints).filter fun a =>
    a.leg == i && (!l.keepsLeft || a.owner == some i)

/-- The loops over an index that is built for this query alone: one for each equality of a column that
is not the number of the row. -/
def gatheredLoops (i : Nat) (l : Leg) (approaches : List Approach) : List Loop :=
  (approaches.filter fun a => a.op == .eq && a.fits && a.place != l.rowPlace).map fun a =>
    { leg := i
      access := .gathered
      needs := united (before i l) a.needs
      setup := lookupRun + tableRows + 28
      run := Weight.sum lookupRun 43
      rows := 43
      isBounded := false
      isLookup := false
      sortClass := 0 }

/-- The pairs of a lower and an upper bound, each of them alone included. -/
def ranges (approaches : List Approach) : List (List Approach) :=
  let lower := approaches.filter fun a => a.op == .gt || a.op == .ge
  let upper := approaches.filter fun a => a.op == .lt || a.op == .le
  lower.flatMap (fun a => [a] :: upper.map fun b => [a, b]) ++ upper.map fun b => [b]

/-- How many rows a range is thought to leave, by the number of its bounds. -/
def rangeRows (bounds : Nat) : Weight := if bounds = 1 then tableRows - 20 else tableRows - 60

/-- The loops over a key: all of it, one value, or a range. `walk` is the work of reaching a number
of entries, `whole` that of all of them, if that is a loop at all. -/
def keyLoops (t : Trip) (i : Nat) (l : Leg) (sortClass : Nat) (all : Access) (whole : Option Weight)
    (walk : Weight → Weight) (approaches : List Approach) : List Loop :=
  let loop (access : Access) (used : List Approach) (run rows : Weight) : Loop :=
    let needs := used.foldl (fun ns a => united ns a.needs) (before i l)
    { leg := i
      access := access
      needs := needs
      setup := 0
      run := run
      rows := t.rowsLeft i needs (used.map Approach.source) rows
      isBounded := !used.isEmpty
      isLookup := access == .single
      sortClass := if used.isEmpty || whole.isSome then sortClass else 0 }
  let full := whole.toList.map fun run => loop all [] run tableRows
  let lookups := (approaches.filter fun a => a.op == .eq).map fun a => loop .single [a] (walk 0) 0
  let bounded := (ranges approaches).map fun bounds =>
    let rows := rangeRows bounds.length
    loop all bounds (walk rows) rows
  full ++ lookups ++ bounded

/-- The term is a column of the leg, the one at this place if it is given. -/
def isColumn (l : Leg) (place : Option Nat) : Term → Bool
  | .column p _ => l.holds p && place.all fun q => l.settle p == q
  | _ => false

/-- The column at a place is part of the wanted order. -/
def wants (t : Trip) (l : Leg) (place : Nat) : Bool := t.order.any fun o => isColumn l (some place) o.1

/-- A loop in the order of a column may help if that column or the number of the row is wanted. -/
def keyWanted (t : Trip) (l : Leg) (place : Nat) : Bool := t.wants l l.rowPlace || t.wants l place

/-- The width of columns, texts and bytes being wider. -/
def width (cs : List TableColumn) : Nat :=
  (cs.map fun c => if c.affinity.isNumeric then 1 else 5).foldl (· + ·) 0

def tableWidth (s : Shape) : Weight :=
  Weight.ofCount (4 * (width s.columns + if s.rowNumber.isSome then 0 else 1))

def keyWidth (c : TableColumn) : Weight := Weight.ofCount (4 * (width [c] + 1))

/-- The columns of a leg that the query reads, the number of the row aside. -/
def usedColumns (t : Trip) (l : Leg) : List Nat :=
  (List.range l.shape.columns.length).filterMap fun k =>
    let place := l.start + k
    if l.settle place = place && t.used.contains place then some place else none

/-- What an entry of an index leaves to be checked on the row itself: the constraints up to the first
that reads other columns need no row. A comparison of two columns counts from both sides. -/
def sparedLookups (t : Trip) (l : Leg) (place : Nat) : Weight :=
  let isCovered (c : Constraint) : Bool := c.term.places.all fun p =>
    !l.holds p || [place, l.rowPlace].contains (l.settle p)
  let covered := t.constraints.takeWhile isCovered
  let twoSided := t.constraints.filter fun c =>
    let sides := Constraint.approaches t.legs 0 c
    sides.1.isSome && sides.2.isSome
  let counted := if covered.length = t.constraints.length then covered ++ twoSided else covered
  (counted.map fun c => if c.narrowing = 0 then 1 else 20).foldl (· + ·) 0

/-- The loops over a column that tells rows apart. -/
def columnLoops (t : Trip) (i : Nat) (l : Leg) (sortClass : Nat) (k : Nat) (c : TableColumn)
    (approaches : List Approach) : List Loop :=
  let place := l.start + k
  let covers := (t.usedColumns l).all (· == place)
  let step := 1 + 15 * keyWidth c / tableWidth l.shape
  let withRows (run rows : Weight) : Weight := if covers then run else Weight.sum run (rows + 16)
  let whole :=
    if t.keyWanted l place || (covers && keyWidth c < tableWidth l.shape) then
      some (withRows (tableRows + step) (tableRows - t.sparedLookups l place))
    else none
  keyLoops t i l (if t.keyWanted l place then sortClass else 0) (.sorted place !c.notNull) whole
    (fun rows => withRows (Weight.sum lookupRun (rows + step)) rows)
    (approaches.filter fun a => a.place == place && a.fits)

/-- All loops of a leg. -/
def loopsOf (t : Trip) (i : Nat) (l : Leg) : List Loop :=
  let approaches := t.approachesTo i l
  let keys := (l.shape.columns.zipIdx.filter fun c => c.1.isUnique).reverse
  gatheredLoops i l approaches ++
    keyLoops t i l (if t.wants l l.rowPlace then 1 else 0) .scan (some (tableRows + 16))
      (fun rows => Weight.sum lookupRun (rows + 16))
      (approaches.filter fun a => a.place == l.rowPlace) ++
    keys.zipIdx.flatMap fun k => t.columnLoops i l (k.2 + 2) k.1.2 k.1.1 approaches

/-- A loop that asks for no more than another and is no more work. -/
def isNoWorse (a b : Loop) : Bool :=
  a.leg == b.leg && a.sortClass == b.sortClass && a.needs.all b.needs.contains &&
    decide (a.setup ≤ b.setup ∧ a.run ≤ b.run ∧ a.rows ≤ b.rows)

/-- Adds a loop, unless one is no worse, in place of those that it is no worse than. -/
def addLoop (loops : List Loop) (l : Loop) : List Loop :=
  if loops.any fun k => isNoWorse k l then loops
  else
    match loops.findIdx? (isNoWorse l) with
    | some n => loops.take n ++ l :: (loops.drop (n + 1)).filter fun k => !isNoWorse l k
    | none => loops ++ [l]

def loops (t : Trip) : List Loop :=
  (t.legs.zipIdx.flatMap fun l => t.loopsOf l.2 l.1).foldl addLoop []

end Trip

/-- How much of a wanted order the loops of a route give. -/
structure OrderState where
  /-- The terms of the order that are settled. -/
  settled : List Nat
  /-- No two rows so far are equal. -/
  isDistinct : Bool
  distinctLegs : List Nat
  /-- The loops that go backwards. -/
  reversed : List Nat
  deriving Repr

namespace OrderState

def start : OrderState := ⟨[], true, [], []⟩

def openTerms (t : Trip) (s : OrderState) : List (Nat × Term × Bool) :=
  (t.order.zipIdx.map fun o => (o.2, o.1)).filter fun o => !s.settled.contains o.1

/-- A column that is equal to what other legs give is settled. -/
def settleEqual (t : Trip) (i : Nat) (l : Leg) (ready : List Nat) (s : OrderState) : OrderState :=
  let equal := (Constraint.allApproaches t.legs t.constraints).filter fun a =>
    a.leg == i && a.op == .eq && a.needs.all ready.contains
  let found := (openTerms t s).filter fun o =>
    equal.any fun a => Trip.isColumn l (some a.place) o.2.1
  { s with settled := s.settled ++ found.map Prod.fst }

/-- Follows the columns by which a loop is ordered, each with whether it may be null; the loop is
the `n`th of its route. `reverse` is the direction of the loop, if it is settled. -/
def follow (t : Trip) (n : Nat) (l : Leg) (isFirst : Bool) (reverse : Option Bool) :
    List (Nat × Bool) → OrderState → OrderState
  | [], s => s
  | (place, nullable) :: rest, s =>
    let s := { s with isDistinct := s.isDistinct && !nullable }
    let candidates := openTerms t s
    let candidates := if t.isGrouping then candidates else candidates.take 1
    let found := candidates.find? fun o => Trip.isColumn l (some place) o.2.1
    let found := found.filter fun o => t.isGrouping || reverse.all (· == o.2.2)
    match found with
    | none => { s with isDistinct := s.isDistinct && !isFirst }
    | some o =>
      let descends := !t.isGrouping && o.2.2
      let s :=
        { s with
          settled := s.settled ++ [o.1]
          reversed := if descends && reverse.isNone then s.reversed ++ [n] else s.reversed }
      let reverse := if t.isGrouping then none else some o.2.2
      let s := follow t n l false reverse rest s
      if place = l.rowPlace then { s with isDistinct := true } else s

/-- Where rows are told apart already, what further terms read of them is settled. -/
def settleDistinct (t : Trip) (i : Nat) (s : OrderState) : OrderState :=
  if s.isDistinct then
    let legs := s.distinctLegs ++ [i]
    let found := (openTerms t s).filter fun o =>
      (Constraint.legsOf t.legs o.2.1).all legs.contains
    { s with settled := s.settled ++ found.map Prod.fst, distinctLegs := legs }
  else s

/-- Follows the loops of a route, the `n`th and those inside it; none if one of them has no order
to speak of. -/
def followAll (t : Trip) (n : Nat) (ready : List Nat) :
    List Loop → OrderState → Option OrderState
  | [], s => some s
  | k :: rest, s =>
    match t.legs[k.leg]? with
    | none => some s
    | some l =>
      if !s.isDistinct || s.settled.length = t.order.length then some s
      else
        let s := settleEqual t k.leg l ready s
        let next (s : OrderState) : Option OrderState :=
          followAll t (n + 1) (ready ++ [k.leg]) rest (settleDistinct t k.leg s)
        match k.access with
        | .single => next s
        | .scan => next (follow t n l true none [(l.rowPlace, false)] s)
        | .sorted place nullable =>
          next (follow t n l true none [(place, nullable), (l.rowPlace, false)] s)
        | .gathered => none

/-- How many terms of the order a route gives, and the loops that go backwards for it; no number if
further loops will tell. -/
def ofLoops (t : Trip) (loops : List Loop) : Option Nat × List Nat :=
  match followAll t 0 [] loops start with
  | none => (some 0, [])
  | some s =>
    let count := ((List.range t.order.length).takeWhile s.settled.contains).length
    if s.settled.length = t.order.length then (some t.order.length, s.reversed)
    else if s.isDistinct then (none, s.reversed)
    else (some count, s.reversed)

end OrderState

/-- Loops from the outermost to the innermost. -/
structure Route where
  loops : List Loop
  rows : Weight
  /-- The work, the sorting of what comes out of order included. -/
  cost : Weight
  /-- The work without any sorting. -/
  unsorted : Weight
  ordered : Option Nat
  reversed : List Nat
  deriving Repr

namespace Route

/-- The route that has gone nowhere. -/
def start (t : Trip) : Route :=
  ⟨[], 0, 0, 0, if t.order.isEmpty then some 0 else none, []⟩

/-- The work of sorting rows of which the first `sorted` terms of the order are in order already. -/
def sortCost (t : Trip) (rows : Weight) (sorted : Nat) : Weight :=
  let terms := t.order.length
  let share := Weight.ofCount ((terms - sorted) * 100 / terms) - 66
  let cost := rows + Weight.ofCount ((t.outputs + 59) / 30) + if sorted = 0 then 0 else share
  match t.limit with
  | none => cost + Weight.depth rows
  | some n => cost + 10 + (if sorted = 0 then 0 else 6) + Weight.depth (min rows (Weight.ofCount n))

/-- A route with one more loop inside. No index is built where the route so far gives hardly more than
one row. -/
def extend? (t : Trip) (expected : Weight) (r : Route) (k : Loop) : Option Route :=
  let legs := r.loops.map Loop.leg
  if legs.contains k.leg || !k.needs.all legs.contains || (k.access == .gathered && r.rows < 3) then
    none
  else
    let run := k.run + r.rows
    let work := Weight.sum (if k.setup = 0 then run else Weight.sum k.setup run) r.unsorted
    let loops := r.loops ++ [k]
    let (ordered, reversed) := match r.ordered with
      | some n => (some n, r.reversed)
      | none => OrderState.ofLoops t loops
    let (cost, unsorted) :=
      match ordered.filter fun n => n < t.order.length with
      | some n => (Weight.sum work (sortCost t expected n) + 3, work)
      | none => (work, work - 2)
    some ⟨loops, r.rows + k.rows, cost, unsorted, ordered, reversed⟩

/-- Two routes through the same legs of which the order is known alike. -/
def isAlike (a b : Route) : Bool :=
  (a.loops.all fun k => b.loops.any fun m => m.leg == k.leg) && a.ordered.isSome == b.ordered.isSome

def isCheaper (a b : Route) : Bool :=
  decide (a.cost < b.cost ∨ (a.cost = b.cost ∧
    (a.rows < b.rows ∨ (a.rows = b.rows ∧ a.unsorted < b.unsorted))))

/-- A route costs at least as much as another. -/
def isDearer (a b : Route) : Bool :=
  decide (b.cost < a.cost ∨ (a.cost = b.cost ∧ b.unsorted ≤ a.unsorted))

/-- The first of the dearest routes. -/
def dearest : List Route → Nat
  | [] => 0
  | r :: rest =>
    let best := rest.zipIdx.foldl (fun (b : Nat × Route) s =>
      if isDearer b.2 s.1 then b else (s.2 + 1, s.1)) (0, r)
    best.1

/-- Keeps a route beside others, at most `room` of them. -/
def keep (room : Nat) (kept : List Route) (r : Route) : List Route :=
  match kept.findIdx? (isAlike r) with
  | some n => if kept[n]?.any (isCheaper r) then kept.set n r else kept
  | none =>
    if kept.length < room then kept ++ [r]
    else
      let n := dearest kept
      if kept[n]?.any (isDearer r) then kept else kept.set n r

/-- The routes that are worth going on with, one leg after the other. -/
def explore (t : Trip) (expected : Weight) (loops : List Loop) (room : Nat) :
    Nat → List Route → List Route
  | 0, routes => routes
  | n + 1, routes =>
    explore t expected loops room n
      ((routes.flatMap fun r => loops.filterMap (extend? t expected r)).foldl (keep room) [])

def cheapest : List Route → Option Route
  | [] => none
  | r :: rest => some (rest.foldl (fun best s => if s.cost < best.cost then s else best) r)

def search (t : Trip) (expected : Weight) (loops : List Loop) : Option Route :=
  let room := match t.legs.length with
    | 1 => 1
    | 2 => 5
    | _ => 10
  cheapest (explore t expected loops room t.legs.length [start t])

/-- The legs at the front of a route that are reached by a value. -/
def lookedUp (r : Route) : List Nat := (r.loops.takeWhile Loop.isLookup).map Loop.leg

/-- A route is looked for without the wanted order first; it tells how many rows there are to sort.
The legs that it starts with by a value are not walked through for the sake of order. -/
def best (t : Trip) : Option Route := do
  let first ← search { t with order := [] } 0 t.loops
  if t.order.isEmpty then return first
  else
    let loops := t.loops.filter fun k =>
      !(first.lookedUp.contains k.leg) || k.isBounded || k.access == .gathered
    search t (if first.rows < 0 then 1 else first.rows + 1) loops

/-- All terms of the order are given. -/
def isOrdered (t : Trip) (r : Route) : Bool := r.ordered == some t.order.length

/-- The places that the rows are ordered by when they come along the route. -/
def visits (t : Trip) (r : Route) : List (Nat × Bool) :=
  r.loops.zipIdx.flatMap fun k =>
    let descends := r.reversed.contains k.2
    match t.legs[k.1.leg]? with
    | none => []
    | some l =>
      match k.1.access with
      | .single => []
      | .scan => [(l.rowPlace, descends)]
      | .sorted place _ => [(place, descends), (l.rowPlace, descends)]
      | .gathered => (t.usedColumns l ++ [l.rowPlace]).map fun place => (place, false)

end Route
end Relata.Sqlite
