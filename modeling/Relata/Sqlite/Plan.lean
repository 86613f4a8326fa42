import Relata.Sqlite.Change
import Relata.Sqlite.Parser

/-!
Plans: statements whose names are settled against a content. What a statement gets wrong about names
shows here, before anything runs.
-/
namespace Relata.Sqlite

inductive Plan where
  | query (q : Query)
  | change (c : Change)
  | createTable (s : Shape)
  | addColumn (table : String) (column : TableColumn) (key : Option ForeignKey)
  /-- The table is there already, which the statement allows. -/
  | nothing
  | begin
  | commit
  | rollback
  deriving Repr

namespace Plan

/-- The table that a statement changes. -/
def changedShape (c : Content) (name : String) : Except Fault Shape :=
  match c.table? name with
  | some t => .ok t.shape
  | none =>
    if Content.catalogNames.contains (Text.lowerAscii name) then .error (.reservedName name)
    else .error (.noSuchTable name)

/-- A column by its name, or the number of the row, also where that is a column. -/
def target? (s : Shape) (name : String) : Option (Option Nat) :=
  match s.index? name with
  | some i => some (if s.rowNumber = some i then none else some i)
  | none => if Scope.rowNumberNames.contains (Text.lowerAscii name) then some none else none

def targets (s : Shape) : List String → Except Fault (List (Option Nat))
  | [] => .ok []
  | name :: rest =>
    match target? s name with
    | some t => do return t :: (← targets s rest)
    | none => .error (.columnNotInTable s.name name)

/-- Of a column that is named twice the first value counts, of the number of the row the last. -/
def layoutOf (s : Shape) (targets : List (Option Nat)) : Layout :=
  { cells := (List.range s.columns.length).map fun i => targets.findIdx? fun t => t == some i
    number := (targets.zipIdx.reverse.find? fun t => t.1.isNone).map Prod.snd }

/-- The targets of an insertion that names no columns: all of them. -/
def allTargets (s : Shape) : List (Option Nat) :=
  (List.range s.columns.length).map fun i => if s.rowNumber = some i then none else some i

def checkWidths (wanted : Nat) (rows : List (List Term)) : Except Fault Unit :=
  match rows.find? fun r => r.length != wanted with
  | some r => .error (.valueCount r.length wanted)
  | none => .ok ()

/-- One row alone cannot take away what others refer to, unless it returns or replaces something. -/
def insertedKeys (c : Content) (s : Shape) (conflict : Conflict) (rows : Nat) (returns : Bool) :
    List OwnedKey :=
  if rows = 1 && !returns && conflict != .replace then Content.ownKeys s else c.allKeys s

def ofInsert (c : Content) (conflict : Conflict) (table : String) (columns : Option (List String))
    (rows : List (List Expr)) (returning : List ResultColumn) : Except Fault Change := do
  let s ← changedShape c table
  let targets ← match columns with
    | some names => targets s names
    | none => .ok (allTargets s)
  let values ← rows.mapM (Scope.resolveAll [] false)
  checkWidths targets.length values
  c.checkTargets (insertedKeys c s conflict rows.length !returning.isEmpty)
  let returned ← (Origin.storedScope s.name s).outputs false returning
  return .insert conflict s (layoutOf s targets) values returned

def assignments (s : Shape) (scope : Scope) : List (String × Expr) → Except Fault (List Assignment)
  | [] => .ok []
  | (name, e) :: rest => do
    let t ← scope.resolve false e
    match target? s name with
    | some target => return (target, t) :: (← assignments s scope rest)
    | none => .error (.noSuchColumn name)

def ofUpdate (c : Content) (conflict : Conflict) (table : String) (sets : List (String × Expr))
    (condition : Option Expr) (returning : List ResultColumn) : Except Fault Change := do
  let s ← changedShape c table
  let scope := Origin.storedScope s.name s
  let assigned ← assignments s scope sets
  let chosen ← scope.condition condition
  let columns := assigned.filterMap fun a => a.1.or s.rowNumber
  c.checkTargets (c.touchedKeys s columns)
  let returned ← scope.outputs false returning
  return .update conflict s assigned chosen returned

def ofDelete (c : Content) (table : String) (condition : Option Expr) (returning : List ResultColumn) :
    Except Fault Change := do
  let s ← changedShape c table
  let scope := Origin.storedScope s.name s
  let chosen ← scope.condition condition
  c.checkTargets (c.allKeys s)
  let returned ← scope.outputs false returning
  return .delete s chosen returned

def columnOf (isRowNumber : Bool) (d : ColumnDecl) : TableColumn :=
  { name := d.name
    type := d.type
    affinity := .ofDeclaredType d.type
    isPrimaryKey := d.isPrimaryKey
    isUnique := !isRowNumber && (d.isPrimaryKey || d.isUnique)
    notNull := d.notNull }

/-- A primary key of type `INTEGER` is the number of the row. -/
def isRowNumber (d : ColumnDecl) : Bool := d.isPrimaryKey && Text.lowerAscii d.type == "integer"

/-- A name that is the same as an earlier one. -/
def repeated? : List String → Option String
  | [] => none
  | name :: rest => if rest.any (Text.sameAsciiLetters name) then some name else repeated? rest

def columnKeys (columns : List ColumnDecl) : List ForeignKey :=
  columns.zipIdx.filterMap fun p => p.1.references.map fun r => ⟨p.2, r.1, r.2⟩

def tableKeys (columns : List ColumnDecl) : List ForeignKeyDecl → Except Fault (List ForeignKey)
  | [] => .ok []
  | k :: rest =>
    match columns.findIdx? fun c => Text.sameAsciiLetters c.name k.column with
    | some i => do return ⟨i, k.table, k.target⟩ :: (← tableKeys columns rest)
    | none => .error (.unknownKeyColumn k.column)

def ofCreateTable (c : Content) (ifNotExists : Bool) (name : String) (columns : List ColumnDecl)
    (keys : List ForeignKeyDecl) : Except Fault Plan := do
  if Text.startsWith (Text.lowerAscii name) "sqlite_" then .error (.reservedName name)
  else if (c.table? name).isSome then
    if ifNotExists then return .nothing else .error (.tableExists name)
  else
    match repeated? (columns.map ColumnDecl.name) with
    | some n => .error (.duplicateColumn n)
    | none =>
      if 1 < (columns.filter ColumnDecl.isPrimaryKey).length then .error (.manyPrimaryKeys name)
      else
        let declared ← tableKeys columns keys
        return .createTable
          { name := name
            columns := columns.map fun d => columnOf (isRowNumber d) d
            rowNumber := columns.findIdx? isRowNumber
            foreignKeys := columnKeys columns ++ declared }

def ofAddColumn (c : Content) (table : String) (d : ColumnDecl) : Except Fault Plan := do
  let s ← changedShape c table
  if (s.index? d.name).isSome then .error (.duplicateColumn d.name)
  else if d.isPrimaryKey || d.isUnique then .error .keyInAddedColumn
  else
    return .addColumn s.name (columnOf false d)
      (d.references.map fun r => ⟨s.columns.length, r.1, r.2⟩)

def ofStatement (c : Content) : Statement → Except Fault Plan
  | .select s => do return .query (← Query.ofStatement c s)
  | .insert conflict table columns rows returning => do
    return .change (← ofInsert c conflict table columns rows returning)
  | .update conflict table sets condition returning => do
    return .change (← ofUpdate c conflict table sets condition returning)
  | .delete table condition returning => do return .change (← ofDelete c table condition returning)
  | .createTable ifNotExists name columns keys => ofCreateTable c ifNotExists name columns keys
  | .addColumn table d => ofAddColumn c table d
  | .begin => .ok .begin
  | .commit => .ok .commit
  | .rollback => .ok .rollback

/-- The plan of the first statement of a text, and how many parameters it takes. -/
def ofText (c : Content) (sql : String) : Except Fault (Plan × Nat) := do
  let tokens := Token.ofText sql
  if tokens.isEmpty then .error .emptyStatement
  else
    match Statement.ofTokens? tokens with
    | none => .error .syntaxError
    | some s => return (← ofStatement c s, Token.parameterCount tokens)

end Plan
end Relata.Sqlite
