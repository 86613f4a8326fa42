import Relata.Sqlite.Cell

/-!
Statements as trees, with names as they were written.
-/
namespace Relata.Sqlite

inductive UnaryOp where
  | negate
  | not
  deriving DecidableEq, Repr

inductive BinaryOp where
  | or
  | and
  | eq
  | ne
  | lt
  | le
  | gt
  | ge
  /-- Equality that takes null for a value. -/
  | is
  | isNot
  | like
  | notLike
  | add
  | sub
  | mul
  | div
  | rem
  | concat
  deriving DecidableEq, Repr

/-- A name; one between quote marks that names nothing stands for its text. -/
structure Name where
  text : String
  isQuoted : Bool
  deriving DecidableEq, Repr

inductive Expr where
  | literal (c : Cell)
  | parameter (number : Nat)
  | column (table : Option String) (name : Name)
  | unary (op : UnaryOp) (e : Expr)
  | binary (op : BinaryOp) (a b : Expr)
  | caseOf (operand : Option Expr) (branches : List (Expr × Expr)) (otherwise : Option Expr)
  | call (name : String) (star : Bool) (args : List Expr) (filter : Option Expr)
  deriving Repr

inductive ResultColumn where
  | star
  | tableStar (table : String)
  | expr (e : Expr) (label : Option String) (source : String)
  deriving Repr

/-- A table, or a table function with its arguments. -/
structure Source where
  name : String
  args : Option (List Expr)
  label : Option String
  deriving Repr

structure Join where
  keepsLeft : Bool
  source : Source
  on : Option Expr
  deriving Repr

structure SelectStatement where
  columns : List ResultColumn
  source : Option Source
  joins : List Join
  condition : Option Expr
  groupBy : List Expr
  orderBy : List (Expr × Bool)
  limit : Option Expr
  offset : Option Expr
  deriving Repr

/-- What becomes of a statement that breaks a constraint. -/
inductive Conflict where
  | abort
  | fail
  | ignore
  | replace
  | rollback
  deriving DecidableEq, Repr

structure ColumnDecl where
  name : String
  type : String
  isPrimaryKey : Bool
  isUnique : Bool
  notNull : Bool
  /-- The table referred to, and the column if it is named. -/
  references : Option (String × Option String)
  deriving DecidableEq, Repr

structure ForeignKeyDecl where
  column : String
  table : String
  target : Option String
  deriving DecidableEq, Repr

inductive Statement where
  | select (s : SelectStatement)
  | insert (conflict : Conflict) (table : String) (columns : Option (List String))
      (rows : List (List Expr)) (returning : List ResultColumn)
  | update (conflict : Conflict) (table : String) (sets : List (String × Expr))
      (condition : Option Expr) (returning : List ResultColumn)
  | delete (table : String) (condition : Option Expr) (returning : List ResultColumn)
  | createTable (ifNotExists : Bool) (name : String) (columns : List ColumnDecl)
      (foreignKeys : List ForeignKeyDecl)
  | addColumn (table : String) (column : ColumnDecl)
  | begin
  | commit
  | rollback
  deriving Repr

end Relata.Sqlite
