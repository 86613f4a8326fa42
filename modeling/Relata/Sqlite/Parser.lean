import Relata.Sqlite.Statement
import Relata.Sqlite.Token

/-!
Tokens to statements. Each reader takes a front of the tokens and gives what it read and the tokens
left; operators bind the tighter the higher their level.
-/
namespace Relata.Sqlite

namespace Parser

abbrev Rest := List Token

/-- Drops the word, in any case of letters, from the front. -/
def word? (w : String) : Rest → Option Rest
  | t :: rest =>
    match t.kind with
    | .word s => if Text.lowerAscii s = w then some rest else none
    | _ => none
  | [] => none

def words? (ws : List String) (ts : Rest) : Option Rest := ws.foldlM (fun ts w => word? w ts) ts

def symbol? (s : String) : Rest → Option Rest
  | t :: rest => if t.kind = .symbol s then some rest else none
  | [] => none

/-- Words that are no names. -/
def reserved : List String :=
  ["add", "all", "alter", "and", "as", "between", "case", "check", "collate", "commit", "constraint",
    "create", "default", "delete", "distinct", "drop", "else", "escape", "except", "exists",
    "foreign", "from", "group", "having", "in", "index", "inner", "insert", "intersect", "into", "is",
    "isnull", "join", "left", "limit", "not", "notnull", "null", "on", "or", "order", "primary",
    "references", "returning", "select", "set", "table", "then", "to", "transaction", "union",
    "unique", "update", "using", "values", "when", "where", "with"]

def name? : Rest → Option (Name × Rest)
  | t :: rest =>
    match t.kind with
    | .word s => if reserved.contains (Text.lowerAscii s) then none else some (⟨s, false⟩, rest)
    | .quoted s => some (⟨s, true⟩, rest)
    | _ => none
  | [] => none

def nameText? (ts : Rest) : Option (String × Rest) := (name? ts).map fun r => (r.1.text, r.2)

/-- One or more elements with commas between them. -/
def list? {α : Type} (element : Rest → Option (α × Rest)) : (fuel : Nat) → Rest →
    Option (List α × Rest)
  | 0, _ => none
  | fuel + 1, ts =>
    match element ts with
    | none => none
    | some (x, ts) =>
      match symbol? "," ts with
      | none => some ([x], ts)
      | some ts => (list? element fuel ts).map fun r => (x :: r.1, r.2)

/-- A list of elements between parentheses. -/
def parenthesised? {α : Type} (element : Rest → Option (α × Rest)) (ts : Rest) :
    Option (List α × Rest) := do
  let ts ← symbol? "(" ts
  let (xs, ts) ← list? element ts.length ts
  return (xs, ← symbol? ")" ts)

def firstOf {α : Type} (choices : List (α × Option Rest)) : Option (α × Rest) :=
  choices.findSome? fun c => c.2.map fun ts => (c.1, ts)

/-- The operator of a level at the front. -/
def operator? (level : Nat) (ts : Rest) : Option (BinaryOp × Rest) :=
  match level with
  | 0 => firstOf [(.or, word? "or" ts)]
  | 1 => firstOf [(.and, word? "and" ts)]
  | 3 =>
    firstOf [(.eq, symbol? "=" ts), (.eq, symbol? "==" ts), (.ne, symbol? "<>" ts),
      (.ne, symbol? "!=" ts), (.isNot, words? ["is", "not"] ts), (.is, word? "is" ts),
      (.like, word? "like" ts), (.notLike, words? ["not", "like"] ts)]
  | 4 =>
    firstOf [(.le, symbol? "<=" ts), (.lt, symbol? "<" ts), (.ge, symbol? ">=" ts),
      (.gt, symbol? ">" ts)]
  | 5 => firstOf [(.add, symbol? "+" ts), (.sub, symbol? "-" ts)]
  | 6 => firstOf [(.mul, symbol? "*" ts), (.div, symbol? "/" ts), (.rem, symbol? "%" ts)]
  | 7 => firstOf [(.concat, symbol? "||" ts)]
  | _ => none

/-- The level of what is no binary operation. -/
def unaryLevel : Nat := 8

/-- A test for null at the front, written after its operand. -/
def nullTest? (ts : Rest) : Option (BinaryOp × Rest) :=
  firstOf [(.is, word? "isnull" ts), (.isNot, word? "notnull" ts),
    (.isNot, words? ["not", "null"] ts)]

mutual

def expr? : (fuel level : Nat) → Rest → Option (Expr × Rest)
  | 0, _, _ => none
  | fuel + 1, level, ts =>
    if level = 2 then
      match word? "not" ts with
      | some ts => (expr? fuel 2 ts).map fun r => (.unary .not r.1, r.2)
      | none => expr? fuel 3 ts
    else if level = unaryLevel then
      match symbol? "-" ts, symbol? "+" ts with
      | some ts, _ => (expr? fuel unaryLevel ts).map fun r => (.unary .negate r.1, r.2)
      | _, some ts => expr? fuel unaryLevel ts
      | none, none => primary? fuel ts
    else
      match expr? fuel (level + 1) ts with
      | some (a, ts) => operations? fuel level a ts
      | none => none

/-- The operations of a level that go on from the left operand. -/
def operations? : (fuel level : Nat) → Expr → Rest → Option (Expr × Rest)
  | 0, _, _, _ => none
  | fuel + 1, level, a, ts =>
    match operator? level ts with
    | some (op, ts) =>
      match expr? fuel (level + 1) ts with
      | some (b, ts) => operations? fuel level (.binary op a b) ts
      | none => none
    | none =>
      match if level = 3 then nullTest? ts else none with
      | some (op, ts) => operations? fuel level (.binary op a (.literal .null)) ts
      | none => some (a, ts)

def primary? : (fuel : Nat) → Rest → Option (Expr × Rest)
  | 0, _ => none
  | _, [] => none
  | fuel + 1, t :: rest =>
    match t.kind with
    | .string s => some (.literal (.text s), rest)
    | .blob bs => some (.literal (.blob bs), rest)
    | .number c => some (.literal c, rest)
    | .parameter n => n.map fun n => (.parameter n, rest)
    | .symbol "(" =>
      match expr? fuel 0 rest with
      | some (e, ts) => (symbol? ")" ts).map fun ts => (e, ts)
      | none => none
    | .symbol _ => none
    | .illegal => none
    | _ =>
      match word? "null" (t :: rest), word? "case" (t :: rest) with
      | some ts, _ => some (.literal .null, ts)
      | _, some ts => caseOf? fuel ts
      | none, none => named? fuel (t :: rest)

/-- A column, perhaps with its table, or a call. -/
def named? : (fuel : Nat) → Rest → Option (Expr × Rest)
  | 0, _ => none
  | fuel + 1, ts =>
    match name? ts with
    | none => none
    | some (n, ts) =>
      match symbol? "." ts, symbol? "(" ts with
      | some ts, _ => (name? ts).map fun r => (.column (some n.text) r.1, r.2)
      | _, some ts =>
        match if n.isQuoted then none else call? fuel n.text ts with
        | none => none
        | some (call, ts) => some (call, ts)
      | none, none => some (.column none n, ts)

/-- A call after its opening parenthesis, perhaps with a filter. -/
def call? : (fuel : Nat) → String → Rest → Option (Expr × Rest)
  | 0, _, _ => none
  | fuel + 1, f, ts =>
    let args : Option ((Bool × List Expr) × Rest) :=
      match symbol? "*" ts, symbol? ")" ts with
      | some ts, _ => (symbol? ")" ts).map fun ts => ((true, []), ts)
      | _, some ts => some ((false, []), ts)
      | none, none =>
        match args? fuel ts with
        | some (es, ts) => some ((false, es), ts)
        | none => none
    match args with
    | none => none
    | some ((star, es), ts) =>
      match word? "filter" ts with
      | none => some (.call (Text.lowerAscii f) star es none, ts)
      | some ts =>
        match (symbol? "(" ts).bind (word? "where") with
        | none => none
        | some ts =>
          match expr? fuel 0 ts with
          | none => none
          | some (e, ts) =>
            (symbol? ")" ts).map fun ts => (.call (Text.lowerAscii f) star es (some e), ts)

/-- Arguments up to the closing parenthesis. -/
def args? : (fuel : Nat) → Rest → Option (List Expr × Rest)
  | 0, _ => none
  | fuel + 1, ts =>
    match expr? fuel 0 ts with
    | none => none
    | some (e, ts) =>
      match symbol? ")" ts, symbol? "," ts with
      | some ts, _ => some ([e], ts)
      | _, some ts => (args? fuel ts).map fun r => (e :: r.1, r.2)
      | none, none => none

def caseOf? : (fuel : Nat) → Rest → Option (Expr × Rest)
  | 0, _ => none
  | fuel + 1, ts =>
    let operand : Option (Option Expr × Rest) :=
      match word? "when" ts with
      | some _ => some (none, ts)
      | none => (expr? fuel 0 ts).map fun r => (some r.1, r.2)
    match operand with
    | none => none
    | some (operand, ts) =>
      match branches? fuel ts with
      | none => none
      | some ([], _) => none
      | some (branches, ts) =>
        match word? "else" ts with
        | none => (word? "end" ts).map fun ts => (.caseOf operand branches none, ts)
        | some ts =>
          match expr? fuel 0 ts with
          | none => none
          | some (e, ts) => (word? "end" ts).map fun ts => (.caseOf operand branches (some e), ts)

def branches? : (fuel : Nat) → Rest → Option (List (Expr × Expr) × Rest)
  | 0, _ => none
  | fuel + 1, ts =>
    match word? "when" ts with
    | none => some ([], ts)
    | some ts =>
      match expr? fuel 0 ts with
      | none => none
      | some (condition, ts) =>
        match (word? "then" ts).map (expr? fuel 0) with
        | some (some (result, ts)) =>
          (branches? fuel ts).map fun r => ((condition, result) :: r.1, r.2)
        | _ => none

end

/-- An expression; every token takes at most so many steps. -/
def expression? (ts : Rest) : Option (Expr × Rest) := expr? (16 * (ts.length + 1)) 0 ts

/-- A part that is there only after its word. -/
def after? {α : Type} (ws : List String) (part : Rest → Option (α × Rest)) (ts : Rest) :
    Option (Option α × Rest) :=
  match words? ws ts with
  | none => some (none, ts)
  | some ts => (part ts).map fun r => (some r.1, r.2)

/-- A label, after its word or by itself. -/
def label? (ts : Rest) : Option (Option String × Rest) :=
  let text? : Rest → Option (String × Rest)
    | t :: rest =>
      match t.kind with
      | .string s => some (s, rest)
      | _ => nameText? (t :: rest)
    | [] => none
  match word? "as" ts with
  | some ts => (text? ts).map fun r => (some r.1, r.2)
  | none =>
    match text? ts with
    | some (s, ts) => some (some s, ts)
    | none => some (none, ts)

def resultColumn? (ts : Rest) : Option (ResultColumn × Rest) :=
  match symbol? "*" ts with
  | some ts => some (.star, ts)
  | none =>
    let tableStar : Option (String × Rest) := do
      let (n, ts) ← nameText? ts
      return (n, ← symbol? "*" (← symbol? "." ts))
    match tableStar with
    | some (t, ts) => some (.tableStar t, ts)
    | none => do
      let (e, left) ← expression? ts
      let source := Token.sourceText (ts.take (ts.length - left.length))
      let (a, left) ← label? left
      return (.expr e a source, left)

def resultColumns? (ts : Rest) : Option (List ResultColumn × Rest) := list? resultColumn? ts.length ts

def source? (ts : Rest) : Option (Source × Rest) := do
  let (n, ts) ← nameText? ts
  let (args, ts) ← match symbol? "(" ts with
    | some _ => (parenthesised? expression? ts).map fun r => (some r.1, r.2)
    | none => some (none, ts)
  let (a, ts) ← label? ts
  return (⟨n, args, a⟩, ts)

/-- The words that join another table: whether rows of the left side are kept, and what is left. -/
def joinWords? (ts : Rest) : Option (Bool × Rest) :=
  firstOf [(true, words? ["left", "join"] ts), (true, words? ["left", "outer", "join"] ts),
    (false, words? ["inner", "join"] ts), (false, words? ["cross", "join"] ts),
    (false, word? "join" ts), (false, symbol? "," ts)]

def joins? : (fuel : Nat) → Rest → Option (List Join × Rest)
  | 0, _ => none
  | fuel + 1, ts =>
    match joinWords? ts with
    | none => some ([], ts)
    | some (keepsLeft, ts) => do
      let (s, ts) ← source? ts
      let (on, ts) ← after? ["on"] expression? ts
      let (others, ts) ← joins? fuel ts
      return (⟨keepsLeft, s, on⟩ :: others, ts)

def orderTerm? (ts : Rest) : Option ((Expr × Bool) × Rest) := do
  let (e, ts) ← expression? ts
  match word? "desc" ts, word? "asc" ts with
  | some ts, _ => return ((e, true), ts)
  | _, some ts => return ((e, false), ts)
  | none, none => return ((e, false), ts)

def select? (ts : Rest) : Option (Statement × Rest) := do
  let (columns, ts) ← resultColumns? ts
  let (source, ts) ← after? ["from"] source? ts
  let (joins, ts) ← if source.isSome then joins? (ts.length + 1) ts else some ([], ts)
  let (condition, ts) ← after? ["where"] expression? ts
  let (groupBy, ts) ← after? ["group", "by"] (list? expression? ts.length) ts
  let (orderBy, ts) ← after? ["order", "by"] (list? orderTerm? ts.length) ts
  let (limit, ts) ← after? ["limit"] expression? ts
  let (offset, ts) ← if limit.isSome then after? ["offset"] expression? ts else some (none, ts)
  return (.select ⟨columns, source, joins, condition, groupBy.getD [], orderBy.getD [], limit, offset⟩,
    ts)

def conflict? (ts : Rest) : Option (Conflict × Rest) :=
  match word? "or" ts with
  | none => some (.abort, ts)
  | some ts =>
    firstOf [(.abort, word? "abort" ts), (.fail, word? "fail" ts), (.ignore, word? "ignore" ts),
      (.replace, word? "replace" ts), (.rollback, word? "rollback" ts)]

def returning? (ts : Rest) : Option (List ResultColumn × Rest) :=
  (after? ["returning"] resultColumns? ts).map fun r => (r.1.getD [], r.2)

def insert? (ts : Rest) : Option (Statement × Rest) := do
  let (conflict, ts) ← conflict? ts
  let (table, ts) ← nameText? (← word? "into" ts)
  match words? ["default", "values"] ts with
  | some ts =>
    let (returning, ts) ← returning? ts
    return (.insert conflict table (some []) [[]] returning, ts)
  | none =>
    let (columns, ts) ← match symbol? "(" ts with
      | some _ => (parenthesised? nameText? ts).map fun r => (some r.1, r.2)
      | none => some (none, ts)
    let ts ← word? "values" ts
    let (rows, ts) ← list? (parenthesised? expression?) ts.length ts
    let (returning, ts) ← returning? ts
    return (.insert conflict table columns rows returning, ts)

def set? (ts : Rest) : Option ((String × Expr) × Rest) := do
  let (n, ts) ← nameText? ts
  let (e, ts) ← expression? (← symbol? "=" ts)
  return ((n, e), ts)

def update? (ts : Rest) : Option (Statement × Rest) := do
  let (conflict, ts) ← conflict? ts
  let (table, ts) ← nameText? ts
  let ts ← word? "set" ts
  let (sets, ts) ← list? set? ts.length ts
  let (condition, ts) ← after? ["where"] expression? ts
  let (returning, ts) ← returning? ts
  return (.update conflict table sets condition returning, ts)

def delete? (ts : Rest) : Option (Statement × Rest) := do
  let (table, ts) ← nameText? (← word? "from" ts)
  let (condition, ts) ← after? ["where"] expression? ts
  let (returning, ts) ← returning? ts
  return (.delete table condition returning, ts)

/-- The table and perhaps the column after the word that refers to them. -/
def reference? (ts : Rest) : Option ((String × Option String) × Rest) := do
  let (table, ts) ← nameText? ts
  match symbol? "(" ts with
  | none => return ((table, none), ts)
  | some ts =>
    let (column, ts) ← nameText? ts
    return ((table, some column), ← symbol? ")" ts)

/-- Words that end the type of a column. -/
def constraintWords : List String :=
  ["primary", "not", "null", "unique", "references", "check", "default", "collate", "constraint"]

/-- The declared type: words, perhaps with numbers between parentheses. -/
def type? (ts : Rest) : Option (String × Rest) :=
  let isType (t : Token) : Bool :=
    match t.kind with
    | .word s => !constraintWords.contains (Text.lowerAscii s)
    | .quoted _ => true
    | _ => false
  let front := ts.takeWhile isType
  let left := ts.dropWhile isType
  let number? : Rest → Option (Unit × Rest)
    | t :: rest =>
      match t.kind with
      | .number _ => some ((), rest)
      | _ => none
    | [] => none
  match front.isEmpty, symbol? "(" left with
  | false, some _ =>
    (parenthesised? number? left).map fun r =>
      (Token.sourceText (ts.take (ts.length - r.2.length)), r.2)
  | _, _ => some (Token.sourceText front, left)

def constraints? : (fuel : Nat) → ColumnDecl → Rest → Option (ColumnDecl × Rest)
  | 0, _, _ => none
  | fuel + 1, c, ts =>
    match words? ["primary", "key"] ts, word? "unique" ts, words? ["not", "null"] ts,
      word? "references" ts with
    | some ts, _, _, _ =>
      if c.isPrimaryKey then none
      else constraints? fuel { c with isPrimaryKey := true } ((word? "asc" ts).getD ts)
    | _, some ts, _, _ => constraints? fuel { c with isUnique := true } ts
    | _, _, some ts, _ => constraints? fuel { c with notNull := true } ts
    | _, _, _, some ts =>
      match reference? ts with
      | some (r, ts) => constraints? fuel { c with references := some r } ts
      | none => none
    | none, none, none, none => some (c, ts)

def columnDecl? (ts : Rest) : Option (ColumnDecl × Rest) := do
  let (n, ts) ← nameText? ts
  let (type, ts) ← type? ts
  constraints? (ts.length + 1) ⟨n, type, false, false, false, none⟩ ts

/-- A column of a new table, or a reference of one. -/
def tablePart? (ts : Rest) : Option ((ColumnDecl ⊕ ForeignKeyDecl) × Rest) :=
  match words? ["foreign", "key"] ts with
  | none => (columnDecl? ts).map fun r => (.inl r.1, r.2)
  | some ts => do
    let (columns, ts) ← parenthesised? nameText? ts
    let (target, ts) ← reference? (← word? "references" ts)
    match columns with
    | [c] => return (.inr ⟨c, target.1, target.2⟩, ts)
    | _ => none

/-- Columns first, then references. -/
def splitParts : List (ColumnDecl ⊕ ForeignKeyDecl) → Option (List ColumnDecl × List ForeignKeyDecl)
  | [] => some ([], [])
  | .inl c :: rest => (splitParts rest).map fun r => (c :: r.1, r.2)
  | .inr k :: rest =>
    match splitParts rest with
    | some ([], keys) => some ([], k :: keys)
    | _ => none

def createTable? (ts : Rest) : Option (Statement × Rest) := do
  let (ifNotExists, ts) := match words? ["if", "not", "exists"] ts with
    | some ts => (true, ts)
    | none => (false, ts)
  let (n, ts) ← nameText? ts
  let (parts, ts) ← parenthesised? tablePart? ts
  let (columns, keys) ← splitParts parts
  if columns.isEmpty then none else return (.createTable ifNotExists n columns keys, ts)

def alterTable? (ts : Rest) : Option (Statement × Rest) := do
  let (table, ts) ← nameText? ts
  let ts ← word? "add" ts
  let (c, ts) ← columnDecl? ((word? "column" ts).getD ts)
  return (.addColumn table c, ts)

/-- Words that may follow the control of a transaction. -/
def control? (ts : Rest) : Rest := (word? "transaction" ts).getD ts

def beginMode? (ts : Rest) : Rest :=
  match firstOf [((), word? "deferred" ts), ((), word? "immediate" ts), ((), word? "exclusive" ts)] with
  | some (_, ts) => ts
  | none => ts

def statement? (ts : Rest) : Option (Statement × Rest) :=
  let readers : List (List String × (Rest → Option (Statement × Rest))) :=
    [(["select"], select?), (["insert"], insert?), (["update"], update?), (["delete"], delete?),
      (["create", "table"], createTable?), (["alter", "table"], alterTable?),
      (["begin"], fun ts => some (.begin, control? (beginMode? ts))),
      (["commit"], fun ts => some (.commit, control? ts)),
      (["end"], fun ts => some (.commit, control? ts)),
      (["rollback"], fun ts => some (.rollback, control? ts))]
  readers.findSome? fun r => (words? r.1 ts).bind r.2

end Parser

/-- The statement that the tokens are as a whole. -/
def Statement.ofTokens? (ts : List Token) : Option Statement :=
  match Parser.statement? ts with
  | some (s, []) => some s
  | _ => none

end Relata.Sqlite
