import Relata.Connection.Config
import Relata.Migration
import Relata.Model
import Relata.Text.Debug
import Relata.Tour.Transcript

/-!
A blog: users, their posts and the comments on them, found with the rows that belong to them.
-/
namespace Relata.Tour.Blog

def comments : Table :=
  (Table.ofName "comments")
    |>.column "id" (Column.ofType .integer).primaryKey
    |>.column "body" (.ofType .text)
    |>.column "post_id" ((Column.ofType .integer).references "posts" "id")
    |>.relation "post" (.belongsTo "posts" "post_id")

def posts : Table :=
  (Table.ofName "posts")
    |>.column "id" (Column.ofType .integer).primaryKey
    |>.column "title" (.ofType .text)
    |>.column "views" (.ofType .integer)
    |>.column "author_id" ((Column.ofType .integer).references "users" "id")
    |>.relation "author" (.belongsTo "users" "author_id")
    |>.relation "comments" (.hasMany "comments" "post_id")

def users : Table :=
  (Table.ofName "users")
    |>.column "id" (Column.ofType .integer).primaryKey
    |>.column "name" (.ofType .text)
    |>.column "email" (.ofType .text)
    |>.relation "posts" (.hasMany "posts" "author_id")

/-- Tables that refer to others come first, so that the order is left to the migration. -/
def schema : Schema := .ofList [comments, posts, users]

def model (t : Table) : Model := ⟨t, some schema⟩

/-- The configuration, with a database in memory if nothing else is configured. -/
def configuration (env : List (String × String)) : Except Error Config := do
  let c ← Config.ofEnvironment env
  return if c = .default then { c with databaseUrl := "sqlite://:memory:" } else c

def cell (row : Row) (column : String) : Value := (row.get? column).getD .null

def createPost (title : String) (views : Int32) (author : Row) : Action Transcript Unit := do
  let post ← (model posts).create db
    [("title", .string title), ("views", .int views), ("author_id", cell author "id")]
  let _ ← (model comments).create db
    [("body", .string ("Re: " ++ title)), ("post_id", cell post "id")]

def createRows : Action Transcript Unit := do
  let ada ← (model users).create db [("name", .string "Ada"), ("email", .string "ada@example.com")]
  let grace ← (model users).create db
    [("name", .string "Grace"), ("email", .string "grace@example.com")]
  createPost "Notes on the Analytical Engine" 1843 ada
  createPost "Bernoulli numbers" 312 ada
  createPost "On compilers" 1952 grace

def itemCount : Value → Nat
  | .json (.array items) => items.length
  | _ => 0

/-- The text of a member of a document. -/
def memberText (name : String) : Value → String
  | .json (.object members) =>
    match members.lookup name with
    | some (.string s) => s
    | _ => ""
  | _ => ""

def tellUsers : List Row → Action Transcript Unit
  | [] => Action.pure ()
  | row :: rest => do
    say ("   - " ++ (cell row "name").display ++ ": " ++
      Nat.repr (itemCount (cell row "posts")) ++ " post(s)")
    tellUsers rest

def tellPosts : List Row → Action Transcript Unit
  | [] => Action.pure ()
  | row :: rest => do
    say ("   - " ++ (cell row "title").display ++ " by " ++ memberText "name" (cell row "author") ++
      " (" ++ (cell row "views").display ++ " views), comments: " ++
      ((row.get? "comments").map Value.display).getD "")
    tellPosts rest

/-- Posts that were seen often. -/
def popular : List (String × Predicate) := [("views", .ops [(.gte, .int 1000)])]

/-- The query for popular posts and their authors in the other dialect. -/
def preview : Except Error Statement := do
  let b := (QueryBuilder.ofTable posts .postgres).withSchema schema
  let b ← (b.whereAll popular).load "author"
  b.compile

/-- Integers as they were given, each with its type. -/
def typedText : Value → String
  | .int n => "Int(" ++ Int.repr n.toInt ++ ")"
  | v => v.display

def tour (env : List (String × String)) : Action Transcript Unit := do
  say "=== gird_orm - Blog Example ===\n"
  let config ← Action.ofExcept (configuration env)
  let dialect ← Action.ofExcept config.resolveDialect
  if dialect ≠ .sqlite then
    Action.fail (.unsupported "this example is built with the sqlite backend only")
  db.connect (← Action.ofExcept config.connectionString)
  say ("1. Connected to " ++ config.databaseUrl ++ "\n")
  say "2. Synchronizing schema..."
  let report ← Migration.sync db schema
  say ("   ✓ " ++ Nat.repr report.passes ++ " pass(es), created: " ++
    Text.debugList report.created ++ "\n")
  say "3. Creating rows..."
  createRows
  say "   ✓ 2 users, 3 posts, 3 comments\n"
  say "4. Users with their posts (has-many):"
  tellUsers (← (model users).findJson db (.object [])
    { FindOptions.none with relations := ["posts"], order := [("name", .ascending)] })
  say "\n5. Popular posts with author and comments:"
  tellPosts (← (model posts).find db popular
    { FindOptions.none with relations := ["author", "comments"], order := [("views", .descending)] })
  say "\n6. The compiled statement behind step 5 (Postgres dialect):"
  let statement ← Action.ofExcept preview
  say ("   " ++ statement.sql)
  say ("   params: [" ++ Text.joinWith ", " (statement.params.map typedText) ++ "]")
  say "\n7. Re-running sync..."
  let again ← Migration.sync db schema
  say ("   ✓ no-op: " ++ Value.boolText again.isNoop)
  say "\n=== Example completed successfully! ==="

end Relata.Tour.Blog
