import Relata.Guard
import Relata.Migration
import Relata.Model
import Relata.Tour.Transcript

/-!
Accounts between which money is moved: transactions that are committed, that fail, and that are
given up.
-/
namespace Relata.Tour.Transfers

open Number

def accounts : Table :=
  (Table.ofName "accounts")
    |>.column "id" (Column.ofType .integer).primaryKey
    |>.column "name" (.ofType .text)
    |>.column "balance" (.ofType .real)

def model : Model := ⟨accounts, none⟩

def query : QueryBuilder := QueryBuilder.ofTable accounts db.dialect

def amountText (x : Double) : String := x.fixed 2

def balanceOf (id : Int64) : Action Transcript Double := do
  match (← model.get db (.long id) .none).bind fun row => (row.get? "balance").bind Value.toDouble? with
  | some x => return x
  | none => Action.fail (.query ("account " ++ Int.repr id.toInt ++ " not found"))

def setBalance (id : Int64) (x : Double) : Action Transcript Unit := do
  let _ ← model.update db (.long id) [("balance", .double x)]

/-- Moves an amount from one account to another, if the first has as much. -/
def transfer (giver receiver : Int64) (amount : Double) : Action Transcript Unit := do
  let source ← balanceOf giver
  if source.less amount then
    Action.fail (.query ("insufficient funds: balance " ++ amountText source ++ ", requested " ++
      amountText amount))
  let target ← balanceOf receiver
  setBalance giver (source.sub amount)
  setBalance receiver (target.add amount)

def tellOutcome : Except Error Unit → Action Transcript Unit
  | .ok () => say "   ✓ Transaction committed"
  | .error e => say ("   ✗ Transaction rolled back: " ++ e.message)

def tellRows : List Row → Action Transcript Unit
  | [] => Action.pure ()
  | row :: rest =>
    match row.get? "name", (row.get? "balance").bind Value.toDouble? with
    | some name, some x => do
      say ("   - " ++ name.display ++ ": $" ++ amountText x)
      tellRows rest
    | none, _ => Action.fail (.columnNotFound "name")
    | _, none => Action.fail (.columnNotFound "balance")

def tellBalances : Action Transcript Unit := do
  let s ← Action.ofExcept (query.orderBy "id" .ascending).compile
  let rows ← db.fetch s
  say "   Current balances:"
  tellRows rows

def record (name : String) (balance : Int) : List (String × Value) :=
  [("name", .string name), ("balance", .double (.ofInt balance))]

def createAccounts : List (String × Int) → Action Transcript Unit
  | [] => Action.pure ()
  | (name, balance) :: rest => do
    let _ ← model.create db (record name balance)
    createAccounts rest

/-- Several statements under one guard, which is committed. -/
def underGuard : Action Transcript Unit := do
  Guard.start db
  let bonus := (query.update (.ofList [("balance", .double (.ofInt 800))])).whereEq "name"
    (.string "Charlie")
  let rows ← db.fetch (← Action.ofExcept bonus.compile)
  say ("   - Updated " ++ Nat.repr rows.length ++ " row(s)")
  let audit := query.insert (.ofList (record "Audit" 0))
  let _ ← db.fetch (← Action.ofExcept audit.compile)
  Guard.commit db

/-- A guard that is dropped after all rows were deleted. -/
def abandoned : Action Transcript Unit := do
  Guard.start db
  let removed ← db.run (← Action.ofExcept query.delete.compile)
  say ("   - Deleted " ++ Nat.repr removed ++ " row(s) inside the transaction")
  Guard.finish db .drop

def tour : Action Transcript Unit := do
  say "=== gird_orm - Transaction Example ===\n"
  db.connect ":memory:"
  say "1. Setting up accounts table..."
  let _ ← Migration.sync db (.ofList [accounts])
  createAccounts [("Alice", 1000), ("Bob", 500), ("Charlie", 750)]
  say "   ✓ Accounts created\n"
  tellBalances
  say "\n2. Example 1: Successful transaction (Alice -> Bob: $100)"
  tellOutcome (← (db.transaction (transfer 1 2 (.ofInt 100))).attempt)
  tellBalances
  say "\n3. Example 2: Failed transaction (Bob -> Alice: $1000 - insufficient funds)"
  tellOutcome (← (db.transaction (transfer 2 1 (.ofInt 1000))).attempt)
  tellBalances
  say "\n4. Example 3: Multiple statements under a TransactionGuard"
  underGuard
  say "   ✓ All statements committed"
  tellBalances
  say "\n5. Example 4: Dropping a guard without commit"
  abandoned
  say "   ✓ Guard dropped, rollback issued"
  tellBalances
  say "\n=== Example completed successfully! ==="

end Relata.Tour.Transfers
