import Relata.Adapter

/-!
Transaction guards. A guard stands for a transaction from its beginning to its end; it is given up
by committing, rolling back or dropping it. A guard that is given up without having committed or
rolled back rolls back by itself, if there still is someone to do it.
-/
namespace Relata

/-- How a guard is given up. -/
inductive GuardEnd where
  | commit
  | rollback
  /-- While statements can still be run. -/
  | drop
  /-- When nothing can be run any more. -/
  | dropOutside
  deriving DecidableEq, Repr

/-- A guard, by what it knows of the end of its transaction. -/
structure Guard where
  committed : Bool
  rolledBack : Bool
  deriving DecidableEq, Repr

namespace Guard

variable {σ α : Type}

/-- As long as the transaction has no end. -/
def fresh : Guard := ⟨false, false⟩

def start (db : Adapter σ) : Action σ Unit := do
  db.begin
  Action.log .debug "transaction guard started" [("dialect", db.dialect.name)]

/-- Rolls back a transaction that was neither committed nor rolled back; its failure is logged. -/
def release (db : Adapter σ) : Action σ Unit := do
  Action.log .warn "transaction guard dropped without commit; rolling back" []
  match ← db.rollback.attempt with
  | .ok () => return ()
  | .error e => Action.log .error "automatic rollback failed" [Event.errorField e]

/-- Ends the guard by `control`; if that fails the guard is released, and the error remains. -/
def endBy (db : Adapter σ) (control : Action σ Unit) (message : String) : Action σ Unit := do
  match ← control.attempt with
  | .ok () => Action.log .debug message []
  | .error e =>
    release db
    Action.fail e

def commit (db : Adapter σ) : Action σ Unit :=
  endBy db db.commit "transaction guard committed"

def rollback (db : Adapter σ) : Action σ Unit :=
  endBy db db.rollback "transaction guard rolled back"

def dropOutside : Action σ Unit :=
  Action.log .warn
    "transaction guard dropped outside a tokio runtime; rollback left to connection close" []

def finish (db : Adapter σ) : GuardEnd → Action σ Unit
  | .commit => commit db
  | .rollback => rollback db
  | .drop => release db
  | .dropOutside => dropOutside

/-- A guard, where a transaction can be begun. -/
def begin (db : Adapter σ) : Action σ Guard := do
  start db
  return fresh

def requireActive (g : Guard) : Except Error Unit :=
  if g.committed then .error (.transaction "transaction already committed")
  else if g.rolledBack then .error (.transaction "transaction already rolled back")
  else .ok ()

/-- What is done through the guard, as long as the transaction has no end. -/
def use (g : Guard) (a : Action σ α) : Action σ α := do
  Action.ofExcept g.requireActive
  a

/-- What a guard does when it goes away, unless the transaction has an end. -/
def letGo (g : Guard) (undo : Action σ Unit) : Action σ Unit :=
  if g.committed || g.rolledBack then pure () else undo

/-- Takes the guard and ends its transaction by `control`, unless it is `barred`. The guard goes away
however that turns out, and it is `ended` only if `control` succeeded. -/
def settle (db : Adapter σ) (g : Guard) (barred : Option String) (control : Action σ Unit)
    (message : String) (ended : Guard) : Action σ Unit :=
  match barred with
  | some refusal => do
    g.letGo (release db)
    Action.fail (.transaction refusal)
  | none => do
    match ← control.attempt with
    | .ok () =>
      Action.log .debug message []
      ended.letGo (release db)
    | .error e =>
      g.letGo (release db)
      Action.fail e

/-- Gives up the guard, however it stands. -/
def giveUp (db : Adapter σ) (g : Guard) : GuardEnd → Action σ Unit
  | .commit =>
    g.settle db (if g.rolledBack then some "cannot commit a rolled back transaction" else none)
      db.commit "transaction guard committed" { g with committed := true }
  | .rollback =>
    g.settle db (if g.committed then some "cannot rollback a committed transaction" else none)
      db.rollback "transaction guard rolled back" { g with rolledBack := true }
  | .drop => g.letGo (release db)
  | .dropOutside => g.letGo dropOutside

theorem settle_fresh (db : Adapter σ) (control : Action σ Unit) (message : String) {ended : Guard}
    (h : (ended.committed || ended.rolledBack) = true) :
    fresh.settle db none control message ended = endBy db control message := by
  have hended : ended.letGo (release db) = pure () := by rw [letGo, if_pos h]
  unfold settle
  rw [hended]
  rfl

/-- A guard whose transaction has no end is given up by ending it. -/
theorem giveUp_fresh (db : Adapter σ) (how : GuardEnd) : fresh.giveUp db how = finish db how := by
  cases how with
  | commit => exact settle_fresh db _ _ rfl
  | rollback => exact settle_fresh db _ _ rfl
  | drop => rfl
  | dropOutside => rfl

end Guard
end Relata
