import Relata.Event

/-!
Actions: steps that may change a state, leave events in the log, and end with an answer or an
error. What an action did before an error stays done.
-/
namespace Relata

/-- What an action ends with. -/
structure Outcome (σ α : Type) where
  answer : Except Error α
  state : σ
  events : List Event

/-- A step on states of type `σ`. -/
def Action (σ α : Type) : Type := σ → Outcome σ α

namespace Action

variable {σ τ α β : Type}

def run (a : Action σ α) (s : σ) : Outcome σ α := a s

def pure (x : α) : Action σ α := fun s => ⟨.ok x, s, []⟩

/-- The second action starts where the first one stopped, unless that ended with an error. -/
def bind (a : Action σ α) (f : α → Action σ β) : Action σ β := fun s =>
  match a s with
  | ⟨.ok x, s, events⟩ => { (f x) s with events := events ++ ((f x) s).events }
  | ⟨.error e, s, events⟩ => ⟨.error e, s, events⟩

instance : Monad (Action σ) where
  pure := pure
  bind := bind

def fail (e : Error) : Action σ α := fun s => ⟨.error e, s, []⟩

def ofExcept : Except Error α → Action σ α
  | .ok x => pure x
  | .error e => fail e

/-- The error of an action as its answer. -/
def attempt (a : Action σ α) : Action σ (Except Error α) := fun s =>
  let o := a s
  ⟨.ok o.answer, o.state, o.events⟩

def log (level : Level) (message : String) (fields : List (String × String)) : Action σ Unit :=
  fun s => ⟨.ok (), s, [⟨level, message, fields⟩]⟩

def logAll (events : List Event) : Action σ Unit := fun s => ⟨.ok (), s, events⟩

def get : Action σ σ := fun s => ⟨.ok s, s, []⟩

def modify (f : σ → σ) : Action σ Unit := fun s => ⟨.ok (), f s, []⟩

/-- An action beside a state that it does not see. -/
def onFirst (a : Action σ α) : Action (σ × τ) α := fun s =>
  let o := a s.1
  ⟨o.answer, (o.state, s.2), o.events⟩

@[simp] theorem run_pure (x : α) (s : σ) : (pure x : Action σ α).run s = ⟨.ok x, s, []⟩ := rfl

@[simp] theorem run_fail (e : Error) (s : σ) :
    (fail e : Action σ α).run s = ⟨.error e, s, []⟩ := rfl

end Action
end Relata
