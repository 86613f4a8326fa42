import Relata.Session.Step

/-!
Running the steps of a session against a database, one after the other. Each step is reported with
its answer, with what the database saw of it, and with the events that it left in the log.
-/
namespace Relata.Session

/-- A database that a session is held with: what it has seen comes as entries of type `ε`. -/
structure Host (σ ε : Type) where
  adapter : Adapter σ
  /-- What to connect to if a step does not say. -/
  target : String
  /-- All that the database has seen, in order. -/
  seen : σ → List ε
  /-- Whether the database answers. -/
  setStalled : Bool → σ → σ
  /-- What the end of the session leaves in the log. -/
  closing : σ → List Event

variable {σ ε : Type}

def TableRef.resolve (schema : Schema) : TableRef → Except Error Table
  | .given t => .ok t
  | .named name =>
    match schema.get? name with
    | some t => .ok t
    | none => .error (.tableNotFound name)

def Source.compile (schema : Schema) (dialect : Dialect) : Source → Except Error Statement
  | .statement s => .ok s
  | .built table steps =>
    match table.resolve schema with
    | .error e => .error e
    | .ok t =>
      match BuildStep.applyAll (QueryBuilder.ofTable t dialect) steps with
      | .error e => .error e
      | .ok b => b.compile

def ModelStep.perform (db : Adapter σ) (m : Model) : ModelStep → Action σ Reply
  | .create record => do return .row (← m.create db record)
  | .get id o => do return .foundRow (← m.get db id o)
  | .find conditions o => do return .rows (← m.find db conditions o)
  | .findJson conditions o => do return .rows (← m.findJson db conditions o)
  | .all => do return .rows (← m.all db)
  | .update id record => do return .rows (← m.update db id record)
  | .delete id => do return .count (← m.delete db id)
  | .describe o => pure (.model m.table.name (m.query db.dialect).compile o.relations)

/-- The state with the answers to inner steps, newest first. -/
abbrev Inner (σ : Type) := σ × List (Except Error Reply)

def note (answer : Except Error Reply) : Action (Inner σ) Unit :=
  Action.modify fun s => (s.1, answer :: s.2)

/-- An action on inner steps, with what it ended with and the answers to the steps. -/
def collect {α : Type} (a : Action (Inner σ) α) :
    Action σ (Except Error α × List (Except Error Reply)) := fun s =>
  let o := a (s, [])
  ⟨.ok (o.answer, o.state.2.reverse), o.state.1, o.events⟩

/-- A statement that is run through the guard, where there is one. -/
def through {α : Type} (guard : Option Guard) (statement : Action σ α) : Action σ α :=
  match guard with
  | some g => g.use statement
  | none => statement

mutual

def Step.perform (host : Host σ ε) (schema : Schema) (guard : Option Guard) :
    Step → Action σ Reply
  | .connect target => do
    host.adapter.connect (target.getD host.target)
    return .done
  | .disconnect => do
    host.adapter.disconnect
    return .done
  | .begin => do
    host.adapter.begin
    return .done
  | .commit => do
    host.adapter.commit
    return .done
  | .rollback => do
    host.adapter.rollback
    return .done
  | .isConnected => do return .flag (host.adapter.isConnected (← Action.get))
  | .inTransaction => do return .flag (host.adapter.inTransaction (← Action.get))
  | .dialect => pure (.text host.adapter.dialect.name)
  | .placeholder index => pure (.text (host.adapter.dialect.placeholder index))
  | .execute sql => do return .count (← through guard (host.adapter.execute sql))
  | .executeWith sql params => do
    return .count (← through guard (host.adapter.executeWith sql params))
  | .query sql => do return .rows (← through guard (host.adapter.query sql))
  | .queryWith sql params => do
    return .rows (← through guard (host.adapter.queryWith sql params))
  | .fetch source => do
    let s ← Action.ofExcept (source.compile schema host.adapter.dialect)
    return .rows (← through guard (host.adapter.fetch s))
  | .run source => do
    let s ← Action.ofExcept (source.compile schema host.adapter.dialect)
    return .count (← through guard (host.adapter.run s))
  | .sync own => do
    let (registry, events) := own.getD (schema, [])
    Action.logAll events
    return .synced (← Migration.sync host.adapter registry)
  | .syncTable table => do
    let t ← Action.ofExcept (table.resolve schema)
    return .tableSynced (← Migration.syncTable host.adapter t)
  | .model table attach step => do
    let t ← Action.ofExcept (table.resolve schema)
    step.perform host.adapter ⟨t, if attach then some schema else none⟩
  | .transaction steps failure => do
    let body : Action (Inner σ) Unit := do
      runUntilError host schema steps
      match failure with
      | some e => Action.fail e
      | none => return ()
    let (ending, inner) ← collect (host.adapter.beside.transaction body)
    return .transaction inner ending
  | .guard steps ending => do
    let g ← Guard.begin host.adapter
    let (_, inner) ← collect (runEach host schema g steps)
    let ended ← (g.giveUp host.adapter ending).attempt
    return .guard inner ended (host.adapter.inTransaction (← Action.get))
  | .guardFlags =>
    let g := guard.getD .fresh
    pure (.flags g.committed g.rolledBack)
  | .stalled step => do
    Action.modify (host.setStalled true)
    let answer ← (step.perform host schema guard).attempt
    Action.modify (host.setStalled false)
    Action.ofExcept answer

/-- Inner steps up to the first error in one that is not marked. -/
def runUntilError (host : Host σ ε) (schema : Schema) :
    List (Bool × Step) → Action (Inner σ) Unit
  | [] => pure ()
  | (ignored, step) :: rest => do
    let answer ← (step.perform host schema none).attempt.onFirst
    note answer
    match answer, ignored with
    | .error e, false => Action.fail e
    | _, _ => runUntilError host schema rest

/-- Inner steps under a guard, whether they fail or not. -/
def runEach (host : Host σ ε) (schema : Schema) (g : Guard) : List Step → Action (Inner σ) Unit
  | [] => pure ()
  | step :: rest => do
    let answer ← (step.perform host schema (some g)).attempt.onFirst
    note answer
    runEach host schema g rest

end

/-- What is reported of a step. -/
structure Report (ε : Type) where
  answer : Except Error Reply
  seen : List ε
  events : List Event

/-- The reports of the steps, and what the end of the session leaves in the log. -/
def runAll (host : Host σ ε) (schema : Schema) : σ → List Step → List (Report ε) × List Event
  | s, [] => ([], host.closing s)
  | s, step :: rest =>
    let o := step.perform host schema none s
    let others := runAll host schema o.state rest
    (⟨o.answer, (host.seen o.state).drop (host.seen s).length, o.events⟩ :: others.1, others.2)

end Relata.Session
