import Relata.Adapter
import Relata.Postgres.Codec
import Relata.Postgres.Target

/-!
A database behind a connection to a server. The server answers from a script: it interprets no
statement, but names the types of parameters and columns, sends rows, reports errors, may answer too
late or not at all, and may close the connection.
-/
namespace Relata

namespace Postgres

/-- An error that the server reports. -/
structure Rejection where
  code : String
  message : String
  deriving DecidableEq, Repr

/-- What the server has for one prepared statement. -/
structure Response where
  params : List WireType
  columns : List (String × WireType)
  rows : List (List (Option (List UInt8)))
  tag : String
  prepareError : Option Rejection
  executeError : Option Rejection

namespace Response

def empty : Response := ⟨[], [], [], "OK", none, none⟩

end Response

inductive Reply where
  | response (r : Response)
  /-- The answer to the preparation comes when it is waited for no longer. -/
  | preparedLate (r : Response)
  /-- The answer to the execution comes when it is waited for no longer. -/
  | executedLate (r : Response)
  /-- No answer ever again on this connection. -/
  | silent
  /-- The connection is closed. -/
  | hangup

inductive ControlReply where
  | success
  | rejected (r : Rejection)
  | silent

/-- What the server saw. -/
inductive Entry where
  | prepare (sql : String)
  | bind (params : List (Option (List UInt8)))
  | simple (sql : String)
  deriving Repr

inductive Link where
  | absent
  | live
  /-- The server does not answer any more. -/
  | silent
  | closed
  deriving DecidableEq, Repr

structure State where
  link : Link
  inTransaction : Bool
  replies : List Reply
  controls : List ControlReply
  /-- How many connection attempts get no answer. -/
  mute : Nat
  /-- How many connections have gone silent. -/
  silenced : Nat
  /-- What the server saw, newest first. -/
  seen : List Entry

namespace State

def start (replies : List Reply) (controls : List ControlReply) (mute : Nat) : State :=
  ⟨.absent, false, replies, controls, mute, 0, []⟩

end State

/-- The code of a statement that names a table which does not exist. -/
def undefinedTableCode : String := "42P01"

def Rejection.toError (r : Rejection) : Error :=
  if r.code = undefinedTableCode then .undefinedTable r.message
  else .postgres (.rejected r.code r.message)

def lostEvent : Event := ⟨.error, "postgres connection closed with error", [("error", "")]⟩

def see (e : Entry) : Action State Unit := Action.modify fun s => { s with seen := e :: s.seen }

def noAnswer {α : Type} : Action State α := Action.fail (.queryTimeout Error.patience)

/-- The connection goes silent, and the request is given up. -/
def goSilent {α : Type} : Action State α := do
  Action.modify fun s => { s with link := .silent, silenced := s.silenced + 1 }
  noAnswer

def connectionLost {α : Type} : Action State α := Action.fail (.postgres .closed)

/-- Fails unless the server can be asked. -/
def requireLink : Action State Unit := do
  match (← Action.get).link with
  | .absent => Action.fail .notConnected
  | .live => Action.pure ()
  | .silent => noAnswer
  | .closed => connectionLost

/-- The bytes of the parameters; the first that cannot be sent is the fault. -/
def encodeParams (index : Nat) : List WireType → List Value →
    Except ServerFault (List (Option (List UInt8)))
  | type :: types, v :: params =>
    match encode type v with
    | .error e => .error (.parameter index e)
    | .ok bs => (encodeParams (index + 1) types params).map (bs :: ·)
  | _, _ => .ok []

def nextReply : Action State Reply := do
  let s ← Action.get
  Action.modify fun s => { s with replies := s.replies.tail }
  return s.replies.headD (.response .empty)

/-- Sends the parameters of a statement that has been prepared, to have it executed. -/
def bindParams (r : Response) (params : List Value) : Action State Unit :=
  match r.prepareError with
  | some e => Action.fail e.toError
  | none =>
    if r.params.length = params.length then
      match encodeParams 0 r.params params with
      | .error fault => Action.fail (.postgres fault)
      | .ok bound => see (.bind bound)
    else Action.fail (.postgres (.parameterCount r.params.length params.length))

/-- Prepares a statement, binds its parameters and has it executed. What is given up for want of an
answer is not taken back. -/
def request (sql : String) (params : List Value) : Action State Response := do
  requireLink
  see (.prepare sql)
  match ← nextReply with
  | .silent => goSilent
  | .hangup =>
    Action.modify fun s => { s with link := .closed }
    Action.logAll [lostEvent]
    connectionLost
  | .preparedLate _ => noAnswer
  | .executedLate r => do
    bindParams r params
    noAnswer
  | .response r => do
    bindParams r params
    match r.executeError with
    | some e => Action.fail e.toError
    | none => return r

def unsupportedEvent (index : Nat) (type : WireType) : Event :=
  ⟨.debug, "unsupported column type, returning null",
    [("column", Nat.repr index), ("ty", type.display)]⟩

/-- The columns of a row from `index` on. -/
def decodeRow (index : Nat) : List (String × WireType) → List (Option (List UInt8)) → Row →
    Action State Row
  | (name, type) :: columns, bs :: rest, row =>
    match decode type bs with
    | .value v => decodeRow (index + 1) columns rest (row.insert name v)
    | .unsupported => do
      Action.logAll [unsupportedEvent index type]
      decodeRow (index + 1) columns rest (row.insert name .null)
    | .fault => Action.fail (.postgres (.column index))
  | _, _, row => Action.pure row

def decodeRows (columns : List (String × WireType)) :
    List (List (Option (List UInt8))) → Action State (List Row)
  | [] => Action.pure []
  | row :: rest => do
    let first ← decodeRow 0 columns row .empty
    return first :: (← decodeRows columns rest)

def query (sql : String) (params : List Value) : Action State (List Row) := do
  let r ← request sql params
  decodeRows r.columns r.rows

/-- The count at the end of a tag, or none. -/
def affected (tag : String) : Nat :=
  let word := String.ofList ((Text.splitOnChar ' ' tag.toList).getLastD [])
  if Text.startsWith word "-" then 0
  else ((Number.readBounded? 0 (UInt64.size - 1) word).getD 0).toNat

def execute (sql : String) (params : List Value) : Action State Nat := do
  let r ← request sql params
  return affected r.tag

/-- Has the server begin or end a transaction; the flag follows if it does. -/
def control (sql : String) (active : Bool) : Action State Unit := do
  let s ← Action.get
  if s.link = .absent then Action.fail .notConnected
  else if s.inTransaction != active then
    Action.fail (if active then .notInTransaction else .alreadyInTransaction)
  else do
    requireLink
    see (.simple sql)
    Action.modify fun s => { s with controls := s.controls.tail }
    match s.controls.headD .success with
    | .silent => goSilent
    | .rejected r => Action.fail r.toError
    | .success => Action.modify fun s => { s with inTransaction := !active }

def reset : Action State Unit :=
  Action.modify fun s => { s with link := .absent, inTransaction := false }

/-- The name of the scripted server. -/
def ownTarget : String := "@"

def connect (target : String) : Action State Unit := do
  reset
  if target = ownTarget then
    let s ← Action.get
    if s.mute = 0 then do
      Action.modify fun s => { s with link := .live }
      Action.log .debug "postgres connection established" []
    else do
      Action.modify fun s => { s with mute := s.mute - 1 }
      Action.fail (.connectionTimeout Error.patience)
  else Action.fail (Target.ofString target).refusal

def disconnect : Action State Unit := do
  reset
  Action.log .debug "postgres connection closed" []

def adapter : Adapter State where
  dialect := .postgres
  connect := connect
  isConnected s := s.link = .live || s.link = .silent
  disconnect := disconnect
  execute sql := execute sql []
  executeWith := execute
  query sql := query sql []
  queryWith := query
  begin := control "BEGIN" false
  commit := control "COMMIT" true
  rollback := control "ROLLBACK" true
  inTransaction := State.inTransaction

/-- What the end of the session leaves in the log: each silent connection ends with an error. -/
def closing (s : State) : List Event := List.replicate s.silenced lostEvent

end Postgres
end Relata
