import Relata.Dialect
import Relata.Keyed
import Relata.Text.Basic

/-!
Connection strings put together from their parts.
-/
namespace Relata

structure ConnectionParts where
  dialect : Dialect
  host : Option String
  port : Option UInt16
  database : Option String
  user : Option String
  password : Option String
  options : Keyed String

namespace ConnectionParts

def ofDialect (dialect : Dialect) : ConnectionParts :=
  ⟨dialect, none, none, none, none, none, .empty⟩

def withHost (p : ConnectionParts) (host : String) : ConnectionParts := { p with host := some host }

def withPort (p : ConnectionParts) (port : UInt16) : ConnectionParts := { p with port := some port }

def withDatabase (p : ConnectionParts) (database : String) : ConnectionParts :=
  { p with database := some database }

def withUser (p : ConnectionParts) (user : String) : ConnectionParts := { p with user := some user }

def withPassword (p : ConnectionParts) (password : String) : ConnectionParts :=
  { p with password := some password }

/-- A further parameter; given again, it takes the last value. -/
def withOption (p : ConnectionParts) (key value : String) : ConnectionParts :=
  { p with options := p.options.insert key value }

def insertByName (e : String × String) : List (String × String) → List (String × String)
  | [] => [e]
  | f :: rest => if e.1 < f.1 then e :: f :: rest else f :: insertByName e rest

def sortedByName (l : List (String × String)) : List (String × String) := l.foldr insertByName []

/-- The parts that are set, by the names that the server knows them under. -/
def fields (p : ConnectionParts) : List (String × String) :=
  [p.host.map fun s => ("host", s), p.port.map fun n => ("port", Nat.repr n.toNat),
    p.database.map fun s => ("dbname", s), p.user.map fun s => ("user", s),
    p.password.map fun s => ("password", s)].filterMap id ++ sortedByName p.options.entries

/-- The path of a file, or of a database in memory; for a server, `name=value` pairs with blanks
between them, where values stand as they were given. -/
def connectionString (p : ConnectionParts) : String :=
  match p.dialect with
  | .sqlite => p.database.getD ":memory:"
  | .postgres => Text.joinWith " " (p.fields.map fun f => f.1 ++ "=" ++ f.2)

end ConnectionParts
end Relata
