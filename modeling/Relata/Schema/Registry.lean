import Relata.Event
import Relata.Schema.Table

/-!
The registry of tables, in the order of registration.
-/
namespace Relata

structure Schema where
  tables : Keyed Table
  deriving DecidableEq, Repr

namespace Schema

def empty : Schema := ⟨.empty⟩

instance : Inhabited Schema := ⟨empty⟩

/-- A table of a known name replaces the one before and keeps its place. -/
def register (s : Schema) (t : Table) : Schema := ⟨s.tables.insert t.name t⟩

def get? (s : Schema) (name : String) : Option Table := s.tables.get? name

/-- The tables in the order of registration. -/
def toList (s : Schema) : List Table := s.tables.values

def size (s : Schema) : Nat := s.tables.size

def isEmpty (s : Schema) : Bool := s.tables.isEmpty

/-- What a registration leaves in the log. -/
def registerEvents (s : Schema) (t : Table) : List Event :=
  match s.get? t.name with
  | some old => [⟨.warn, "replacing previously registered table", [("table", old.name)]⟩]
  | none => []

def ofList (tables : List Table) : Schema := tables.foldl register empty

/-- What registering the tables one by one leaves in the log. -/
def eventsOfList (s : Schema) : List Table → List Event
  | [] => []
  | t :: rest => s.registerEvents t ++ (s.register t).eventsOfList rest

end Schema
end Relata
