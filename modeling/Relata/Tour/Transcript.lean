import Relata.Sqlite.Connection

/-!
Tours through the library: programs that work with a database and tell the reader what they do.
-/
namespace Relata.Tour

/-- A database connection, and the lines told so far, newest first. -/
abbrev Transcript := Sqlite.Connection × List String

/-- What a tour told, how it ended, and what it left in the log. -/
structure Told where
  lines : List String
  ending : Except Error Unit
  events : List Event

/-- The database as a tour sees it. -/
def db : Adapter Transcript := Sqlite.Connection.adapter.beside

/-- Tells a text, which may be of several lines. -/
def say (text : String) : Action Transcript Unit :=
  let lines := (Text.splitOnChar '\n' text.toList).map String.ofList
  Action.modify fun s => (s.1, lines.reverse ++ s.2)

/-- Takes the tour from its start, where nothing is connected yet. -/
def take (tour : Action Transcript Unit) : Told :=
  let o := tour.run (Sqlite.Connection.closed, [])
  ⟨o.state.2.reverse, o.answer, o.events⟩

end Relata.Tour
