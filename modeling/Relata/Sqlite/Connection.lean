import Relata.Sqlite.Engine
import Relata.Sqlite.Link

/-!
The connection to a database in memory.
-/
namespace Relata.Sqlite

abbrev Connection : Type := Link Engine

namespace Connection

def closed : Connection := Link.closed .empty

def adapter : Adapter Connection := Link.adapter Engine.driver

end Connection
end Relata.Sqlite
