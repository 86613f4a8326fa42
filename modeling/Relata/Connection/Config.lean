import Relata.Connection.Setting
import Relata.Dialect
import Relata.Error
import Relata.Json.Printer

/-!
Where and how to connect: an address and perhaps a dialect. A configuration is read from JSON or
from environment variables.
-/
namespace Relata

structure Config where
  databaseUrl : String
  dialect : Option Dialect
  deriving DecidableEq, Repr

namespace Config

def default : Config := ⟨"sqlite://gird.db", none⟩

/-- The dialect that is set, else the one that the scheme of the address tells. -/
def resolveDialect (c : Config) : Except Error Dialect :=
  match c.dialect with
  | some d => .ok d
  | none =>
    match Text.splitFirst? "://".toList (Text.trim c.databaseUrl).toList with
    | none => .ok .sqlite
    | some (scheme, _) =>
      match String.ofList scheme with
      | "postgres" | "postgresql" => .ok .postgres
      | "sqlite" => .ok .sqlite
      | scheme => .error (.invalidConnectionString ("unsupported scheme '" ++ scheme ++ "'"))

/-- A path without its scheme. -/
def filePath (url : List Char) : List Char :=
  match Text.stripPrefix? "sqlite://".toList url with
  | some path => path
  | none => (Text.stripPrefix? "sqlite:".toList url).getD url

/-- What to connect to. An address of a server is passed on as it is. -/
def connectionString (c : Config) : Except Error String :=
  let url := Text.trim c.databaseUrl
  if url.isEmpty then .error (.invalidConnectionString "database_url is empty")
  else
    match c.resolveDialect with
    | .error e => .error e
    | .ok .sqlite => .ok (String.ofList (filePath url.toList))
    | .ok .postgres => .ok url

def serialize (c : Config) : String :=
  "\x7b\"database_url\":" ++ Json.quote c.databaseUrl ++ ",\"dialect\":" ++
    (match c.dialect with
      | some d => Json.quote d.name
      | none => "null") ++ "\x7d"

def urlOfJson? : Json → Option String
  | .string s => some s
  | _ => none

def dialectOfJson? : Json → Option (Option Dialect)
  | .null => some none
  | .string s => (Dialect.ofName? s).map some
  | .object [(s, .null)] => (Dialect.ofName? s).map some
  | _ => none

/-- Takes the members in order; a known one must not come twice, an unknown one does not count. -/
def ofMembers? : (url : Option String) → (dialect : Option (Option Dialect)) →
    List (String × Json) → Option Config
  | url, dialect, [] => some ⟨url.getD "", dialect.getD none⟩
  | url, dialect, (name, d) :: rest =>
    if name = "database_url" then
      match url, urlOfJson? d with
      | none, some u => ofMembers? (some u) dialect rest
      | _, _ => none
    else if name = "dialect" then
      match dialect, dialectOfJson? d with
      | none, some x => ofMembers? url (some x) rest
      | _, _ => none
    else ofMembers? url dialect rest

/-- An object, or the fields in order as an array; what is missing is empty. -/
def ofJson? (text : String) : Option Config :=
  match Json.parseMembers? text with
  | some (.object members) => ofMembers? none none members
  | some (.array []) => some ⟨"", none⟩
  | some (.array [u]) => (urlOfJson? u).map fun u => ⟨u, none⟩
  | some (.array [u, d]) => do return ⟨← urlOfJson? u, ← dialectOfJson? d⟩
  | _ => none

/-- The last variable whose name is `name` in any case of letters. -/
def lastSetting? (name : String) (env : List (String × String)) : Option Setting :=
  (env.reverse.find? fun v => Text.sameAsciiLetters (Text.trim v.1) name).map
    fun v => Setting.ofValue v.2

def urlOfSetting? : Setting → Option String
  | .text s => some s
  | _ => none

def dialectOfSetting? : Setting → Option (Option Dialect)
  | .text s => (Dialect.ofName? s).map some
  | _ => none

/-- The configuration that environment variables give; the general name of the address gives way
to the one with a lead of its own. A setting of the wrong type is an error. -/
def ofEnvironment (env : List (String × String)) : Except Error Config :=
  let set := (Keyed.ofList env).entries
  let url :=
    match lastSetting? "gird_database_url" set, lastSetting? "database_url" set with
    | some s, _ => urlOfSetting? s
    | none, some s => urlOfSetting? s
    | none, none => some default.databaseUrl
  let dialect :=
    match lastSetting? "gird_dialect" set with
    | some s => dialectOfSetting? s
    | none => some default.dialect
  match url, dialect with
  | some url, some dialect => .ok ⟨url, dialect⟩
  | _, _ => .error (.config "invalid type of a setting")

end Config
end Relata
