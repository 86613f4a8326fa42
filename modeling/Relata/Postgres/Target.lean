import Relata.Connection.KeyValue
import Relata.Error
import Relata.Number.Reading

/-!
What a server connection accepts as its target: an address, or pairs of known parameters with
values that fit them.
-/
namespace Relata.Postgres

open Number

inductive Target where
  | malformed
  /-- No host is named. -/
  | incomplete
  | remote
  deriving DecidableEq, Repr

namespace Target

def isPort (s : String) : Bool :=
  s.isEmpty || ((readBounded? 0 65535 s).isSome && !Text.startsWith s "-")

def isCount (s : String) : Bool :=
  (readBounded? 0 (UInt64.size - 1) s).isSome && !Text.startsWith s "-"

def allPieces (p : String → Bool) (s : String) : Bool :=
  (Text.splitOnChar ',' s.toList).all fun piece => p (String.ofList piece)

def isAddressPart (s : List Char) : Bool :=
  (readInt? s).any (fun z => 0 ≤ z && z ≤ 255) && s.all isDigit && (s.length = 1 || s.head? != some '0')

/-- Numbers with points between them, or hexadecimal groups with colons. -/
def isAddress (s : String) : Bool :=
  let parts := Text.splitOnChar '.' s.toList
  (parts.length = 4 && parts.all isAddressPart) || Text.contains s ":"

/-- Whether a parameter is known and its value fits. -/
def accepts (name value : String) : Bool :=
  match name with
  | "user" | "password" | "dbname" | "options" | "application_name" | "host" => true
  | "sslmode" => ["disable", "prefer", "require"].contains value
  | "sslnegotiation" => ["postgres", "direct"].contains value
  | "hostaddr" => allPieces isAddress value
  | "port" => allPieces isPort value
  | "connect_timeout" => (readBounded? Int64.minValue.toInt Int64.maxValue.toInt value).isSome
  | "tcp_user_timeout" | "keepalives_idle" | "keepalives_interval" =>
    (readBounded? Int64.minValue.toInt Int64.maxValue.toInt value).isSome
  | "keepalives" => isCount value
  | "keepalives_retries" => (readBounded? 0 (UInt32.size - 1) value).isSome && isCount value
  | "target_session_attrs" => ["any", "read-write", "read-only"].contains value
  | "channel_binding" => ["disable", "prefer", "require"].contains value
  | "load_balance_hosts" => ["disable", "random"].contains value
  | _ => false

def ofString (s : String) : Target :=
  if Text.startsWith s "postgres://" || Text.startsWith s "postgresql://" then .remote
  else
    match KeyValue.read? s with
    | none => .malformed
    | some pairs =>
      if !pairs.all fun p => accepts p.1 p.2 then .malformed
      else if pairs.any fun p => p.1 == "host" || p.1 == "hostaddr" then .remote
      else .incomplete

/-- Why nothing can be connected to there. -/
def refusal : Target → Error
  | .malformed => .connection "invalid connection string"
  | .incomplete => .connection "invalid configuration"
  | .remote => .connection "error connecting to server"

end Target
end Relata.Postgres
