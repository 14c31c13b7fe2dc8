/-
What a PostgreSQL connection takes out of its configuration group.
-/
import SqlAccess.Config
import SqlAccess.Event

namespace SqlAccess

namespace Postgres

structure Settings where
  name : Text
  host : Text
  database : Text
  user : Text
  password : Option Text
  port : Nat
  connectTimeout : Option Duration
  queryTimeout : Option Duration
  charset : Option Text
  tablePrefix : Text
  deriving DecidableEq, Repr

namespace Settings

def requiredKeys : List Text := ["hostname", "database", "username"]

def defaultPort : Nat := 5432

/-- The settings in a group, and what there is to note about them. The first fault counts: a missing key, then the port,
then the two timeouts. -/
def ofConfig (name : Text) (config : Config) : Except Error (Settings × List Event) := do
  config.require name requiredKeys
  let find (key : Text) := config.settings.lookup key
  let port ← config.read (Text.readInteger (.unsigned 16)) name "port"
  let connectTimeout ← config.seconds name "connect_timeout"
  let queryTimeout ← config.seconds name "query_timeout"
  let settings : Settings :=
    { name
      host := (find "hostname").getD []
      database := (find "database").getD []
      user := (find "username").getD []
      password := find "password"
      port := port.elim defaultPort Int.toNat
      connectTimeout
      queryTimeout
      charset := config.charset
      tablePrefix := config.tablePrefix }
  return (settings, if config.persistent then [.persistentUnsupported name] else [])

end Settings

end Postgres

end SqlAccess
