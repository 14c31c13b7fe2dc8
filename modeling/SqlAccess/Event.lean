/-
What connections and the registry note down while they work.

Each event is a cause with its data; level, target, message and fields are read off it. Names of connections and the text
of statements are all that is noted, never a setting.
-/
import SqlAccess.StatementKind

namespace SqlAccess

inductive Event where
  | connected (connection : Text)
  | disconnected (connection : Text)
  | closingFailed (connection error : Text)
  | executing (connection : Text) (kind : StatementKind) (sql : Text)
  | noInsertId (connection error : Text)
  | persistentUnsupported (connection : Text)
  | droppedInRuntime (connection : Text)
  | created (connection driver : Text)
  | released (connection : Text)
  deriving DecidableEq, Repr

inductive Level where
  | debug
  | info
  | warn
  deriving DecidableEq, Repr

def Level.word : Level → Text
  | .debug => "DEBUG"
  | .info => "INFO"
  | .warn => "WARN"

namespace Event

/-- the greatest length in bytes at which a statement is noted -/
def sqlBytes : Nat := 200

def level : Event → Level
  | .connected _ => .info
  | .disconnected _ => .info
  | .closingFailed _ _ => .warn
  | _ => .debug

/-- the target of the events about statements and the registry -/
def target? : Event → Option Text
  | .executing _ _ _ => some "dbshim.sql"
  | .created _ _ => some "dbshim.sql"
  | .released _ => some "dbshim.sql"
  | _ => none

def message : Event → Text
  | .connected _ => "connected"
  | .disconnected _ => "disconnected"
  | .closingFailed _ _ => "error while closing connection"
  | .executing _ _ _ => "execute"
  | .noInsertId _ _ => "no insert id available"
  | .persistentUnsupported _ => "persistent links are not supported, using a regular link"
  | .droppedInRuntime _ => "dropped inside a runtime; closed without waiting"
  | .created _ _ => "connection created"
  | .released _ => "connection released"

/-- the fields of an event besides its message -/
def fields : Event → List (Text × Text)
  | .connected connection => [("connection", connection)]
  | .disconnected connection => [("connection", connection)]
  | .closingFailed connection error => [("connection", connection), ("error", error)]
  | .executing connection kind sql =>
    [("connection", connection), ("kind", kind.keyword), ("sql", Text.takeBytes sqlBytes sql)]
  | .noInsertId connection error => [("connection", connection), ("error", error)]
  | .persistentUnsupported connection => [("connection", connection)]
  | .droppedInRuntime connection => [("connection", connection)]
  | .created connection driver => [("connection", connection), ("driver", driver)]
  | .released connection => [("connection", connection)]

end Event

end SqlAccess
