/-
A connection in the process itself, for trying statements out without a server.

It quotes like a server with standard strings, connects by itself where a real one would have to, records what it runs,
answers selects from a queue of row sets, and refuses any SQL that holds the words `syntax error`.
-/
import SqlAccess.Connection

namespace SqlAccess

/-- the state of the connection: whether it is connected, how often it became so, what it ran, and the rows to hand out -/
structure Recorder where
  connected : Bool
  connects : Nat
  executed : List (StatementKind × Text)
  queued : List RowSet
  deriving DecidableEq, Repr

namespace Recorder

def fresh : Recorder := ⟨false, 0, [], []⟩

/-- connected; counted when it was not before -/
def connect (r : Recorder) : Recorder :=
  if r.connected then r else { r with connected := true, connects := r.connects + 1 }

def disconnect (r : Recorder) : Recorder := { r with connected := false }

def push (r : Recorder) (set : RowSet) : Recorder := { r with queued := r.queued ++ [set] }

/-- The text with its quotes doubled, after connecting; refused if it holds NUL. -/
def escape (t : Text) : Action Recorder Text := fun r =>
  if '\x00' ∈ t then (.error (.validation .nulInLiteral), r.connect)
  else (.ok (Text.doubled (· == '\'') t), r.connect)

/-- A statement recorded and answered, after connecting. -/
def execute (kind : StatementKind) (sql : Text) : Action Recorder Outcome := fun r =>
  let r := r.connect
  if Text.contains "syntax error" sql then (.error (.query none "syntax error at or near" sql), r)
  else
    let r := { r with executed := r.executed ++ [(kind, sql)] }
    match kind with
    | .select => (.ok (.ofRowSet (r.queued.head?.getD .empty)), { r with queued := r.queued.drop 1 })
    | .insert => (.ok (.receipt (.inserted (some r.executed.length) 1)), r)
    | _ => (.ok (.receipt (.affected 1)), r)

def connection (tablePrefix : Text) : Connection Recorder := ⟨tablePrefix, escape, execute⟩

end Recorder

end SqlAccess
