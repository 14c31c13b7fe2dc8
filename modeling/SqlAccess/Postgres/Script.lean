/-
A server that follows a script, for trying the client out.

It takes new links and answers statements from queues: first the queue of the statement's own text, then the standing
answers to the two statements that open a link, then a common queue, and without any of these it says that all is well. It
keeps a list of what it has heard.
-/
import SqlAccess.Postgres.Session

namespace SqlAccess

namespace Postgres

namespace Script

inductive Startup where
  | accept
  | drop
  | refuse (code message : Text)
  | password
  deriving DecidableEq, Repr

inductive Result where
  | rows (columns : List Text) (rows : List (List (Option Text))) (tag : Option Text)
  | tag (tag : Text)
  | empty
  | error (code message : Text)
  deriving DecidableEq, Repr

/-- one answer: results, the end of the link, or silence until a patient client would hear the one or the other -/
inductive Response where
  | results (results : List Result)
  | drop
  | stall (drops : Bool)
  deriving DecidableEq, Repr

inductive Heard where
  | startup (login : Login)
  | password (password : Text)
  | statement (sql : Text)
  deriving DecidableEq, Repr

end Script

/-- a script: the port, the queues, and what was heard so far -/
structure Script where
  port : Nat
  startups : List Script.Startup
  byText : List (Text × List Script.Response)
  responses : List Script.Response
  heard : List Script.Heard
  deriving Repr

namespace Script

/-- the name of the host that the scripted server listens on -/
def host : Text := "SERVER"

/-- the affected count in a tag: its last word, zero when that is no count -/
def tagCount (tag : Text) : Nat :=
  let word := (tag.reverse.takeWhile (· != ' ')).reverse
  ((Integer.read (.unsigned 64) word).toOption.map Int.toNat).getD 0

def Result.messages : Result → List Message
  | .rows columns values last =>
    .columns columns :: values.map .row ++ last.toList.map fun t => .complete (tagCount t)
  | .tag t => [.complete (tagCount t)]
  | .empty => [.complete 0]
  | .error code message => [.refused code message]

def answerOf : Response → Answer
  | .results results => ⟨false, .messages (results.flatMap Result.messages)⟩
  | .drop => ⟨false, .closed⟩
  | .stall drops => ⟨true, if drops then .closed else .messages []⟩

/-- what the script says without an entry: strings are standard, an encoding is set, and all else is well -/
def standing? (sql : Text) : Option Response :=
  if sql = Session.showStandardStrings then
    some (.results [.rows ["standard_conforming_strings"] [[some "on"]] (some "SHOW")])
  else if sql = Session.setEncoding then some (.results [.tag "SET"])
  else none

/-- the front of the queue of a text, and the queues without it -/
def takeByText (sql : Text) : List (Text × List Response) → Option (Response × List (Text × List Response))
  | [] => none
  | (text, queue) :: r =>
    if text = sql then
      match queue with
      | [] => none
      | response :: queue => some (response, (text, queue) :: r)
    else (takeByText sql r).map fun (response, r) => (response, (text, queue) :: r)

/-- the response to a statement, and the script without it -/
def respond (sql : Text) (script : Script) : Response × Script :=
  match takeByText sql script.byText with
  | some (response, byText) => (response, { script with byText })
  | none =>
    match standing? sql, script.responses with
    | some response, _ => (response, script)
    | none, response :: responses => (response, { script with responses })
    | none, [] => (.results [.tag "OK"], script)

def hear (script : Script) (heard : Heard) : Script := { script with heard := script.heard ++ [heard] }

instance : Server Script where
  listens name port script := name == host && port == script.port
  greet login script :=
    let script := script.hear (.startup login)
    match script.startups with
    | [] => (.verdict .accepted, script)
    | .accept :: r => (.verdict .accepted, { script with startups := r })
    | .drop :: r => (.verdict .closed, { script with startups := r })
    | .refuse code message :: r => (.verdict (.refused code message), { script with startups := r })
    | .password :: r => (.passwordWanted, { script with startups := r })
  authenticate password script := (.accepted, script.hear (.password password))
  answer sql script :=
    let (response, script) := respond sql script
    match response with
    | .stall drops => (answerOf (.stall drops), script)
    | response => (answerOf response, script.hear (.statement sql))

end Script

end Postgres

end SqlAccess
