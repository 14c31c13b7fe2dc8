/-
A PostgreSQL server as a client sees it: who it listens to, how it takes a new link, and what it answers to a statement.

A server is any type of states with these four behaviours, so what is proved of the client holds whatever the server does.
An answer may come late: a client that waits only so long does not see it.
-/
import SqlAccess.Result.Row

namespace SqlAccess

namespace Postgres

/-- what a client says of itself on a new link -/
structure Login where
  user : Text
  database : Text
  deriving DecidableEq, Repr

def applicationName : Text := "dbshim"

def clientEncoding : Text := "UTF8"

/-- whether a new link is taken -/
inductive Verdict where
  | accepted
  | refused (code message : Text)
  | closed
  deriving DecidableEq, Repr

/-- the first reaction to a new link: a verdict, or the wish for a password -/
inductive Greeting where
  | verdict (verdict : Verdict)
  | passwordWanted
  deriving DecidableEq, Repr

/-- A part of the answer to a statement: the columns of the rows to come, a row, the end with its affected count, or a
refusal. -/
inductive Message where
  | columns (names : List Text)
  | row (values : List (Option Text))
  | complete (count : Nat)
  | refused (code message : Text)
  deriving DecidableEq, Repr

/-- what becomes of a statement: messages, or the end of the link -/
inductive Reply where
  | messages (messages : List Message)
  | closed
  deriving DecidableEq, Repr

/-- a reply, and whether it comes only when a client with a time limit has given up -/
structure Answer where
  late : Bool
  reply : Reply
  deriving DecidableEq, Repr

/-- the behaviour of a server with states in `S` -/
class Server (S : Type) where
  listens : Text → Nat → S → Bool
  greet : Login → S → Greeting × S
  authenticate : Text → S → Verdict × S
  answer : Text → S → Answer × S

end Postgres

end SqlAccess
