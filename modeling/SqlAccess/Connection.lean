/-
What a statement needs of the connection it is written for and run on.

An `Action` is a computation on the state of a connection that may fail; the state it has reached stays, failed or not. A
`Connection` gives the table prefix, the escape of string literals (which may have to connect first) and the running of
SQL. Writing values as literals is built on the escape: `quote` leaves numbers, truth values, digits and expressions bare,
puts every other text into quotes, and writes a list item by item, an empty one as NULL.
-/
import SqlAccess.Result.Outcome
import SqlAccess.StatementKind
import SqlAccess.Identifier
import SqlAccess.Value

namespace SqlAccess

/-- a computation on a connection's state that may fail and keeps the state it has reached -/
abbrev Action (σ α : Type) : Type := ExceptT Error (StateM σ) α

/-- a settled answer that leaves the state alone -/
def Action.ofExcept {σ α : Type} (answer : Except Error α) : Action σ α := fun state => (answer, state)

/-- how statements are written for and run on connections with states in `σ` -/
structure Connection (σ : Type) where
  tablePrefix : Text
  escape : Text → Action σ Text
  execute : StatementKind → Text → Action σ Outcome

namespace Connection

variable {σ : Type}

/-! ## Literals -/

/-- A float as a bare number, an infinity or not-a-number as quoted text. -/
def floatLiteral (x : Binary64) : Text :=
  match x.view with
  | .notANumber => "'NaN'"
  | .infinite negative => if negative then "'-Infinity'" else "'Infinity'"
  | .finite negative mantissa exponent =>
    Binary64.signed negative (Decimal.shortest .upper mantissa exponent).positional

/-- a text as a literal: bare when it is digits only, else escaped and in quotes -/
def quoteText (conn : Connection σ) (t : Text) : Action σ Text :=
  if t.isDigits then pure t
  else do
    let body ← conn.escape t
    return '\'' :: (body ++ ['\''])

mutual

def quote (conn : Connection σ) : Value → Action σ Text
  | .null => pure "NULL"
  | .boolean b => pure (if b then "TRUE" else "FALSE")
  | .integer n => pure (Text.ofInt n)
  | .float x => pure (floatLiteral x)
  | .text t => conn.quoteText t
  | .list [] => pure "NULL"
  | .list (v :: vs) => do
    let first ← conn.quote v
    let others ← conn.quoteAll vs
    return Text.joined [',', ' '] (first :: others)
  | .expression sql => pure sql

def quoteAll (conn : Connection σ) : List Value → Action σ (List Text)
  | [] => pure []
  | v :: vs => do
    let first ← conn.quote v
    let others ← conn.quoteAll vs
    return first :: others

end

/-! ## References -/

def quoteColumn (conn : Connection σ) (column : Identifier) : Action σ Text :=
  Action.ofExcept (column.asColumn conn.tablePrefix)

def quoteTable (conn : Connection σ) (table : Identifier) : Action σ Text :=
  Action.ofExcept (table.asTable conn.tablePrefix)

end Connection

end SqlAccess
