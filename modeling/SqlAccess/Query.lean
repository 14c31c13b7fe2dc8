/-
Hand-written SQL with `:name` parameters.

A parameter holds a value or the handle of a cell whose content is looked up when the query is compiled, so a cell set
after it was bound still counts. Bindings are kept newest first, and the newest of a name is the one that holds.
Compiling fills the placeholders from left to right and copies all else.
-/
import SqlAccess.Connection
import SqlAccess.Template

namespace SqlAccess

/-! ## Cells -/

/-- values that queries share, by handle -/
structure Cells where
  contents : List Value

namespace Cells

def empty : Cells := ⟨[]⟩

def add (cells : Cells) (value : Value) : Nat × Cells := (cells.contents.length, ⟨cells.contents ++ [value]⟩)

/-- the content of a cell, null where there is no such cell -/
def get (cells : Cells) (handle : Nat) : Value := cells.contents.getD handle .null

def set (cells : Cells) (handle : Nat) (value : Value) : Cells := ⟨cells.contents.set handle value⟩

end Cells

/-! ## Queries -/

inductive Parameter where
  | value (value : Value)
  | cell (handle : Nat)

def Parameter.current (cells : Cells) : Parameter → Value
  | .value v => v
  | .cell handle => cells.get handle

/-- a hand-written statement with its bindings, newest first -/
structure Query where
  kind : StatementKind
  template : Text
  bindings : List (Text × Parameter)

namespace Query

/-- a query of a known kind, nothing bound -/
def of (kind : StatementKind) (template : Text) : Query := ⟨kind, template, []⟩

/-- a query whose kind its first word tells -/
def detect (template : Text) : Except Error Query :=
  match StatementKind.ofSql? template with
  | some kind => .ok (of kind template)
  | none => .error (.validation .unknownKind)

/-- a parameter's name without the colon it may be given with -/
def bareName : Text → Text
  | ':' :: name => name
  | name => name

def bind (q : Query) (name : Text) (parameter : Parameter) : Query :=
  { q with bindings := (bareName name, parameter) :: q.bindings }

def bindAll (q : Query) (values : List (Text × Value)) : Query :=
  values.foldl (fun q (name, value) => q.bind name (.value value)) q

def lookup? (q : Query) (name : Text) : Option Parameter := q.bindings.lookup name

variable {σ α : Type}

/-- The template from position `copied` on, `rest`, with the placeholders that stand there filled and all else copied. -/
def splice (conn : Connection σ) (cells : Cells) (q : Query) (copied : Nat) (rest : Text) :
    List Template.Placeholder → Action σ Text
  | [] => pure rest
  | span :: spans =>
    match q.lookup? span.name with
    | none => throw (.unboundParameter span.name)
    | some parameter => do
      let text ← conn.quote (parameter.current cells)
      let others ← splice conn cells q span.stop (rest.drop (span.stop - copied)) spans
      return rest.take (span.start - copied) ++ (text ++ others)

/-- the template with every placeholder filled -/
def compile (conn : Connection σ) (cells : Cells) (q : Query) : Action σ Text :=
  q.splice conn cells 0 q.template (Template.placeholders q.template)

def execute (conn : Connection σ) (cells : Cells) (q : Query) : Action σ Outcome := do
  let sql ← q.compile conn cells
  conn.execute q.kind sql

def cursor (conn : Connection σ) (cells : Cells) (q : Query) : Action σ (Cursor RowSet) := do
  let outcome ← q.execute conn cells
  Action.ofExcept outcome.cursor

/-- run for all its rows, each through `f` -/
def fetchAllAs (f : Row → Except Error α) (conn : Connection σ) (cells : Cells) (q : Query) : Action σ (List α) := do
  let cursor ← q.cursor conn cells
  Action.ofExcept (cursor.fetchAllAs f).1

def fetchAll (conn : Connection σ) (cells : Cells) (q : Query) : Action σ (List Row) := q.fetchAllAs .ok conn cells

def fetchFirst (conn : Connection σ) (cells : Cells) (q : Query) : Action σ (Option Row) := do
  let cursor ← q.cursor conn cells
  Action.ofExcept (cursor.get 0).1

end Query

end SqlAccess
