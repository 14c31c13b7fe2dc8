/-
The clauses that statements share: column lists, joins, orderings, groupings and assignments.
-/
import SqlAccess.Condition

namespace SqlAccess

/-- A join: the table, its type (`LEFT`, `INNER`, ...), and its condition. Columns to match by name win over pairs. -/
structure Join where
  table : Identifier
  kind : Option Text
  pairs : List (Identifier × Identifier)
  matching : List Identifier
  deriving DecidableEq, Repr

def Join.of (table : Identifier) (kind : Option Text) : Join := ⟨table, kind, [], []⟩

structure SortTerm where
  column : Identifier
  direction : Option Text
  deriving DecidableEq, Repr

/-- a word the caller chose, without blanks around it and in upper case; none if nothing is left -/
def normalWord (word : Option Text) : Option Text :=
  match word with
  | none => none
  | some w => if w.trim.isEmpty then none else some w.trim.upper

namespace Connection

variable {σ : Type}

def compileColumns (conn : Connection σ) (columns : List Identifier) : Action σ Text := do
  let texts ← columns.mapM conn.quoteColumn
  return Text.joined [',', ' '] texts

def compileTables (conn : Connection σ) (tables : List Identifier) : Action σ Text := do
  let texts ← tables.mapM conn.quoteTable
  return Text.joined [',', ' '] texts

def compilePair (conn : Connection σ) (pair : Identifier × Identifier) : Action σ Text := do
  let left ← conn.quoteColumn pair.1
  let right ← conn.quoteColumn pair.2
  return left ++ [' ', '=', ' '] ++ right

/-- the condition of a join: columns to match, a bare pair, or several pairs in parentheses -/
def compileJoinCondition (conn : Connection σ) (join : Join) : Action σ Text :=
  if !join.matching.isEmpty then do
    let columns ← conn.compileColumns join.matching
    return " USING (" ++ columns ++ [')']
  else if !join.pairs.isEmpty then do
    let pairs ← join.pairs.mapM conn.compilePair
    match pairs with
    | [pair] => return " ON " ++ pair
    | pairs => return " ON (" ++ Text.joined " AND " pairs ++ [')']
  else pure []

def compileJoin (conn : Connection σ) (join : Join) : Action σ Text := do
  let table ← conn.quoteTable join.table
  let condition ← conn.compileJoinCondition join
  let kind : Text := (normalWord join.kind).elim [] (· ++ [' '])
  return kind ++ "JOIN " ++ table ++ condition

def compileJoins (conn : Connection σ) (joins : List Join) : Action σ Text := do
  let texts ← joins.mapM conn.compileJoin
  return Text.joined [' '] texts

def compileSortTerm (conn : Connection σ) (term : SortTerm) : Action σ Text := do
  let column ← conn.quoteColumn term.column
  return column ++ (normalWord term.direction).elim [] (' ' :: ·)

/-- `ORDER BY` and the columns, or nothing without any -/
def compileOrderBy (conn : Connection σ) (terms : List SortTerm) : Action σ Text :=
  if terms.isEmpty then pure []
  else do
    let texts ← terms.mapM conn.compileSortTerm
    return "ORDER BY " ++ Text.joined [',', ' '] texts

/-- `GROUP BY` and the columns, or nothing without any -/
def compileGroupBy (conn : Connection σ) (columns : List Identifier) : Action σ Text :=
  if columns.isEmpty then pure []
  else do
    let text ← conn.compileColumns columns
    return "GROUP BY " ++ text

def compileAssignment (conn : Connection σ) (assignment : Identifier × Value) : Action σ Text := do
  let column ← conn.quoteColumn assignment.1
  let value ← conn.quote assignment.2
  return column ++ [' ', '=', ' '] ++ value

def compileAssignments (conn : Connection σ) (assignments : List (Identifier × Value)) : Action σ Text := do
  let texts ← assignments.mapM conn.compileAssignment
  return Text.joined [',', ' '] texts

end Connection

end SqlAccess
