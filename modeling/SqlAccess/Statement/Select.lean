/-
Selects: the state that the calls build up, and its text.

Calls append to their clause; `distinct`, `limit` and `offset` overwrite. A condition of a join goes to the join added
last. Asked for before any join, it is a misuse that the select keeps and reports when it is compiled.
-/
import SqlAccess.Clause

namespace SqlAccess

structure Select where
  columns : List Identifier
  distinct : Bool
  tables : List Identifier
  joins : List Join
  filter : List Condition
  grouping : List Identifier
  having : List Condition
  sorting : List SortTerm
  limit : Option Nat
  offset : Option Nat
  misuse : Option Invalid

namespace Select

/-- a select of the given columns, of all without any -/
def of (columns : List Identifier) : Select := ⟨columns, false, [], [], [], [], [], [], none, none, none⟩

inductive Call where
  | columns (columns : List Identifier)
  | distinct (on : Bool)
  | table (table : Identifier)
  | join (table : Identifier) (kind : Option Text)
  | pair (left right : Identifier)
  | matching (columns : List Identifier)
  | filter (condition : Condition)
  | group (columns : List Identifier)
  | having (condition : Condition)
  | sort (term : SortTerm)
  | limit (count : Nat)
  | offset (count : Nat)

/-- the first misuse is the one that is kept -/
def noting (s : Select) (fault : Invalid) : Select := { s with misuse := s.misuse.or (some fault) }

def onLastJoin (s : Select) (fault : Invalid) (change : Join → Join) : Select :=
  match s.joins.getLast? with
  | none => s.noting fault
  | some join => { s with joins := s.joins.dropLast ++ [change join] }

def step (s : Select) : Call → Select
  | .columns columns => { s with columns := s.columns ++ columns }
  | .distinct on => { s with distinct := on }
  | .table table => { s with tables := s.tables ++ [table] }
  | .join table kind => { s with joins := s.joins ++ [Join.of table kind] }
  | .pair left right => s.onLastJoin .onBeforeJoin fun join => { join with pairs := join.pairs ++ [(left, right)] }
  | .matching columns => s.onLastJoin .usingBeforeJoin fun join => { join with matching := columns }
  | .filter condition => { s with filter := s.filter ++ [condition] }
  | .group columns => { s with grouping := s.grouping ++ columns }
  | .having condition => { s with having := s.having ++ [condition] }
  | .sort term => { s with sorting := s.sorting ++ [term] }
  | .limit count => { s with limit := some count }
  | .offset count => { s with offset := some count }

def run (s : Select) (calls : List Call) : Select := calls.foldl step s

/-- a clause with a blank in front, unless it is empty -/
def spaced (clause : Text) : Text := if clause.isEmpty then [] else ' ' :: clause

def counted (keyword : Text) : Option Nat → Text
  | none => []
  | some n => ' ' :: (keyword ++ ' ' :: Text.ofNat n)

variable {σ : Type}

/-- the list behind `SELECT` -/
def compileColumns (conn : Connection σ) (s : Select) : Action σ Text :=
  if s.columns.isEmpty then pure ['*'] else conn.compileColumns s.columns

/-- `FROM` and the tables, or nothing without any -/
def compileTables (conn : Connection σ) (s : Select) : Action σ Text :=
  if s.tables.isEmpty then pure []
  else do
    let tables ← conn.compileTables s.tables
    return " FROM " ++ tables

/-- the text of a select, unless it was misused -/
def compile (conn : Connection σ) (s : Select) : Action σ Text :=
  match s.misuse with
  | some fault => throw (.validation fault)
  | none => do
    let columns ← s.compileColumns conn
    let tables ← s.compileTables conn
    let joins ← conn.compileJoins s.joins
    let filter ← conn.compileFilter "WHERE" s.filter
    let grouping ← conn.compileGroupBy s.grouping
    let having ← conn.compileFilter "HAVING" s.having
    let sorting ← conn.compileOrderBy s.sorting
    let distinct : Text := if s.distinct then "DISTINCT " else []
    return "SELECT " ++ distinct ++ columns ++ tables ++ spaced joins ++ filter ++ spaced grouping ++ having ++
      spaced sorting ++ counted "LIMIT" s.limit ++ counted "OFFSET" s.offset

end Select

end SqlAccess
