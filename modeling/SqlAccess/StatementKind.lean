/-
The kinds of statements, and how the kind of a hand-written statement is found: leading blanks, comments and opening
parentheses are skipped, and the first word decides. A statement that returns rows counts as a select.
-/
import SqlAccess.Text

namespace SqlAccess

/-- what a statement does; it decides what running it hands back -/
inductive StatementKind where
  | select
  | insert
  | update
  | delete
  | create
  | alter
  | drop
  deriving DecidableEq, Repr

namespace StatementKind

def keyword : StatementKind → Text
  | .select => "SELECT"
  | .insert => "INSERT"
  | .update => "UPDATE"
  | .delete => "DELETE"
  | .create => "CREATE"
  | .alter => "ALTER"
  | .drop => "DROP"

/-- the kind a leading keyword in upper case stands for -/
def ofKeyword? (word : Text) : Option StatementKind :=
  if word ∈ (["SELECT", "WITH", "SHOW", "EXPLAIN", "VALUES"] : List Text) then some .select
  else [StatementKind.insert, .update, .delete, .create, .alter, .drop].find? (·.keyword = word)

/-- The text without leading blanks, comments and opening parentheses. A line comment runs to the end of its line. A block
comment ends at the first `*/`, whose star may be the one that opened it. A comment that does not end leaves nothing. -/
def skipTrivia (sql : Text) : Text :=
  match _h : sql.trimStart with
  | '-' :: '-' :: r => skipTrivia (Text.through ['\n'] r).2
  | '/' :: '*' :: r => skipTrivia (Text.through ['*', '/'] ('*' :: r)).2
  | '(' :: r => skipTrivia r
  | s => s
termination_by sql.length
decreasing_by
  all_goals
    have hs := Text.length_trimStart sql
    rw [_h] at hs
    simp only [List.length_cons] at hs
  · have := Text.length_through_snd ['\n'] r
    omega
  · have := Text.length_through_snd ['*', '/'] ('*' :: r)
    simp only [List.length_cons] at this
    omega
  · omega

/-- the kind of a hand-written statement, if its first word tells -/
def ofSql? (sql : Text) : Option StatementKind :=
  ofKeyword? (Text.upper ((skipTrivia sql).takeWhile Char.isAlpha))

end StatementKind

end SqlAccess
