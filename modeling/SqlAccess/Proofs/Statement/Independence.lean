/-
Selects do not remember the order in which their clauses were built.

Every call on a select belongs to one clause. It leaves alone what the other clauses keep (`kept_step_outside`), and
what it makes of its own is told by what that clause keeps (`kept_step_inside`). So a clause sees a run as the run of
its own calls (`kept_run`), and runs that make the same calls for every clause, interleaved in whatever way, build the
same select: `compile_of_same_calls`.
-/
import SqlAccess.Recorder
import SqlAccess.Statement.Select

namespace SqlAccess

namespace Select

/-- The clauses of a select as they are built. A misuse is kept with the joins: it is a condition without a join. -/
inductive Clause where
  | selection
  | distinct
  | tables
  | joins
  | filter
  | grouping
  | having
  | sorting
  | limit
  | offset
  deriving DecidableEq, Repr

def Call.clause : Call → Clause
  | .columns _ => .selection
  | .distinct _ => .distinct
  | .table _ => .tables
  | .join _ _ => .joins
  | .pair _ _ => .joins
  | .matching _ => .joins
  | .filter _ => .filter
  | .group _ => .grouping
  | .having _ => .having
  | .sort _ => .sorting
  | .limit _ => .limit
  | .offset _ => .offset

/-- the calls among others that belong to a clause, in order -/
def callsOf (clause : Clause) (calls : List Call) : List Call := calls.filter (·.clause = clause)

def Kept : Clause → Type
  | .selection => List Identifier
  | .distinct => Bool
  | .tables => List Identifier
  | .joins => List Join × Option Invalid
  | .filter => List Condition
  | .grouping => List Identifier
  | .having => List Condition
  | .sorting => List SortTerm
  | .limit => Option Nat
  | .offset => Option Nat

def kept (s : Select) : (clause : Clause) → Kept clause
  | .selection => s.columns
  | .distinct => s.distinct
  | .tables => s.tables
  | .joins => (s.joins, s.misuse)
  | .filter => s.filter
  | .grouping => s.grouping
  | .having => s.having
  | .sorting => s.sorting
  | .limit => s.limit
  | .offset => s.offset

variable {a b : Select} {clause : Clause}

/-- What the clauses keep is all that there is to a select. -/
theorem eq_of_kept (h : ∀ clause, a.kept clause = b.kept clause) : a = b := by
  have hcolumns : a.columns = b.columns := h .selection
  have hdistinct : a.distinct = b.distinct := h .distinct
  have htables : a.tables = b.tables := h .tables
  have hjoins : (a.joins, a.misuse) = (b.joins, b.misuse) := h .joins
  have hfilter : a.filter = b.filter := h .filter
  have hgrouping : a.grouping = b.grouping := h .grouping
  have hhaving : a.having = b.having := h .having
  have hsorting : a.sorting = b.sorting := h .sorting
  have hlimit : a.limit = b.limit := h .limit
  have hoffset : a.offset = b.offset := h .offset
  obtain ⟨hjoins, hmisuse⟩ := Prod.mk.inj hjoins
  cases a
  cases b
  simp only at *
  subst_vars
  rfl

/-! ## One call -/

/-- A condition of a join changes nothing but the joins and the misuse kept with them. -/
theorem onLastJoin_eq (s : Select) (fault : Invalid) (change : Join → Join) : s.onLastJoin fault change =
    { s with joins := (s.onLastJoin fault change).joins, misuse := (s.onLastJoin fault change).misuse } := by
  unfold onLastJoin
  split <;> rfl

/-- What becomes of the joins is told by the joins and the misuse alone. -/
theorem kept_onLastJoin (h : a.kept .joins = b.kept .joins) (fault : Invalid) (change : Join → Join) :
    (a.onLastJoin fault change).kept .joins = (b.onLastJoin fault change).kept .joins := by
  obtain ⟨hjoins, hmisuse⟩ := Prod.mk.inj h
  unfold onLastJoin
  rw [hjoins]
  split
  · exact Prod.ext hjoins (congrArg (Option.or · (some fault)) hmisuse)
  · exact Prod.ext rfl hmisuse

/-- A call changes nothing for the clauses that it does not belong to. -/
theorem kept_step_outside (s : Select) {call : Call} (h : call.clause ≠ clause) :
    (s.step call).kept clause = s.kept clause := by
  cases call with
  | pair left right =>
    rw [step, onLastJoin_eq]
    cases clause <;> first | rfl | exact absurd rfl h
  | matching columns =>
    rw [step, onLastJoin_eq]
    cases clause <;> first | rfl | exact absurd rfl h
  | _ => cases clause <;> first | rfl | exact absurd rfl h

/-- What a call makes of its clause is told by what the clause keeps. -/
theorem kept_step_inside (call : Call) (h : a.kept call.clause = b.kept call.clause) :
    (a.step call).kept call.clause = (b.step call).kept call.clause := by
  cases call with
  | pair left right => exact kept_onLastJoin h _ _
  | matching columns => exact kept_onLastJoin h _ _
  | join table kind =>
    exact congrArg (fun kept : List Join × Option Invalid => (kept.1 ++ [Join.of table kind], kept.2)) h
  | columns columns => exact congrArg (fun kept : List Identifier => kept ++ columns) h
  | table table => exact congrArg (fun kept : List Identifier => kept ++ [table]) h
  | group columns => exact congrArg (fun kept : List Identifier => kept ++ columns) h
  | filter condition => exact congrArg (fun kept : List Condition => kept ++ [condition]) h
  | having condition => exact congrArg (fun kept : List Condition => kept ++ [condition]) h
  | sort term => exact congrArg (fun kept : List SortTerm => kept ++ [term]) h
  | distinct on => rfl
  | limit count => rfl
  | offset count => rfl

/-! ## Runs -/

/-- **A clause sees a run as the run of its own calls.** -/
theorem kept_run (h : a.kept clause = b.kept clause) (calls : List Call) :
    (a.run calls).kept clause = (b.run (callsOf clause calls)).kept clause := by
  induction calls generalizing a b with
  | nil => exact h
  | cons call calls ih =>
    by_cases hclause : call.clause = clause
    · subst hclause
      rw [callsOf, List.filter_cons_of_pos (by simp)]
      exact ih (kept_step_inside call h)
    · rw [callsOf, List.filter_cons_of_neg (by simpa using hclause)]
      exact ih ((kept_step_outside a hclause).trans h)

theorem run_of_same_calls (s : Select) {calls others : List Call}
    (h : ∀ clause, callsOf clause calls = callsOf clause others) : s.run calls = s.run others := by
  refine eq_of_kept fun clause => ?_
  rw [kept_run rfl calls, h clause, ← kept_run rfl others]

/-- **The order between clauses does not matter.** Two runs of calls on a select that make the same calls for every
clause, in the same order within it, compile to the same on every connection: the same text or the same error, and the
same is asked of the connection. -/
theorem compile_of_same_calls (s : Select) {calls others : List Call}
    (h : ∀ clause, callsOf clause calls = callsOf clause others) {σ : Type} (conn : Connection σ) :
    (s.run calls).compile conn = (s.run others).compile conn := by
  rw [run_of_same_calls s h]

/-- clauses called upon in the order of the text, a limit set anew behind them -/
def inOrder : List Call :=
  [.columns [.name "id" none], .table (.name "users" (some ['u'])), .join (.name "roles" none) (some "left"),
    .pair (.name "u.role" none) (.name "roles.id" none),
    .filter (.predicate .and (.name "age" none) ['>'] (.integer 18)), .limit 5, .limit 10]

/-- the same calls, those of each clause between those of others; the condition of the join comes far behind it -/
def shuffled : List Call :=
  [.limit 5, .join (.name "roles" none) (some "left"),
    .filter (.predicate .and (.name "age" none) ['>'] (.integer 18)), .columns [.name "id" none], .limit 10,
    .pair (.name "u.role" none) (.name "roles.id" none), .table (.name "users" (some ['u']))]

/-- Two orders of the same calls, both behind a misplaced condition, compile to the same. -/
theorem compile_of_same_calls_shuffled :
    (∀ clause, callsOf clause inOrder = callsOf clause shuffled) ∧
    (((Select.of []).step (.matching [.name "id" none])).run inOrder).compile (Recorder.connection "app_") =
      (((Select.of []).step (.matching [.name "id" none])).run shuffled).compile (Recorder.connection "app_") ∧
    ((Select.of []).run inOrder).compile (Recorder.connection "app_") =
      ((Select.of []).run shuffled).compile (Recorder.connection "app_") := by
  have hsame : ∀ clause, callsOf clause inOrder = callsOf clause shuffled := by
    intro clause
    cases clause <;> rfl
  exact ⟨hsame, compile_of_same_calls _ hsame _, compile_of_same_calls _ hsame _⟩

end Select

end SqlAccess
