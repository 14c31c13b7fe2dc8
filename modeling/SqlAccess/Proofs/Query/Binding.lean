/-
What a placeholder is filled with after any run of bindings.

A family is any number of queries and the cells they are bound to. Its steps bind names, set cells, clone queries and
compile them, in any order: `Family.run`. Beside the tables that the queries keep stands what was written: a `Lineage` is
a query's template with everything written for its names, oldest first, a clone's beginning with its original's, and
`contentOf` is what a cell was set to last. `compiled_last_written` says that every compile goes by the last writes.
-/
import Mathlib.Data.List.Induction
import Mathlib.Tactic.Set
import SqlAccess.Proofs.Query.Compile
import SqlAccess.Recorder

namespace SqlAccess

/-- queries with the cells they share, the state of the connection they are compiled for, and what compiling gave -/
structure Family (σ : Type) where
  queries : List Query
  cells : Cells
  state : σ
  compiled : List (Except Error Text)

namespace Family

/-- a step on the queries of a family, told by their places, and on its cells -/
inductive Step (count : Nat) where
  | value (query : Nat) (name : Text) (value : Value)
  | parameters (query : Nat) (values : List (Text × Value))
  | bind (query : Nat) (name : Text) (cell : Fin count)
  | set (cell : Fin count) (value : Value)
  | clone (query : Nat)
  | compile (query : Nat)

variable {σ : Type} {count : Nat}

def start (sources : List (StatementKind × Text)) (cells : Cells) (state : σ) : Family σ :=
  ⟨sources.map fun (kind, template) => .of kind template, cells, state, []⟩

/-- one step; a clone stands behind all queries, and a step on a query that is not there does nothing -/
def step (conn : Connection σ) (f : Family σ) : Step count → Family σ
  | .value query name v => { f with queries := f.queries.modify query (·.bind name (.value v)) }
  | .parameters query values => { f with queries := f.queries.modify query (·.bindAll values) }
  | .bind query name cell => { f with queries := f.queries.modify query (·.bind name (.cell cell)) }
  | .set cell v => { f with cells := f.cells.set cell v }
  | .clone query => { f with queries := f.queries ++ f.queries[query]?.toList }
  | .compile query =>
    match f.queries[query]? with
    | none => f
    | some q =>
      let (answer, state) := q.compile conn f.cells f.state
      { f with state, compiled := f.compiled ++ [answer] }

def run (conn : Connection σ) (f : Family σ) (steps : List (Step count)) : Family σ := steps.foldl (step conn) f

theorem run_append (conn : Connection σ) (f : Family σ) (steps more : List (Step count)) :
    f.run conn (steps ++ more) = (f.run conn steps).run conn more := List.foldl_append

/-- What has been compiled stays. -/
theorem compiled_step (conn : Connection σ) (f : Family σ) (step : Step count) :
    f.compiled <+: (f.step conn step).compiled := by
  cases step with
  | compile query =>
    simp only [Family.step]
    split
    · exact List.prefix_refl _
    · exact List.prefix_append _ _
  | _ => exact List.prefix_refl _

theorem compiled_run (conn : Connection σ) (f : Family σ) (steps : List (Step count)) :
    f.compiled <+: (f.run conn steps).compiled := by
  induction steps generalizing f with
  | nil => exact List.prefix_refl _
  | cons step steps ih => exact (compiled_step conn f step).trans (ih _)

/-! ## What was written -/

/-- a query's kind and template and what was written for its names, oldest first -/
structure Lineage where
  kind : StatementKind
  template : Text
  writes : List (Text × Parameter)

/-- what a step writes for the names of a query -/
def Step.writesFor (query : Nat) : Step count → List (Text × Parameter)
  | .value written name v => if written = query then [(name, .value v)] else []
  | .parameters written values => if written = query then values.map fun v => (v.1, .value v.2) else []
  | .bind written name cell => if written = query then [(name, .cell cell)] else []
  | _ => []

namespace Lineage

/-- A clone takes over what was written for its original; what else is written is written for one query. -/
def extend (lineages : List Lineage) : Step count → List Lineage
  | .clone query => lineages ++ lineages[query]?.toList
  | .set _ _ => lineages
  | .compile _ => lineages
  | step => lineages.mapIdx fun query l => { l with writes := l.writes ++ step.writesFor query }

/-- the lineages behind steps -/
def behind (sources : List (StatementKind × Text)) (steps : List (Step count)) : List Lineage :=
  steps.foldl extend (sources.map fun (kind, template) => ⟨kind, template, []⟩)

/-- what was written last for a name, which may have been written with a colon -/
def last? (l : Lineage) (name : Text) : Option Parameter :=
  (l.writes.filter fun w => Query.bareName w.1 = name).getLast?.map Prod.snd

end Lineage

def Step.setting? (cell : Nat) : Step count → Option Value
  | .set changed v => if changed = cell then some v else none
  | _ => none

/-- what a cell was set to last, or held at first -/
def contentOf (cells : Cells) (steps : List (Step count)) (cell : Nat) : Value :=
  (steps.filterMap (Step.setting? cell)).getLast?.getD (cells.get cell)

/-- the value that was written last for a name: itself, or what the cell written holds now -/
def Lineage.value? (cells : Cells) (steps : List (Step count)) (l : Lineage) (name : Text) : Option Value :=
  (l.last? name).map fun
    | .value v => v
    | .cell cell => contentOf cells steps cell

/-! ## The tables hold what was written -/

/-- the query that has been written for -/
def Lineage.query (l : Lineage) : Query :=
  ⟨l.kind, l.template, (l.writes.map fun w => (Query.bareName w.1, w.2)).reverse⟩

/-- The table of a query holds the last write of each name. -/
theorem lookup?_query (l : Lineage) (name : Text) : l.query.lookup? name = l.last? name := by
  obtain ⟨kind, template, writes⟩ := l
  simp only [Lineage.query, Query.lookup?, Lineage.last?]
  induction writes using List.reverseRecOn with
  | nil => rfl
  | append_singleton writes w ih =>
    rw [List.map_append, List.reverse_append, List.filter_append]
    by_cases hname : Query.bareName w.1 = name
    · simp [hname]
    · simp [Table.lookup_cons, hname, Ne.symm hname, ih]

/-- Writing for a query binds its names. -/
theorem query_writes (l : Lineage) (writes : List (Text × Parameter)) :
    Lineage.query { l with writes := l.writes ++ writes } =
      { l.query with
        bindings := (writes.map fun w => (Query.bareName w.1, w.2)).reverse ++ l.query.bindings } := by
  simp [Lineage.query]

/-- A step that writes for one query writes for no other. -/
theorem queries_modify {lineages : List Lineage} {queries : List Query} (h : queries = lineages.map Lineage.query)
    {written : Nat} {change : Query → Query} {writes : Nat → List (Text × Parameter)}
    (hwritten : ∀ l : Lineage, change l.query = Lineage.query { l with writes := l.writes ++ writes written })
    (hothers : ∀ query, query ≠ written → writes query = []) :
    queries.modify written change =
      (lineages.mapIdx fun query l => { l with writes := l.writes ++ writes query }).map Lineage.query := by
  subst h
  apply List.ext_getElem?
  intro query
  simp only [List.getElem?_modify, List.getElem?_map, List.getElem?_mapIdx, Option.map_map]
  by_cases hquery : written = query
  · subst hquery
    cases lineages[written]? with
    | none => simp
    | some l => simp [hwritten]
  · rw [hothers query (Ne.symm hquery)]
    simp [hquery, Function.comp_def]

theorem queries_step (conn : Connection σ) {f : Family σ} {lineages : List Lineage}
    (h : f.queries = lineages.map Lineage.query) (step : Step count) :
    (f.step conn step).queries = (Lineage.extend lineages step).map Lineage.query := by
  cases step with
  | value query name v =>
    refine queries_modify h (fun l => ?_) fun other hother => if_neg (Ne.symm hother)
    rw [query_writes, Step.writesFor, if_pos rfl]
    rfl
  | parameters query values =>
    refine queries_modify h (fun l => ?_) fun other hother => if_neg (Ne.symm hother)
    rw [query_writes, Step.writesFor, if_pos rfl, Query.bindAll_eq, List.map_map]
    rfl
  | bind query name cell =>
    refine queries_modify h (fun l => ?_) fun other hother => if_neg (Ne.symm hother)
    rw [query_writes, Step.writesFor, if_pos rfl]
    rfl
  | set cell v => exact h
  | clone query =>
    simp only [Family.step, Lineage.extend, h, List.map_append, List.getElem?_map]
    cases lineages[query]? <;> rfl
  | compile query =>
    rw [Lineage.extend, ← h, Family.step]
    split <;> rfl

/-- Setting a cell is all that changes one, and there are never more or fewer. -/
theorem cells_step (conn : Connection σ) {f : Family σ} (hcount : f.cells.contents.length = count) (step : Step count) :
    (f.step conn step).cells.contents.length = count ∧
      ∀ cell, (f.step conn step).cells.get cell = (step.setting? cell).getD (f.cells.get cell) := by
  cases step with
  | set changed v =>
    have hchanged : (changed : Nat) < f.cells.contents.length := hcount ▸ changed.isLt
    refine ⟨by simpa [Family.step, Cells.set] using hcount, fun cell => ?_⟩
    by_cases hcell : (changed : Nat) = cell
    · subst hcell
      simp [Family.step, Step.setting?, Cells.get, Cells.set, hchanged]
    · simp [Family.step, Step.setting?, Cells.get, Cells.set, hcell]
  | compile query =>
    rw [Family.step]
    split <;> exact ⟨hcount, fun cell => rfl⟩
  | _ => exact ⟨hcount, fun cell => rfl⟩

/-- What a cell holds behind a step is what the step sets it to, or what it held. -/
theorem contentOf_concat (cells : Cells) (steps : List (Step count)) (step : Step count) (cell : Nat) :
    contentOf cells (steps ++ [step]) cell = (step.setting? cell).getD (contentOf cells steps cell) := by
  rw [contentOf, List.filterMap_append]
  cases hset : step.setting? cell with
  | none => simp [hset, contentOf]
  | some v => simp [hset]

/-- the tables of a family hold what was written by steps from a start -/
structure Holds (sources : List (StatementKind × Text)) (cells : Cells) (steps : List (Step count))
    (f : Family σ) : Prop where
  count : f.cells.contents.length = count
  queries : f.queries = (Lineage.behind sources steps).map Lineage.query
  contents : ∀ cell, f.cells.get cell = contentOf cells steps cell

variable {sources : List (StatementKind × Text)} {cells : Cells} {state : σ} {conn : Connection σ} {f : Family σ}

theorem holds_start (h : cells.contents.length = count) :
    Holds sources cells ([] : List (Step count)) (start sources cells state) where
  count := h
  queries := by
    rw [Lineage.behind, List.foldl_nil, List.map_map]
    rfl
  contents := fun _ => rfl

/-- one step -/
theorem Holds.step {steps : List (Step count)} (h : Holds sources cells steps f) (step : Step count) :
    Holds sources cells (steps ++ [step]) (f.step conn step) where
  count := (cells_step conn h.count step).1
  queries := by
    rw [Lineage.behind, List.foldl_append]
    exact queries_step conn h.queries step
  contents := by
    intro cell
    rw [contentOf_concat, (cells_step conn h.count step).2, h.contents]

theorem Holds.run {steps : List (Step count)} (h : Holds sources cells steps f) (more : List (Step count)) :
    Holds sources cells (steps ++ more) (f.run conn more) := by
  induction more generalizing steps f with
  | nil => rwa [List.append_nil]
  | cons step more ih =>
    have hstep : Holds sources cells (steps ++ [step]) (f.step conn step) := h.step step
    have hrest := ih hstep
    rwa [List.append_assoc] at hrest

/-- What a name is bound to is what was written last for it. -/
theorem Holds.value? {steps : List (Step count)} (h : Holds sources cells steps f) (l : Lineage) :
    l.query.value? f.cells = l.value? cells steps := by
  funext name
  rw [Query.value?, lookup?_query, Lineage.value?]
  congr 1
  funext parameter
  cases parameter with
  | value v => rfl
  | cell cell => exact h.contents cell

/-- **Every compile goes by the last writes.** Wherever in a run a query is compiled, what is given out for it is its
template with each placeholder as the literals of the value written last for its name in the query's own lineage. A
written value stands for itself, a written cell for what it was set to last, through whatever query. -/
theorem compiled_last_written (conn : Connection σ) (sources : List (StatementKind × Text)) (cells : Cells) (state : σ)
    (before after : List (Step cells.contents.length)) {query : Nat} {l : Lineage}
    (h : (Lineage.behind sources before)[query]? = some l) :
    ∃ later, ((start sources cells state).run conn (before ++ .compile query :: after)).compiled =
      ((start sources cells state).run conn before).compiled ++
        (Template.fill conn (l.value? cells before) (Template.tokens l.template)
          ((start sources cells state).run conn before).state).1 :: later := by
  set f := (start sources cells state).run conn before
  have hholds : Holds sources cells before f := (holds_start rfl).run before
  have hquery : f.queries[query]? = some l.query := by rw [hholds.queries, List.getElem?_map, h, Option.map_some]
  have hcompile : l.query.compile conn f.cells =
      Template.fill conn (l.value? cells before) (Template.tokens l.template) := by
    rw [Query.compile_eq_fill, hholds.value? l]
    rfl
  have hstep : (f.step conn (.compile query : Step cells.contents.length)).compiled =
      f.compiled ++ [(Template.fill conn (l.value? cells before) (Template.tokens l.template) f.state).1] := by
    simp only [Family.step, hquery, hcompile]
    rfl
  obtain ⟨later, hlater⟩ := compiled_run conn (f.step conn (.compile query : Step cells.contents.length)) after
  refine ⟨later, ?_⟩
  calc ((start sources cells state).run conn (before ++ .compile query :: after)).compiled
      = ((f.step conn (.compile query)).run conn after).compiled := by rw [run_append]; rfl
    _ = (f.step conn (.compile query)).compiled ++ later := hlater.symm
    _ = _ := by rw [hstep, List.append_assoc, List.singleton_append]

/-- a query with a value and a cell, its clone with a value of its own, and the cell set behind both -/
def cloneOfBound : List (Step 1) :=
  [.value 0 ":a".toList (.integer 5), .bind 0 "b".toList 0, .clone 0, .value 1 "a".toList (.text "x".toList),
    .set 0 (.integer 7)]

/-- the family of one query and one cell behind steps -/
def behindSteps (steps : List (Step 1)) : Family Recorder :=
  (start [(.select, "SELECT :a, :b".toList)] ⟨[.integer 1]⟩ Recorder.fresh).run (Recorder.connection []) steps

/-- The clone is filled with its own value and the original with the one from before; both see the cell. -/
theorem compiled_last_written_clone :
    (∃ later, (behindSteps (cloneOfBound ++ [.compile 1])).compiled = .ok "SELECT 'x', 7".toList :: later) ∧
    ∃ later, (behindSteps (cloneOfBound ++ [.compile 0])).compiled = .ok "SELECT 5, 7".toList :: later := by
  constructor
  · have hlineage : (Lineage.behind [(.select, "SELECT :a, :b".toList)] cloneOfBound)[1]? =
        some ⟨.select, "SELECT :a, :b".toList, [(":a".toList, .value (.integer 5)), ("b".toList, .cell 0),
          ("a".toList, .value (.text "x".toList))]⟩ := rfl
    obtain ⟨later, hcompiled⟩ :=
      compiled_last_written (Recorder.connection []) _ ⟨[.integer 1]⟩ Recorder.fresh cloneOfBound [] hlineage
    refine ⟨later, hcompiled.trans ?_⟩
    change _ :: later = _
    congr 1
    decide +kernel
  · have hlineage : (Lineage.behind [(.select, "SELECT :a, :b".toList)] cloneOfBound)[0]? =
        some ⟨.select, "SELECT :a, :b".toList, [(":a".toList, .value (.integer 5)), ("b".toList, .cell 0)]⟩ := rfl
    obtain ⟨later, hcompiled⟩ :=
      compiled_last_written (Recorder.connection []) _ ⟨[.integer 1]⟩ Recorder.fresh cloneOfBound [] hlineage
    refine ⟨later, hcompiled.trans ?_⟩
    change _ :: later = _
    congr 1
    decide +kernel

end Family

end SqlAccess
