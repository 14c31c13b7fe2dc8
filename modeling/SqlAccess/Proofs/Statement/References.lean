/-
What a select holds.

`Holds part x` says that a text which `x` answers holds a text which `part` has answered: a reference stands in its
clause, and the clause in the statement. It composes (`Holds.trans`), so every clause is gone through once. Main
results: a select that compiles holds every column it refers to (`Select.compile_holds_column`) and every table it is
taken from (`Select.compile_holds_table`).
-/
import SqlAccess.Proofs.Action
import SqlAccess.Proofs.Condition.Tree
import SqlAccess.Proofs.Text
import SqlAccess.Statement.Select

namespace SqlAccess

/-! ## A text inside another -/

namespace Action

variable {σ α ι : Type} {part x : Action σ Text}

/-- a text that `x` answers holds a text that `part` answers from some state -/
def Holds (part x : Action σ Text) : Prop :=
  ∀ state text state', x state = (.ok text, state') →
    ∃ before piece after, part before = (.ok piece, after) ∧ piece <:+: text

theorem Holds.trans {y : Action σ Text} (h : Holds part x) (hy : Holds x y) : Holds part y := by
  intro state text state' hr
  obtain ⟨before, middle, after, hx, hmiddle⟩ := hy state text state' hr
  obtain ⟨before', piece, after', hpart, hpiece⟩ := h before middle after hx
  exact ⟨before', piece, after', hpart, hpiece.trans hmiddle⟩

/-- A part that answers the same from every state stands in the text. -/
theorem Holds.inside (h : Holds part x) {piece text : Text} (hpart : ∀ state, part state = (.ok piece, state))
    {state state' : σ} (hx : x state = (.ok text, state')) : piece <:+: text := by
  obtain ⟨before, piece', after, hpiece, hinfix⟩ := h state text state' hx
  rw [hpart] at hpiece
  cases hpiece
  exact hinfix

/-- What is done first stays in what is made of it. -/
theorem holds_first {f : Text → Action σ Text}
    (h : ∀ a state text state', f a state = (.ok text, state') → a <:+: text) : Holds x (x >>= f) := by
  intro state text state' hr
  obtain ⟨a, middle, hx, hf⟩ := bind_eq_ok hr
  exact ⟨state, a, middle, hx, h a middle text state' hf⟩

theorem holds_map {f : Text → Text} (h : ∀ a, a <:+: f a) : Holds x (do let a ← x; return f a) := by
  apply holds_first
  intro a state text state' hr
  cases hr
  exact h a

theorem holds_after {y : Action σ α} {f : α → Action σ Text} (h : ∀ a, Holds part (f a)) : Holds part (y >>= f) := by
  intro state text state' hr
  obtain ⟨a, middle, -, hf⟩ := bind_eq_ok hr
  exact h a middle text state' hf

theorem holds_throw (e : Error) : Holds part (MonadExcept.throw e) := by
  intro state text state' hr
  cases hr

/-- Items put together as their texts hold each item, if the texts stay whole. -/
theorem holds_mapM {f : ι → Action σ Text} {items : List ι} {item : ι} (hi : item ∈ items)
    {make : List Text → Text} (h : ∀ texts, ∀ t ∈ texts, t <:+: make texts) :
    Holds (f item) (do let texts ← items.mapM f; return make texts) := by
  intro state text state' hr
  obtain ⟨texts, htexts, rfl⟩ := map_eq_ok_iff.1 hr
  obtain ⟨before, piece, after, hpiece, hmem⟩ := exists_of_mapM_ok htexts hi
  exact ⟨before, piece, after, hpiece, h texts piece hmem⟩

theorem holds_joined {f : ι → Action σ Text} {items : List ι} {item : ι} (hi : item ∈ items) (separator : Text) :
    Holds (f item) (do let texts ← items.mapM f; return Text.joined separator texts) :=
  holds_mapM hi fun _ _ ht => Text.infix_joined ht

end Action

open SqlAccess.Action

/-! ## Clauses -/

/-- the columns in the condition of a join: those to match by name, else both sides of the pairs -/
def Join.columns (join : Join) : List Identifier :=
  if join.matching.isEmpty then join.pairs.flatMap fun pair => [pair.1, pair.2] else join.matching

namespace Connection

variable {σ : Type} {conn : Connection σ} {column : Identifier}

theorem compileColumns_holds {columns : List Identifier} (h : column ∈ columns) :
    Holds (conn.quoteColumn column) (conn.compileColumns columns) := holds_joined h _

theorem compilePair_holds {pair : Identifier × Identifier} (h : column ∈ [pair.1, pair.2]) :
    Holds (conn.quoteColumn column) (conn.compilePair pair) := by
  simp only [List.mem_cons, List.not_mem_nil, or_false] at h
  rcases h with rfl | rfl
  · apply holds_first
    intro left state text state' hr
    obtain ⟨right, -, rfl⟩ := map_eq_ok_iff.1 hr
    exact ⟨[], [' ', '=', ' '] ++ right, by simp⟩
  · apply holds_after
    intro left
    exact holds_map fun right => (List.suffix_append _ right).isInfix

theorem compileJoinCondition_holds {join : Join} (h : column ∈ join.columns) :
    Holds (conn.quoteColumn column) (conn.compileJoinCondition join) := by
  unfold Join.columns at h
  unfold compileJoinCondition
  by_cases hmatching : join.matching.isEmpty = true
  · rw [if_pos hmatching] at h
    obtain ⟨pair, hpair, hcolumn⟩ := List.mem_flatMap.1 h
    have hpairs : join.pairs.isEmpty = false := by simpa using List.ne_nil_of_mem hpair
    simp only [hmatching, hpairs, Bool.not_true, Bool.not_false, Bool.false_eq_true, if_false, if_true]
    refine (compilePair_holds hcolumn).trans ?_
    intro state text state' hr
    obtain ⟨texts, middle, htexts, hr⟩ := bind_eq_ok hr
    obtain ⟨before, piece, after, hpiece, hmem⟩ := exists_of_mapM_ok htexts hpair
    refine ⟨before, piece, after, hpiece, ?_⟩
    split at hr
    · cases hr
      rw [List.mem_singleton] at hmem
      exact hmem ▸ (List.suffix_append _ _).isInfix
    · cases hr
      have hjoined : piece <:+: Text.joined " AND " texts := Text.infix_joined hmem
      exact hjoined.trans ⟨" ON (", [')'], rfl⟩
  · rw [if_neg hmatching] at h
    simp only [hmatching, Bool.not_false, if_true]
    refine (compileColumns_holds h).trans (holds_map fun columns => ?_)
    exact ⟨" USING (", [')'], rfl⟩

theorem compileJoin_holds_table (join : Join) : Holds (conn.quoteTable join.table) (conn.compileJoin join) := by
  apply holds_first
  intro table state text state' hr
  obtain ⟨condition, -, rfl⟩ := map_eq_ok_iff.1 hr
  exact ⟨_, condition, rfl⟩

theorem compileJoin_holds_column {join : Join} (h : column ∈ join.columns) :
    Holds (conn.quoteColumn column) (conn.compileJoin join) := by
  apply holds_after
  intro table
  refine (compileJoinCondition_holds h).trans (holds_map fun condition => ?_)
  exact (List.suffix_append _ condition).isInfix

theorem compilePredicate_holds (operator : Text) (value : Value) :
    Holds (conn.quoteColumn column) (conn.compilePredicate column operator value) := by
  apply holds_first
  intro columnText state text state' hr
  obtain ⟨operand, -, rfl⟩ := map_eq_ok_iff.1 hr
  exact (List.prefix_append columnText _).isInfix

/-- Entries hold the column of each predicate among them. -/
theorem compileEntries_holds {conditions : List Condition} {p : Predicate}
    (h : p ∈ conditions.filterMap Condition.predicate?) (due : Bool) :
    Holds (conn.quoteColumn p.column) (conn.compileEntries due conditions) := by
  induction conditions generalizing due with
  | nil => cases h
  | cons c r ih =>
    cases c with
    | opening logic => exact (ih h false).trans (holds_map fun others => ⟨logicText due logic ++ ['('], [], by simp⟩)
    | closing => exact (ih h true).trans (holds_map fun others => (List.suffix_cons ')' others).isInfix)
    | predicate logic column operator value =>
      simp only [List.filterMap_cons, Condition.predicate?] at h
      rcases List.mem_cons.1 h with rfl | h
      · refine (compilePredicate_holds operator value).trans (holds_first ?_)
        intro entry state text state' hr
        obtain ⟨others, -, rfl⟩ := map_eq_ok_iff.1 hr
        exact ⟨_, others, rfl⟩
      · apply holds_after
        intro entry
        exact (ih h true).trans (holds_map fun others => (List.suffix_append _ others).isInfix)

theorem compileFilter_holds {conditions : List Condition} {p : Predicate}
    (h : p ∈ conditions.filterMap Condition.predicate?) (keyword : Text) :
    Holds (conn.quoteColumn p.column) (conn.compileFilter keyword conditions) := by
  have hne : ¬ conditions.isEmpty = true := by
    rw [List.isEmpty_iff]
    rintro rfl
    cases h
  rw [compileFilter, if_neg hne]
  have hconditions : Holds (conn.quoteColumn p.column) (conn.compileConditions conditions) := by
    unfold compileConditions
    split
    · exact holds_throw _
    · exact compileEntries_holds h false
  exact hconditions.trans (holds_map fun text => ⟨' ' :: (keyword ++ [' ']), [], by simp⟩)

theorem compileGroupBy_holds {columns : List Identifier} (h : column ∈ columns) :
    Holds (conn.quoteColumn column) (conn.compileGroupBy columns) := by
  rw [compileGroupBy, if_neg (by simpa using List.ne_nil_of_mem h)]
  exact (compileColumns_holds h).trans (holds_map fun text => (List.suffix_append _ text).isInfix)

theorem compileOrderBy_holds {terms : List SortTerm} {term : SortTerm} (h : term ∈ terms) :
    Holds (conn.quoteColumn term.column) (conn.compileOrderBy terms) := by
  rw [compileOrderBy, if_neg (by simpa using List.ne_nil_of_mem h)]
  have hterm : Holds (conn.quoteColumn term.column) (conn.compileSortTerm term) :=
    holds_map fun text => (List.prefix_append text _).isInfix
  refine hterm.trans (holds_mapM h fun texts t ht => ?_)
  exact (Text.infix_joined ht).trans (List.suffix_append _ _).isInfix

end Connection

/-! ## Selects -/

namespace Select

variable {σ : Type} {conn : Connection σ} {s : Select}

/-- the columns that a select refers to, clause by clause -/
def references (s : Select) : List Identifier :=
  s.columns ++ s.joins.flatMap Join.columns ++
    ((s.filter ++ s.having).filterMap Condition.predicate?).map Predicate.column ++
    s.grouping ++ s.sorting.map SortTerm.column

/-- the tables that a select is taken from -/
def entries (s : Select) : List Identifier := s.tables ++ s.joins.map Join.table

/-- the clauses that name columns or tables -/
def clauses (conn : Connection σ) (s : Select) : List (Action σ Text) :=
  [s.compileColumns conn, s.compileTables conn, conn.compileJoins s.joins, conn.compileFilter "WHERE" s.filter,
    conn.compileGroupBy s.grouping, conn.compileFilter "HAVING" s.having, conn.compileOrderBy s.sorting]

theorem infix_spaced (clause : Text) : clause <:+: spaced clause := by
  unfold spaced
  split
  · rename_i h
    obtain rfl := List.isEmpty_iff.1 h
    exact List.infix_refl _
  · exact (List.suffix_cons ' ' clause).isInfix

theorem compile_holds_clause {clause : Action σ Text} (h : clause ∈ s.clauses conn) :
    Holds clause (s.compile conn) := by
  intro state text state' hr
  cases hmisuse : s.misuse with
  | some fault =>
    rw [compile, hmisuse] at hr
    cases hr
  | none =>
  rw [compile, hmisuse] at hr
  obtain ⟨columns, s₁, hcolumns, hr⟩ := bind_eq_ok hr
  obtain ⟨tables, s₂, htables, hr⟩ := bind_eq_ok hr
  obtain ⟨joins, s₃, hjoins, hr⟩ := bind_eq_ok hr
  obtain ⟨filter, s₄, hfilter, hr⟩ := bind_eq_ok hr
  obtain ⟨grouping, s₅, hgrouping, hr⟩ := bind_eq_ok hr
  obtain ⟨having, s₆, hhaving, hr⟩ := bind_eq_ok hr
  obtain ⟨sorting, hsorting, htext⟩ := map_eq_ok_iff.1 hr
  have hpieces : ∀ piece ∈ [columns, tables, spaced joins, filter, spaced grouping, having, spaced sorting],
      piece <:+: text := by
    intro piece hpiece
    refine (List.infix_of_mem_flatten hpiece).trans ⟨"SELECT " ++ (if s.distinct then ("DISTINCT " : Text) else []),
      counted "LIMIT" s.limit ++ counted "OFFSET" s.offset, ?_⟩
    simp [← htext]
  simp only [clauses, List.mem_cons, List.not_mem_nil, or_false] at h
  rcases h with rfl | rfl | rfl | rfl | rfl | rfl | rfl
  · exact ⟨_, columns, _, hcolumns, hpieces columns (by simp)⟩
  · exact ⟨_, tables, _, htables, hpieces tables (by simp)⟩
  · exact ⟨_, joins, _, hjoins, (infix_spaced joins).trans (hpieces (spaced joins) (by simp))⟩
  · exact ⟨_, filter, _, hfilter, hpieces filter (by simp)⟩
  · exact ⟨_, grouping, _, hgrouping, (infix_spaced grouping).trans (hpieces (spaced grouping) (by simp))⟩
  · exact ⟨_, having, _, hhaving, hpieces having (by simp)⟩
  · exact ⟨_, sorting, _, hsorting, (infix_spaced sorting).trans (hpieces (spaced sorting) (by simp))⟩

/-- **A select that compiles holds its columns.** -/
theorem compile_holds_column {column : Identifier} (h : column ∈ s.references) :
    Holds (conn.quoteColumn column) (s.compile conn) := by
  simp only [references, List.mem_append, List.mem_flatMap, List.mem_map, List.filterMap_append] at h
  rcases h with (((h | ⟨join, hjoin, h⟩) | ⟨p, h | h, rfl⟩) | h) | ⟨term, h, rfl⟩
  · have hcolumns : Holds (conn.quoteColumn column) (s.compileColumns conn) := by
      rw [compileColumns, if_neg (by simpa using List.ne_nil_of_mem h)]
      exact Connection.compileColumns_holds h
    exact hcolumns.trans (compile_holds_clause (by simp [clauses]))
  · have hjoins : Holds (conn.compileJoin join) (conn.compileJoins s.joins) := holds_joined hjoin _
    exact ((Connection.compileJoin_holds_column h).trans hjoins).trans (compile_holds_clause (by simp [clauses]))
  · exact (Connection.compileFilter_holds h "WHERE").trans (compile_holds_clause (by simp [clauses]))
  · exact (Connection.compileFilter_holds h "HAVING").trans (compile_holds_clause (by simp [clauses]))
  · exact (Connection.compileGroupBy_holds h).trans (compile_holds_clause (by simp [clauses]))
  · exact (Connection.compileOrderBy_holds h).trans (compile_holds_clause (by simp [clauses]))

/-- **A select that compiles holds its tables.** -/
theorem compile_holds_table {entry : Identifier} (h : entry ∈ s.entries) :
    Holds (conn.quoteTable entry) (s.compile conn) := by
  simp only [entries, List.mem_append, List.mem_map] at h
  rcases h with h | ⟨join, hjoin, rfl⟩
  · have htables : Holds (conn.quoteTable entry) (s.compileTables conn) := by
      rw [compileTables, if_neg (by simpa using List.ne_nil_of_mem h)]
      have hall : Holds (conn.quoteTable entry) (conn.compileTables s.tables) := holds_joined h _
      exact hall.trans (holds_map fun tables => (List.suffix_append _ tables).isInfix)
    exact htables.trans (compile_holds_clause (by simp [clauses]))
  · have hjoins : Holds (conn.compileJoin join) (conn.compileJoins s.joins) := holds_joined hjoin _
    exact ((Connection.compileJoin_holds_table join).trans hjoins).trans (compile_holds_clause (by simp [clauses]))

end Select

end SqlAccess
