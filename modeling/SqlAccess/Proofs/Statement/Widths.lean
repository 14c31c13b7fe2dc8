/-
How many literals a row of an insert and an assignment of an update hold.

A row is counted in values and written in literals, one for each leaf of a value. So where a statement compiles, a row
splits into as many literals as there are columns exactly if each of its values has one leaf, and an assignment holds
one literal exactly if its value has one: `literals_per_value`. A list with two or more leaves makes a row wider than
its columns, which the count of the row does not see: `list_widens`.
-/
import SqlAccess.Proofs.Literal.Split
import SqlAccess.Proofs.Statement.Rows
import SqlAccess.Statement.Update

namespace SqlAccess

open SqlAccess.Action (Returns)

/-! ## Leaves -/

namespace Value

theorem length_le_leavesOf (vs : List Value) : vs.length ≤ (leavesOf vs).length := by
  induction vs with
  | nil => exact Nat.le_refl 0
  | cons v vs ih =>
    have hv := List.length_pos_iff.2 v.leaves_ne_nil
    rw [leavesOf, List.length_append, List.length_cons]
    omega

/-- There are as many leaves as values exactly if each value has one. -/
theorem length_leavesOf_eq_iff (vs : List Value) :
    (leavesOf vs).length = vs.length ↔ ∀ v ∈ vs, v.leaves.length = 1 := by
  induction vs with
  | nil => simp [leavesOf]
  | cons v vs ih =>
    have hv := List.length_pos_iff.2 v.leaves_ne_nil
    have hvs := length_le_leavesOf vs
    rw [leavesOf, List.length_append, List.length_cons, List.forall_mem_cons, ← ih]
    omega

end Value

/-! ## Statements -/

/-- A row as text: the literals of its leaves, as many as there are columns exactly if each value has one leaf. -/
def RowInLiterals (standard : Bool) (width : Nat) (values : List Value) (row : Text) : Prop :=
  Split.Literally standard (Value.leavesOf values) row ∧
    ((Split.items standard row).length = width ↔ ∀ v ∈ values, v.leaves.length = 1)

/-- An assignment as text: the column and the literals of the value's leaves, one exactly if the value has one leaf. -/
def AssignmentInLiterals (standard : Bool) (tablePrefix : Text) (assignment : Identifier × Value) (text : Text) : Prop :=
  ∃ column value, assignment.1.asColumn tablePrefix = .ok column ∧ text = column ++ " = ".toList ++ value ∧
    Split.Literally standard assignment.2.leaves value ∧
    ((Split.items standard value).length = 1 ↔ assignment.2.leaves.length = 1)

theorem rowInLiterals_written {standard : Bool} {values : List Value} (hne : values ≠ []) (h : ∀ v ∈ values, v.Inert) :
    RowInLiterals standard values.length values (Text.joined [',', ' '] (values.map (Value.written standard))) := by
  have hliterally : Split.Literally standard (Value.leavesOf values) _ := Split.literally_written hne h
  refine ⟨hliterally, ?_⟩
  rw [hliterally.length, Value.length_leavesOf_eq_iff]

section Statements

variable {σ : Type} {conn : Connection σ} {standard : Bool} {ready : σ → Prop}

/-- Rows that come out are as wide as the columns and hold the texts of their values. -/
theorem Insert.returns_rows (h : conn.Doubles standard ready) (width index : Nat) (rows : List (List Value)) :
    Returns ready (fun tuples => (∀ row ∈ rows, row.length = width) ∧
      rows.map (fun row => tuple (row.map (Value.written standard))) = tuples)
      (compileRows conn width index rows) := by
  induction rows generalizing index with
  | nil => exact Returns.pure ⟨by simp, rfl⟩
  | cons row rows ih =>
    rw [compileRows]
    split
    case isTrue =>
      intro state tuples state' hs hr
      cases hr
    case isFalse hwidth =>
      refine (Connection.returns_quoteAll h row).bind fun values hvalues => ?_
      refine (ih (index + 1)).bind fun others hothers => ?_
      obtain ⟨hall, rfl⟩ := hothers
      rw [List.map_cons, hvalues]
      exact Returns.pure ⟨by simpa using ⟨not_not.1 hwidth, hall⟩, rfl⟩

/-- An insert without columns does not compile. -/
theorem Insert.columns_ne_nil {s : Insert} {sql : Text} {state state' : σ}
    (h : s.compile conn state = (.ok sql, state')) : s.columns ≠ [] := by
  obtain ⟨hmisuse, target, -, -, -, -, -, htarget, -⟩ := compile_eq_ok h
  intro hnone
  simp only [compile, hmisuse, htarget] at h
  rw [if_pos (by simp [hnone])] at h
  cases h

theorem Connection.returns_assignment (h : conn.Doubles standard ready) (assignment : Identifier × Value) :
    Returns ready (fun text => ∃ column, assignment.1.asColumn conn.tablePrefix = .ok column ∧
      text = column ++ " = ".toList ++ assignment.2.written standard) (conn.compileAssignment assignment) := by
  refine Returns.ofExcept.bind fun column hcolumn => (returns_quote h assignment.2).bind fun value hvalue => ?_
  rw [hvalue]
  exact Returns.pure ⟨column, hcolumn, rfl⟩

/-- what an update that compiles has been through -/
theorem Update.compile_eq_ok {s : Update} {sql : Text} {state state' : σ}
    (h : s.compile conn state = (.ok sql, state')) :
    ∃ target table assignments filter middle, s.table = some target ∧ target.asTable conn.tablePrefix = .ok table ∧
      conn.compileAssignments s.assignments state = (.ok assignments, middle) ∧
      conn.compileFilter "WHERE" s.filter middle = (.ok filter, state') ∧
      sql = "UPDATE " ++ table ++ " SET " ++ assignments ++ filter := by
  cases htarget : s.table with
  | none =>
    rw [compile, htarget] at h
    cases h
  | some target =>
  simp only [compile, htarget] at h
  split at h
  case isTrue => cases h
  case isFalse =>
  obtain ⟨table, s₁, htable, h⟩ := Action.bind_eq_ok h
  obtain ⟨assignments, s₂, hassignments, h⟩ := Action.bind_eq_ok h
  obtain ⟨filter, hfilter, rfl⟩ := Action.map_eq_ok_iff.1 h
  obtain ⟨hname, rfl⟩ := Prod.mk.inj htable
  exact ⟨target, table, assignments, filter, s₂, rfl, hname, hassignments, hfilter, rfl⟩

/-- **One literal for each value, unless a value has several leaves.** An insert that compiles is written with a list of
literals for each row, one literal for each leaf of its values, so that there are as many literals as columns exactly if
each value of the row has one leaf. An update that compiles has for each assignment the literals of its value, and it is
one literal exactly if the value has one leaf. Expressions aside, values may be of any kind, lists in lists and texts
with commas too. -/
theorem literals_per_value (h : conn.Doubles standard ready) (state : σ) (hs : ready state) :
    (∀ (s : Insert) sql state', (∀ row ∈ s.rows, ∀ v ∈ row, v.Inert) → s.compile conn state = (.ok sql, state') →
      ∃ target table columns rows, s.table = some target ∧ target.asTable conn.tablePrefix = .ok table ∧
        List.Forall₂ (fun column text => column.asColumn conn.tablePrefix = .ok text) s.columns columns ∧
        sql = "INSERT INTO " ++ table ++ " (" ++ Text.joined [',', ' '] columns ++ ") VALUES " ++
          Text.joined [',', ' '] (rows.map fun row => '(' :: (row ++ [')'])) ∧
        List.Forall₂ (RowInLiterals standard s.columns.length) s.rows rows) ∧
    ∀ (s : Update) sql state', (∀ assignment ∈ s.assignments, assignment.2.Inert) →
      s.compile conn state = (.ok sql, state') →
      ∃ target table assignments filter middle, s.table = some target ∧ target.asTable conn.tablePrefix = .ok table ∧
        conn.compileFilter "WHERE" s.filter middle = (.ok filter, state') ∧
        sql = "UPDATE " ++ table ++ " SET " ++ Text.joined [',', ' '] assignments ++ filter ∧
        List.Forall₂ (AssignmentInLiterals standard conn.tablePrefix) s.assignments assignments := by
  constructor
  · intro s sql state' hinert hcompile
    have hcolumns := Insert.columns_ne_nil hcompile
    obtain ⟨-, target, tuples, table, columnsText, s₁, s₂, htarget, htuples, htable, hcolumnsText, rfl⟩ :=
      Insert.compile_eq_ok hcompile
    obtain ⟨⟨hwidth, rfl⟩, -⟩ := Insert.returns_rows h _ _ _ state _ _ hs htuples
    obtain ⟨⟨columns, rfl, hall⟩, -⟩ := Action.Returns.of_run (fun _ => conn.returns_columns s.columns) hcolumnsText
    refine ⟨target, table, columns, s.rows.map fun row => Text.joined [',', ' '] (row.map (Value.written standard)),
      htarget, (Prod.mk.inj htable).1, hall, ?_, ?_⟩
    · rw [List.map_map]
      rfl
    · rw [List.forall₂_map_right_iff, List.forall₂_same]
      intro row hrow
      have hne : row ≠ [] := by
        rintro rfl
        exact hcolumns (List.length_eq_zero_iff.1 (hwidth [] hrow).symm)
      rw [← hwidth row hrow]
      exact rowInLiterals_written hne (hinert row hrow)
  · intro s sql state' hinert hcompile
    obtain ⟨target, table, assignmentsText, filter, middle, htarget, htable, hassignments, hfilter, rfl⟩ :=
      Update.compile_eq_ok hcompile
    obtain ⟨texts, htexts, rfl⟩ := Action.map_eq_ok_iff.1 hassignments
    obtain ⟨hall, -⟩ := Returns.mapM (Connection.returns_assignment h) s.assignments state texts middle hs htexts
    refine ⟨target, table, texts, filter, middle, htarget, htable, hfilter, rfl, ?_⟩
    refine ((List.forall₂_and_left _ _).2 ⟨hinert, hall⟩).imp ?_
    intro assignment text hassignment
    obtain ⟨hvalue, column, hcolumn, rfl⟩ := hassignment
    have hsingle : RowInLiterals standard 1 [assignment.2] _ :=
      rowInLiterals_written (by simp) (by simpa using hvalue)
    obtain ⟨hliterally, -⟩ := hsingle
    have hleaves : Value.leavesOf [assignment.2] = assignment.2.leaves := by simp [Value.leavesOf]
    rw [hleaves, List.map_singleton, Text.joined_singleton] at hliterally
    refine ⟨column, _, hcolumn, rfl, hliterally, ?_⟩
    rw [hliterally.length]

end Statements

/-- a text with a quote, a comma and a parenthesis, an empty list, and a list of a list of one -/
def Insert.oneEach : Insert :=
  (of (some (.name ['t'] none))).run [.columns [.name ['a'] none, .name ['b'] none],
    .row [.text "O'B, (C".toList, .list []], .row [.list [.list [.integer 7]], .integer (-1)]]

/-- an assignment of a text with commas, and one of a list of one -/
def Update.oneEach : Update :=
  (of (some (.name ['t'] none))).run [.assign [(.name ['a'] none, .text ", ,".toList),
    (.name ['b'] none, .list [.boolean true])]]

/-- As wide as the columns, and one literal each. -/
theorem literals_per_value_oneEach :
    Insert.oneEach.compile (Recorder.connection []) .fresh =
      (.ok "INSERT INTO \"t\" (\"a\", \"b\") VALUES ('O''B, (C', NULL), (7, -1)".toList, Recorder.fresh.connect) ∧
    Update.oneEach.compile (Recorder.connection []) .fresh =
      (.ok "UPDATE \"t\" SET \"a\" = ', ,', \"b\" = TRUE".toList, Recorder.fresh.connect) ∧
    (∃ rows, List.Forall₂ (fun _ row => (Split.items true row).length = 2) Insert.oneEach.rows rows) ∧
    ∃ assignments, List.Forall₂ (fun _ text => ∃ column value, text = column ++ " = ".toList ++ value ∧
      (Split.items true value).length = 1) Update.oneEach.assignments assignments := by
  have hinsert : Insert.oneEach.compile (Recorder.connection []) .fresh =
      (.ok "INSERT INTO \"t\" (\"a\", \"b\") VALUES ('O''B, (C', NULL), (7, -1)".toList, Recorder.fresh.connect) := by
    change (_ : Except Error Text × Recorder) = _
    decide +kernel
  have hupdate : Update.oneEach.compile (Recorder.connection []) .fresh =
      (.ok "UPDATE \"t\" SET \"a\" = ', ,', \"b\" = TRUE".toList, Recorder.fresh.connect) := by
    change (_ : Except Error Text × Recorder) = _
    decide +kernel
  have hleaves : ∀ values ∈ Insert.oneEach.rows, ∀ v ∈ values, v.Inert ∧ v.leaves.length = 1 := by
    simp [Insert.oneEach, Insert.run, Insert.step, Insert.of, Value.Inert, Value.leaves, Value.leavesOf]
  have hassigned : ∀ assignment ∈ Update.oneEach.assignments,
      assignment.2.Inert ∧ assignment.2.leaves.length = 1 := by
    simp [Update.oneEach, Update.run, Update.step, Update.of, Value.Inert, Value.leaves, Value.leavesOf]
  have hdoubles := (Recorder.escapes []).doubles
  obtain ⟨hrows, hassignments⟩ := literals_per_value hdoubles .fresh trivial
  refine ⟨hinsert, hupdate, ?_, ?_⟩
  · obtain ⟨target, table, columns, rows, -, -, -, -, hall⟩ :=
      hrows _ _ _ (fun values hvalues v hv => (hleaves values hvalues v hv).1) hinsert
    refine ⟨rows, ((List.forall₂_and_left _ _).2 ⟨hleaves, hall⟩).imp ?_⟩
    intro values row hrow
    exact hrow.2.2.2 fun v hv => (hrow.1 v hv).2
  · obtain ⟨target, table, assignments, filter, middle, -, -, -, -, hall⟩ :=
      hassignments _ _ _ (fun assignment h => (hassigned assignment h).1) hupdate
    refine ⟨assignments, ((List.forall₂_and_left _ _).2 ⟨hassigned, hall⟩).imp ?_⟩
    intro assignment text h
    obtain ⟨⟨-, hone⟩, column, value, -, htext, -, hcount⟩ := h
    exact ⟨column, value, htext, hcount.2 hone⟩

/-- two columns, and a row of a number and a list of two -/
def Insert.widened : Insert :=
  (of (some (.name ['t'] none))).run [.columns [.name ['a'] none, .name ['b'] none],
    .row [.integer 1, .list [.integer 2, .integer 3]]]

/-- a list of two assigned to one column -/
def Update.widened : Update :=
  (of (some (.name ['t'] none))).run [.assign [(.name ['a'] none, .list [.integer 1, .integer 2])]]

/-- **A list widens a row.** It counts as one value and comes out as two literals. -/
theorem list_widens :
    Insert.widened.compile (Recorder.connection []) .fresh =
      (.ok "INSERT INTO \"t\" (\"a\", \"b\") VALUES (1, 2, 3)".toList, .fresh) ∧
    Split.items true "1, 2, 3".toList = ["1".toList, "2".toList, "3".toList] ∧
    (Split.items true "1, 2, 3".toList).length ≠ Insert.widened.columns.length ∧
    Update.widened.compile (Recorder.connection []) .fresh = (.ok "UPDATE \"t\" SET \"a\" = 1, 2".toList, .fresh) ∧
    Split.items true "1, 2".toList = ["1".toList, "2".toList] := by
  refine ⟨?_, by decide, by decide, ?_, by decide⟩
  · change (_ : Except Error Text × Recorder) = _
    decide +kernel
  · change (_ : Except Error Text × Recorder) = _
    decide +kernel

end SqlAccess
