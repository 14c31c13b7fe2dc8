/-
The rows of an insert and the columns they stand under.

Columns can be added behind rows that were already given, and the columns that a row names are compared only when it is
given. What calls without a misuse do is `Extends`: each row is stored, columns are added behind those there are, and
what a row names are the first columns from then on. Compiling counts every row against the columns of the end, so that
no column can have come later: `compile_keeps_rows`.
-/
import SqlAccess.Proofs.Action
import SqlAccess.Recorder
import SqlAccess.Statement.Insert

namespace SqlAccess

/-- Values are quoted one after the other. -/
theorem Connection.quoteAll_eq_mapM {σ : Type} (conn : Connection σ) (values : List Value) :
    conn.quoteAll values = values.mapM conn.quote := by
  induction values with
  | nil => rfl
  | cons v vs ih => rw [quoteAll, ih, List.mapM_cons]

/-- Columns come out one after the other. -/
theorem Connection.returns_columns {σ : Type} {ready : σ → Prop} (conn : Connection σ) (columns : List Identifier) :
    Action.Returns ready (fun text => ∃ texts, Text.joined [',', ' '] texts = text ∧
      List.Forall₂ (fun column text => column.asColumn conn.tablePrefix = .ok text) columns texts)
      (conn.compileColumns columns) :=
  (Action.Returns.mapM (fun _ => Action.Returns.ofExcept) columns).bind fun texts htexts =>
    Action.Returns.pure ⟨texts, rfl, htexts⟩

namespace Insert

/-! ## Calls that give rows -/

def Call.row? : Call → Option (List Value)
  | .row given => some given
  | .values assignments => some (assignments.map Prod.snd)
  | .table _ => none
  | .columns _ => none

/-- `s'` is what calls without a misuse have made of `s` -/
structure Extends (s : Insert) (calls : List Call) (s' : Insert) : Prop where
  unmisused : s.misuse = none
  rows : s'.rows = s.rows ++ calls.filterMap Call.row?
  columns : s.columns <+: s'.columns
  named : ∀ assignments, .values assignments ∈ calls → assignments.map Prod.fst <+: s'.columns

theorem Extends.refl {s : Insert} (h : s.misuse = none) : s.Extends [] s where
  unmisused := h
  rows := by simp
  columns := List.prefix_refl _
  named := by
    intro assignments hmem
    cases hmem

theorem Extends.trans {s s' s'' : Insert} {calls more : List Call} (h : s.Extends calls s') (h' : s'.Extends more s'') :
    s.Extends (calls ++ more) s'' where
  unmisused := h.unmisused
  rows := by rw [h'.rows, h.rows, List.filterMap_append, List.append_assoc]
  columns := h.columns.trans h'.columns
  named := by
    intro assignments hmem
    rcases List.mem_append.1 hmem with hmem | hmem
    · exact (h.named assignments hmem).trans h'.columns
    · exact h'.named assignments hmem

/-- A row that names columns defines them or has named those there are; otherwise the insert is misused. -/
theorem addNamed_extends {s : Insert} {assignments : List (Identifier × Value)}
    (h : (s.addNamed assignments).misuse = none) : s.Extends [.values assignments] (s.addNamed assignments) := by
  have hnamed {columns : List Identifier} (hfirst : assignments.map Prod.fst <+: columns) :
      ∀ others, Call.values others ∈ [Call.values assignments] → others.map Prod.fst <+: columns := by
    intro others hmem
    cases List.mem_singleton.1 hmem
    exact hfirst
  by_cases hempty : s.columns.isEmpty = true
  · have hstep : s.addNamed assignments =
        { s with columns := assignments.map Prod.fst, rows := s.rows ++ [assignments.map Prod.snd] } := if_pos hempty
    rw [hstep] at h ⊢
    refine ⟨h, rfl, ?_, hnamed (List.prefix_refl _)⟩
    rw [List.isEmpty_iff.1 hempty]
    exact List.nil_prefix
  · by_cases hsame : s.columns = assignments.map Prod.fst
    · have hstep : s.addNamed assignments = { s with rows := s.rows ++ [assignments.map Prod.snd] } := by
        rw [addNamed, if_neg hempty, if_pos hsame]
      rw [hstep] at h ⊢
      refine ⟨h, rfl, List.prefix_refl _, hnamed ?_⟩
      exact hsame ▸ List.prefix_refl _
    · have hstep : s.addNamed assignments = s.noting .columnsDiffer := by
        rw [addNamed, if_neg hempty, if_neg hsame]
      rw [hstep, noting] at h
      cases hmisuse : s.misuse <;> simp [hmisuse] at h

/-- one call -/
theorem step_extends {s : Insert} {call : Call} (h : (s.step call).misuse = none) : s.Extends [call] (s.step call) := by
  cases call with
  | table table => exact ⟨h, by simp [step, Call.row?], List.prefix_refl _, by simp⟩
  | columns columns => exact ⟨h, by simp [step, Call.row?], List.prefix_append _ _, by simp⟩
  | row given => exact ⟨h, by simp [step, Call.row?], List.prefix_refl _, by simp⟩
  | values assignments => exact addNamed_extends h

/-- A run of calls that ends without a misuse had none before. -/
theorem run_extends {s : Insert} {calls : List Call} (h : (s.run calls).misuse = none) :
    s.Extends calls (s.run calls) := by
  induction calls generalizing s with
  | nil => exact Extends.refl h
  | cons call calls ih =>
    have hrest : (s.step call).Extends calls (s.run (call :: calls)) := ih h
    exact (step_extends hrest.unmisused).trans hrest

/-! ## Compiling rows -/

variable {σ : Type} {conn : Connection σ} {state state' : σ}

/-- Rows that compile are as wide as the columns, and each comes out as its quoted values in parentheses. -/
theorem compileRows_eq_ok {width index : Nat} {rows : List (List Value)} {tuples : List Text}
    (h : compileRows conn width index rows state = (.ok tuples, state')) :
    (∀ row ∈ rows, row.length = width) ∧ ∃ quoted,
      rows.mapM (fun row => row.mapM conn.quote) state = (.ok quoted, state') ∧ tuples = quoted.map tuple := by
  induction rows generalizing index state tuples with
  | nil =>
    cases h
    exact ⟨by simp, [], rfl, rfl⟩
  | cons row rows ih =>
    rw [compileRows] at h
    split at h
    case isTrue => cases h
    case isFalse hwidth =>
      obtain ⟨values, middle, hvalues, h⟩ := Action.bind_eq_ok h
      obtain ⟨others, hothers, rfl⟩ := Action.map_eq_ok_iff.1 h
      obtain ⟨hall, quoted, hquoted, rfl⟩ := ih hothers
      rw [Connection.quoteAll_eq_mapM] at hvalues
      refine ⟨?_, values :: quoted, ?_, rfl⟩
      · intro other hother
        rcases List.mem_cons.1 hother with rfl | hother
        · exact Decidable.not_not.1 hwidth
        · exact hall other hother
      · rw [List.mapM_cons, Action.bind_of_ok hvalues, Action.bind_of_ok hquoted, Action.pure_run]

/-- what an insert that compiles has been through -/
theorem compile_eq_ok {s : Insert} {sql : Text} (h : s.compile conn state = (.ok sql, state')) :
    s.misuse = none ∧ ∃ target tuples tableText columnsText s₁ s₂, s.table = some target ∧
      compileRows conn s.columns.length 0 s.rows state = (.ok tuples, s₁) ∧
      conn.quoteTable target s₁ = (.ok tableText, s₂) ∧
      conn.compileColumns s.columns s₂ = (.ok columnsText, state') ∧
      sql = "INSERT INTO " ++ tableText ++ " (" ++ columnsText ++ ") VALUES " ++ Text.joined [',', ' '] tuples := by
  cases hmisuse : s.misuse with
  | some fault =>
    rw [compile, hmisuse] at h
    cases h
  | none =>
  cases htable : s.table with
  | none =>
    rw [compile, hmisuse, htable] at h
    cases h
  | some target =>
  simp only [compile, hmisuse, htable] at h
  split at h
  case isTrue => cases h
  case isFalse =>
  split at h
  case isTrue => cases h
  case isFalse =>
  obtain ⟨tuples, s₁, htuples, h⟩ := Action.bind_eq_ok h
  obtain ⟨tableText, s₂, htableText, h⟩ := Action.bind_eq_ok h
  obtain ⟨columnsText, hcolumnsText, rfl⟩ := Action.map_eq_ok_iff.1 h
  exact ⟨rfl, target, tuples, tableText, columnsText, s₁, s₂, rfl, htuples, htableText, hcolumnsText, rfl⟩

/-- **No value under another column.** When an insert compiles, every row that came with columns named exactly the
columns that the insert has in the end, in order, and every row has a value for each of them. The text has one tuple
for each call that gave a row, in the order of the calls, and the tuple is the quoted values of that row. -/
theorem compile_keeps_rows (conn : Connection σ) (table : Option Identifier) (calls : List Call) {sql : Text}
    (h : ((of table).run calls).compile conn state = (.ok sql, state')) :
    (∀ assignments, .values assignments ∈ calls → assignments.map Prod.fst = ((of table).run calls).columns) ∧
    (∀ row ∈ calls.filterMap Call.row?, row.length = ((of table).run calls).columns.length) ∧
    ∃ target quoted tableText columnsText s₁ s₂, ((of table).run calls).table = some target ∧
      (calls.filterMap Call.row?).mapM (fun row => row.mapM conn.quote) state = (.ok quoted, s₁) ∧
      conn.quoteTable target s₁ = (.ok tableText, s₂) ∧
      conn.compileColumns ((of table).run calls).columns s₂ = (.ok columnsText, state') ∧
      quoted.length = calls.countP (·.row?.isSome) ∧
      (∀ texts ∈ quoted, texts.length = ((of table).run calls).columns.length) ∧
      sql = "INSERT INTO " ++ tableText ++ " (" ++ columnsText ++ ") VALUES " ++
        Text.joined [',', ' '] (quoted.map tuple) := by
  obtain ⟨hmisuse, target, tuples, tableText, columnsText, s₁, s₂, htable, htuples, htableText, hcolumnsText, hsql⟩ :=
    compile_eq_ok h
  have hrun := run_extends hmisuse
  have hrows : ((of table).run calls).rows = calls.filterMap Call.row? := hrun.rows
  rw [hrows] at htuples
  obtain ⟨hwidth, quoted, hquoted, rfl⟩ := compileRows_eq_ok htuples
  refine ⟨?_, hwidth, target, quoted, tableText, columnsText, s₁, s₂, htable, hquoted, htableText, hcolumnsText, ?_, ?_,
    hsql⟩
  · -- the columns that a row named are the first ones, and there are as many of them as of all
    intro assignments hmem
    have hrow : assignments.map Prod.snd ∈ calls.filterMap Call.row? := List.mem_filterMap.2 ⟨_, hmem, rfl⟩
    have hlength := hwidth _ hrow
    apply (hrun.named assignments hmem).eq_of_length
    simpa using hlength
  · rw [← (Action.forall₂_of_mapM_ok hquoted).length_eq, List.length_filterMap_eq_countP]
  · intro texts htexts
    obtain ⟨row, hrow, before, after, htext⟩ := Action.exists_item_of_mapM_ok hquoted htexts
    rw [← (Action.forall₂_of_mapM_ok htext).length_eq]
    exact hwidth row hrow

/-- a row with its columns, then a bare row and the table -/
def bareBehindNamed : List Call :=
  [.values [(.name "a".toList none, .integer 1), (.name "b".toList none, .text "O'B".toList)],
    .columns [], .row [.null, .list [.integer 2, .null]], .table (.name "t".toList none)]

/-- A list in a row is one value of it, whatever number of literals it is written as. -/
theorem compile_keeps_rows_bareBehindNamed :
    ((of none).run bareBehindNamed).compile (Recorder.connection []) Recorder.fresh =
      (.ok "INSERT INTO \"t\" (\"a\", \"b\") VALUES (1, 'O''B'), (NULL, 2, NULL)".toList, Recorder.fresh.connect) ∧
    ∀ row ∈ bareBehindNamed.filterMap Call.row?, row.length = 2 := by
  have hcompile : ((of none).run bareBehindNamed).compile (Recorder.connection []) Recorder.fresh =
      (.ok "INSERT INTO \"t\" (\"a\", \"b\") VALUES (1, 'O''B'), (NULL, 2, NULL)".toList,
        Recorder.fresh.connect) := by
    change (_ : Except Error Text × Recorder) = _
    decide +kernel
  obtain ⟨-, hwidth, -⟩ := compile_keeps_rows (Recorder.connection []) none bareBehindNamed hcompile
  exact ⟨hcompile, hwidth⟩

end Insert

end SqlAccess
