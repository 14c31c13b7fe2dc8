/-
Updates and deletes with a filter.

A filter is compiled behind the rest of the statement (`Update.compile_eq`, `Delete.compile_eq`), and a filter with an
entry is a forest with a predicate or no filter at all (`compileFilter_eq_ok`). Main result, `conditions_as_written`:
condition lists compile to the text of their forest or are refused before anything is asked of the connection, so a
statement whose filter was called upon never comes out unfiltered.
-/
import SqlAccess.Proofs.Condition.Rendering
import SqlAccess.Proofs.Identifier.Reference
import SqlAccess.Statement

namespace SqlAccess

theorem Connection.compileFilter_nil {σ : Type} (conn : Connection σ) (keyword : Text) :
    conn.compileFilter keyword [] = pure [] := rfl

/-! ## The filter a run of calls leaves -/

/-- Where every step appends what it finds, a run appends what is found in all its items. -/
theorem foldl_appended {α ι κ : Type} {step : α → ι → α} {kept : α → List κ} {found : ι → Option κ}
    (h : ∀ a i, kept (step a i) = kept a ++ (found i).toList) (a : α) (items : List ι) :
    kept (items.foldl step a) = kept a ++ items.filterMap found := by
  induction items generalizing a with
  | nil => simp
  | cons i items ih =>
    rw [List.foldl_cons, ih, h, List.append_assoc]
    cases hi : found i <;> simp [hi]

namespace Update

def Call.condition? : Call → Option Condition
  | .filter condition => some condition
  | .table _ => none
  | .assign _ => none

theorem filter_run (s : Update) (calls : List Call) :
    (s.run calls).filter = s.filter ++ calls.filterMap Call.condition? := by
  apply foldl_appended
  intro s call
  cases call <;> simp [step, Call.condition?]

/-- The filter is compiled behind the rest. -/
theorem compile_eq {σ : Type} (conn : Connection σ) (s : Update) : s.compile conn = do
    let head ← { s with filter := [] }.compile conn
    let filter ← conn.compileFilter "WHERE" s.filter
    return head ++ filter := by
  obtain ⟨table, assignments, filter⟩ := s
  cases table with
  | none => rfl
  | some table =>
    by_cases h : assignments.isEmpty = true
    · simp only [compile, if_pos h]
      rfl
    · simp only [compile, if_neg h, bind_assoc, pure_bind, Connection.compileFilter_nil, List.append_nil,
        List.append_assoc]

end Update

namespace Delete

def Call.condition? : Call → Option Condition
  | .filter condition => some condition
  | .table _ => none

theorem filter_run (s : Delete) (calls : List Call) :
    (s.run calls).filter = s.filter ++ calls.filterMap Call.condition? := by
  apply foldl_appended
  intro s call
  cases call <;> simp [step, Call.condition?]

/-- The filter is compiled behind the rest. -/
theorem compile_eq {σ : Type} (conn : Connection σ) (s : Delete) : s.compile conn = do
    let head ← { s with filter := [] }.compile conn
    let filter ← conn.compileFilter "WHERE" s.filter
    return head ++ filter := by
  obtain ⟨table, filter⟩ := s
  cases table with
  | none => rfl
  | some table =>
    simp only [compile, bind_assoc, pure_bind, Connection.compileFilter_nil, List.append_nil, List.append_assoc]

end Delete

namespace Connection

variable {σ : Type}

/-! ## Filters -/

/-- What compiles is a forest written down, and comes out as its text. -/
theorem compileConditions_eq_ok {conn : Connection σ} {conditions : List Condition} {state state' : σ} {text : Text}
    (h : conn.compileConditions conditions state = (.ok text, state')) :
    ∃ forest texts, Tree.entriesAll forest = conditions ∧
      Tree.traverseAll conn.predicateText forest state = (.ok texts, state') ∧ text = Tree.textAll texts := by
  have hcheck : Condition.checkGroups conditions = .ok () := by
    cases hcheck : Condition.checkGroups conditions with
    | ok u => rfl
    | error fault =>
      rw [compileConditions, hcheck] at h
      cases h
  obtain ⟨forest, rfl⟩ := Condition.checkGroups_eq_ok_iff.1 hcheck
  rw [compileConditions_entriesAll] at h
  obtain ⟨texts, htexts, rfl⟩ := Action.map_eq_ok_iff.1 h
  exact ⟨forest, texts, rfl, htexts, rfl⟩

/-- A list that is no forest written down is refused, and nothing is asked of the connection. -/
theorem compileConditions_refused (conn : Connection σ) {conditions : List Condition}
    (h : ¬ ∃ forest, Tree.entriesAll forest = conditions) : ∃ fault, Condition.checkGroups conditions = .error fault ∧
      ∀ state, conn.compileConditions conditions state = (.error (.validation fault), state) := by
  cases hcheck : Condition.checkGroups conditions with
  | ok u => exact absurd (Condition.checkGroups_eq_ok_iff.1 hcheck) h
  | error fault =>
    refine ⟨fault, rfl, fun state => ?_⟩
    rw [compileConditions, hcheck]
    rfl

theorem compileFilter_eq_ok {conn : Connection σ} {keyword : Text} {conditions : List Condition}
    (hne : conditions ≠ []) {state state' : σ} {text : Text}
    (h : conn.compileFilter keyword conditions state = (.ok text, state')) :
    ∃ forest texts, Tree.entriesAll forest = conditions ∧
      Tree.traverseAll conn.predicateText forest state = (.ok texts, state') ∧
      text = ' ' :: (keyword ++ ' ' :: Tree.textAll texts) := by
  rw [compileFilter, if_neg (by simpa using hne)] at h
  obtain ⟨body, hbody, rfl⟩ := Action.map_eq_ok_iff.1 h
  obtain ⟨forest, texts, hforest, htexts, rfl⟩ := compileConditions_eq_ok hbody
  exact ⟨forest, texts, hforest, htexts, rfl⟩

/-- Wherever `x` answers a text, it is the text that `unfiltered` answers, then ` WHERE ` and the text of the forest
that the conditions write down, which has a predicate; its predicates are those of the conditions, each compiled in
order. -/
def EndsFiltered (conn : Connection σ) (conditions : List Condition) (unfiltered x : Action σ Text) : Prop :=
  ∀ state text state', x state = (.ok text, state') → ∃ forest texts head middle,
    Tree.entriesAll forest = conditions ∧ unfiltered state = (.ok head, middle) ∧
    Tree.traverseAll conn.predicateText forest middle = (.ok texts, state') ∧
    (conditions.filterMap Condition.predicate?).mapM conn.predicateText middle = (.ok (Tree.leavesAll texts), state') ∧
    conditions.filterMap Condition.predicate? ≠ [] ∧ text = head ++ " WHERE " ++ Tree.textAll texts

/-- A filter behind the rest of a statement. -/
theorem endsFiltered_of_filter (conn : Connection σ) {conditions : List Condition} (hne : conditions ≠ [])
    (unfiltered : Action σ Text) : EndsFiltered conn conditions unfiltered (do
      let head ← unfiltered
      let filter ← conn.compileFilter "WHERE" conditions
      return head ++ filter) := by
  intro state text state' h
  obtain ⟨head, middle, hhead, h⟩ := Action.bind_eq_ok h
  obtain ⟨filter, hfilter, rfl⟩ := Action.map_eq_ok_iff.1 h
  obtain ⟨forest, texts, rfl, htexts, rfl⟩ := compileFilter_eq_ok hne hfilter
  refine ⟨forest, texts, head, middle, rfl, hhead, htexts, ?_, ?_, ?_⟩
  · rw [Tree.filterMap_entriesAll]
    exact Tree.mapM_of_traverseAll htexts
  · rw [Tree.filterMap_entriesAll]
    cases forest with
    | nil => exact absurd rfl hne
    | cons t ts => simp [Tree.leavesAll, Tree.leaves_ne_nil]
  · simp [Text.lit_eq]

/-- **Conditions come out as written.** A condition list that writes a forest down compiles to the forest's text, and
fails as the first predicate that fails. Any other list is refused as its groups are checked, and the connection is left
as it was. So an update or a delete for which a filter call was made fails to compile, or ends in its filter, with every
predicate in the order of the calls. -/
theorem conditions_as_written (conn : Connection σ) :
    (∀ forest, conn.compileConditions (Tree.entriesAll forest) = do
      let texts ← Tree.traverseAll conn.predicateText forest
      return Tree.textAll texts) ∧
    (∀ forest state e state', conn.compileConditions (Tree.entriesAll forest) state = (.error e, state') ↔
      ∃ before p after texts middle, Tree.leavesAll forest = before ++ p :: after ∧
        before.mapM conn.predicateText state = (.ok texts, middle) ∧
        conn.predicateText p middle = (.error e, state')) ∧
    (∀ conditions, (¬ ∃ forest, Tree.entriesAll forest = conditions) →
      ∃ fault, Condition.checkGroups conditions = .error fault ∧
        ∀ state, conn.compileConditions conditions state = (.error (.validation fault), state)) ∧
    (∀ table calls, (∃ condition, Update.Call.filter condition ∈ calls) →
      EndsFiltered conn (calls.filterMap Update.Call.condition?)
        ({ (Update.of table).run calls with filter := [] }.compile conn) (((Update.of table).run calls).compile conn)) ∧
    ∀ table calls, (∃ condition, Delete.Call.filter condition ∈ calls) →
      EndsFiltered conn (calls.filterMap Delete.Call.condition?)
        ({ (Delete.of table).run calls with filter := [] }.compile conn)
        (((Delete.of table).run calls).compile conn) := by
  refine ⟨compileConditions_entriesAll conn, ?_, fun conditions h => compileConditions_refused conn h, ?_, ?_⟩
  · intro forest state e state'
    rw [compileConditions_entriesAll, Action.map_eq_error_iff, Tree.traverseAll_eq_error_iff, Action.mapM_eq_error_iff]
  · rintro table calls ⟨condition, hmem⟩
    have hfilter : ((Update.of table).run calls).filter = calls.filterMap Update.Call.condition? :=
      (Update.filter_run _ calls).trans (List.nil_append _)
    rw [Update.compile_eq conn ((Update.of table).run calls), hfilter]
    exact endsFiltered_of_filter conn (List.ne_nil_of_mem (List.mem_filterMap.2 ⟨_, hmem, rfl⟩)) _
  · rintro table calls ⟨condition, hmem⟩
    have hfilter : ((Delete.of table).run calls).filter = calls.filterMap Delete.Call.condition? :=
      (Delete.filter_run _ calls).trans (List.nil_append _)
    rw [Delete.compile_eq conn ((Delete.of table).run calls), hfilter]
    exact endsFiltered_of_filter conn (List.ne_nil_of_mem (List.mem_filterMap.2 ⟨_, hmem, rfl⟩)) _

/-! ### A delete by either of two columns -/

/-- the conditions that one of two columns has a value, in a group of their own -/
def either : List (Tree Predicate) :=
  [.group .and (.leaf .and ⟨.name ['a'] none, ['='], .integer 1⟩) [.leaf .or ⟨.name ['b'] none, ['='], .integer 2⟩]]

theorem predicateText_equals (conn : Connection σ) {name : Text} (h : Part.IsBareName name) (n : Int) :
    conn.predicateText ⟨.name name none, ['='], .integer n⟩ =
      pure (delimited name ++ [' ', '=', ' '] ++ Text.ofInt n) := by
  have hcolumn : conn.quoteColumn (.name name none) = pure (delimited name) := by
    funext state
    rw [quoteColumn_name conn (Path.read_bareName h)]
    simp [Path.requoted, Part.requoted, Part.name, Path.write, Part.write, Identifier.aliasText, Action.pure_run]
  have hvalue : conn.compileOperand (delimited name) ['='] (.integer n) = pure (Text.ofInt n) := by
    simp [compileOperand, Text.lit_eq, quote]
  have hoperator : normalOperator ['='] (.integer n) = ['='] := rfl
  rw [predicateText, compilePredicate, hcolumn, hoperator]
  simp [hvalue]

/-- The group stands in parentheses and its second predicate behind `OR`. -/
theorem compile_either :
    (Delete.mk (some (.name ['t'] none)) (Tree.entriesAll either)).compile (Recorder.connection []) =
      pure "DELETE FROM \"t\" WHERE (\"a\" = 1 OR \"b\" = 2)".toList := by
  have hbare : Part.IsBareName ['t'] := by decide
  have htable : (Recorder.connection []).quoteTable (.name ['t'] none) = pure ['"', 't', '"'] := by
    funext state
    rw [quoteTable_name _ (Path.read_bareName hbare) (by decide)]
    rfl
  have ha := predicateText_equals (Recorder.connection []) (by decide : Part.IsBareName ['a']) 1
  have hb := predicateText_equals (Recorder.connection []) (by decide : Part.IsBareName ['b']) 2
  have hfilter : (Recorder.connection []).compileFilter "WHERE" (Tree.entriesAll either) =
      pure " WHERE (\"a\" = 1 OR \"b\" = 2)".toList := by
    rw [compileFilter, compileConditions_entriesAll]
    simp only [either, Tree.traverseAll, Tree.traverse, ha, hb, pure_bind, Text.lit_eq, Tree.textAll, Tree.text,
      Tree.textBehind, Tree.logic, Logic.joint]
    rfl
  rw [Delete.compile]
  simp only [htable, hfilter, pure_bind]
  rw [Text.lit_eq]
  rfl

/-- An empty group is no forest and is refused; the delete by calls compiles and ends in its filter. -/
theorem conditions_as_written_either :
    (¬ ∃ forest, Tree.entriesAll forest = [.opening .or, .closing]) ∧
    (∃ fault, Condition.checkGroups [.opening .or, .closing] = .error fault ∧ ∀ state,
      (Recorder.connection []).compileConditions [.opening .or, .closing] state =
        (.error (.validation fault), state)) ∧
    (∃ condition, Delete.Call.filter condition ∈ (Tree.entriesAll either).map Delete.Call.filter) ∧
    ∃ forest texts head middle, Tree.entriesAll forest = Tree.entriesAll either ∧
      (Delete.mk (some (.name ['t'] none)) []).compile (Recorder.connection []) .fresh = (.ok head, middle) ∧
      Tree.traverseAll (Recorder.connection []).predicateText forest middle = (.ok texts, .fresh) ∧
      "DELETE FROM \"t\" WHERE (\"a\" = 1 OR \"b\" = 2)".toList = head ++ " WHERE " ++ Tree.textAll texts := by
  have hnone : ¬ ∃ forest, Tree.entriesAll forest = [.opening .or, .closing] := by
    intro h
    cases Condition.checkGroups_eq_ok_iff.2 h
  have hcall : ∃ condition, Delete.Call.filter condition ∈ (Tree.entriesAll either).map Delete.Call.filter :=
    ⟨.opening .and, List.mem_cons_self⟩
  obtain ⟨-, -, hrefused, -, hdelete⟩ := conditions_as_written (Recorder.connection [])
  obtain ⟨forest, texts, head, middle, hforest, hhead, htexts, -, -, htext⟩ :=
    hdelete (some (.name ['t'] none)) _ hcall .fresh _ _ (congrFun compile_either .fresh)
  exact ⟨hnone, hrefused _ hnone, hcall, forest, texts, head, middle, hforest, hhead, htexts, htext⟩

end Connection

end SqlAccess
