/-
Writing a statement connects when a text has to be escaped, and only then.

The connection in the process connects to escape a text, and nothing else that is written of a statement needs it.
`Connects needed x` is that as a rule for the parts of a text: where `x` answers, it has connected if that was needed,
and else left the connection as it was. The rule goes through the clauses of a statement one by one, so a statement
that compiles has connected for its own values and for nothing else of it (`connects_compile`). Whether it compiles or
not, the connection is afterwards as it was or the same connection, connected (`kept_or_connected`).
-/
import SqlAccess.Proofs.Query.Refusal
import SqlAccess.Proofs.Recipe
import SqlAccess.Proofs.Statement.Joins

namespace SqlAccess

/-! ## The values of a statement -/

/-- holds, in a list or not and outside expressions, a text that is not made of digits only -/
def Value.HoldsQuoted (v : Value) : Prop := ∃ t, Value.text t ∈ v.leaves ∧ t.isDigits = false

/-- one of the values holds a text that is not made of digits only -/
def Value.AnyHoldsQuoted (values : List Value) : Prop := ∃ v ∈ values, v.HoldsQuoted

def Condition.value? : Condition → Option Value
  | .predicate _ _ _ value => some value
  | _ => none

/-- the values of a statement: those compared with, stored or assigned -/
def Statement.values : Statement → List Value
  | .select s => s.filter.filterMap Condition.value? ++ s.having.filterMap Condition.value?
  | .insert s => s.rows.flatten
  | .update s => s.assignments.map Prod.snd ++ s.filter.filterMap Condition.value?
  | .delete s => s.filter.filterMap Condition.value?

namespace Value

theorem holdsQuoted_text (t : Text) : (text t).HoldsQuoted ↔ t.isDigits = false := by simp [HoldsQuoted, leaves]

theorem holdsQuoted_list_cons (v : Value) (vs : List Value) :
    (list (v :: vs)).HoldsQuoted ↔ v.HoldsQuoted ∨ AnyHoldsQuoted vs := by
  simp only [HoldsQuoted, AnyHoldsQuoted, leaves, leavesOf_eq, List.mem_append, List.mem_flatten, List.mem_map]
  constructor
  · intro h
    obtain ⟨t, hfirst | ⟨_, ⟨w, hw, rfl⟩, hother⟩, ht⟩ := h
    · exact Or.inl ⟨t, hfirst, ht⟩
    · exact Or.inr ⟨w, hw, t, hother, ht⟩
  · intro h
    obtain ⟨t, hfirst, ht⟩ | ⟨w, hw, t, hother, ht⟩ := h
    · exact ⟨t, Or.inl hfirst, ht⟩
    · exact ⟨t, Or.inr ⟨_, ⟨w, hw, rfl⟩, hother⟩, ht⟩

theorem anyHoldsQuoted_nil : ¬AnyHoldsQuoted [] := by simp [AnyHoldsQuoted]

theorem anyHoldsQuoted_cons (v : Value) (vs : List Value) :
    AnyHoldsQuoted (v :: vs) ↔ v.HoldsQuoted ∨ AnyHoldsQuoted vs := by simp [AnyHoldsQuoted]

theorem anyHoldsQuoted_append (vs ws : List Value) :
    AnyHoldsQuoted (vs ++ ws) ↔ AnyHoldsQuoted vs ∨ AnyHoldsQuoted ws := by
  simp only [AnyHoldsQuoted, List.mem_append, or_and_right, exists_or]

end Value

/-! ## Connecting once -/

namespace Recorder

theorem connect_connected (r : Recorder) : r.connect.connected = true := by
  unfold connect
  split
  · assumption
  · rfl

theorem connect_connect (r : Recorder) : r.connect.connect = r.connect := by
  rw [connect, if_pos r.connect_connected]

/-- Connecting is counted when it changes something. -/
theorem connect_connects (r : Recorder) :
    r.connect.connects = r.connects + if r.connected = r.connect.connected then 0 else 1 := by
  cases hconnected : r.connected <;> simp [connect, hconnected]

end Recorder

namespace Action

variable {α β : Type}

/-- where it answers, it has connected if that was needed, and else left the connection as it was -/
def Connects (needed : Prop) (x : Action Recorder α) : Prop :=
  ∀ r a r', x r = (.ok a, r') → (needed ∧ r' = r.connect) ∨ (¬needed ∧ r' = r)

namespace Connects

variable {needed needed' : Prop} {x : Action Recorder α}

theorem congr (h : Connects needed x) (hneeded : needed ↔ needed') : Connects needed' x := by
  intro r a r' hr
  rw [← hneeded]
  exact h r a r' hr

theorem pure (a : α) : Connects False (Pure.pure a : Action Recorder α) := by
  intro r a' r' hr
  cases hr
  exact Or.inr ⟨not_false, rfl⟩

theorem throw (e : Error) : Connects needed (MonadExcept.throw e : Action Recorder α) := by
  intro r a r' hr
  cases hr

/-- What answers from states of every kind and leaves them so does not connect. -/
theorem of_returns {P : α → Prop} (h : ∀ ready : Recorder → Prop, Returns ready P x) : Connects False x := by
  intro r a r' hr
  exact Or.inr ⟨not_false, (Returns.of_run h hr).2⟩

/-- Of two steps one has to connect if the first or the second has. -/
theorem bind {f : α → Action Recorder β} (hx : Connects needed x) (hf : ∀ a, Connects needed' (f a)) :
    Connects (needed ∨ needed') (x >>= f) := by
  intro r b final hr
  obtain ⟨a, middle, hfirst, hsecond⟩ := bind_eq_ok hr
  rcases hx r a middle hfirst with ⟨hneeded, rfl⟩ | ⟨hneeded, rfl⟩
  · left
    rcases hf a _ b final hsecond with ⟨-, rfl⟩ | ⟨-, rfl⟩
    · -- the second step finds the connection connected
      exact ⟨Or.inl hneeded, r.connect_connect⟩
    · exact ⟨Or.inl hneeded, rfl⟩
  · rcases hf a _ b final hsecond with ⟨hneeded', rfl⟩ | ⟨hneeded', rfl⟩
    · exact Or.inl ⟨Or.inr hneeded', rfl⟩
    · exact Or.inr ⟨not_or.2 ⟨hneeded, hneeded'⟩, rfl⟩

theorem map (h : Connects needed x) (f : α → β) : Connects needed (do let a ← x; return f a) :=
  (h.bind fun a => pure (f a)).congr (by simp)

/-- A first step that does not connect leaves it to the second. -/
theorem after {f : α → Action Recorder β} (hx : Connects False x) (hf : ∀ a, Connects needed (f a)) :
    Connects needed (x >>= f) := (hx.bind hf).congr (by simp)

/-- Items taken one after the other connect if one of them does. -/
theorem mapM {ι : Type} {needed : ι → Prop} {f : ι → Action Recorder α} (h : ∀ i, Connects (needed i) (f i))
    (items : List ι) : Connects (∃ i ∈ items, needed i) (items.mapM f) := by
  induction items with
  | nil => exact (pure []).congr (by simp)
  | cons i items ih =>
    rw [List.mapM_cons]
    have hitems : Connects (needed i ∨ ∃ i ∈ items, needed i)
        (f i >>= fun first => items.mapM f >>= fun others => Pure.pure (first :: others)) :=
      (h i).bind fun first => ih.map _
    exact hitems.congr (by simp)

end Connects

end Action

/-! ## Clause by clause -/

section Clauses

open SqlAccess.Action Value

variable {tablePrefix : Text}

theorem Recorder.connects_escape (t : Text) : Connects True (escape t) := by
  intro r body r' hr
  unfold escape at hr
  split at hr
  · cases hr
  · cases hr
    exact Or.inl ⟨trivial, rfl⟩

namespace Connection

theorem connects_ofExcept {α : Type} (answer : Except Error α) : Connects False (Action.ofExcept answer) :=
  .of_returns fun _ => Returns.ofExcept

theorem connects_quoteText (t : Text) :
    Connects (t.isDigits = false) ((Recorder.connection tablePrefix).quoteText t) := by
  unfold quoteText
  split
  case isTrue hdigits => exact (Connects.pure t).congr (by simp [hdigits])
  case isFalse hdigits => exact ((Recorder.connects_escape t).map _).congr (by simp [hdigits])

mutual

theorem connects_quote : ∀ v : Value, Connects v.HoldsQuoted ((Recorder.connection tablePrefix).quote v)
  | .null | .boolean _ | .integer _ | .float _ | .expression _ | .list [] => by
    rw [quote]
    exact (Connects.pure _).congr (by simp [HoldsQuoted, leaves])
  | .text t => by
    rw [quote]
    exact (connects_quoteText t).congr (holdsQuoted_text t).symm
  | .list (v :: vs) => by
    rw [quote]
    apply Connects.congr ?_ (holdsQuoted_list_cons v vs).symm
    exact (connects_quote v).bind fun first => (connects_quoteAll vs).map _

theorem connects_quoteAll : ∀ vs : List Value,
    Connects (AnyHoldsQuoted vs) ((Recorder.connection tablePrefix).quoteAll vs)
  | [] => by
    rw [quoteAll]
    exact (Connects.pure _).congr (by simp [anyHoldsQuoted_nil])
  | v :: vs => by
    rw [quoteAll]
    apply Connects.congr ?_ (anyHoldsQuoted_cons v vs).symm
    exact (connects_quote v).bind fun first => (connects_quoteAll vs).map _

end

/-! ### Groupings and orders -/

theorem connects_compileGroupBy (columns : List Identifier) :
    Connects False ((Recorder.connection tablePrefix).compileGroupBy columns) := by
  unfold compileGroupBy
  split
  · exact Connects.pure []
  · have hcolumns : Connects False ((Recorder.connection tablePrefix).compileColumns columns) :=
      .of_returns fun _ => returns_columns _ columns
    exact hcolumns.map _

theorem connects_compileOrderBy (terms : List SortTerm) :
    Connects False ((Recorder.connection tablePrefix).compileOrderBy terms) := by
  have hterm (term : SortTerm) : Connects False ((Recorder.connection tablePrefix).compileSortTerm term) :=
    (connects_ofExcept _).map _
  unfold compileOrderBy
  split
  · exact Connects.pure []
  · exact ((Connects.mapM hterm terms).map _).congr (by simp)

/-! ### Conditions -/

/-- Whatever the operator, an operand that is written has quoted all of its value. -/
theorem connects_compileOperand (column operator : Text) (value : Value) :
    Connects value.HoldsQuoted ((Recorder.connection tablePrefix).compileOperand column operator value) := by
  unfold compileOperand
  split
  · split
    · rename_i low high
      have hbounds : (Value.list [low, high]).HoldsQuoted ↔ low.HoldsQuoted ∨ high.HoldsQuoted := by
        rw [holdsQuoted_list_cons, anyHoldsQuoted_cons, or_iff_left anyHoldsQuoted_nil]
      apply Connects.congr ?_ hbounds.symm
      exact (connects_quote low).bind fun first => (connects_quote high).map _
    · exact Connects.throw _
  · split
    · split
      · exact (Connects.pure _).congr (by simp [HoldsQuoted, leaves])
      · exact (connects_quote value).map _
    · exact connects_quote value

theorem connects_compilePredicate (column : Identifier) (operator : Text) (value : Value) :
    Connects value.HoldsQuoted ((Recorder.connection tablePrefix).compilePredicate column operator value) :=
  (connects_ofExcept _).after fun name => (connects_compileOperand name _ value).map _

theorem connects_compileEntries (due : Bool) (entries : List Condition) :
    Connects (AnyHoldsQuoted (entries.filterMap Condition.value?))
      ((Recorder.connection tablePrefix).compileEntries due entries) := by
  induction entries generalizing due with
  | nil => exact (Connects.pure []).congr (by simp [anyHoldsQuoted_nil])
  | cons entry entries ih =>
    cases entry with
    | opening logic => exact (ih false).map _
    | closing => exact (ih true).map _
    | predicate logic column operator value =>
      apply Connects.congr ?_ (anyHoldsQuoted_cons value _).symm
      exact (connects_compilePredicate column operator value).bind fun text => (ih true).map _

theorem connects_compileFilter (keyword : Text) (entries : List Condition) :
    Connects (AnyHoldsQuoted (entries.filterMap Condition.value?))
      ((Recorder.connection tablePrefix).compileFilter keyword entries) := by
  unfold compileFilter
  split
  case isTrue hempty =>
    rw [List.isEmpty_iff.1 hempty]
    exact (Connects.pure []).congr (by simp [anyHoldsQuoted_nil])
  case isFalse =>
    apply Connects.map
    unfold compileConditions
    split
    · exact Connects.throw _
    · exact connects_compileEntries false entries

/-! ### Assignments and rows -/

theorem connects_compileAssignments (assignments : List (Identifier × Value)) :
    Connects (AnyHoldsQuoted (assignments.map Prod.snd))
      ((Recorder.connection tablePrefix).compileAssignments assignments) := by
  have hassignment (assignment : Identifier × Value) : Connects assignment.2.HoldsQuoted
      ((Recorder.connection tablePrefix).compileAssignment assignment) :=
    (connects_ofExcept _).after fun column => (connects_quote assignment.2).map _
  apply Connects.congr ((Connects.mapM hassignment assignments).map _)
  simp only [AnyHoldsQuoted, List.mem_map, exists_exists_and_eq_and]

end Connection

theorem Insert.connects_compileRows (width index : Nat) (rows : List (List Value)) :
    Connects (AnyHoldsQuoted rows.flatten) (compileRows (Recorder.connection tablePrefix) width index rows) := by
  induction rows generalizing index with
  | nil => exact (Connects.pure []).congr (by simp [anyHoldsQuoted_nil])
  | cons row rows ih =>
    unfold compileRows
    split
    · exact Connects.throw _
    · apply Connects.congr ?_ (anyHoldsQuoted_append row _).symm
      exact (Connection.connects_quoteAll row).bind fun values => (ih (index + 1)).map _

/-! ## Statements -/

open Connection

theorem Select.connects_compile (s : Select) :
    Connects (AnyHoldsQuoted (Statement.select s).values) (s.compile (Recorder.connection tablePrefix)) := by
  have hcolumns : Connects False (s.compileColumns (Recorder.connection tablePrefix)) :=
    .of_returns fun _ => returns_selection _ s
  have htables : Connects False (s.compileTables (Recorder.connection tablePrefix)) :=
    .of_returns fun _ => returns_tables _ s
  have hjoins : Connects False ((Recorder.connection tablePrefix).compileJoins s.joins) :=
    .of_returns fun _ => returns_joins _ s.joins
  unfold compile
  split
  · exact Connects.throw _
  · refine hcolumns.after fun columns => htables.after fun tables => hjoins.after fun joins => ?_
    apply Connects.congr ?_ (anyHoldsQuoted_append _ _).symm
    refine (connects_compileFilter "WHERE" s.filter).bind fun filter => ?_
    refine (connects_compileGroupBy s.grouping).after fun grouping => ?_
    apply Connects.congr ?_ (or_iff_left not_false)
    exact (connects_compileFilter "HAVING" s.having).bind fun having => (connects_compileOrderBy s.sorting).map _

theorem Insert.connects_compile (s : Insert) :
    Connects (AnyHoldsQuoted (Statement.insert s).values) (s.compile (Recorder.connection tablePrefix)) := by
  have hcolumns : Connects False ((Recorder.connection tablePrefix).compileColumns s.columns) :=
    .of_returns fun _ => returns_columns _ s.columns
  unfold compile
  split
  · exact Connects.throw _
  · exact Connects.throw _
  · split
    · exact Connects.throw _
    · split
      · exact Connects.throw _
      · apply Connects.congr ?_ (or_iff_left not_false)
        refine (connects_compileRows _ 0 s.rows).bind fun rows => ?_
        exact (connects_ofExcept _).after fun table => hcolumns.map _

theorem Update.connects_compile (s : Update) :
    Connects (AnyHoldsQuoted (Statement.update s).values) (s.compile (Recorder.connection tablePrefix)) := by
  unfold compile
  split
  · exact Connects.throw _
  · split
    · exact Connects.throw _
    · apply Connects.congr ?_ (anyHoldsQuoted_append _ _).symm
      refine (connects_ofExcept _).after fun table => ?_
      exact (connects_compileAssignments s.assignments).bind fun texts => (connects_compileFilter "WHERE" s.filter).map _

theorem Delete.connects_compile (s : Delete) :
    Connects (AnyHoldsQuoted (Statement.delete s).values) (s.compile (Recorder.connection tablePrefix)) := by
  unfold compile
  split
  · exact Connects.throw _
  · exact (connects_ofExcept _).after fun table => (connects_compileFilter "WHERE" s.filter).map _

/-- A statement that compiles has connected if one of its values holds a text to escape, and else changed nothing. -/
theorem Statement.connects_compile (s : Statement) :
    Connects (AnyHoldsQuoted s.values) (s.compile (Recorder.connection tablePrefix)) := by
  cases s with
  | select s => exact s.connects_compile
  | insert s => exact s.connects_compile
  | update s => exact s.connects_compile
  | delete s => exact s.connects_compile

end Clauses

namespace Statement

variable {tablePrefix : Text} {s : Statement} {r r' : Recorder} {answer : Except Error Text}

/-- Compiled or not, a statement leaves the connection as it was or the same connection, connected. -/
theorem kept_or_connected (h : s.compile (Recorder.connection tablePrefix) r = (answer, r')) :
    r' = r ∨ r' = r.connect := by
  have hescape (t : Text) (state : Recorder) (hstate : state = r ∨ state = r.connect) :
      ((Recorder.connection tablePrefix).escape t state).2 = r ∨
        ((Recorder.connection tablePrefix).escape t state).2 = r.connect := by
    have hescaped : ((Recorder.connection tablePrefix).escape t state).2 = state.connect := by
      simp only [Recorder.connection, Recorder.escape]
      split <;> rfl
    right
    rw [hescaped]
    rcases hstate with rfl | rfl
    · rfl
    · exact r.connect_connect
  -- a statement only escapes, so what every escape keeps true of the connection stays true
  obtain ⟨recipe, hrecipe⟩ : Asks tablePrefix fun _ conn => s.compile conn := s.asks_compile
  have hcompile : s.compile (Recorder.connection tablePrefix) = recipe.run (Recorder.connection tablePrefix) :=
    hrecipe Recorder (Recorder.connection tablePrefix) rfl
  have hrun := recipe.invariant hescape (Or.inl rfl)
  rwa [← hcompile, h] at hrun

/-- **Compiling connects exactly when a text has to be escaped.** A statement that compiles leaves the connection
connected if it was so before or if one of its values holds a text that is not made of digits only, and not else. One
that does not compile disconnects nothing. In either case nothing was run, no rows were handed out, and the connection
counts one more time that it connected where it has become connected, and none where it has not. -/
theorem compile_connects (h : s.compile (Recorder.connection tablePrefix) r = (answer, r')) :
    (∀ sql, answer = .ok sql →
      (r'.connected = true ↔ r.connected = true ∨ ∃ v ∈ s.values, ∃ t, .text t ∈ v.leaves ∧ t.isDigits = false)) ∧
    (r.connected = true → r'.connected = true) ∧
    r'.executed = r.executed ∧ r'.queued = r.queued ∧
    r'.connects = r.connects + if r.connected = r'.connected then 0 else 1 := by
  have hkept := kept_or_connected h
  refine ⟨?_, ?_, ?_, ?_, ?_⟩
  · intro sql hsql
    subst hsql
    rcases s.connects_compile r sql r' h with ⟨hneeded, rfl⟩ | ⟨hneeded, rfl⟩
    · exact iff_of_true r.connect_connected (Or.inr hneeded)
    · exact (or_iff_left hneeded).symm
  · intro hconnected
    rcases hkept with rfl | rfl
    · exact hconnected
    · exact r.connect_connected
  · rcases hkept with rfl | rfl
    · rfl
    · exact r.connect_executed
  · rcases hkept with rfl | rfl
    · rfl
    · exact r.connect_queued
  · rcases hkept with rfl | rfl
    · rw [if_pos rfl, Nat.add_zero]
    · exact r.connect_connects

def assigning (value : Value) : Statement := .update ⟨some (.name ['t'] none), [(.name ['a'] none, value)], []⟩

/-- A text inside two lists makes an update connect; digits and the same text as an expression do not. -/
theorem compile_connects_nested :
    (assigning (.list [.text ['7'], .list [.text ['x']]])).compile (Recorder.connection []) .fresh =
      (.ok "UPDATE \"t\" SET \"a\" = 7, 'x'".toList, Recorder.fresh.connect) ∧
    (∃ v ∈ (assigning (.list [.text ['7'], .list [.text ['x']]])).values, v.HoldsQuoted) ∧
    (assigning (.list [.text ['7'], .expression "'x'".toList])).compile (Recorder.connection []) .fresh =
      (.ok "UPDATE \"t\" SET \"a\" = 7, 'x'".toList, .fresh) ∧
    ¬∃ v ∈ (assigning (.list [.text ['7'], .expression "'x'".toList])).values, v.HoldsQuoted := by
  have hconnects : (assigning (.list [.text ['7'], .list [.text ['x']]])).compile (Recorder.connection []) .fresh =
      (.ok "UPDATE \"t\" SET \"a\" = 7, 'x'".toList, Recorder.fresh.connect) := by
    change (_ : Except Error Text × Recorder) = _
    decide +kernel
  have hkeeps : (assigning (.list [.text ['7'], .expression "'x'".toList])).compile (Recorder.connection []) .fresh =
      (.ok "UPDATE \"t\" SET \"a\" = 7, 'x'".toList, .fresh) := by
    change (_ : Except Error Text × Recorder) = _
    decide +kernel
  refine ⟨hconnects, ?_, hkeeps, ?_⟩
  · exact (((compile_connects hconnects).1 _ rfl).1 rfl).resolve_left (by decide)
  · intro hholds
    have hconnected := ((compile_connects hkeeps).1 _ rfl).2 (Or.inr hholds)
    cases hconnected

/-- An update that fails behind a text that it has escaped stays connected. -/
example : (assigning (.list [.text ['x'], .text ['\x00']])).compile (Recorder.connection []) .fresh =
    (.error (.validation .nulInLiteral), Recorder.fresh.connect) := by
  change (_ : Except Error Text × Recorder) = _
  decide +kernel

end Statement

end SqlAccess
