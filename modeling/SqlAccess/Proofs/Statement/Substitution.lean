/-
Placeholders as values of a statement, and values in their place.

A statement may carry `:name` as an expression where a value is not known yet. `subst ρ` puts the value `ρ name` in
each such place. `Late names ρ` collects what is asked of a statement for the two ways to give it values to agree:
names where it refers to tables and columns, operators and words of letters, no expressions but placeholders among
`names`, and none as the whole value of a predicate where the operator decides by the value how it is written.
`fills_written`: the text of a value with placeholders, filled, is the text of the value with the values in their
place.
-/
import SqlAccess.Proofs.Template.Pieces
import SqlAccess.Statement

namespace SqlAccess

/-! ## Values -/

namespace Value

mutual

/-- the value with `ρ name` in the place of each placeholder -/
def subst (ρ : Text → Value) : Value → Value
  | .null => .null
  | .boolean b => .boolean b
  | .integer n => .integer n
  | .float x => .float x
  | .text t => .text t
  | .list items => .list (substAll ρ items)
  | .expression (':' :: name) => ρ name
  | .expression sql => .expression sql

/-- values with `ρ name` in the place of each placeholder -/
def substAll (ρ : Text → Value) : List Value → List Value
  | [] => []
  | v :: vs => subst ρ v :: substAll ρ vs

end

/-- no expressions but placeholders of these names -/
def Holes (names : List Text) (v : Value) : Prop :=
  ∀ leaf ∈ v.leaves, ∀ sql, leaf = .expression sql → ∃ name ∈ names, sql = ':' :: name

variable (ρ : Text → Value)

theorem substAll_eq (vs : List Value) : substAll ρ vs = vs.map (subst ρ) := by
  induction vs with
  | nil => rfl
  | cons v vs ih => rw [substAll, ih, List.map_cons]

mutual

/-- The leaves of a value after substitution are those of its leaves. -/
theorem leaves_subst : ∀ v : Value, (v.subst ρ).leaves = v.leaves.flatMap fun leaf => (leaf.subst ρ).leaves
  | .null | .boolean _ | .integer _ | .float _ | .text _ | .list [] => by simp [subst, substAll, leaves]
  | .expression sql => by simp [leaves]
  | .list (v :: vs) => by
    rw [subst, substAll, leaves, leaves, List.flatMap_append, leaves_subst v, leavesOf_subst vs]

theorem leavesOf_subst : ∀ vs : List Value,
    leavesOf (substAll ρ vs) = (leavesOf vs).flatMap fun leaf => (leaf.subst ρ).leaves
  | [] => by simp [substAll, leavesOf]
  | v :: vs => by
    rw [substAll, leavesOf, leavesOf, List.flatMap_append, leaves_subst v, leavesOf_subst vs]

end

/-- A value after substitution is written leaf by leaf. -/
theorem written_subst (standard : Bool) (v : Value) : (v.subst ρ).written standard =
    Text.joined [',', ' '] (v.leaves.map fun leaf => (leaf.subst ρ).written standard) := by
  have hne : ∀ l ∈ v.leaves.map (fun leaf => (leaf.subst ρ).leaves.map (literal standard)), l ≠ [] := by
    intro l hl
    obtain ⟨leaf, -, rfl⟩ := List.mem_map.1 hl
    simp [leaves_ne_nil]
  calc (v.subst ρ).written standard
    _ = Text.joined [',', ' '] (v.leaves.map fun leaf => (leaf.subst ρ).leaves.map (literal standard)).flatten := by
        rw [written, leaves_subst, List.map_flatMap]
        rfl
    _ = Text.joined [',', ' '] ((v.leaves.map fun leaf => (leaf.subst ρ).leaves.map (literal standard)).map
          (Text.joined [',', ' '])) := (Text.joined_map_joined [',', ' '] hne).symm
    _ = Text.joined [',', ' '] (v.leaves.map fun leaf => (leaf.subst ρ).written standard) := by
        rw [List.map_map]
        rfl

variable {ρ} {names : List Text} {fill : Text → Option Text}

theorem Holes.of_mem {items : List Value} (h : (Value.list items).Holes names) {v : Value} (hv : v ∈ items) :
    v.Holes names := by
  intro leaf hleaf
  refine h leaf ?_
  obtain ⟨w, ws, rfl⟩ := List.exists_cons_of_ne_nil (List.ne_nil_of_mem hv)
  have hitems : (Value.list (w :: ws)).leaves = leavesOf (w :: ws) := rfl
  rw [hitems, leavesOf_eq]
  exact List.mem_flatten.2 ⟨v.leaves, List.mem_map.2 ⟨v, hv, rfl⟩, hleaf⟩

/-- An expression is a placeholder where there are no others. -/
theorem Holes.expression {sql : Text} (h : (Value.expression sql).Holes names) :
    ∃ name ∈ names, sql = ':' :: name := h (.expression sql) (by simp [leaves]) sql rfl

mutual

/-- Without placeholders there is nothing to substitute. -/
theorem subst_of_holes_nil : ∀ v : Value, v.Holes [] → v.subst ρ = v
  | .null, _ | .boolean _, _ | .integer _, _ | .float _, _ | .text _, _ => by simp [subst]
  | .expression sql, h => by
    obtain ⟨name, hname, -⟩ := h.expression
    exact nomatch hname
  | .list items, h => by rw [subst, substAll_of_holes_nil items fun v hv => h.of_mem hv]

theorem substAll_of_holes_nil : ∀ vs : List Value, (∀ v ∈ vs, v.Holes []) → substAll ρ vs = vs
  | [], _ => rfl
  | v :: vs, h => by
    rw [substAll, subst_of_holes_nil v (h v List.mem_cons_self),
      substAll_of_holes_nil vs fun w hw => h w (List.mem_cons_of_mem _ hw)]

end

open Template in
/-- The text of a leaf, filled. -/
theorem fills_leaf (hn : ∀ n ∈ names, IsName n) (hfill : ∀ n ∈ names, fill n = (ρ n).written? true) {leaf : Value}
    (hl : ∀ items, leaf ≠ .list items) (hv : ∀ sql, leaf = .expression sql → ∃ name ∈ names, sql = ':' :: name)
    (hw : (leaf.subst ρ).leaves.all writable = true) :
    Fills fill ((leaf.subst ρ).written true) (leaf.literal true) := by
  by_cases he : ∃ sql, leaf = .expression sql
  · obtain ⟨sql, rfl⟩ := he
    obtain ⟨name, hname, rfl⟩ := hv sql rfl
    rw [subst] at hw ⊢
    refine fills_placeholder (hn name hname) ?_
    rw [hfill name hname, written?, if_pos hw]
  · have hshape := @literal_shape leaf fun sql e => he ⟨sql, e⟩
    have hwritten : (leaf.subst ρ).written true = leaf.literal true := by
      cases leaf with
      | list items => exact absurd rfl (hl items)
      | expression sql => exact absurd ⟨sql, rfl⟩ he
      | _ => rfl
    rw [hwritten]
    exact fills_literal hshape

open Template in
/-- **The text of a value, filled.** -/
theorem fills_written (hn : ∀ n ∈ names, IsName n) (hfill : ∀ n ∈ names, fill n = (ρ n).written? true) {v : Value}
    (hv : v.Holes names) {s : Text} (hs : (v.subst ρ).written? true = some s) :
    v.written? true = some (v.written true) ∧ Fills fill s (v.written true) := by
  unfold written? at hs
  split at hs
  case isFalse => cases hs
  case isTrue hw =>
  obtain rfl := Option.some.inj hs
  rw [leaves_subst, List.all_flatMap, List.all_eq_true] at hw
  constructor
  · rw [written?, if_pos]
    rw [List.all_eq_true]
    intro leaf hl
    have h := hw leaf hl
    cases leaf with
    | text t => simpa [subst, leaves] using h
    | _ => rfl
  · rw [written_subst]
    refine Fills.joined (by decide) (by decide) ?_
    rw [List.forall₂_map_left_iff, List.forall₂_map_right_iff, List.forall₂_same]
    intro leaf hl
    exact fills_leaf hn hfill (v.leaf_ne_list leaf hl) (fun sql e => hv leaf hl sql e) (hw leaf hl)

end Value

/-! ## Statements -/

/-- a name, not an expression -/
def Identifier.IsNamed (i : Identifier) : Prop := ∃ path label, i = .name path label

/-- letters, blanks and the signs of comparison -/
def IsOperator (t : Text) : Prop := ∀ c ∈ t, c.isAlpha = true ∨ c ∈ [' ', '=', '<', '>', '!', '~']

/-- letters and blanks -/
def IsWords (t : Text) : Prop := ∀ c ∈ t, c.isAlpha = true ∨ c = ' '

/-- the operators that are written by the kind of their value -/
def setOperators : List Text := ["BETWEEN", "NOT BETWEEN", "IN", "NOT IN"]

/-- the operators that are written differently with null -/
def nullOperators : List Text := [['='], ['!', '='], ['<', '>']]

namespace Condition

def subst (ρ : Text → Value) : Condition → Condition
  | .predicate logic column operator value => .predicate logic column operator (value.subst ρ)
  | .opening logic => .opening logic
  | .closing => .closing

/-- An entry that may get its values late. A placeholder is not the whole value where the operator looks at it. -/
def Late (names : List Text) (ρ : Text → Value) : Condition → Prop
  | .predicate _ column operator value => column.IsNamed ∧ IsOperator operator ∧ value.Holes names ∧
      ∀ name, value = .expression (':' :: name) → operator.trim.upper ∉ setOperators ∧
        (ρ name = .null → operator.trim.upper ∉ nullOperators)
  | .opening _ => True
  | .closing => True

end Condition

/-- a join of names with a type of letters -/
def Join.Late (join : Join) : Prop :=
  join.table.IsNamed ∧ (∀ kind, join.kind = some kind → IsWords kind) ∧
    (∀ pair ∈ join.pairs, pair.1.IsNamed ∧ pair.2.IsNamed) ∧ ∀ column ∈ join.matching, column.IsNamed

/-- a named column with a direction of letters -/
def SortTerm.Late (term : SortTerm) : Prop :=
  term.column.IsNamed ∧ ∀ direction, term.direction = some direction → IsWords direction

namespace Statement

/-- the statement with `ρ name` in the place of each placeholder -/
def subst (ρ : Text → Value) : Statement → Statement
  | .select s => .select { s with filter := s.filter.map (·.subst ρ), having := s.having.map (·.subst ρ) }
  | .insert s => .insert { s with rows := s.rows.map (·.map (·.subst ρ)) }
  | .update s => .update { s with
      assignments := s.assignments.map fun a => (a.1, a.2.subst ρ), filter := s.filter.map (·.subst ρ) }
  | .delete s => .delete { s with filter := s.filter.map (·.subst ρ) }

/-- a statement that may get its values late -/
def Late (names : List Text) (ρ : Text → Value) : Statement → Prop
  | .select s => (∀ c ∈ s.columns, c.IsNamed) ∧ (∀ t ∈ s.tables, t.IsNamed) ∧ (∀ j ∈ s.joins, j.Late) ∧
      (∀ c ∈ s.filter, c.Late names ρ) ∧ (∀ c ∈ s.grouping, c.IsNamed) ∧ (∀ c ∈ s.having, c.Late names ρ) ∧
      ∀ term ∈ s.sorting, term.Late
  | .insert s => (∀ t, s.table = some t → t.IsNamed) ∧ (∀ c ∈ s.columns, c.IsNamed) ∧
      ∀ row ∈ s.rows, ∀ v ∈ row, v.Holes names
  | .update s => (∀ t, s.table = some t → t.IsNamed) ∧
      (∀ a ∈ s.assignments, a.1.IsNamed ∧ a.2.Holes names) ∧ ∀ c ∈ s.filter, c.Late names ρ
  | .delete s => (∀ t, s.table = some t → t.IsNamed) ∧ ∀ c ∈ s.filter, c.Late names ρ

variable {ρ : Text → Value}

theorem map_of_fixed {α : Type} {f : α → α} {l : List α} (h : ∀ a ∈ l, f a = a) : l.map f = l :=
  (List.map_congr_left h).trans (List.map_id l)

theorem map_subst_of_late_nil {conditions : List Condition} (h : ∀ c ∈ conditions, c.Late [] ρ) :
    conditions.map (Condition.subst ρ) = conditions := by
  refine map_of_fixed fun c hc => ?_
  cases c with
  | predicate logic column operator value =>
    obtain ⟨-, -, hvalue, -⟩ := h _ hc
    exact congrArg (Condition.predicate logic column operator) (Value.subst_of_holes_nil value hvalue)
  | opening logic => rfl
  | closing => rfl

/-- A statement without placeholders is itself after substitution. -/
theorem subst_of_late_nil {stmt : Statement} (h : stmt.Late [] ρ) : stmt.subst ρ = stmt := by
  cases stmt with
  | select s =>
    obtain ⟨-, -, -, hfilter, -, hhaving, -⟩ := h
    rw [subst, map_subst_of_late_nil hfilter, map_subst_of_late_nil hhaving]
  | insert s =>
    obtain ⟨-, -, hrows⟩ := h
    have hmap : s.rows.map (fun row => row.map (Value.subst ρ)) = s.rows := by
      refine map_of_fixed fun row hrow => ?_
      rw [← Value.substAll_eq, Value.substAll_of_holes_nil row (hrows row hrow)]
    rw [subst, hmap]
  | update s =>
    obtain ⟨-, hassignments, hfilter⟩ := h
    have hmap : s.assignments.map (fun a => (a.1, a.2.subst ρ)) = s.assignments := by
      refine map_of_fixed fun a ha => ?_
      exact Prod.ext rfl (Value.subst_of_holes_nil a.2 (hassignments a ha).2)
    rw [subst, hmap, map_subst_of_late_nil hfilter]
  | delete s =>
    obtain ⟨-, hfilter⟩ := h
    rw [subst, map_subst_of_late_nil hfilter]

end Statement

end SqlAccess
