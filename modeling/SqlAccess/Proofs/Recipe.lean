/-
What writing a statement asks of its connection.

A `Recipe` is a computation that escapes texts and knows its answer in the end: all that it asks of a connection are
escapes, one after the other. Every value, clause, statement and query is written by one recipe, the same for all
connections with a table prefix (`asks_compile` of each). So what holds of the escapes of a connection holds of what it
writes: `Asks.gives` says that a connection which escapes for one setting of the server's strings writes what is written
on paper for that setting.
-/
import SqlAccess.Proofs.Literal
import SqlAccess.Query
import SqlAccess.Statement

namespace SqlAccess

/-- a computation that may ask for escapes of texts before it answers -/
inductive Recipe (α : Type) where
  | settled (answer : Except Error α)
  | escape (t : Text) (next : Text → Recipe α)

namespace Recipe

variable {σ τ α β : Type}

def bind : Recipe α → (α → Recipe β) → Recipe β
  | .settled (.ok a), f => f a
  | .settled (.error e), _ => .settled (.error e)
  | .escape t next, f => .escape t fun body => (next body).bind f

/-- the computation on a connection that escapes for it -/
def run (conn : Connection σ) : Recipe α → Action σ α
  | .settled answer => Action.ofExcept answer
  | .escape t next => do
    let body ← conn.escape t
    (next body).run conn

theorem run_bind (conn : Connection σ) (recipe : Recipe α) (f : α → Recipe β) :
    (recipe.bind f).run conn = recipe.run conn >>= fun a => (f a).run conn := by
  induction recipe with
  | settled answer => cases answer <;> rfl
  | escape t next ih =>
    simp only [bind, run, ih, bind_assoc]

/-- What every escape keeps true of the state, the whole computation keeps true. -/
theorem invariant {conn : Connection σ} {I : σ → Prop} (h : ∀ t state, I state → I (conn.escape t state).2)
    (recipe : Recipe α) {state : σ} (hstate : I state) : I (recipe.run conn state).2 := by
  induction recipe generalizing state with
  | settled answer => exact hstate
  | escape t next ih =>
    have hescaped := h t state hstate
    rcases hrun : conn.escape t state with ⟨answer, middle⟩
    rw [hrun] at hescaped
    cases answer with
    | error e => rwa [run, Action.bind_of_error hrun]
    | ok body =>
      rw [run, Action.bind_of_ok hrun]
      exact ih body hescaped

/-- A connection that shows in its state how another one escapes writes the same. -/
theorem shows {view : σ → τ} {conn : Connection σ} {conn' : Connection τ}
    (h : ∀ t, Action.Shows view (conn.escape t) (conn'.escape t)) (recipe : Recipe α) :
    Action.Shows view (recipe.run conn) (recipe.run conn') := by
  induction recipe with
  | settled answer => exact Action.Shows.ofExcept answer
  | escape t next ih => exact (h t).bind ih

end Recipe

/-! ## On paper -/

namespace Connection

variable {σ : Type}

/-- a connection to write for and not to run on, for strings whose backslashes are plain or not -/
def onPaper (tablePrefix : Text) (standard : Bool) : Connection Unit where
  tablePrefix := tablePrefix
  escape t := if '\x00' ∈ t then throw (.validation .nulForServer)
    else pure (Postgres.Session.escapeLiteral standard t)
  execute _ _ := throw .readOnly

end Connection

namespace Recipe

variable {σ α : Type}

/-- what is written on paper, where it can be written -/
def text? (tablePrefix : Text) (standard : Bool) (recipe : Recipe α) : Option α :=
  (recipe.run (Connection.onPaper tablePrefix standard) ()).1.toOption

/-- On paper a text without NUL is escaped at once. -/
theorem run_onPaper_escape (tablePrefix : Text) (standard : Bool) {t : Text} (hnul : '\x00' ∉ t)
    (next : Text → Recipe α) : (escape t next).run (Connection.onPaper tablePrefix standard) =
      (next (Postgres.Session.escapeLiteral standard t)).run (Connection.onPaper tablePrefix standard) := by
  simp only [run, Connection.onPaper, if_neg hnul, pure_bind]

theorem text?_eq_some {tablePrefix : Text} {standard : Bool} {recipe : Recipe α} {a : α}
    (h : recipe.text? tablePrefix standard = some a) :
    (recipe.run (Connection.onPaper tablePrefix standard) ()).1 = .ok a := by
  unfold text? at h
  cases hrun : (recipe.run (Connection.onPaper tablePrefix standard) ()).1 with
  | error e =>
    rw [hrun] at h
    cases h
  | ok b =>
    rw [hrun] at h
    cases h
    rfl

/-- A connection that escapes for one setting writes what is written on paper for it. -/
theorem gives {conn : Connection σ} {standard : Bool} {ready : σ → Prop} (h : conn.Escapes standard ready)
    (tablePrefix : Text) (recipe : Recipe α) :
    Action.Gives ready (recipe.run conn) (recipe.text? tablePrefix standard) := by
  induction recipe with
  | settled answer =>
    cases answer with
    | ok a => exact Action.Gives.pure a
    | error e => exact Action.Gives.throw e
  | escape t next ih =>
    have hbind := (h t).bind fun body _ => ih body
    by_cases hnul : '\x00' ∈ t
    · have hnone : (escape t next).text? tablePrefix standard = none := by
        simp only [text?, run, Connection.onPaper, if_pos hnul]
        rfl
      rw [if_pos hnul] at hbind
      rwa [hnone]
    · have hsome : (escape t next).text? tablePrefix standard =
          (next (Postgres.Session.escapeLiteral standard t)).text? tablePrefix standard := by
        rw [text?, run_onPaper_escape tablePrefix standard hnul, text?]
      rw [if_neg hnul] at hbind
      rwa [hsome]

end Recipe

/-! ## One recipe for all connections -/

/-- a computation on connections that needs the table prefix and escapes, and nothing else of them -/
def Asks (tablePrefix : Text) {α : Type} (x : ∀ σ : Type, Connection σ → Action σ α) : Prop :=
  ∃ recipe : Recipe α, ∀ (σ : Type) (conn : Connection σ), conn.tablePrefix = tablePrefix → x σ conn = recipe.run conn

namespace Asks

variable {tablePrefix : Text} {α β ι : Type} {x : ∀ σ : Type, Connection σ → Action σ α}

theorem ofExcept (answer : Except Error α) : Asks tablePrefix fun _ _ => Action.ofExcept answer :=
  ⟨.settled answer, fun _ _ _ => rfl⟩

theorem pure (a : α) : Asks tablePrefix fun σ _ => (Pure.pure a : Action σ α) := ofExcept (.ok a)

theorem throw (e : Error) : Asks tablePrefix fun σ _ => (MonadExcept.throw e : Action σ α) := ofExcept (.error e)

theorem bind {f : α → ∀ σ : Type, Connection σ → Action σ β} (hx : Asks tablePrefix x)
    (hf : ∀ a, Asks tablePrefix (f a)) : Asks tablePrefix fun σ conn => x σ conn >>= fun a => f a σ conn := by
  obtain ⟨first, hfirst⟩ := hx
  choose next hnext using hf
  refine ⟨first.bind next, fun σ conn hconn => ?_⟩
  have hthen : (fun a => f a σ conn) = fun a => (next a).run conn := funext fun a => hnext a σ conn hconn
  simp only [Recipe.run_bind, hfirst σ conn hconn, hthen]

theorem map (hx : Asks tablePrefix x) (f : α → β) :
    Asks tablePrefix fun σ conn => (do let a ← x σ conn; return f a : Action σ β) := hx.bind fun a => .pure (f a)

theorem mapM {f : ι → ∀ σ : Type, Connection σ → Action σ α} (hf : ∀ i, Asks tablePrefix (f i)) (items : List ι) :
    Asks tablePrefix fun σ conn => items.mapM fun i => f i σ conn := by
  induction items with
  | nil => exact .pure []
  | cons i items ih =>
    simp only [List.mapM_cons]
    exact (hf i).bind fun a => ih.map (a :: ·)

end Asks

namespace Connection

variable {tablePrefix : Text}

/-! ### Literals -/

theorem asks_escape (t : Text) : Asks tablePrefix fun _ conn => conn.escape t :=
  ⟨.escape t fun body => .settled (.ok body), fun _ conn _ => (bind_pure (conn.escape t)).symm⟩

mutual

/-- A value asks for escapes only. -/
theorem asks_quote : ∀ v : Value, Asks tablePrefix fun _ conn => conn.quote v
  | .null => by simp only [quote]; exact .pure _
  | .boolean b => by simp only [quote]; exact .pure _
  | .integer n => by simp only [quote]; exact .pure _
  | .float x => by simp only [quote]; exact .pure _
  | .text t => by
    simp only [quote, quoteText]
    split
    · exact .pure t
    · exact (asks_escape t).map _
  | .list [] => by simp only [quote]; exact .pure _
  | .expression sql => by simp only [quote]; exact .pure _
  | .list (v :: vs) => by
    simp only [quote]
    exact (asks_quote v).bind fun first => (asks_quoteAll vs).map _

theorem asks_quoteAll : ∀ vs : List Value, Asks tablePrefix fun _ conn => conn.quoteAll vs
  | [] => by simp only [quoteAll]; exact .pure _
  | v :: vs => by
    simp only [quoteAll]
    exact (asks_quote v).bind fun first => (asks_quoteAll vs).map _

end

/-! ### References and clauses -/

theorem asks_quoteColumn (column : Identifier) : Asks tablePrefix fun _ conn => conn.quoteColumn column :=
  ⟨.settled (column.asColumn tablePrefix), fun _ _ h => by subst h; rfl⟩

theorem asks_quoteTable (table : Identifier) : Asks tablePrefix fun _ conn => conn.quoteTable table :=
  ⟨.settled (table.asTable tablePrefix), fun _ _ h => by subst h; rfl⟩

theorem asks_compileColumns (columns : List Identifier) : Asks tablePrefix fun _ conn => conn.compileColumns columns :=
  (Asks.mapM asks_quoteColumn columns).map _

theorem asks_compileTables (tables : List Identifier) : Asks tablePrefix fun _ conn => conn.compileTables tables :=
  (Asks.mapM asks_quoteTable tables).map _

theorem asks_compilePair (pair : Identifier × Identifier) : Asks tablePrefix fun _ conn => conn.compilePair pair :=
  (asks_quoteColumn pair.1).bind fun _ => (asks_quoteColumn pair.2).map _

theorem asks_compileJoinCondition (join : Join) : Asks tablePrefix fun _ conn => conn.compileJoinCondition join := by
  simp only [compileJoinCondition]
  split
  · exact (asks_compileColumns join.matching).map _
  · split
    · refine (Asks.mapM asks_compilePair join.pairs).bind fun pairs => ?_
      split <;> exact .pure _
    · exact .pure _

theorem asks_compileJoins (joins : List Join) : Asks tablePrefix fun _ conn => conn.compileJoins joins := by
  have hjoin (join : Join) : Asks tablePrefix fun _ conn => conn.compileJoin join :=
    (asks_quoteTable join.table).bind fun table => (asks_compileJoinCondition join).map _
  exact (Asks.mapM hjoin joins).map _

theorem asks_compileOrderBy (terms : List SortTerm) : Asks tablePrefix fun _ conn => conn.compileOrderBy terms := by
  have hterm (term : SortTerm) : Asks tablePrefix fun _ conn => conn.compileSortTerm term :=
    (asks_quoteColumn term.column).map _
  simp only [compileOrderBy]
  split
  · exact .pure _
  · exact (Asks.mapM hterm terms).map _

theorem asks_compileGroupBy (columns : List Identifier) :
    Asks tablePrefix fun _ conn => conn.compileGroupBy columns := by
  simp only [compileGroupBy]
  split
  · exact .pure _
  · exact (asks_compileColumns columns).map _

theorem asks_compileAssignments (assignments : List (Identifier × Value)) :
    Asks tablePrefix fun _ conn => conn.compileAssignments assignments := by
  have hassignment (assignment : Identifier × Value) :
      Asks tablePrefix fun _ conn => conn.compileAssignment assignment :=
    (asks_quoteColumn assignment.1).bind fun column => (asks_quote assignment.2).map _
  exact (Asks.mapM hassignment assignments).map _

/-! ### Conditions -/

theorem asks_compileOperand (column operator : Text) (value : Value) :
    Asks tablePrefix fun _ conn => conn.compileOperand column operator value := by
  simp only [compileOperand]
  split
  · split
    · exact (asks_quote _).bind fun low => (asks_quote _).map _
    · exact .throw _
  · split
    · split
      · exact .pure _
      · exact (asks_quote value).map _
    · exact asks_quote value

theorem asks_compileEntries (due : Bool) (conditions : List Condition) :
    Asks tablePrefix fun _ conn => conn.compileEntries due conditions := by
  induction conditions generalizing due with
  | nil => exact .pure []
  | cons entry entries ih =>
    cases entry with
    | opening logic => exact (ih false).map _
    | closing => exact (ih true).map _
    | predicate logic column operator value =>
      have hpredicate : Asks tablePrefix fun _ conn => conn.compilePredicate column operator value :=
        (asks_quoteColumn column).bind fun name => (asks_compileOperand name _ value).map _
      exact hpredicate.bind fun text => (ih true).map _

theorem asks_compileFilter (keyword : Text) (conditions : List Condition) :
    Asks tablePrefix fun _ conn => conn.compileFilter keyword conditions := by
  simp only [compileFilter, compileConditions]
  split
  · exact .pure []
  · refine Asks.map ?_ _
    cases Condition.checkGroups conditions with
    | error e => exact .throw _
    | ok => exact asks_compileEntries false conditions

end Connection

/-! ### Statements and queries -/

variable {tablePrefix : Text}

open Connection

theorem Select.asks_compile (s : Select) : Asks tablePrefix fun _ conn => s.compile conn := by
  have hcolumns : Asks tablePrefix fun _ conn => s.compileColumns conn := by
    simp only [Select.compileColumns]
    split
    · exact .pure _
    · exact asks_compileColumns s.columns
  have htables : Asks tablePrefix fun _ conn => s.compileTables conn := by
    simp only [Select.compileTables]
    split
    · exact .pure _
    · exact (asks_compileTables s.tables).map _
  simp only [Select.compile]
  split
  · exact .throw _
  · exact hcolumns.bind fun columns => htables.bind fun tables => (asks_compileJoins s.joins).bind fun joins =>
      (asks_compileFilter _ s.filter).bind fun filter => (asks_compileGroupBy s.grouping).bind fun grouping =>
      (asks_compileFilter _ s.having).bind fun having => (asks_compileOrderBy s.sorting).map _

theorem Insert.asks_compile (s : Insert) : Asks tablePrefix fun _ conn => s.compile conn := by
  have hrows (width index : Nat) (rows : List (List Value)) :
      Asks tablePrefix fun _ conn => Insert.compileRows conn width index rows := by
    induction rows generalizing index with
    | nil => exact .pure []
    | cons row rows ih =>
      simp only [Insert.compileRows]
      split
      · exact .throw _
      · exact (asks_quoteAll row).bind fun values => (ih (index + 1)).map _
  simp only [Insert.compile]
  split
  · exact .throw _
  · exact .throw _
  · split
    · exact .throw _
    · split
      · exact .throw _
      · exact (hrows _ _ s.rows).bind fun rows => (asks_quoteTable _).bind fun table =>
          (asks_compileColumns s.columns).map _

theorem Update.asks_compile (s : Update) : Asks tablePrefix fun _ conn => s.compile conn := by
  simp only [Update.compile]
  split
  · exact .throw _
  · split
    · exact .throw _
    · exact (asks_quoteTable _).bind fun table => (asks_compileAssignments s.assignments).bind fun assignments =>
        (asks_compileFilter _ s.filter).map _

theorem Delete.asks_compile (s : Delete) : Asks tablePrefix fun _ conn => s.compile conn := by
  simp only [Delete.compile]
  split
  · exact .throw _
  · exact (asks_quoteTable _).bind fun table => (asks_compileFilter _ s.filter).map _

/-- A statement asks for escapes only. -/
theorem Statement.asks_compile (s : Statement) : Asks tablePrefix fun _ conn => s.compile conn := by
  cases s with
  | select s => exact s.asks_compile
  | insert s => exact s.asks_compile
  | update s => exact s.asks_compile
  | delete s => exact s.asks_compile

/-- A query asks for escapes only. -/
theorem Query.asks_compile (cells : Cells) (q : Query) : Asks tablePrefix fun _ conn => q.compile conn cells := by
  have hsplice (spans : List Template.Placeholder) (copied : Nat) (rest : Text) :
      Asks tablePrefix fun _ conn => q.splice conn cells copied rest spans := by
    induction spans generalizing copied rest with
    | nil => exact .pure rest
    | cons span spans ih =>
      simp only [Query.splice]
      split
      · exact .throw _
      · exact (asks_quote _).bind fun text => (ih _ _).map _
  exact hsplice _ 0 q.template

end SqlAccess
