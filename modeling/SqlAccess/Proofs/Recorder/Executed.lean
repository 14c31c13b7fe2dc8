/-
What the connection in the process has executed is what was run on it and accepted, in order.

A `Caller` holds statements under construction, queries with their cells, and the connection that all of them are
compiled for and run on. `Act` is what it can do: build and bind, compile, make a statement a query, run either, and
tend the connection itself. Only acts that run something ask for it (`running?`), and what they add is the text that
compiling gives at that moment, if the connection accepts it (`sent?`). `entered_step` says so for one act and
`executed_run` for any number of them: nothing else is recorded and nothing else takes rows from the queue.
-/
import SqlAccess.Proofs.Query.Binding
import SqlAccess.Proofs.Recorder.Connecting

namespace SqlAccess

/-! ## Statements as a caller builds them -/

namespace Statement

inductive Call where
  | select (call : Select.Call)
  | insert (call : Insert.Call)
  | update (call : Update.Call)
  | delete (call : Delete.Call)

/-- One call. A call for another kind of statement does nothing. -/
def step : Statement → Call → Statement
  | .select s, .select call => .select (s.step call)
  | .insert s, .insert call => .insert (s.step call)
  | .update s, .update call => .update (s.step call)
  | .delete s, .delete call => .delete (s.step call)
  | s, _ => s

/-- Compiling a statement runs nothing and hands out no rows. -/
theorem keeps_compile (tablePrefix : Text) (s : Statement) :
    Action.Keeps (fun r => (r.executed, r.queued)) (s.compile (Recorder.connection tablePrefix)) := by
  intro r
  rcases hcompile : s.compile (Recorder.connection tablePrefix) r with ⟨answer, r'⟩
  rcases kept_or_connected hcompile with rfl | rfl
  · rfl
  · exact congrArg₂ Prod.mk r.connect_executed r.connect_queued

end Statement

/-! ## What a run leaves behind -/

/-- Whatever a query is run for, the connection is left as the run itself leaves it. -/
theorem Terminal.state_run {σ : Type} (conn : Connection σ) (cells : Cells) (q : Query) (op : Terminal) (state : σ) :
    (op.run conn cells q state).2 = (q.execute conn cells state).2 := by
  have hanswered {α : Type} (x : Action σ α) : ((do let _ ← x : Action σ Unit) state).2 = (x state).2 :=
    Action.state_bind (fun _ _ => rfl) x state
  have hcursor : (q.cursor conn cells state).2 = (q.execute conn cells state).2 :=
    Action.state_bind (fun _ _ => rfl) _ state
  have hread {α : Type} (read : Cursor RowSet → Except Error α) :
      ((do let c ← q.cursor conn cells; Action.ofExcept (read c) : Action σ α) state).2 =
        (q.execute conn cells state).2 := (Action.state_bind (fun _ _ => rfl) _ state).trans hcursor
  cases op with
  | execute => exact hanswered _
  | cursor => exact (hanswered _).trans hcursor
  | fetchAll => exact (hanswered _).trans (hread fun c => (c.fetchAllAs .ok).1)
  | fetchAllAs f => exact (hanswered _).trans (hread fun c => (c.fetchAllAs f).1)
  | fetchFirst => exact (hanswered _).trans (hread fun c => (c.get 0).1)

namespace Recorder

/-- the rows left to hand out behind what was run: a select has taken the first ones -/
def remaining (entry : Option (StatementKind × Text)) (queued : List RowSet) : List RowSet :=
  match entry with
  | none => queued
  | some (kind, _) => if kind = .select then queued.drop 1 else queued

/-- `r'` has recorded and has to hand out what `r` had, with `entry` run and `sets` put behind the other rows -/
structure Entered (r r' : Recorder) (entry : Option (StatementKind × Text)) (sets : List RowSet) : Prop where
  executed : r'.executed = r.executed ++ entry.toList
  queued : r'.queued = remaining entry r.queued ++ sets

/-- the statement that a run comes down to: its kind and the text it compiles to, if the connection accepts that -/
def accepted? (r : Recorder) (kind : StatementKind) (compile : Action Recorder Text) : Option (StatementKind × Text) :=
  match compile r with
  | (.error _, _) => none
  | (.ok sql, middle) => (execute kind sql middle).1.toOption.map fun _ => (kind, sql)

theorem accepted?_eq_some_iff {r : Recorder} {kind kind' : StatementKind} {compile : Action Recorder Text} {sql : Text} :
    r.accepted? kind compile = some (kind', sql) ↔ kind' = kind ∧
      ∃ middle outcome, compile r = (.ok sql, middle) ∧ (execute kind sql middle).1 = .ok outcome := by
  unfold accepted?
  rcases compile r with ⟨answer, middle⟩
  cases answer with
  | error e =>
    apply iff_of_false nofun
    intro h
    obtain ⟨-, middle', outcome, hcompile, -⟩ := h
    cases hcompile
  | ok text =>
    rw [Option.map_eq_some_iff]
    constructor
    · intro h
      obtain ⟨outcome, haccepted, hentry⟩ := h
      cases hentry
      refine ⟨rfl, middle, outcome, rfl, ?_⟩
      cases hanswer : (execute kind sql middle).1 with
      | error e =>
        rw [hanswer] at haccepted
        cases haccepted
      | ok other =>
        rw [hanswer] at haccepted
        exact congrArg Except.ok (Option.some.inj haccepted)
    · intro h
      obtain ⟨rfl, middle', outcome, hcompile, haccepted⟩ := h
      cases hcompile
      exact ⟨outcome, by rw [haccepted]; rfl, rfl⟩

variable {r r' : Recorder}

theorem Entered.of_eq (hexecuted : r'.executed = r.executed) (hqueued : r'.queued = r.queued) :
    Entered r r' none [] where
  executed := by rw [hexecuted, Option.toList_none, List.append_nil]
  queued := by rw [hqueued, remaining, List.append_nil]

theorem Entered.of_keeps {α : Type} {x : Action Recorder α} (h : Action.Keeps (fun r => (r.executed, r.queued)) x)
    (r : Recorder) : Entered r (x r).2 none [] :=
  .of_eq (Prod.mk.inj (h r)).1 (Prod.mk.inj (h r)).2

/-- A text that is run is recorded if it is accepted, and takes rows from the queue if it is a select as well. -/
theorem entered_execute (kind : StatementKind) (sql : Text) (r : Recorder) :
    Entered r (execute kind sql r).2 ((execute kind sql r).1.toOption.map fun _ => (kind, sql)) [] := by
  unfold execute
  simp only
  split
  case isTrue => exact .of_eq r.connect_executed r.connect_queued
  case isFalse =>
    have hexecuted : r.connect.executed ++ [(kind, sql)] = r.executed ++ [(kind, sql)] := by rw [r.connect_executed]
    cases kind with
    | select =>
      refine ⟨hexecuted, ?_⟩
      simp only [connect_queued]
      exact (List.append_nil _).symm
    | _ => exact ⟨hexecuted, r.connect_queued.trans (List.append_nil _).symm⟩

/-- A compiled text that is run is recorded if it is accepted, and a run that fails leaves nothing. -/
theorem entered_run {kind : StatementKind} {compile : Action Recorder Text}
    (hcompile : Action.Keeps (fun r => (r.executed, r.queued)) compile) (r : Recorder) :
    Entered r ((compile >>= fun sql => execute kind sql) r).2 (r.accepted? kind compile) [] := by
  rcases hrun : compile r with ⟨answer, middle⟩
  have hkept := hcompile.of_run hrun
  obtain ⟨hexecuted, hqueued⟩ := Prod.mk.inj hkept
  cases answer with
  | error e =>
    rw [Action.bind_of_error hrun, accepted?, hrun]
    exact .of_eq hexecuted hqueued
  | ok sql =>
    rw [Action.bind_of_ok hrun, accepted?, hrun]
    have hentered := entered_execute kind sql middle
    exact ⟨hexecuted ▸ hentered.executed, hqueued ▸ hentered.queued⟩

end Recorder

/-! ## Callers -/

/-- statements under construction, and queries with their cells and the connection for all of them -/
structure Caller where
  statements : List Statement
  family : Family Recorder

/-- What a caller can do. Statements and queries are told by their places. -/
inductive Act (count : Nat) : Type 1 where
  | begin (s : Statement)
  | change (statement : Nat) (call : Statement.Call)
  | compile (statement : Nat)
  | toQuery (statement : Nat)
  | execute (statement : Nat)
  | write (kind : StatementKind) (template : Text)
  | query (step : Family.Step count)
  | finish (query : Nat) (op : Terminal)
  | queue (set : RowSet)
  | connect
  | disconnect

namespace Caller

variable {count : Nat}

def recorder (c : Caller) : Recorder := c.family.state

/-- the connection in another state -/
def leaving (c : Caller) (r : Recorder) : Caller := { c with family := { c.family with state := r } }

def adding (c : Caller) (q : Query) : Caller := { c with family := { c.family with queries := c.family.queries ++ [q] } }

/-- one act; on a statement or query that is not there it does nothing -/
def step (tablePrefix : Text) (c : Caller) : Act count → Caller
  | .begin s => { c with statements := c.statements ++ [s] }
  | .change statement call => { c with statements := c.statements.modify statement (·.step call) }
  | .compile statement =>
    match c.statements[statement]? with
    | none => c
    | some s => c.leaving (s.compile (Recorder.connection tablePrefix) c.recorder).2
  | .toQuery statement =>
    match c.statements[statement]? with
    | none => c
    | some s =>
      match s.toQuery (Recorder.connection tablePrefix) c.recorder with
      | (.error _, r) => c.leaving r
      | (.ok q, r) => (c.leaving r).adding q
  | .execute statement =>
    match c.statements[statement]? with
    | none => c
    | some s => c.leaving (s.execute (Recorder.connection tablePrefix) c.recorder).2
  | .write kind template => c.adding (.of kind template)
  | .query step => { c with family := c.family.step (Recorder.connection tablePrefix) step }
  | .finish query op =>
    match c.family.queries[query]? with
    | none => c
    | some q => c.leaving (op.run (Recorder.connection tablePrefix) c.family.cells q c.recorder).2
  | .queue set => c.leaving (c.recorder.push set)
  | .connect => c.leaving c.recorder.connect
  | .disconnect => c.leaving c.recorder.disconnect

def run (tablePrefix : Text) (c : Caller) (acts : List (Act count)) : Caller := acts.foldl (step tablePrefix) c

/-- What an act is to run: the kind of it, and how it is compiled. Only executing and fetching run anything. -/
def running? (tablePrefix : Text) (c : Caller) : Act count → Option (StatementKind × Action Recorder Text)
  | .execute statement => c.statements[statement]?.map fun s => (s.kind, s.compile (Recorder.connection tablePrefix))
  | .finish query _ => c.family.queries[query]?.map fun q =>
    (q.kind, q.compile (Recorder.connection tablePrefix) c.family.cells)
  | _ => none

/-- what an act sends: what it is to run, if that compiles now and the connection accepts it -/
def sent? (tablePrefix : Text) (c : Caller) (act : Act count) : Option (StatementKind × Text) :=
  (c.running? tablePrefix act).bind fun (kind, compile) => c.recorder.accepted? kind compile

def sentAll (tablePrefix : Text) (c : Caller) : List (Act count) → List (StatementKind × Text)
  | [] => []
  | act :: acts => (c.sent? tablePrefix act).toList ++ sentAll tablePrefix (c.step tablePrefix act) acts

end Caller

def Act.rows {count : Nat} : Act count → List RowSet
  | .queue set => [set]
  | _ => []

namespace Caller

open Recorder

variable {count : Nat} (tablePrefix : Text)

/-- One act sends what it sends and queues what it queues, and nothing else. -/
theorem entered_step (c : Caller) (act : Act count) :
    Entered c.recorder (c.step tablePrefix act).recorder (c.sent? tablePrefix act) act.rows := by
  cases act with
  | begin s => exact .of_eq rfl rfl
  | change statement call => exact .of_eq rfl rfl
  | compile statement =>
    simp only [step]
    cases c.statements[statement]? with
    | none => exact .of_eq rfl rfl
    | some s => exact .of_keeps (s.keeps_compile tablePrefix) c.recorder
  | toQuery statement =>
    simp only [step]
    cases c.statements[statement]? with
    | none => exact .of_eq rfl rfl
    | some s =>
      have hkept : Action.Keeps (fun r => (r.executed, r.queued)) (s.toQuery (Recorder.connection tablePrefix)) :=
        (s.keeps_compile tablePrefix).bind fun sql => Action.Keeps.pure _
      have hentered := Entered.of_keeps hkept c.recorder
      rcases hquery : s.toQuery (Recorder.connection tablePrefix) c.recorder with ⟨answer, r⟩
      rw [hquery] at hentered
      simp only [hquery]
      cases answer with
      | error e => exact hentered
      | ok q => exact hentered
  | execute statement =>
    simp only [step, sent?, running?]
    cases c.statements[statement]? with
    | none => exact .of_eq rfl rfl
    | some s => exact entered_run (s.keeps_compile tablePrefix) c.recorder
  | write kind template => exact .of_eq rfl rfl
  | query step =>
    cases step with
    | compile query =>
      simp only [Caller.step, Family.step]
      cases c.family.queries[query]? with
      | none => exact .of_eq rfl rfl
      | some q => exact .of_keeps (Query.keeps_compile keeps_escape c.family.cells q) c.recorder
    | _ => exact .of_eq rfl rfl
  | finish query op =>
    simp only [step, sent?, running?]
    cases c.family.queries[query]? with
    | none => exact .of_eq rfl rfl
    | some q =>
      simp only [Terminal.state_run]
      exact entered_run (Query.keeps_compile keeps_escape c.family.cells q) c.recorder
  | queue set => exact ⟨(List.append_nil _).symm, rfl⟩
  | connect => exact .of_eq (connect_executed _) (connect_queued _)
  | disconnect => exact .of_eq rfl rfl

/-- What an act sends is what it is to run, compiled at that moment and accepted. -/
theorem sent?_eq_some_iff {c : Caller} {act : Act count} {kind : StatementKind} {sql : Text} :
    c.sent? tablePrefix act = some (kind, sql) ↔ ∃ compile middle outcome,
      c.running? tablePrefix act = some (kind, compile) ∧ compile c.recorder = (.ok sql, middle) ∧
        (execute kind sql middle).1 = .ok outcome := by
  rw [sent?, Option.bind_eq_some_iff]
  constructor
  · intro h
    obtain ⟨⟨kind', compile⟩, hrunning, haccepted⟩ := h
    obtain ⟨rfl, middle, outcome, hcompile, hexecute⟩ := accepted?_eq_some_iff.1 haccepted
    exact ⟨compile, middle, outcome, hrunning, hcompile, hexecute⟩
  · intro h
    obtain ⟨compile, middle, outcome, hrunning, hcompile, hexecute⟩ := h
    exact ⟨(kind, compile), hrunning, accepted?_eq_some_iff.2 ⟨rfl, middle, outcome, hcompile, hexecute⟩⟩

/-- An act that runs nothing sends nothing, and neither does one whose text does not compile. -/
theorem sent?_eq_none {c : Caller} {act : Act count} (h : ∀ kind compile, c.running? tablePrefix act =
    some (kind, compile) → ∃ e r', compile c.recorder = (.error e, r')) : c.sent? tablePrefix act = none := by
  unfold sent?
  cases hrunning : c.running? tablePrefix act with
  | none => rfl
  | some running =>
    obtain ⟨kind, compile⟩ := running
    obtain ⟨e, r', hcompile⟩ := h kind compile hrunning
    simp only [Option.bind_some, accepted?, hcompile]

/-- **The connection has executed what was sent and accepted.** A run of any acts adds to what was executed what each of
them sends, in order. An act sends something if it executes or fetches, its text compiles at that moment, and the
connection accepts that text. It records and takes from the queue just that, so an act that runs nothing, or whose text
does not compile, records nothing and leaves the queue as it was but for the rows that it queues itself. -/
theorem executed_run (c : Caller) (acts : List (Act count)) :
    (c.run tablePrefix acts).recorder.executed = c.recorder.executed ++ c.sentAll tablePrefix acts ∧
    ∀ before act after, acts = before ++ act :: after →
      let reached := c.run tablePrefix before
      let next := reached.step tablePrefix act
      (∀ kind sql, reached.sent? tablePrefix act = some (kind, sql) ↔ ∃ compile middle outcome,
        reached.running? tablePrefix act = some (kind, compile) ∧ compile reached.recorder = (.ok sql, middle) ∧
          (execute kind sql middle).1 = .ok outcome) ∧
      Entered reached.recorder next.recorder (reached.sent? tablePrefix act) act.rows ∧
      ((∀ kind compile, reached.running? tablePrefix act = some (kind, compile) →
          ∃ e r', compile reached.recorder = (.error e, r')) →
        next.recorder.executed = reached.recorder.executed ∧
          next.recorder.queued = reached.recorder.queued ++ act.rows) := by
  constructor
  · induction acts generalizing c with
    | nil => exact (List.append_nil _).symm
    | cons act acts ih =>
      let next := c.step tablePrefix act
      calc (c.run tablePrefix (act :: acts)).recorder.executed
          = next.recorder.executed ++ next.sentAll tablePrefix acts := ih next
        _ = c.recorder.executed ++ (c.sent? tablePrefix act).toList ++ next.sentAll tablePrefix acts := by
          rw [(entered_step tablePrefix c act).executed]
        _ = c.recorder.executed ++ c.sentAll tablePrefix (act :: acts) := List.append_assoc _ _ _
  · intro before act after hacts reached next
    have hentered := entered_step tablePrefix reached act
    refine ⟨fun kind sql => sent?_eq_some_iff tablePrefix, hentered, fun hnone => ?_⟩
    rw [sent?_eq_none tablePrefix hnone] at hentered
    exact ⟨hentered.executed.trans (List.append_nil _), hentered.queued⟩

/-- a caller with a query of one value, which a cell holds -/
def bound : Caller :=
  ⟨[.delete (.of (some (.name ['t'] none)))], ⟨[(Query.of .select "SELECT :x".toList).bind ['x'] (.cell 0)],
    ⟨[.integer 1]⟩, .fresh, []⟩⟩

/-- what is done with them: the value is set anew behind the compiling, the delete is compiled and then executed -/
def boundActs : List (Act 1) :=
  [.query (.compile 0), .query (.set ⟨0, Nat.one_pos⟩ (.integer 2)), .compile 0, .finish 0 .fetchAll, .execute 0]

/-- The value of the moment counts when the query runs, and a statement that is compiled only is not sent. -/
theorem executed_run_bound :
    (bound.run [] boundActs).recorder.executed = [(.select, "SELECT 2".toList), (.delete, "DELETE FROM \"t\"".toList)] ∧
    Entered (bound.run [] (boundActs.take 4)).recorder (bound.run [] boundActs).recorder
      (some (.delete, "DELETE FROM \"t\"".toList)) [] := by
  obtain ⟨hexecuted, hacts⟩ := executed_run [] bound boundActs
  obtain ⟨-, hentered, -⟩ := hacts (boundActs.take 4) (.execute 0) [] rfl
  constructor
  · rw [hexecuted]
    decide +kernel
  · have hsent : (bound.run [] (boundActs.take 4)).sent? [] (.execute 0 : Act 1) =
        some (.delete, "DELETE FROM \"t\"".toList) := by decide +kernel
    rwa [hsent] at hentered

end Caller

end SqlAccess
