/-
Queries that are refused, and what they leave behind.

A query fails in three places: when it is compiled, when its statement runs, and when its outcome is turned into rows.
What is wrong with the query itself (`Error.isRefusal`) shows when it is compiled, and then nothing has run. Turning
the outcome into rows comes behind the run: there a receipt is refused where rows are wanted, and a row where it cannot
be read. `refused_before_running` tells these apart for every way to end a query.
-/
import SqlAccess.Proofs.Action
import SqlAccess.Proofs.Result.Reading
import SqlAccess.Query
import SqlAccess.Recorder

namespace SqlAccess

/-- the errors that blame the query and not the server -/
def Error.isRefusal : Error → Bool
  | .validation _ => true
  | .unboundParameter _ => true
  | _ => false

/-! ## Compiling leaves alone what escaping leaves alone -/

section Keeps

variable {σ β : Type} {conn : Connection σ} {view : σ → β}

theorem Connection.keeps_quoteText (h : ∀ t, Action.Keeps view (conn.escape t)) (t : Text) :
    Action.Keeps view (conn.quoteText t) := by
  unfold quoteText
  split
  · exact Action.Keeps.pure t
  · exact (h t).bind fun body => Action.Keeps.pure _

mutual

theorem Connection.keeps_quote (h : ∀ t, Action.Keeps view (conn.escape t)) :
    ∀ v : Value, Action.Keeps view (conn.quote v)
  | .null => by rw [quote]; exact Action.Keeps.pure _
  | .boolean b => by rw [quote]; exact Action.Keeps.pure _
  | .integer n => by rw [quote]; exact Action.Keeps.pure _
  | .float x => by rw [quote]; exact Action.Keeps.pure _
  | .text t => by rw [quote]; exact keeps_quoteText h t
  | .list [] => by rw [quote]; exact Action.Keeps.pure _
  | .expression sql => by rw [quote]; exact Action.Keeps.pure _
  | .list (v :: vs) => by
    rw [quote]
    exact (keeps_quote h v).bind fun first => (keeps_quoteAll h vs).bind fun others => Action.Keeps.pure _

theorem Connection.keeps_quoteAll (h : ∀ t, Action.Keeps view (conn.escape t)) :
    ∀ vs : List Value, Action.Keeps view (conn.quoteAll vs)
  | [] => by rw [quoteAll]; exact Action.Keeps.pure _
  | v :: vs => by
    rw [quoteAll]
    exact (keeps_quote h v).bind fun first => (keeps_quoteAll h vs).bind fun others => Action.Keeps.pure _

end

theorem Query.keeps_splice (h : ∀ t, Action.Keeps view (conn.escape t)) (cells : Cells) (q : Query)
    (spans : List Template.Placeholder) (copied : Nat) (rest : Text) :
    Action.Keeps view (q.splice conn cells copied rest spans) := by
  induction spans generalizing copied rest with
  | nil => exact Action.Keeps.pure rest
  | cons span spans ih =>
    rw [splice]
    cases q.lookup? span.name with
    | none => exact Action.Keeps.throw _
    | some parameter =>
      refine (Connection.keeps_quote h _).bind fun text => ?_
      exact (ih _ _).bind fun others => Action.Keeps.pure _

theorem Query.keeps_compile (h : ∀ t, Action.Keeps view (conn.escape t)) (cells : Cells) (q : Query) :
    Action.Keeps view (q.compile conn cells) := keeps_splice h cells q _ _ _

end Keeps

/-! ## What running leaves behind -/

namespace Recorder

theorem connect_executed (r : Recorder) : r.connect.executed = r.executed := by
  unfold connect
  split <;> rfl

theorem connect_queued (r : Recorder) : r.connect.queued = r.queued := by
  unfold connect
  split <;> rfl

/-- Escaping runs nothing and hands out no rows. -/
theorem keeps_escape (t : Text) : Action.Keeps (fun r => (r.executed, r.queued)) (escape t) := by
  intro r
  have hconnect : (r.connect.executed, r.connect.queued) = (r.executed, r.queued) := by
    rw [connect_executed, connect_queued]
  unfold escape
  split <;> exact hconnect

variable {kind : StatementKind} {sql : Text} {r r' : Recorder}

/-- A statement that fails blames the server and is not recorded. -/
theorem execute_eq_error {e : Error} (h : execute kind sql r = (.error e, r')) :
    e.isRefusal = false ∧ r'.executed = r.executed := by
  simp only [execute] at h
  split at h
  case isTrue =>
    cases h
    exact ⟨rfl, connect_executed r⟩
  case isFalse =>
    cases kind <;> cases h

/-- A statement that runs is recorded, and a select, it alone, is answered with the rows next in the queue. -/
theorem execute_eq_ok {outcome : Outcome} (h : execute kind sql r = (.ok outcome, r')) :
    r'.executed = r.executed ++ [(kind, sql)] ∧
      ((kind = .select ∧ outcome = .ofRowSet (r.queued.head?.getD .empty)) ∨
        (kind ≠ .select ∧ ∃ receipt, outcome = .receipt receipt)) := by
  simp only [execute] at h
  split at h
  case isTrue => cases h
  case isFalse =>
    cases kind with
    | select =>
      cases h
      exact ⟨by rw [connect_executed], Or.inl ⟨rfl, by rw [connect_queued]⟩⟩
    | _ =>
      cases h
      exact ⟨by rw [connect_executed], Or.inr ⟨by simp, _, rfl⟩⟩

end Recorder

/-! ## Rows in memory can all be fetched -/

namespace Cursor

variable {α : Type} {f : Row → Except Error α} {e : Error}

/-- Reading rows in memory fails only where `f` does. -/
theorem fetchAllAs_eq_error {c : Cursor RowSet} (h : (c.fetchAllAs f).1 = .error e) :
    ∃ index row, c.result.row? index = some row ∧ f row = .error e := by
  rw [fetchAllAs_eq, rows_turns_items (steady_rowSet c.result)] at h
  rcases gathered_eq_error h with hitem | ⟨row, hitem, hfails⟩
  · obtain ⟨index, -, hanswer⟩ := List.mem_map.1 hitem
    cases hrow : c.result.row? (UInt64.ofNat index).toNat <;> rw [hrow] at hanswer <;> cases hanswer
  · obtain ⟨index, -, hanswer⟩ := List.mem_map.1 hitem
    have hrow : Except.ok (c.result.row? (UInt64.ofNat index).toNat) = Except.ok (some row) := item_injective hanswer
    exact ⟨_, row, Except.ok.inj hrow, hfails⟩

theorem get_rowSet_ne_error (index : UInt64) (c : Cursor RowSet) : (c.get index).1 ≠ .error e := by
  unfold get
  split <;> exact fun h => nomatch h

end Cursor

/-! ## Where a query fails -/

namespace Query

variable {σ : Type} {conn : Connection σ} {cells : Cells} {q : Query} {state state' : σ} {e : Error}

theorem execute_eq_error (h : q.execute conn cells state = (.error e, state')) :
    q.compile conn cells state = (.error e, state') ∨ ∃ sql middle, q.compile conn cells state = (.ok sql, middle) ∧
      conn.execute q.kind sql middle = (.error e, state') := Action.bind_eq_error h

theorem cursor_eq_error (h : q.cursor conn cells state = (.error e, state')) :
    q.execute conn cells state = (.error e, state') ∨
      ∃ outcome, q.execute conn cells state = (.ok outcome, state') ∧ outcome.cursor = .error e := by
  rcases Action.bind_eq_error h with h | ⟨outcome, middle, hrun, h⟩
  · exact Or.inl h
  · obtain ⟨houtcome, rfl⟩ := Prod.mk.inj h
    exact Or.inr ⟨outcome, hrun, houtcome⟩

theorem cursor_eq_ok {c : Cursor RowSet} (h : q.cursor conn cells state = (.ok c, state')) :
    ∃ outcome, q.execute conn cells state = (.ok outcome, state') ∧ outcome.cursor = .ok c := by
  obtain ⟨outcome, middle, hrun, h⟩ := Action.bind_eq_ok h
  obtain ⟨houtcome, rfl⟩ := Prod.mk.inj h
  exact ⟨outcome, hrun, houtcome⟩

end Query

/-! ## The ways to end a query -/

inductive Terminal : Type 1 where
  | execute
  | cursor
  | fetchAll
  | fetchAllAs {α : Type} (f : Row → Except Error α)
  | fetchFirst

namespace Terminal

/-- a query run for it, its answer left out -/
def run {σ : Type} (conn : Connection σ) (cells : Cells) (q : Query) : Terminal → Action σ Unit
  | execute => do let _ ← q.execute conn cells
  | cursor => do let _ ← q.cursor conn cells
  | fetchAll => do let _ ← q.fetchAll conn cells
  | fetchAllAs f => do let _ ← q.fetchAllAs f conn cells
  | fetchFirst => do let _ ← q.fetchFirst conn cells

/-- a row that cannot be read as what the query is run for -/
def Rejects (row : Row) (e : Error) : Terminal → Prop
  | fetchAllAs f => f row = .error e
  | _ => False

/-- an outcome that is not what the query is run for: rows are wanted, and there are none or one of them is rejected -/
structure FailsOn (outcome : Outcome) (e : Error) (op : Terminal) : Prop where
  rowsWanted : op ≠ .execute
  cause : outcome.cursor = .error e ∨
    ∃ c index row, outcome.cursor = .ok c ∧ c.result.row? index = some row ∧ op.Rejects row e

variable {σ : Type} {conn : Connection σ} {cells : Cells} {q : Query} {state state' : σ} {e : Error}

/-- Rows that are wanted are run for and then read. -/
theorem read_eq_error {op : Terminal} {α : Type} {read : Cursor RowSet → Except Error α} (hop : op ≠ .execute)
    (hread : ∀ c, read c = .error e → ∃ index row, c.result.row? index = some row ∧ op.Rejects row e)
    (h : (do let c ← q.cursor conn cells; Action.ofExcept (read c) : Action σ α) state = (.error e, state')) :
    q.execute conn cells state = (.error e, state') ∨
      ∃ outcome, q.execute conn cells state = (.ok outcome, state') ∧ op.FailsOn outcome e := by
  rcases Action.bind_eq_error h with h | ⟨c, middle, hcursor, h⟩
  · rcases Query.cursor_eq_error h with h | ⟨outcome, hrun, hnone⟩
    · exact Or.inl h
    · exact Or.inr ⟨outcome, hrun, hop, Or.inl hnone⟩
  · obtain ⟨hfailed, rfl⟩ := Prod.mk.inj h
    obtain ⟨outcome, hrun, hrows⟩ := Query.cursor_eq_ok hcursor
    obtain ⟨index, row, hrow, hrejects⟩ := hread c hfailed
    exact Or.inr ⟨outcome, hrun, hop, Or.inr ⟨c, index, row, hrows, hrow, hrejects⟩⟩

/-- An operation that fails has failed in the run or on the outcome of the run. -/
theorem run_eq_error {op : Terminal} (h : op.run conn cells q state = (.error e, state')) :
    q.execute conn cells state = (.error e, state') ∨
      ∃ outcome, q.execute conn cells state = (.ok outcome, state') ∧ op.FailsOn outcome e := by
  cases op with
  | execute => exact Or.inl (Action.map_eq_error_iff.1 h)
  | cursor =>
    rcases Query.cursor_eq_error (Action.map_eq_error_iff.1 h) with h | ⟨outcome, hrun, hnone⟩
    · exact Or.inl h
    · exact Or.inr ⟨outcome, hrun, nofun, Or.inl hnone⟩
  | fetchAll =>
    refine read_eq_error nofun ?_ (Action.map_eq_error_iff.1 h)
    intro c hfailed
    obtain ⟨index, row, -, hrow⟩ := Cursor.fetchAllAs_eq_error hfailed
    cases hrow
  | fetchAllAs f =>
    refine read_eq_error nofun ?_ (Action.map_eq_error_iff.1 h)
    intro c hfailed
    exact Cursor.fetchAllAs_eq_error hfailed
  | fetchFirst =>
    refine read_eq_error nofun ?_ (Action.map_eq_error_iff.1 h)
    intro c hfailed
    exact absurd hfailed (Cursor.get_rowSet_ne_error 0 c)

end Terminal

namespace Query

/-- **A query that is refused has not run, or was refused for what it gave.** Either it does not compile and the
connection has executed what it had before, which is so for every error of `execute`; or it ran once, and then its
statement gives no rows where rows are wanted, or it is a select with a row that the caller's own reading rejects. What
is left alone is the list of what was executed: to escape a text in front of what is refused a connection may still
connect. -/
theorem refused_before_running (tablePrefix : Text) (cells : Cells) (q : Query) (op : Terminal) {e : Error}
    {r r' : Recorder} (he : e.isRefusal = true)
    (h : op.run (Recorder.connection tablePrefix) cells q r = (.error e, r')) :
    (q.compile (Recorder.connection tablePrefix) cells r = (.error e, r') ∧ r'.executed = r.executed) ∨
    ∃ sql middle, q.compile (Recorder.connection tablePrefix) cells r = (.ok sql, middle) ∧
      r'.executed = r.executed ++ [(q.kind, sql)] ∧ op ≠ .execute ∧
      ((q.kind ≠ .select ∧ ∃ receipt, e = .validation (.noRows receipt)) ∨
        (q.kind = .select ∧ ∃ index row, (r.queued.head?.getD .empty).row? index = some row ∧ op.Rejects row e)) := by
  have hkept {answer : Except Error Text} {middle : Recorder}
      (hcompile : q.compile (Recorder.connection tablePrefix) cells r = (answer, middle)) :
      middle.executed = r.executed ∧ middle.queued = r.queued :=
    Prod.mk.inj ((keeps_compile Recorder.keeps_escape cells q).of_run hcompile)
  rcases Terminal.run_eq_error h with h | ⟨outcome, hrun, hfails⟩
  · rcases execute_eq_error h with h | ⟨sql, middle, -, h⟩
    · exact Or.inl ⟨h, (hkept h).1⟩
    · -- the error of a statement that was run does not blame the query
      rw [(Recorder.execute_eq_error h).1] at he
      cases he
  · obtain ⟨sql, middle, hcompile, hrun⟩ := Action.bind_eq_ok hrun
    obtain ⟨hexecuted, hqueued⟩ := hkept hcompile
    obtain ⟨hrecorded, houtcome⟩ := Recorder.execute_eq_ok hrun
    rw [hexecuted] at hrecorded
    refine Or.inr ⟨sql, middle, hcompile, hrecorded, hfails.rowsWanted, ?_⟩
    rcases houtcome with ⟨hselect, rfl⟩ | ⟨hother, receipt, rfl⟩
    · right
      rcases hfails.cause with hnone | ⟨c, index, row, hrows, hrow, hrejects⟩
      · cases hnone
      · cases hrows
        exact ⟨hselect, index, row, hqueued ▸ hrow, hrejects⟩
    · left
      rcases hfails.cause with hnone | ⟨c, index, row, hrows, -⟩
      · cases hnone
        exact ⟨hother, receipt, rfl⟩
      · cases hrows

/-- an insert of one row, its value as given -/
def oneRow (value : Text) : Query := of .insert ("INSERT INTO t VALUES (".toList ++ value ++ ")".toList)

def ranOne : Recorder := ⟨true, 1, [(.delete, "DELETE FROM t".toList)], []⟩

/-- An insert of an unbound value, asked for its rows, does not compile and adds nothing to what was run. -/
theorem refused_before_running_unbound :
    Terminal.fetchAll.run (Recorder.connection []) .empty (oneRow ":x".toList) ranOne =
      (.error (.unboundParameter ['x']), ranOne) ∧
    (oneRow ":x".toList).compile (Recorder.connection []) .empty ranOne =
      (.error (.unboundParameter ['x']), ranOne) := by
  have hrun : Terminal.fetchAll.run (Recorder.connection []) .empty (oneRow ":x".toList) ranOne =
      (.error (.unboundParameter ['x']), ranOne) := by
    change (_ : Except Error Unit × Recorder) = _
    decide +kernel
  refine ⟨hrun, ?_⟩
  rcases refused_before_running [] .empty (oneRow ":x".toList) .fetchAll rfl hrun with
    ⟨hcompile, -⟩ | ⟨sql, middle, -, -, -, ⟨-, receipt, hnone⟩ | ⟨hselect, -⟩⟩
  · exact hcompile
  · cases hnone
  · cases hselect

/-- An insert asked for its rows is refused, and it was run. -/
theorem refused_behind_running : ∃ e r',
    Terminal.fetchAll.run (Recorder.connection []) .empty (oneRow "1".toList) Recorder.fresh = (.error e, r') ∧
    e.isRefusal = true ∧ Recorder.fresh.executed = [] ∧
    r'.executed = [(.insert, "INSERT INTO t VALUES (1)".toList)] := by
  have hrun : Terminal.fetchAll.run (Recorder.connection []) .empty (oneRow "1".toList) Recorder.fresh =
      (.error (.validation (.noRows (.inserted (some 1) 1))),
        ⟨true, 1, [(.insert, "INSERT INTO t VALUES (1)".toList)], []⟩) := by
    change (_ : Except Error Unit × Recorder) = _
    decide +kernel
  exact ⟨_, _, hrun, rfl, rfl, rfl⟩

end Query

end SqlAccess
