/-
Values bound late and values written in place.

A statement with placeholders can be turned into a query and given its values when the query is compiled, or the
values can stand in the statement from the start. `late_binding`: where the second way gives a text the first gives
the same one. The compiled statement is a template; its names, literals and words are skipped by the scanner and its
placeholders found, for the statement is put together from pieces that are scanned by themselves (`follows_compile`).
-/
import SqlAccess.Proofs.Statement.Conditions

namespace SqlAccess

open Template SqlAccess.Action

variable {σ : Type} {conn : Connection σ} {ready : σ → Prop} {names : List Text} {ρ : Text → Value}
  {fill : Text → Option Text}

/-! ## Statements as templates -/

/-- A clause with a blank in front, unless it is empty. -/
theorem tailPiece_spaced {t : Text} (h : Piece fill t) : TailPiece fill (Select.spaced t) := by
  have hblank : leads [' '] = true ∧ closes [' '] = true := by decide
  unfold Select.spaced
  split
  · exact tails_nil
  · exact Fills.tail hblank.1 hblank.2 h

/-- A keyword with a count. -/
theorem tailPiece_counted {keyword : Text} (hk : ∀ c ∈ keyword, isPlain c = true) (n : Option Nat) :
    TailPiece fill (Select.counted keyword n) := by
  cases n with
  | none => exact tails_nil
  | some n =>
    obtain ⟨hleads, hcloses⟩ := leads_closes_word hk
    have hdigits : Piece fill (Text.ofNat n) := fills_literal (Or.inr (isBare_digits n))
    have hpiece := Fills.tail hleads hcloses hdigits
    simpa [Select.counted, TailPiece] using hpiece

/-- The words in front of the columns. -/
theorem leads_distinct (b : Bool) : leads ("SELECT " ++ (if b then "DISTINCT " else [] : Text)) = true := by
  have hselect : leads ("SELECT " : Text) = true := leads_lit (by decide)
  cases b with
  | false => rwa [if_neg Bool.false_ne_true, List.append_nil]
  | true => exact leads_append (leads_plain hselect) (leads_lit (by decide))

/-- The list behind `SELECT`. -/
theorem yields_selectColumns (fill : Text → Option Text) {s : Select} (h : ∀ c ∈ s.columns, c.IsNamed) :
    Yields ready (Piece fill) (s.compileColumns conn) := by
  have hstar : ∀ c ∈ ['*'], isPlain c = true := List.all_eq_true.1 (by decide)
  unfold Select.compileColumns
  split
  · exact Yields.pure (fills_plain hstar)
  · exact Connection.yields_columns fill h

theorem yields_selectTables (fill : Text → Option Text) {s : Select} (h : ∀ t ∈ s.tables, t.IsNamed) :
    Yields ready (TailPiece fill) (s.compileTables conn) := by
  unfold Select.compileTables
  split
  · exact Yields.pure tails_nil
  · refine (Connection.yields_tables fill h).bind fun tables ht => ?_
    exact Yields.pure (Fills.tail (leads_lit (by decide)) (closes_lit (by decide)) ht)

section Late

variable (hconn : conn.Escapes true ready) (hn : ∀ n ∈ names, IsName n)
  (hfill : ∀ n ∈ names, fill n = (ρ n).written? true)

include hconn hn hfill

theorem follows_delete {s : Delete} (h : (Statement.delete s).Late names ρ) :
    Follows ready (Fills fill) ((Statement.delete s).subst ρ |>.compile conn) ((Statement.delete s).compile conn) := by
  obtain ⟨htable, hfilter⟩ := h
  obtain ⟨table, filter⟩ := s
  cases table with
  | none => exact Follows.throw _ _
  | some table =>
    refine (Connection.yields_quoteTable fill (htable table rfl)).andThen fun t ht => ?_
    refine (Connection.follows_filter fill hconn hn hfill (plain_lit (by decide)) hfilter).bind fun f f' hf => ?_
    exact Follows.pure ((Fills.lead (leads_lit (by decide)) ht).append hf)

theorem follows_update {s : Update} (h : (Statement.update s).Late names ρ) :
    Follows ready (Fills fill) ((Statement.update s).subst ρ |>.compile conn) ((Statement.update s).compile conn) := by
  obtain ⟨htable, hassignments, hfilter⟩ := h
  obtain ⟨table, assignments, filter⟩ := s
  simp only [Statement.subst, Statement.compile, Update.compile, List.isEmpty_map]
  cases table with
  | none => exact Follows.throw _ _
  | some table =>
    dsimp only
    split
    · exact Follows.throw _ _
    refine (Connection.yields_quoteTable fill (htable table rfl)).andThen fun t ht => ?_
    refine (Connection.follows_assignments fill hconn hn hfill hassignments).bind fun a a' ha => ?_
    refine (Connection.follows_filter fill hconn hn hfill (plain_lit (by decide)) hfilter).bind fun f f' hf => ?_
    have hupdate : leads ("UPDATE " : Text) = true := leads_lit (by decide)
    have hword : leads (" SET " : Text) = true := leads_lit (by decide)
    have hset := Fills.separated hword (closes_lit (by decide)) (Fills.lead hupdate ht) ha
    exact Follows.pure (hset.append hf)

theorem follows_insert {s : Insert} (h : (Statement.insert s).Late names ρ) :
    Follows ready (Fills fill) ((Statement.insert s).subst ρ |>.compile conn) ((Statement.insert s).compile conn) := by
  obtain ⟨htable, hcolumns, hrows⟩ := h
  obtain ⟨table, columns, rows, misuse⟩ := s
  simp only [Statement.subst, Statement.compile, Insert.compile, List.isEmpty_map]
  cases misuse with
  | some fault => exact Follows.throw _ _
  | none =>
    cases table with
    | none => exact Follows.throw _ _
    | some table =>
      dsimp only
      split
      · exact Follows.throw _ _
      split
      · exact Follows.throw _ _
      refine (Connection.follows_rows fill hconn hn hfill hrows columns.length 0).bind fun rs rs' hr => ?_
      refine (Connection.yields_quoteTable fill (htable table rfl)).andThen fun t ht => ?_
      refine (Connection.yields_columns fill hcolumns).andThen fun c hc => ?_
      have hinsert : leads ("INSERT INTO " : Text) = true := leads_lit (by decide)
      have hopen : leads (" (" : Text) = true := leads_lit (by decide)
      have hinto := Fills.separated hopen (closes_lit (by decide)) (Fills.lead hinsert ht) hc
      refine Follows.pure (Fills.separated (leads_lit (by decide)) (closes_lit (by decide)) hinto ?_)
      exact Fills.joined (by decide) (by decide) hr

theorem follows_select {s : Select} (h : (Statement.select s).Late names ρ) :
    Follows ready (Fills fill) ((Statement.select s).subst ρ |>.compile conn) ((Statement.select s).compile conn) := by
  obtain ⟨hcolumns, htables, hjoins, hfilter, hgrouping, hhaving, hsorting⟩ := h
  simp only [Statement.subst, Statement.compile, Select.compile]
  cases s.misuse with
  | some fault => exact Follows.throw _ _
  | none =>
    refine (yields_selectColumns fill hcolumns).andThen fun c hc => ?_
    refine (yields_selectTables fill htables).andThen fun t ht => ?_
    refine (Connection.yields_joins fill hjoins).andThen fun j hj => ?_
    refine (Connection.follows_filter fill hconn hn hfill (plain_lit (by decide)) hfilter).bind fun f f' hf => ?_
    refine (Connection.yields_groupBy fill hgrouping).andThen fun g hg => ?_
    refine (Connection.follows_filter fill hconn hn hfill (plain_lit (by decide)) hhaving).bind fun v v' hv => ?_
    refine (Connection.yields_orderBy fill hsorting).andThen fun o ho => ?_
    have hlimit : TailPiece fill (Select.counted "LIMIT" s.limit) := tailPiece_counted (plain_lit (by decide)) _
    have hoffset : TailPiece fill (Select.counted "OFFSET" s.offset) :=
      tailPiece_counted (plain_lit (by decide)) _
    refine Follows.pure ?_
    exact ((((((((Fills.lead (leads_distinct s.distinct) hc).append ht).append (tailPiece_spaced hj)).append hf).append
      (tailPiece_spaced hg)).append hv).append (tailPiece_spaced ho)).append hlimit).append hoffset

/-- **The compiled statement is a template.** Where the statement with the values in place compiles, so does the one
with placeholders, and its text filled with the values is that of the first. -/
theorem follows_compile {stmt : Statement} (h : stmt.Late names ρ) :
    Follows ready (Fills fill) ((stmt.subst ρ).compile conn) (stmt.compile conn) := by
  cases stmt with
  | select s => exact follows_select hconn hn hfill h
  | insert s => exact follows_insert hconn hn hfill h
  | update s => exact follows_update hconn hn hfill h
  | delete s => exact follows_delete hconn hn hfill h

end Late

/-! ## Names bound to values -/

theorem bareName_of_isName {name : Text} (h : IsName name) : Query.bareName name = name := by
  unfold Query.bareName
  split
  · exact absurd h.1 (by simp; decide)
  · rfl

/-- Names bound to values are looked up to them. -/
theorem lookup?_bindAll (hn : ∀ n ∈ names, IsName n) (kind : StatementKind) (template : Text) {n : Text}
    (h : n ∈ names) :
    ((Query.of kind template).bindAll (names.map fun n => (n, ρ n))).lookup? n = some (.value (ρ n)) := by
  have hbare : (names.map fun n => (n, ρ n)).map (fun v => (Query.bareName v.1, Parameter.value v.2)) =
      names.map fun n => (n, Parameter.value (ρ n)) := by
    rw [List.map_map]
    refine List.map_congr_left fun n hmem => ?_
    exact congrArg (·, Parameter.value (ρ n)) (bareName_of_isName (hn n hmem))
  rw [Query.bindAll_eq, hbare, ← List.map_reverse]
  simp only [Query.of, Query.lookup?, List.append_nil]
  exact List.lookup_graph (fun n => Parameter.value (ρ n)) (List.mem_reverse.2 h)

/-! ## Both ways to give a statement its values -/

/-- from every state the statement becomes a query, and with these values bound the query compiles to `s`, again from
every state -/
def Statement.Recompiles (conn : Connection σ) (stmt : Statement) (values : List (Text × Value)) (s : Text) : Prop :=
  ∀ r cells, ∃ q r', stmt.toQuery conn r = (.ok q, r') ∧
    ∀ r₁, ∃ r₂, (q.bindAll values).compile conn cells r₁ = (.ok s, r₂)

theorem recompiles_of_compile_subst (tablePrefix : Text) (hn : ∀ n ∈ names, IsName n) {stmt : Statement}
    (h : stmt.Late names ρ) {r r' : Recorder} {s : Text}
    (hs : (stmt.subst ρ).compile (Recorder.connection tablePrefix) r = (.ok s, r')) :
    stmt.Recompiles (Recorder.connection tablePrefix) (names.map fun n => (n, ρ n)) s := by
  intro r₁ cells
  let bound template := (Query.of stmt.kind template).bindAll (names.map fun n => (n, ρ n))
  have hconn := Recorder.escapes tablePrefix
  have hfill : ∀ n ∈ names, (bound []).fill? true cells n = (ρ n).written? true := by
    intro n hmem
    exact Query.fill?_of_lookup (lookup?_bindAll hn stmt.kind [] hmem)
  obtain ⟨-, hfollows⟩ := follows_compile hconn hn hfill h r s r' trivial hs
  obtain ⟨t, r₂, ht, -, hfills⟩ := hfollows r₁ trivial
  refine ⟨Query.of stmt.kind t, r₂, ?_, fun r₃ => ?_⟩
  · rw [Statement.toQuery, bind_of_ok ht, pure_run]
  -- what a name is filled with does not depend on the template
  have hsame : (bound t).fill? true cells = (bound []).fill? true cells := by
    simp only [bound, Query.bindAll_eq]
    rfl
  have htemplate : (bound t).template = t := by
    simp only [bound, Query.bindAll_eq]
    rfl
  have hgives := Query.gives_compile hconn cells (bound t)
  rw [hsame, htemplate, hfills.filled_tokens] at hgives
  obtain ⟨r₄, hr, -⟩ := gives_some.1 hgives r₃ trivial
  exact ⟨r₄, hr⟩

/-- **Late binding is quoting in place.** Where a statement with values in the place of its placeholders compiles to a
text, the statement as it stands becomes a query, and the query compiles to the same text with the values bound. A
statement without placeholders compiles to the same text as a query. -/
theorem late_binding (tablePrefix : Text) (hn : ∀ n ∈ names, IsName n) :
    (∀ stmt : Statement, stmt.Late names ρ → ∀ r s r',
      (stmt.subst ρ).compile (Recorder.connection tablePrefix) r = (.ok s, r') →
        stmt.Recompiles (Recorder.connection tablePrefix) (names.map fun n => (n, ρ n)) s) ∧
    ∀ stmt : Statement, stmt.Late [] ρ → ∀ r s r', stmt.compile (Recorder.connection tablePrefix) r = (.ok s, r') →
      stmt.Recompiles (Recorder.connection tablePrefix) [] s := by
  constructor
  · intro stmt h r s r' hs
    exact recompiles_of_compile_subst tablePrefix hn h hs
  · intro stmt h r s r' hs
    rw [← Statement.subst_of_late_nil h] at hs
    have hnone : ∀ n ∈ ([] : List Text), IsName n := fun n hmem => absurd hmem List.not_mem_nil
    exact recompiles_of_compile_subst tablePrefix hnone h hs

/-- a delete by a name that is bound late -/
def Delete.byName : Delete :=
  ⟨some (.name ['t'] none), [.predicate .and (.name ['a'] none) ['='] (.expression [':', 'x'])]⟩

theorem late_byName (v : Value) (hv : v ≠ .null) : (Statement.delete .byName).Late [['x']] fun _ => v := by
  have hequals : IsOperator ['='] := by
    intro c hc
    rw [List.mem_singleton.1 hc]
    decide
  have hset : Text.upper (Text.trim ['=']) ∉ setOperators := by
    simp only [setOperators, Text.lit_eq]
    decide
  refine ⟨fun t ht => ?_, fun c hc => ?_⟩
  · cases ht
    exact ⟨_, _, rfl⟩
  · obtain rfl := List.mem_singleton.1 hc
    refine ⟨⟨_, _, rfl⟩, hequals, ?_, fun _ _ => ⟨hset, fun h => absurd h hv⟩⟩
    intro leaf hleaf sql e
    subst e
    simp only [Value.leaves, List.mem_singleton, Value.expression.injEq] at hleaf
    exact ⟨['x'], List.mem_singleton.2 rfl, hleaf⟩

theorem compile_byName : ((Statement.delete .byName).subst fun _ => .text "it's:y".toList).compile
    (Recorder.connection []) .fresh =
    (.ok "DELETE FROM \"t\" WHERE \"a\" = 'it''s:y'".toList, .connect .fresh) := by
  have hread : ∀ c ∈ ['t', 'a'], Path.read [c] = .ok [.bare [c]] := by
    intro c hc
    rcases List.mem_pair.1 hc with rfl | rfl <;> (rw [Path.read, Path.readFrom]; rfl)
  have htable : (Recorder.connection []).quoteTable (.name ['t'] none) .fresh = (.ok ['"', 't', '"'], .fresh) := by
    rw [Connection.quoteTable, Identifier.asTable, hread 't' (by decide)]
    rfl
  have hcolumn : (Recorder.connection []).quoteColumn (.name ['a'] none) .fresh = (.ok ['"', 'a', '"'], .fresh) := by
    rw [Connection.quoteColumn, Identifier.asColumn, hread 'a' (by decide)]
    rfl
  have hoperand : (Recorder.connection []).compileOperand ['"', 'a', '"'] ['='] (.text "it's:y".toList) .fresh =
      (.ok "'it''s:y'".toList, .connect .fresh) := by
    simp only [Connection.compileOperand, Text.lit_eq]
    exact (congrFun (Connection.quote.eq_def _ _) _).trans rfl
  have hpredicate : (Recorder.connection []).compilePredicate (.name ['a'] none) ['='] (.text "it's:y".toList) .fresh =
      (.ok "\"a\" = 'it''s:y'".toList, .connect .fresh) := by
    rw [Connection.compilePredicate, bind_of_ok hcolumn]
    exact (bind_of_ok hoperand).trans rfl
  have hfilter : (Recorder.connection []).compileFilter "WHERE"
      [.predicate .and (.name ['a'] none) ['='] (.text "it's:y".toList)] .fresh =
      (.ok " WHERE \"a\" = 'it''s:y'".toList, .connect .fresh) := by
    rw [Connection.compileFilter, Text.lit_eq]
    refine (bind_of_ok ?_).trans rfl
    exact (bind_of_ok hpredicate).trans rfl
  have hdelete : Text.lit "DELETE FROM " = "DELETE FROM ".toList := Text.lit_eq _
  rw [Statement.subst, Statement.compile, Delete.compile, hdelete]
  refine (bind_of_ok htable).trans ?_
  exact (bind_of_ok hfilter).trans rfl

/-- The delete compiled with its name bound late. -/
theorem late_binding_byName : (∀ n ∈ [['x']], IsName n) ∧ (Statement.delete .byName).Recompiles (Recorder.connection [])
    [(['x'], .text "it's:y".toList)] "DELETE FROM \"t\" WHERE \"a\" = 'it''s:y'".toList := by
  have hn : ∀ n ∈ [['x']], IsName n := by
    intro n hmem
    obtain rfl := List.mem_singleton.1 hmem
    exact ⟨by decide, List.all_eq_true.1 (by decide)⟩
  exact ⟨hn, (late_binding [] hn).1 _ (late_byName (.text "it's:y".toList) (fun h => nomatch h)) _ _ _ compile_byName⟩

end SqlAccess
