/-
The conditions of joins stand with the join they were given behind.

A condition goes to the join added last, whatever other calls come between, so the joins of a select are told by the
calls between one join and the next (`Interval`): pairs are gathered, columns to match are those given last.
`joins_run` says that a run of calls makes these joins, and `Join.Clause` how a join comes out. So a select that
compiles has behind its tables one clause for each join, and none compiles that has a condition in front of all joins:
`joins_attached`.
-/
import Mathlib.Data.List.Forall2
import SqlAccess.Proofs.Statement.Misuse
import SqlAccess.Proofs.Statement.Rows
import SqlAccess.Proofs.Text

namespace SqlAccess

namespace Select

/-! ## The calls behind a join -/

def Call.pair? : Call → Option (Identifier × Identifier)
  | .pair left right => some (left, right)
  | _ => none

def Call.matching? : Call → Option (List Identifier)
  | .matching named => some named
  | _ => none

/-- a join with the calls behind it, up to the next join -/
structure Interval where
  table : Identifier
  kind : Option Text
  calls : List Call

/-- the joins that are added, each with the calls behind it -/
def intervals : List Call → List Interval
  | [] => []
  | .join table kind :: calls => ⟨table, kind, calls.takeWhile fun call => !call.addsJoin⟩ :: intervals calls
  | _ :: calls => intervals calls

theorem intervals_other {call : Call} (h : call.addsJoin = false) (calls : List Call) :
    intervals (call :: calls) = intervals calls := by
  cases call with
  | join table kind => cases h
  | _ => rfl

theorem length_intervals (calls : List Call) : (intervals calls).length = calls.countP Call.addsJoin := by
  induction calls with
  | nil => rfl
  | cons call calls ih => cases call <;> simp [intervals, Call.addsJoin, List.countP_cons, ih]

namespace Interval

def pairs (i : Interval) : List (Identifier × Identifier) := i.calls.filterMap Call.pair?

/-- the columns to match that were given last, none if none were -/
def matching (i : Interval) : List Identifier := (i.calls.filterMap Call.matching?).getLast?.getD []

def join (i : Interval) : Join := ⟨i.table, i.kind, i.pairs, i.matching⟩

end Interval

/-! ## The joins of a select -/

/-- a join behind more calls that add no other -/
def extended (join : Join) (calls : List Call) : Join :=
  { join with
    pairs := join.pairs ++ calls.filterMap Call.pair?
    matching := (calls.filterMap Call.matching?).getLast?.getD join.matching }

theorem extended_of (table : Identifier) (kind : Option Text) (calls : List Call) :
    extended (Join.of table kind) calls = (⟨table, kind, calls⟩ : Interval).join := rfl

theorem extended_extended (join : Join) (call : Call) (calls : List Call) :
    extended (extended join [call]) calls = extended join (call :: calls) := by
  have hpairs : join.pairs ++ [call].filterMap Call.pair? ++ calls.filterMap Call.pair? =
      join.pairs ++ (call :: calls).filterMap Call.pair? := by
    rw [List.append_assoc, ← List.filterMap_append]
    rfl
  have hmatching : (calls.filterMap Call.matching?).getLast?.getD
      (([call].filterMap Call.matching?).getLast?.getD join.matching) =
      ((call :: calls).filterMap Call.matching?).getLast?.getD join.matching := by
    cases hcall : call.matching? with
    | none => simp [hcall]
    | some given => simp [hcall, List.getLast?_cons]
  rw [extended, extended, extended, hpairs, hmatching]

theorem extended_nil (join : Join) : extended join [] = join := by simp [extended]

theorem extended_other {call : Call} (hpair : call.pair? = none) (hmatching : call.matching? = none) (join : Join) :
    extended join [call] = join := by simp [extended, hpair, hmatching]

/-- A call that adds no join changes the last one at most. -/
theorem joins_step_last {s : Select} {front : List Join} {last : Join} (h : s.joins = front ++ [last]) {call : Call}
    (hcall : call.addsJoin = false) : (s.step call).joins = front ++ [extended last [call]] := by
  have hlast (fault : Invalid) (change : Join → Join) : (s.onLastJoin fault change).joins = front ++ [change last] := by
    rw [onLastJoin, h, List.getLast?_concat, List.dropLast_concat]
  cases call with
  | join table kind => cases hcall
  | pair left right => exact hlast .onBeforeJoin fun join => { join with pairs := join.pairs ++ [(left, right)] }
  | matching given => 
    refine (hlast .usingBeforeJoin fun join => { join with matching := given }).trans ?_
    simp [extended, Call.pair?, Call.matching?]
  | _ => rw [step, h, extended_other rfl rfl]

theorem joins_run_last {s : Select} {front : List Join} {last : Join} (h : s.joins = front ++ [last])
    (calls : List Call) : (s.run calls).joins =
      front ++ extended last (calls.takeWhile fun call => !call.addsJoin) :: (intervals calls).map Interval.join := by
  induction calls generalizing s front last with
  | nil => rw [run, List.foldl_nil, h, List.takeWhile_nil, extended_nil, intervals, List.map_nil]
  | cons call calls ih =>
    rw [run_cons]
    cases hcall : call.addsJoin with
    | true =>
      obtain ⟨table, kind, rfl⟩ := Call.exists_join hcall
      have hstep : (s.step (.join table kind)).joins = (front ++ [last]) ++ [Join.of table kind] := by
        rw [step, h]
      rw [ih hstep, List.takeWhile_cons_of_neg (by simp [hcall]), extended_nil, intervals, List.map_cons,
        extended_of, List.append_assoc, List.singleton_append]
    | false =>
      rw [ih (joins_step_last h hcall), List.takeWhile_cons_of_pos (by simp [hcall]), extended_extended,
        intervals_other hcall]

/-- **The joins are those of the intervals.** -/
theorem joins_run (columns : List Identifier) (calls : List Call) :
    ((of columns).run calls).joins = (intervals calls).map Interval.join := by
  have hunjoined {s : Select} (h : s.joins = []) : (s.run calls).joins = (intervals calls).map Interval.join := by
    induction calls generalizing s with
    | nil => exact h
    | cons call calls ih =>
      rw [run_cons]
      cases hcall : call.addsJoin with
      | true =>
        obtain ⟨table, kind, rfl⟩ := Call.exists_join hcall
        have hstep : (s.step (.join table kind)).joins = [] ++ [Join.of table kind] := by rw [step, h]
        rw [joins_run_last hstep, intervals, List.map_cons, extended_of, List.nil_append]
      | false => rw [ih (step_unjoined h hcall).1, intervals_other hcall]
  exact hunjoined rfl

end Select

/-! ## The text of joins -/

/-- a pair of columns that must be equal, as text -/
def PairText (tablePrefix : Text) (pair : Identifier × Identifier) (text : Text) : Prop :=
  ∃ left right, pair.1.asColumn tablePrefix = .ok left ∧ pair.2.asColumn tablePrefix = .ok right ∧
    text = left ++ " = ".toList ++ right

namespace Join

/-- How the condition of a join comes out: as its columns to match, if there are any, or else as its pairs. -/
inductive Conditioned (tablePrefix : Text) (join : Join) : Text → Prop
  | matching {texts : List Text} : join.matching ≠ [] →
      List.Forall₂ (fun column text => column.asColumn tablePrefix = .ok text) join.matching texts →
      Conditioned tablePrefix join (" USING (".toList ++ Text.joined ", ".toList texts ++ ")".toList)
  | none : join.matching = [] → join.pairs = [] → Conditioned tablePrefix join []
  | one {pair : Identifier × Identifier} {text : Text} : join.matching = [] → join.pairs = [pair] →
      PairText tablePrefix pair text → Conditioned tablePrefix join (" ON ".toList ++ text)
  | several {texts : List Text} : join.matching = [] → 2 ≤ join.pairs.length →
      List.Forall₂ (PairText tablePrefix) join.pairs texts →
      Conditioned tablePrefix join (" ON (".toList ++ Text.joined " AND ".toList texts ++ ")".toList)

/-- a join as text: its type where it has one, its table and its condition -/
def Clause (tablePrefix : Text) (join : Join) (text : Text) : Prop :=
  ∃ table condition, join.table.asTable tablePrefix = .ok table ∧ join.Conditioned tablePrefix condition ∧
    text = (normalWord join.kind).elim [] (· ++ [' ']) ++ "JOIN ".toList ++ table ++ condition

theorem clauses_ne_nil {tablePrefix : Text} {joins : List Join} {clauses : List Text}
    (h : List.Forall₂ (Clause tablePrefix) joins clauses) : ∀ clause ∈ clauses, clause ≠ [] := by
  induction h with
  | nil => simp
  | cons hclause _ ih =>
    obtain ⟨table, condition, -, -, rfl⟩ := hclause
    simpa using ih

end Join

section Returns

open SqlAccess.Action

variable {σ : Type} {ready : σ → Prop} (conn : Connection σ)

theorem Connection.returns_pair (pair : Identifier × Identifier) :
    Returns ready (PairText conn.tablePrefix pair) (conn.compilePair pair) :=
  Returns.ofExcept.bind fun left hleft => Returns.ofExcept.bind fun right hright =>
    Returns.pure ⟨left, right, hleft, hright, rfl⟩

theorem Connection.returns_joinCondition (join : Join) :
    Returns ready (join.Conditioned conn.tablePrefix) (conn.compileJoinCondition join) := by
  unfold compileJoinCondition
  by_cases hmatching : join.matching = []
  · rw [if_neg (by simp [hmatching])]
    by_cases hpairs : join.pairs = []
    · rw [if_neg (by simp [hpairs])]
      exact Returns.pure (.none hmatching hpairs)
    · rw [if_pos (by simpa using hpairs)]
      refine (Returns.mapM conn.returns_pair join.pairs).bind fun texts hall => ?_
      match texts with
      | [] => exact absurd (List.forall₂_nil_right_iff.1 hall) hpairs
      | [text] =>
        obtain ⟨pair, rest, hpair, hrest, hgiven⟩ := List.forall₂_cons_right_iff.1 hall
        rw [List.forall₂_nil_right_iff.1 hrest] at hgiven
        have hone := Join.Conditioned.one hmatching hgiven hpair
        exact Returns.pure (by simpa [Text.lit_eq] using hone)
      | first :: second :: others =>
        have htwo : 2 ≤ join.pairs.length := by simp [hall.length_eq]
        have hseveral := Join.Conditioned.several hmatching htwo hall
        exact Returns.pure (by simpa [Text.lit_eq] using hseveral)
  · rw [if_pos (by simpa using hmatching)]
    refine (conn.returns_columns join.matching).bind fun columns hcolumns => ?_
    obtain ⟨texts, rfl, hall⟩ := hcolumns
    have hnamed := Join.Conditioned.matching hmatching hall
    exact Returns.pure (by simpa [Text.lit_eq] using hnamed)

theorem Connection.returns_join (join : Join) :
    Returns ready (join.Clause conn.tablePrefix) (conn.compileJoin join) := by
  refine Returns.ofExcept.bind fun table htable => ?_
  refine (conn.returns_joinCondition join).bind fun condition hcondition => Returns.pure ?_
  refine ⟨table, condition, htable, hcondition, ?_⟩
  rw [Text.lit_eq]

theorem Connection.returns_joins (joins : List Join) :
    Returns ready (fun text => ∃ clauses, Text.joined [' '] clauses = text ∧
      List.Forall₂ (Join.Clause conn.tablePrefix) joins clauses) (conn.compileJoins joins) :=
  (Returns.mapM conn.returns_join joins).bind fun clauses hclauses => Returns.pure ⟨clauses, rfl, hclauses⟩

theorem Select.returns_selection (s : Select) : Returns ready (fun _ => True) (s.compileColumns conn) := by
  unfold compileColumns
  split
  · exact Returns.pure trivial
  · exact (conn.returns_columns s.columns).mono fun _ _ => trivial

theorem Select.returns_tables (s : Select) : Returns ready (fun _ => True) (s.compileTables conn) := by
  unfold compileTables
  split
  · exact Returns.pure trivial
  · have htables : Returns ready (fun _ => True) (conn.compileTables s.tables) :=
      (Returns.mapM (fun _ => Returns.ofExcept) s.tables).bind fun _ _ => Returns.pure trivial
    exact htables.bind fun _ _ => Returns.pure trivial

end Returns

/-! ## The text of a select -/

namespace Select

/-- Clauses with blanks between them, with one in front if there are any, have a blank each. -/
theorem spaced_joined {clauses : List Text} (h : ∀ clause ∈ clauses, clause ≠ []) :
    spaced (Text.joined [' '] clauses) = clauses.flatMap (' ' :: ·) := by
  have hblanks (clause : Text) (others : List Text) :
      ' ' :: Text.joined [' '] (clause :: others) = (clause :: others).flatMap (' ' :: ·) := by
    induction others generalizing clause with
    | nil => simp
    | cons next others ih =>
      rw [Text.joined_cons_cons, List.flatMap_cons, ← ih next]
      simp
  cases clauses with
  | nil => rfl
  | cons clause others =>
    have hfirst : clause <:+: Text.joined [' '] (clause :: others) := Text.infix_joined List.mem_cons_self
    have hne : Text.joined [' '] (clause :: others) ≠ [] := by
      intro hnil
      rw [hnil] at hfirst
      exact h clause List.mem_cons_self (List.infix_nil.1 hfirst)
    rw [spaced, if_neg (by simpa using hne), hblanks]

variable {σ : Type} {conn : Connection σ}

def front (s : Select) (columns tables : Text) : Text :=
  "SELECT " ++ (if s.distinct then ("DISTINCT " : Text) else []) ++ columns ++ tables

def compileTail (conn : Connection σ) (s : Select) : Action σ Text := do
  let filter ← conn.compileFilter "WHERE" s.filter
  let grouping ← conn.compileGroupBy s.grouping
  let having ← conn.compileFilter "HAVING" s.having
  let sorting ← conn.compileOrderBy s.sorting
  return filter ++ spaced grouping ++ having ++ spaced sorting ++ counted "LIMIT" s.limit ++ counted "OFFSET" s.offset

theorem compile_eq {s : Select} (h : s.misuse = none) : s.compile conn = do
    let columns ← s.compileColumns conn
    let tables ← s.compileTables conn
    let joins ← conn.compileJoins s.joins
    let tail ← s.compileTail conn
    return s.front columns tables ++ spaced joins ++ tail := by
  simp only [compile, h, compileTail, front, bind_assoc, pure_bind, List.append_assoc]

/-- A select that compiles has its joins behind its tables, and would compile to the rest without them. -/
theorem compile_cut {s : Select} {state state' : σ} {sql : Text} (h : s.compile conn state = (.ok sql, state')) :
    ∃ columns tables joins tail, s.compileColumns conn state = (.ok columns, state) ∧
      s.compileTables conn state = (.ok tables, state) ∧ conn.compileJoins s.joins state = (.ok joins, state) ∧
      sql = s.front columns tables ++ spaced joins ++ tail ∧
      ({ s with joins := [] } : Select).compile conn state = (.ok (s.front columns tables ++ tail), state') := by
  have hmisuse : s.misuse = none := by
    cases hkept : s.misuse with
    | none => rfl
    | some fault =>
      rw [compile, hkept] at h
      cases h
  rw [compile_eq hmisuse] at h
  obtain ⟨columns, s₁, hcolumns, h⟩ := Action.bind_eq_ok h
  obtain ⟨tables, s₂, htables, h⟩ := Action.bind_eq_ok h
  obtain ⟨joins, s₃, hjoins, h⟩ := Action.bind_eq_ok h
  obtain ⟨tail, htail, rfl⟩ := Action.map_eq_ok_iff.1 h
  obtain ⟨-, rfl⟩ := Action.Returns.of_run (fun _ => s.returns_selection conn) hcolumns
  obtain ⟨-, rfl⟩ := Action.Returns.of_run (fun _ => s.returns_tables conn) htables
  obtain ⟨-, rfl⟩ := Action.Returns.of_run (fun _ => conn.returns_joins s.joins) hjoins
  refine ⟨columns, tables, joins, tail, hcolumns, htables, hjoins, rfl, ?_⟩
  have hwithout : ({ s with joins := [] } : Select).compile conn = do
      let columns ← s.compileColumns conn
      let tables ← s.compileTables conn
      let joins ← conn.compileJoins []
      let tail ← s.compileTail conn
      return s.front columns tables ++ spaced joins ++ tail := compile_eq hmisuse
  have hnone : conn.compileJoins [] s₃ = (.ok [], s₃) := rfl
  rw [hwithout, Action.bind_of_ok hcolumns, Action.bind_of_ok htables, Action.bind_of_ok hnone,
    Action.bind_of_ok htail, Action.pure_run]
  simp [spaced]

/-- **Each join has its conditions and no others.** A select that compiles has behind its tables one clause for each
join, in order and each behind a blank, and the clause has what was given between the join and the next one: the columns
to match that were given last, or else the pairs in order. Without these clauses the text is that of the select without
its joins. A select with a condition in front of all joins never compiles, whatever calls follow. -/
theorem joins_attached (conn : Connection σ) (columns : List Identifier) :
    (∀ calls state sql state', ((of columns).run calls).compile conn state = (.ok sql, state') →
      ∃ selection tables clauses tail,
        ((of columns).run calls).compileColumns conn state = (.ok selection, state) ∧
        ((of columns).run calls).compileTables conn state = (.ok tables, state) ∧
        sql = ((of columns).run calls).front selection tables ++ clauses.flatMap (' ' :: ·) ++ tail ∧
        ({ (of columns).run calls with joins := [] } : Select).compile conn state =
          (.ok (((of columns).run calls).front selection tables ++ tail), state') ∧
        clauses.length = calls.countP Call.addsJoin ∧
        List.Forall₂ (fun interval clause => interval.join.Clause conn.tablePrefix clause) (intervals calls) clauses) ∧
    ∀ before call after state, (∀ earlier ∈ before, earlier.addsJoin = false) → call.needsJoin?.isSome = true →
      ∃ fault, ((of columns).run (before ++ call :: after)).compile conn state =
        (.error (.validation fault), state) := by
  constructor
  · intro calls state sql state' h
    obtain ⟨selection, tables, joins, tail, hselection, htables, hjoins, hsql, hwithout⟩ := compile_cut h
    obtain ⟨⟨clauses, rfl, hclauses⟩, -⟩ := Action.Returns.of_run (fun _ => conn.returns_joins _) hjoins
    have hne := Join.clauses_ne_nil hclauses
    have hall := hclauses
    rw [joins_run, List.forall₂_map_left_iff] at hall
    refine ⟨selection, tables, clauses, tail, hselection, htables, ?_, hwithout, ?_, hall⟩
    · rw [hsql, spaced_joined hne]
    · rw [← hall.length_eq, length_intervals]
  · intro before call after state hbefore hcall
    have hmisused : (firstMisuse? (before ++ call :: after)).isSome = true := by
      obtain ⟨fault, hfault⟩ := Option.isSome_iff_exists.1 hcall
      rw [firstMisuse?, List.takeWhile_append_of_pos fun earlier hearlier => by simp [hbefore earlier hearlier],
        List.takeWhile_cons_of_pos (by simp [Call.addsJoin_of_needsJoin hfault]), List.findSome?_isSome_iff]
      exact ⟨call, by simp, hcall⟩
    obtain ⟨fault, hfault⟩ := Option.isSome_iff_exists.1 hmisused
    have hkept : ((of columns).run (before ++ call :: after)).misuse = some fault := by
      rw [misuse_run rfl, hfault]
      rfl
    exact ⟨fault, (refused conn state hkept).compile⟩

/-- three joins with other calls between them: two pairs, a pair with columns to match that are taken back, and columns
to match in front of a pair -/
def threeJoins : List Call :=
  [.join (.name ['u'] none) (some " left ".toList), .pair (.name ['a'] none) (.name ['b'] none),
    .table (.name ['t'] none), .pair (.name ['c'] none) (.name ['d'] none), .join (.name ['v'] none) none,
    .matching [.name ['k'] none], .group [.name ['a'] none], .pair (.name ['e'] none) (.name ['f'] none), .matching [],
    .join (.name ['w'] none) none, .limit 3, .matching [.name ['g'] none, .name ['h'] none],
    .pair (.name ['i'] none) (.name ['j'] none)]

/-- Without its joins the select is the rest of the text. A pair in front of the same calls is never mended. -/
theorem joins_attached_threeJoins :
    ((of []).run threeJoins).compile (Recorder.connection []) .fresh =
      (.ok ("SELECT * FROM \"t\" LEFT JOIN \"u\" ON (\"a\" = \"b\" AND \"c\" = \"d\") JOIN \"v\" ON \"e\" = \"f\" " ++
        "JOIN \"w\" USING (\"g\", \"h\") GROUP BY \"a\" LIMIT 3").toList, .fresh) ∧
    (∃ clauses, clauses.length = 3 ∧
      List.Forall₂ (fun interval clause => interval.join.Clause [] clause) (intervals threeJoins) clauses) ∧
    ∃ fault, ((of []).run (.pair (.name ['a'] none) (.name ['b'] none) :: threeJoins)).compile
      (Recorder.connection []) .fresh = (.error (.validation fault), .fresh) := by
  have hcompile : ((of []).run threeJoins).compile (Recorder.connection []) .fresh =
      (.ok ("SELECT * FROM \"t\" LEFT JOIN \"u\" ON (\"a\" = \"b\" AND \"c\" = \"d\") JOIN \"v\" ON \"e\" = \"f\" " ++
        "JOIN \"w\" USING (\"g\", \"h\") GROUP BY \"a\" LIMIT 3").toList, .fresh) := by
    change (_ : Except Error Text × Recorder) = _
    decide +kernel
  obtain ⟨hattached, hearly⟩ := joins_attached (Recorder.connection []) []
  obtain ⟨selection, tables, clauses, tail, -, -, -, -, hlength, hall⟩ := hattached threeJoins _ _ _ hcompile
  exact ⟨hcompile, ⟨clauses, hlength, hall⟩, hearly [] _ threeJoins _ (by simp) rfl⟩

end Select
end SqlAccess
