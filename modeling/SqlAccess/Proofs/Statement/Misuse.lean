/-
A misused statement is refused from then on, and nothing of it is sent.

A select is misused by a condition of a join in front of all joins, an insert by a row that names other columns than
those there are. Which misuse is kept is told by the calls: of a select it is the first one in front of all joins
(`Select.misuse_run`), of an insert the one there is (`Insert.of_misuse_run`), and an insert that keeps one stores
rows as if the misused call had not been made (`Insert.run_rejected`). `misused_never_sent` says what becomes of such a
statement: compiling it, making it a query and executing it all fail with the first misuse, before the connection is
asked for anything.
-/
import Mathlib.Data.List.Induction
import SqlAccess.Recorder
import SqlAccess.Statement

namespace SqlAccess

namespace Select

/-! ## Selects -/

def Call.addsJoin : Call → Bool
  | .join _ _ => true
  | _ => false

/-- what a call is a misuse as, made when there is no join yet -/
def Call.needsJoin? : Call → Option Invalid
  | .pair _ _ => some .onBeforeJoin
  | .matching _ => some .usingBeforeJoin
  | _ => none

theorem Call.exists_join {call : Call} (h : call.addsJoin = true) : ∃ table kind, call = .join table kind := by
  cases call with
  | join table kind => exact ⟨table, kind, rfl⟩
  | _ => cases h

theorem Call.addsJoin_of_needsJoin {call : Call} {fault : Invalid} (h : call.needsJoin? = some fault) :
    call.addsJoin = false := by
  cases call with
  | join table kind => simp [needsJoin?] at h
  | _ => rfl

/-- the first call in front of all joins that is for a join -/
def firstMisuse? (calls : List Call) : Option Invalid :=
  (calls.takeWhile fun call => !call.addsJoin).findSome? Call.needsJoin?

/-- the first misuse: a condition of a join, with no join and no condition of one in front of it -/
def FirstMisuse (calls : List Call) (fault : Invalid) : Prop :=
  ∃ before call after, calls = before ++ call :: after ∧ call.needsJoin? = some fault ∧
    ∀ earlier ∈ before, earlier.addsJoin = false ∧ earlier.needsJoin? = none

theorem firstMisuse?_eq_some_iff {calls : List Call} {fault : Invalid} :
    firstMisuse? calls = some fault ↔ FirstMisuse calls fault := by
  rw [firstMisuse?, List.findSome?_eq_some_iff]
  constructor
  · intro h
    obtain ⟨before, call, after, htaken, hcall, hbefore⟩ := h
    have hcalls := List.takeWhile_append_dropWhile (p := fun call : Call => !call.addsJoin) (l := calls)
    rw [htaken, List.append_assoc, List.cons_append] at hcalls
    refine ⟨before, call, _, hcalls.symm, hcall, fun earlier hearlier => ⟨?_, hbefore earlier hearlier⟩⟩
    have hmem : earlier ∈ calls.takeWhile fun call => !call.addsJoin := by
      rw [htaken]
      exact List.mem_append_left _ hearlier
    simpa using List.all_eq_true.1 List.all_takeWhile earlier hmem
  · intro h
    obtain ⟨before, call, after, rfl, hcall, hbefore⟩ := h
    refine ⟨before, call, after.takeWhile fun call => !call.addsJoin, ?_, hcall, fun earlier hearlier =>
      (hbefore earlier hearlier).2⟩
    rw [List.takeWhile_append_of_pos fun earlier hearlier => by simp [(hbefore earlier hearlier).1],
      List.takeWhile_cons_of_pos (by simp [Call.addsJoin_of_needsJoin hcall])]

theorem FirstMisuse.append {calls : List Call} {fault : Invalid} (h : FirstMisuse calls fault) (more : List Call) :
    FirstMisuse (calls ++ more) fault := by
  obtain ⟨before, call, after, rfl, hcall, hbefore⟩ := h
  exact ⟨before, call, after ++ more, by simp, hcall, hbefore⟩

theorem run_cons (s : Select) (call : Call) (calls : List Call) : s.run (call :: calls) = (s.step call).run calls := rfl

/-- With a join there is, no call is a misuse. -/
theorem step_joined {s : Select} (h : s.joins ≠ []) (call : Call) :
    (s.step call).joins ≠ [] ∧ (s.step call).misuse = s.misuse := by
  have hlast (fault : Invalid) (change : Join → Join) :
      (s.onLastJoin fault change).joins ≠ [] ∧ (s.onLastJoin fault change).misuse = s.misuse := by
    rw [onLastJoin, List.getLast?_eq_some_getLast h]
    exact ⟨by simp, rfl⟩
  cases call with
  | join table kind => exact ⟨by simp [step], rfl⟩
  | pair left right => exact hlast _ _
  | matching columns => exact hlast _ _
  | _ => exact ⟨h, rfl⟩

theorem run_joined {s : Select} (h : s.joins ≠ []) (calls : List Call) : (s.run calls).misuse = s.misuse := by
  induction calls generalizing s with
  | nil => rfl
  | cons call calls ih =>
    obtain ⟨hjoins, hmisuse⟩ := step_joined h call
    exact (ih hjoins).trans hmisuse

/-- Without one, a call that is for a join is a misuse, behind any that is kept already. -/
theorem step_unjoined {s : Select} (h : s.joins = []) {call : Call} (hcall : call.addsJoin = false) :
    (s.step call).joins = [] ∧ (s.step call).misuse = s.misuse.or call.needsJoin? := by
  have hlast (fault : Invalid) (change : Join → Join) :
      (s.onLastJoin fault change).joins = [] ∧ (s.onLastJoin fault change).misuse = s.misuse.or (some fault) := by
    rw [onLastJoin, h]
    exact ⟨h, rfl⟩
  cases call with
  | join table kind => cases hcall
  | pair left right => exact hlast _ _
  | matching columns => exact hlast _ _
  | _ => exact ⟨h, by simp [step, Call.needsJoin?]⟩

/-- **The misuse that a select keeps is the first among its calls.** -/
theorem misuse_run {s : Select} (h : s.joins = []) (calls : List Call) :
    (s.run calls).misuse = s.misuse.or (firstMisuse? calls) := by
  induction calls generalizing s with
  | nil => simp [run, firstMisuse?]
  | cons call calls ih =>
    rw [run_cons, firstMisuse?]
    cases hcall : call.addsJoin with
    | true =>
      rw [List.takeWhile_cons_of_neg (by simp [hcall]), List.findSome?_nil, Option.or_none]
      obtain ⟨table, kind, rfl⟩ := Call.exists_join hcall
      exact run_joined (by simp [step]) calls
    | false =>
      obtain ⟨hjoins, hmisuse⟩ := step_unjoined h hcall
      rw [ih hjoins, hmisuse, List.takeWhile_cons_of_pos (by simp [hcall]), List.findSome?_cons, Option.or_assoc,
        firstMisuse?]
      cases call.needsJoin? <;> rfl

end Select

namespace Insert

/-! ## Inserts -/

/-- whether a row with its columns is a misuse: there are columns, and they are others -/
def Rejects (s : Insert) (assignments : List (Identifier × Value)) : Prop :=
  s.columns ≠ [] ∧ s.columns ≠ assignments.map Prod.fst

theorem run_append (s : Insert) (calls more : List Call) : s.run (calls ++ more) = (s.run calls).run more :=
  List.foldl_append

theorem addNamed_of_rejects {s : Insert} {assignments : List (Identifier × Value)} (h : s.Rejects assignments) :
    s.addNamed assignments = s.noting .columnsDiffer := by
  have hcolumns : ¬ s.columns.isEmpty = true := by simpa using h.1
  rw [addNamed, if_neg hcolumns, if_neg h.2]

theorem misuse_addNamed {s : Insert} {assignments : List (Identifier × Value)} (h : ¬ s.Rejects assignments) :
    (s.addNamed assignments).misuse = s.misuse := by
  unfold addNamed
  by_cases hempty : s.columns.isEmpty = true
  · rw [if_pos hempty]
  · have hsame : s.columns = assignments.map Prod.fst := by
      by_contra hdiffer
      exact h ⟨by simpa using hempty, hdiffer⟩
    rw [if_neg hempty, if_pos hsame]

/-- A misuse that is kept stays, and changes nothing that a call does. -/
theorem step_misused (s : Insert) (fault : Invalid) (call : Call) :
    ({ s with misuse := some fault } : Insert).step call = { s.step call with misuse := some fault } := by
  cases call with
  | values assignments =>
    simp only [step, addNamed, noting]
    split
    · rfl
    split <;> rfl
  | _ => rfl

theorem run_misused (s : Insert) (fault : Invalid) (calls : List Call) :
    ({ s with misuse := some fault } : Insert).run calls = { s.run calls with misuse := some fault } := by
  induction calls generalizing s with
  | nil => rfl
  | cons call calls ih =>
    calc ({ s with misuse := some fault } : Insert).run (call :: calls)
        = (({ s with misuse := some fault } : Insert).step call).run calls := rfl
      _ = ({ s.step call with misuse := some fault } : Insert).run calls := by rw [step_misused]
      _ = { s.run (call :: calls) with misuse := some fault } := ih (s.step call)

/-- An insert keeps a misuse only of a row that names other columns than there were. -/
theorem of_misuse_run {table : Option Identifier} {calls : List Call} {fault : Invalid}
    (h : ((of table).run calls).misuse = some fault) : fault = .columnsDiffer ∧
      ∃ before assignments after, calls = before ++ .values assignments :: after ∧
        ((of table).run before).Rejects assignments := by
  induction calls using List.reverseRecOn with
  | nil => simp [run, of] at h
  | append_singleton calls call ih =>
    rw [run_append] at h
    change (((of table).run calls).step call).misuse = some fault at h
    cases hkept : ((of table).run calls).misuse with
    | some kept =>
      have hstep : ((of table).run calls).step call =
          { ((of table).run calls).step call with misuse := some kept } := by
        rw [← step_misused, ← hkept]
      rw [hstep] at h
      obtain ⟨hfault, before, assignments, after, rfl, hrejects⟩ := ih (hkept.trans h)
      exact ⟨hfault, before, assignments, after ++ [call], by simp, hrejects⟩
    | none =>
      cases call with
      | values assignments =>
        by_cases hrejects : ((of table).run calls).Rejects assignments
        · rw [step, addNamed_of_rejects hrejects, noting, hkept, Option.none_or] at h
          exact ⟨(Option.some.inj h).symm, calls, assignments, [], rfl, hrejects⟩
        · rw [step, misuse_addNamed hrejects, hkept] at h
          cases h
      | _ =>
        rw [step, hkept] at h
        cases h

/-- **A rejected row is not stored.** The insert is what it is without the call, but for the misuse. -/
theorem run_rejected (table : Option Identifier) {before : List Call} {assignments : List (Identifier × Value)}
    (h : ((of table).run before).Rejects assignments) (after : List Call) :
    (of table).run (before ++ .values assignments :: after) =
      { (of table).run (before ++ after) with misuse := some .columnsDiffer } := by
  have hkept : ((of table).run before).misuse.or (some .columnsDiffer) = some .columnsDiffer := by
    cases hmisuse : ((of table).run before).misuse with
    | none => rfl
    | some fault =>
      rw [(of_misuse_run hmisuse).1]
      rfl
  calc (of table).run (before ++ .values assignments :: after)
      = (((of table).run before).addNamed assignments).run after := run_append _ _ _
    _ = ({ (of table).run before with misuse := some .columnsDiffer } : Insert).run after := by
        rw [addNamed_of_rejects h, noting, hkept]
    _ = { (of table).run (before ++ after) with misuse := some .columnsDiffer } := by
        rw [run_misused, run_append]

end Insert

/-! ## Statements -/

/-- Whatever is made of the statement fails with this misuse, and the connection is as it was. -/
structure Statement.Refused {σ : Type} (conn : Connection σ) (state : σ) (s : Statement) (fault : Invalid) : Prop where
  compile : s.compile conn state = (.error (.validation fault), state)
  toQuery : s.toQuery conn state = (.error (.validation fault), state)
  execute : s.execute conn state = (.error (.validation fault), state)

theorem Statement.refused_of_compile {σ : Type} {conn : Connection σ} {s : Statement} {fault : Invalid}
    (h : s.compile conn = throw (.validation fault)) (state : σ) : s.Refused conn state fault where
  compile := by
    rw [h]
    rfl
  toQuery := by
    rw [toQuery, h]
    rfl
  execute := by
    rw [Statement.execute, h]
    rfl

theorem Select.refused {σ : Type} (conn : Connection σ) (state : σ) {s : Select} {fault : Invalid}
    (h : s.misuse = some fault) : (Statement.select s).Refused conn state fault := by
  apply Statement.refused_of_compile
  rw [Statement.compile, Select.compile, h]

theorem Insert.refused {σ : Type} (conn : Connection σ) (state : σ) {s : Insert} {fault : Invalid}
    (h : s.misuse = some fault) : (Statement.insert s).Refused conn state fault := by
  apply Statement.refused_of_compile
  rw [Statement.compile, Insert.compile, h]

/-- **A misused statement never reaches the server.** A select with a condition of a join in front of all joins fails
with the first such misuse, an insert with a row that names other columns than those there are fails with that, and so
does what any further calls make of them: compiled, made a query, or executed, with the connection left as it was. The
rejected row is not stored. Where there is no such call no misuse is kept. -/
theorem misused_never_sent {σ : Type} (conn : Connection σ) (state : σ) :
    (∀ columns calls fault, Select.FirstMisuse calls fault →
      ∀ more, (Statement.select ((Select.of columns).run (calls ++ more))).Refused conn state fault) ∧
    (∀ table before assignments, ((Insert.of table).run before).Rejects assignments → ∀ more,
      (Statement.insert ((Insert.of table).run (before ++ .values assignments :: more))).Refused conn state
        .columnsDiffer ∧
      (Insert.of table).run (before ++ .values assignments :: more) =
        { (Insert.of table).run (before ++ more) with misuse := some .columnsDiffer }) ∧
    (∀ columns calls, (∀ fault, ¬ Select.FirstMisuse calls fault) → ((Select.of columns).run calls).misuse = none) ∧
    ∀ table calls, (∀ before assignments after, calls = before ++ .values assignments :: after →
      ¬ ((Insert.of table).run before).Rejects assignments) → ((Insert.of table).run calls).misuse = none := by
  have hselect (columns : List Identifier) (calls : List Select.Call) :
      ((Select.of columns).run calls).misuse = Select.firstMisuse? calls := by
    rw [Select.misuse_run rfl]
    rfl
  refine ⟨?_, ?_, ?_, ?_⟩
  · intro columns calls fault h more
    apply Select.refused
    rw [hselect]
    exact Select.firstMisuse?_eq_some_iff.2 (h.append more)
  · intro table before assignments h more
    have hrun := Insert.run_rejected table h more
    refine ⟨Insert.refused conn state ?_, hrun⟩
    rw [hrun]
  · intro columns calls h
    rw [hselect, Option.eq_none_iff_forall_ne_some]
    intro fault hfault
    exact h fault (Select.firstMisuse?_eq_some_iff.1 hfault)
  · intro table calls h
    rw [Option.eq_none_iff_forall_ne_some]
    intro fault hfault
    obtain ⟨-, before, assignments, after, hcalls, hrejects⟩ := Insert.of_misuse_run hfault
    exact h before assignments after hcalls hrejects

/-- columns to match in front of the join, a pair too, then calls that would be in order -/
def Select.tooEarly : List Select.Call :=
  [.table (.name ['t'] none), .matching [.name ['a'] none], .pair (.name ['a'] none) (.name ['b'] none)]

/-- a row that names its columns in another order than they were given in -/
def Insert.twoColumns : List Insert.Call := [.columns [.name ['a'] none, .name ['b'] none], .row [.integer 1, .null]]

/-- A join behind the misuse does not repair the select, nor do further rows the insert, which has stored those alone
that were in order. -/
theorem misused_never_sent_repaired :
    (Statement.select ((Select.of []).run (Select.tooEarly ++
      [.join (.name ['u'] none) none, .matching [.name ['a'] none]]))).Refused (Recorder.connection []) .fresh
        .usingBeforeJoin ∧
    (Statement.insert ((Insert.of none).run (Insert.twoColumns ++
      .values [(.name ['b'] none, .null), (.name ['a'] none, .integer 2)] ::
        [.table (.name ['t'] none), .row [.integer 3, .null]]))).Refused (Recorder.connection []) .fresh
          .columnsDiffer ∧
    ((Insert.of none).run (Insert.twoColumns ++
      .values [(.name ['b'] none, .null), (.name ['a'] none, .integer 2)] ::
        [.table (.name ['t'] none), .row [.integer 3, .null]])).rows = [[.integer 1, .null], [.integer 3, .null]] := by
  obtain ⟨hselect, hinsert, -⟩ := misused_never_sent (Recorder.connection []) .fresh
  have hfirst : Select.FirstMisuse Select.tooEarly .usingBeforeJoin := by
    refine ⟨[.table (.name ['t'] none)], .matching [.name ['a'] none], _, rfl, rfl, fun earlier hearlier => ?_⟩
    rw [List.mem_singleton.1 hearlier]
    exact ⟨rfl, rfl⟩
  have hrejects : ((Insert.of none).run Insert.twoColumns).Rejects
      [(.name ['b'] none, .null), (.name ['a'] none, .integer 2)] := by
    constructor
    · simp [Insert.run, Insert.twoColumns, Insert.step, Insert.of]
    · simp [Insert.run, Insert.twoColumns, Insert.step, Insert.of]
  obtain ⟨hrefused, hrun⟩ := hinsert none _ _ hrejects [.table (.name ['t'] none), .row [.integer 3, .null]]
  refine ⟨hselect [] _ _ hfirst _, hrefused, ?_⟩
  rw [hrun]
  rfl

end SqlAccess
