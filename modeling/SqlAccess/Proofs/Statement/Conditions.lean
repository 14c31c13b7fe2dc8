/-
The clauses with values as pieces of a template.

The text of such a clause with placeholders is a piece that is filled to its text with the values in their place
(`follows_quote`, `follows_predicate`, `follows_assignments`, `follows_rows`). Entries of a condition list are written
one after the other, each knowing only whether one stands before it, so their induction carries both cases
(`Continues`).
-/
import SqlAccess.Proofs.Statement.Clauses

namespace SqlAccess

namespace Connection

open Template SqlAccess.Action

variable {σ : Type} {conn : Connection σ} {ready : σ → Prop} (fill : Text → Option Text)

/-! ## Operators -/

theorem isPlain_normalOperator {operator : Text} (ho : IsOperator operator) (value : Value) :
    ∀ c ∈ normalOperator operator value, isPlain c = true := by
  have hword := isPlain_upper_trim (isPlain_of_isOperator ho)
  simp only [normalOperator]
  split
  · split
    · exact plain_lit (by decide)
    split
    · exact plain_lit (by decide)
    · exact hword
  · exact hword

variable {names : List Text} {ρ : Text → Value}

/-- The operator of an entry that may get its value late is written alike with the value and without. -/
theorem normalOperator_subst {operator : Text} {value : Value} (hv : value.Holes names)
    (h : ∀ name, value = .expression (':' :: name) → ρ name = .null → operator.trim.upper ∉ nullOperators) :
    normalOperator operator (value.subst ρ) = normalOperator operator value := by
  cases value with
  | expression sql =>
    obtain ⟨name, -, rfl⟩ := hv.expression
    rw [Value.subst]
    cases hname : ρ name with
    | null =>
      have hop := h name rfl hname
      simp only [nullOperators, List.mem_cons, List.not_mem_nil, or_false, not_or] at hop
      simp [normalOperator, Value.isNull, hop]
    | _ => rfl
  | _ => rfl

theorem not_mem_setOperators {operator : Text} {sql : Text} (h : operator.trim.upper ∉ setOperators) :
    normalOperator operator (.expression sql) ∉ setOperators := h

/-! ## Groups -/

/-- Which groups open and close does not depend on the values. -/
theorem checkGroupsFrom_subst (ρ : Text → Value) (conditions : List Condition) (index depth : Nat) (justOpened : Bool) :
    Condition.checkGroupsFrom index depth justOpened (conditions.map (Condition.subst ρ)) =
      Condition.checkGroupsFrom index depth justOpened conditions := by
  induction conditions generalizing index depth justOpened with
  | nil => rfl
  | cons c r ih =>
    cases c with
    | opening logic => exact ih _ _ _
    | closing => simp only [List.map_cons, Condition.subst, Condition.checkGroupsFrom, ih]
    | predicate logic column operator value => exact ih _ _ _

/-- what is asked of the text of entries: behind an entry it must bring its own closing -/
def Continues (fill : Text → Option Text) : Bool → Text → Text → Prop
  | true => Tails fill
  | false => Fills fill

variable {fill} in
theorem continues_of_tails {s t : Text} (h : Tails fill s t) : (due : Bool) → Continues fill due s t
  | true => h
  | false => h.fills

variable {fill} in
/-- The keyword in front of an entry, where it is due. -/
theorem continues_logicText {s t : Text} (h : Fills fill s t) (logic : Logic) :
    (due : Bool) → Continues fill due (logicText due logic ++ s) (logicText due logic ++ t)
  | false => h
  | true => by
    have hword : ∀ c ∈ logic.keyword, isPlain c = true := by
      cases logic with
      | and => exact plain_lit (by decide)
      | or => exact plain_lit (by decide)
    obtain ⟨hleads, hcloses⟩ := leads_closes_word hword
    exact h.tail hleads hcloses

/-! ## Clauses with values -/

variable {fill} in
/-- A row in parentheses. -/
theorem fills_tuple {ss ts : List Text} (h : List.Forall₂ (Fills fill) ss ts) :
    Fills fill (Insert.tuple ss) (Insert.tuple ts) := by
  have hopen : leads ['('] = true := by decide
  have hclose : closes [')'] = true := by decide
  exact Fills.lead hopen ((Fills.joined (by decide) (by decide) h).append (tails_closes hclose))

section Late

variable (hconn : conn.Escapes true ready) (hn : ∀ n ∈ names, IsName n)
  (hfill : ∀ n ∈ names, fill n = (ρ n).written? true)

include hconn hn hfill

theorem follows_quote {v : Value} (hv : v.Holes names) :
    Follows ready (Fills fill) (conn.quote (v.subst ρ)) (conn.quote v) := by
  refine Follows.of_gives (gives_quote hconn _) fun s hs => ?_
  obtain ⟨hw, hf⟩ := Value.fills_written hn hfill hv hs
  refine ⟨_, ?_, hf⟩
  rw [← hw]
  exact gives_quote hconn v

theorem follows_quoteAll {vs : List Value} (hv : ∀ v ∈ vs, v.Holes names) :
    Follows ready (List.Forall₂ (Fills fill)) (conn.quoteAll (vs.map (Value.subst ρ))) (conn.quoteAll vs) := by
  induction vs with
  | nil =>
    rw [List.map_nil, quoteAll]
    exact Follows.pure .nil
  | cons v vs ih =>
    rw [List.map_cons, quoteAll, quoteAll]
    refine (follows_quote fill hconn hn hfill (hv v List.mem_cons_self)).bind fun s t hst => ?_
    refine (ih fun w hw => hv w (List.mem_cons_of_mem _ hw)).bind fun ss ts hsts => ?_
    exact Follows.pure (.cons hst hsts)

/-- A range. -/
theorem follows_range (column : Text) {operator : Text} {value : Value} (hv : value.Holes names)
    (hset : ∀ name, value = .expression (':' :: name) → operator ∉ setOperators)
    (hop : operator = "BETWEEN" ∨ operator = "NOT BETWEEN") :
    Follows ready (Fills fill) (conn.compileOperand column operator (value.subst ρ))
      (conn.compileOperand column operator value) := by
  simp only [compileOperand, if_pos hop]
  cases value with
  | expression sql =>
    obtain ⟨name, -, rfl⟩ := hv.expression
    refine absurd ?_ (hset name rfl)
    rcases hop with rfl | rfl <;> simp [setOperators]
  | list items =>
    rcases items with - | ⟨low, - | ⟨high, - | ⟨third, others⟩⟩⟩
    · exact Follows.throw _ _
    · exact Follows.throw _ _
    · refine (follows_quote fill hconn hn hfill (hv.of_mem (v := low) (by simp))).bind fun s t hst => ?_
      refine (follows_quote fill hconn hn hfill (hv.of_mem (v := high) (by simp))).bind fun s' t' hst' => ?_
      exact Follows.pure (Fills.separated (leads_lit (by decide)) (closes_lit (by decide)) hst hst')
    · exact Follows.throw _ _
  | _ => exact Follows.throw _ _

/-- Anything in parentheses. -/
theorem follows_parenthesized {v : Value} (hv : v.Holes names) :
    Follows ready (Fills fill) (do let items ← conn.quote (v.subst ρ); return '(' :: (items ++ [')']))
      (do let items ← conn.quote v; return '(' :: (items ++ [')'])) := by
  have hopen : leads ['('] = true := by decide
  have hclose : closes [')'] = true := by decide
  refine (follows_quote fill hconn hn hfill hv).bind fun s t hst => ?_
  exact Follows.pure (Fills.lead hopen (hst.append (tails_closes hclose)))

/-- The right-hand side of a predicate. -/
theorem follows_operand (column : Text) {operator : Text} {value : Value} (hv : value.Holes names)
    (hset : ∀ name, value = .expression (':' :: name) → operator ∉ setOperators) :
    Follows ready (Fills fill) (conn.compileOperand column operator (value.subst ρ))
      (conn.compileOperand column operator value) := by
  by_cases hrange : operator = "BETWEEN" ∨ operator = "NOT BETWEEN"
  · exact follows_range fill hconn hn hfill column hv hset hrange
  by_cases hin : operator = "IN" ∨ operator = "NOT IN"
  · have hparens := follows_parenthesized fill hconn hn hfill hv
    simp only [compileOperand, if_neg hrange, if_pos hin]
    cases value with
    | expression sql =>
      obtain ⟨name, -, rfl⟩ := hv.expression
      refine absurd ?_ (hset name rfl)
      rcases hin with rfl | rfl <;> simp [setOperators]
    | _ => exact hparens
  · simp only [compileOperand, if_neg hrange, if_neg hin]
    exact follows_quote fill hconn hn hfill hv

/-- **A predicate.** -/
theorem follows_predicate {logic : Logic} {column : Identifier} {operator : Text} {value : Value}
    (h : (Condition.predicate logic column operator value).Late names ρ) :
    Follows ready (Fills fill) (conn.compilePredicate column operator (value.subst ρ))
      (conn.compilePredicate column operator value) := by
  obtain ⟨hcolumn, hoperator, hv, hwhole⟩ := h
  have hsame : normalOperator operator (value.subst ρ) = normalOperator operator value :=
    normalOperator_subst hv fun name e => (hwhole name e).2
  have hset : ∀ name, value = .expression (':' :: name) → normalOperator operator value ∉ setOperators := by
    rintro name rfl
    exact not_mem_setOperators (hwhole name rfl).1
  obtain ⟨hleads, hcloses⟩ := leads_closes_word (isPlain_normalOperator hoperator value)
  unfold compilePredicate
  rw [hsame]
  refine (yields_quoteColumn fill hcolumn).andThen fun c hc => ?_
  refine (follows_operand fill hconn hn hfill c hv hset).bind fun s t hst => Follows.pure ?_
  have hpiece := Fills.separated hleads hcloses hc hst
  simpa using hpiece

/-! ### Condition lists -/

theorem follows_entries {conditions : List Condition} (h : ∀ c ∈ conditions, c.Late names ρ) (due : Bool) :
    Follows ready (Continues fill due) (conn.compileEntries due (conditions.map (Condition.subst ρ)))
      (conn.compileEntries due conditions) := by
  have hopen : leads ['('] = true := by decide
  have hclose : closes [')'] = true := by decide
  induction conditions generalizing due with
  | nil => exact Follows.pure (continues_of_tails tails_nil due)
  | cons c r ih =>
    have hr : ∀ d ∈ r, d.Late names ρ := fun d hd => h d (List.mem_cons_of_mem _ hd)
    cases c with
    | opening logic =>
      refine (ih hr false).bind fun s t hst => Follows.pure ?_
      exact continues_logicText (Fills.lead hopen hst) logic due
    | closing =>
      refine (ih hr true).bind fun s t hst => Follows.pure ?_
      exact continues_of_tails ((tails_closes hclose).append hst) due
    | predicate logic column operator value =>
      refine (follows_predicate fill hconn hn hfill (h _ List.mem_cons_self)).bind fun s t hst => ?_
      refine (ih hr true).bind fun s' t' hst' => Follows.pure ?_
      rw [List.append_assoc, List.append_assoc]
      exact continues_logicText (hst.append hst') logic due

/-- ` KEYWORD conditions`, or nothing. -/
theorem follows_filter {keyword : Text} (hk : ∀ c ∈ keyword, isPlain c = true) {conditions : List Condition}
    (h : ∀ c ∈ conditions, c.Late names ρ) :
    Follows ready (Tails fill) (conn.compileFilter keyword (conditions.map (Condition.subst ρ)))
      (conn.compileFilter keyword conditions) := by
  obtain ⟨hleads, hcloses⟩ := leads_closes_word hk
  have hconditions : Follows ready (Fills fill) (conn.compileConditions (conditions.map (Condition.subst ρ)))
      (conn.compileConditions conditions) := by
    unfold compileConditions Condition.checkGroups
    rw [checkGroupsFrom_subst]
    split
    · exact Follows.throw _ _
    · exact follows_entries fill hconn hn hfill h false
  unfold compileFilter
  rw [List.isEmpty_map]
  split
  · exact Follows.pure tails_nil
  · refine hconditions.bind fun s t hst => Follows.pure ?_
    have hpiece := Fills.tail hleads hcloses hst
    simpa using hpiece

/-! ### Assignments and rows -/

theorem follows_assignments {assignments : List (Identifier × Value)}
    (h : ∀ a ∈ assignments, a.1.IsNamed ∧ a.2.Holes names) :
    Follows ready (Fills fill) (conn.compileAssignments (assignments.map fun a => (a.1, a.2.subst ρ)))
      (conn.compileAssignments assignments) := by
  have heach : ∀ a ∈ assignments, Follows ready (Fills fill) (conn.compileAssignment (a.1, a.2.subst ρ))
      (conn.compileAssignment a) := by
    intro a ha
    obtain ⟨hname, hv⟩ := h a ha
    refine (yields_quoteColumn fill hname).andThen fun c hc => ?_
    refine (follows_quote fill hconn hn hfill hv).bind fun s t hst => Follows.pure ?_
    exact Fills.separated (by decide) (by decide) hc hst
  unfold compileAssignments
  rw [List.mapM_map]
  refine (Follows.mapM heach).bind fun ss ts hst => Follows.pure ?_
  exact Fills.joined (by decide) (by decide) hst

theorem follows_rows {rows : List (List Value)} (h : ∀ row ∈ rows, ∀ v ∈ row, v.Holes names) (width index : Nat) :
    Follows ready (List.Forall₂ (Fills fill))
      (Insert.compileRows conn width index (rows.map fun row => row.map (Value.subst ρ)))
      (Insert.compileRows conn width index rows) := by
  induction rows generalizing index with
  | nil => exact Follows.pure .nil
  | cons row rows ih =>
    rw [List.map_cons, Insert.compileRows, Insert.compileRows, List.length_map]
    split
    · exact Follows.throw _ _
    · refine (follows_quoteAll fill hconn hn hfill (h row List.mem_cons_self)).bind fun ss ts hst => ?_
      refine (ih (fun r hr => h r (List.mem_cons_of_mem _ hr)) (index + 1)).bind fun ss' ts' hst' => ?_
      exact Follows.pure (.cons (fills_tuple hst) hst')

end Late

end Connection

end SqlAccess
