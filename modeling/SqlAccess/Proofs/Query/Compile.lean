/-
What compiling a query gives.

A query is compiled by cutting its template at the placeholders. `compile_eq_fill` says the same in terms of the
template's tokens, as an action: each placeholder is the quoting of the value it is bound to, every other token stands as
it is, and a name that is unbound is an error where it is met. `gives_compile` says the outcome where quoting does not
depend on the connection's state.
-/
import SqlAccess.Proofs.Literal
import SqlAccess.Query

namespace SqlAccess

namespace Template

/-- a token as it stands, or what its placeholder is filled with -/
def Token.filled? (fill : Text → Option Text) : Token → Option Text
  | .placeholder name => fill name
  | token => some token.text

/-- the text of tokens with each placeholder filled, if all can be -/
def filled? (fill : Text → Option Text) : List Token → Option Text
  | [] => some []
  | token :: r => (token.filled? fill).bind fun t => (filled? fill r).map (t ++ ·)

theorem filled?_append (fill : Text → Option Text) (pre post : List Token) :
    filled? fill (pre ++ post) = (filled? fill pre).bind fun t => (filled? fill post).map (t ++ ·) := by
  induction pre with
  | nil => simp [filled?]
  | cons token r ih =>
    rw [List.cons_append, filled?, filled?, ih]
    cases token.filled? fill <;> cases filled? fill r <;> cases filled? fill post <;> simp

/-- Tokens without a placeholder stay as they stand. -/
theorem filled?_of_no_placeholder {fill : Text → Option Text} {tokens : List Token}
    (h : ∀ name, .placeholder name ∉ tokens) : filled? fill tokens = some (tokens.flatMap Token.text) := by
  induction tokens with
  | nil => rfl
  | cons token r ih =>
    have ht : token.filled? fill = some token.text := by
      cases token with
      | placeholder name => exact absurd List.mem_cons_self (h name)
      | _ => rfl
    rw [filled?, ht, ih fun name hm => h name (List.mem_cons_of_mem _ hm)]
    rfl

variable {σ : Type}

/-- Tokens written out, each placeholder as the literals of its name's value. A name without a value is an error. -/
def fill (conn : Connection σ) (value? : Text → Option Value) : List Token → Action σ Text
  | [] => pure []
  | .placeholder name :: r =>
    match value? name with
    | none => throw (.unboundParameter name)
    | some value => do
      let text ← conn.quote value
      let others ← fill conn value? r
      return text ++ others
  | token :: r => do
    let others ← fill conn value? r
    return token.text ++ others
end Template

namespace Query

def value? (q : Query) (cells : Cells) (name : Text) : Option Value := (q.lookup? name).map (·.current cells)

/-- the text a placeholder is filled with, if there is one -/
def fill? (standard : Bool) (cells : Cells) (q : Query) (name : Text) : Option Text :=
  (q.value? cells name).bind (Value.written? standard)

theorem fill?_of_lookup {standard : Bool} {cells : Cells} {q : Query} {name : Text} {parameter : Parameter}
    (h : q.lookup? name = some parameter) :
    q.fill? standard cells name = (parameter.current cells).written? standard := by
  simp [fill?, value?, h]

theorem fill?_of_unbound {standard : Bool} {cells : Cells} {q : Query} {name : Text} (h : q.lookup? name = none) :
    q.fill? standard cells name = none := by
  simp [fill?, value?, h]

/-- Binding changes the bindings alone, the newest in front. -/
theorem bindAll_eq (q : Query) (values : List (Text × Value)) : q.bindAll values =
    { q with bindings := (values.map fun v => (bareName v.1, Parameter.value v.2)).reverse ++ q.bindings } := by
  unfold bindAll
  induction values generalizing q with
  | nil => rfl
  | cons v values ih =>
    rw [List.foldl_cons, ih, List.map_cons, List.reverse_cons, List.append_assoc]
    rfl

variable {σ : Type} {conn : Connection σ} {standard : Bool} {ready : σ → Prop}

/-- The tokens of the template from `start` on, behind a gap that is not copied yet. -/
theorem splice_eq_fill (conn : Connection σ) (cells : Cells) (q : Query) (tokens : List Template.Token) (gap : Text)
    {copied start : Nat} (hs : start = copied + gap.length) :
    q.splice conn cells copied (gap ++ tokens.flatMap Template.Token.text) (Template.placeholdersFrom start tokens) =
      (do let text ← Template.fill conn (q.value? cells) tokens; return gap ++ text) := by
  induction tokens generalizing gap copied start with
  | nil => simp [Template.placeholdersFrom, splice, Template.fill]
  | cons token r ih =>
    -- a token that is no placeholder joins the gap
    have join : Template.fill conn (q.value? cells) (token :: r) =
          (do let others ← Template.fill conn (q.value? cells) r; return token.text ++ others) →
        Template.placeholdersFrom start (token :: r) = Template.placeholdersFrom (start + token.text.length) r →
        q.splice conn cells copied (gap ++ (token :: r).flatMap Template.Token.text)
            (Template.placeholdersFrom start (token :: r)) =
          (do let text ← Template.fill conn (q.value? cells) (token :: r); return gap ++ text) := by
      intro hfill hplaceholders
      have hr := @ih (gap ++ token.text) copied (start + token.text.length) (by rw [hs, List.length_append]; omega)
      rw [List.append_assoc] at hr
      rw [hplaceholders, List.flatMap_cons, hr, hfill]
      simp only [bind_assoc, pure_bind, List.append_assoc]
    cases token with
    | placeholder name =>
      have hstop : start + (name.length + 1) - copied = (gap ++ ':' :: name).length := by
        simp only [hs, List.length_append, List.length_cons]
        omega
      have hdrop : (gap ++ ((Template.Token.placeholder name) :: r).flatMap Template.Token.text).drop
          (start + (name.length + 1) - copied) = r.flatMap Template.Token.text := by
        rw [hstop, List.flatMap_cons, ← List.append_assoc]
        exact List.drop_left
      have htake : (gap ++ ((Template.Token.placeholder name) :: r).flatMap Template.Token.text).take
          (start - copied) = gap := by
        rw [show start - copied = gap.length by omega]
        exact List.take_left
      rw [Template.placeholdersFrom, splice, Template.fill]
      cases hl : q.lookup? name with
      | none =>
        have hvalue : q.value? cells name = none := by rw [value?, hl, Option.map_none]
        rw [hvalue]
        rfl
      | some parameter =>
        have hvalue : q.value? cells name = some (parameter.current cells) := by rw [value?, hl, Option.map_some]
        have hr : q.splice conn cells (start + (name.length + 1)) (r.flatMap Template.Token.text)
            (Template.placeholdersFrom (start + (name.length + 1)) r) = Template.fill conn (q.value? cells) r := by
          have hgap := @ih [] (start + (name.length + 1)) (start + (name.length + 1)) rfl
          simpa only [List.nil_append, bind_pure] using hgap
        simp only [hvalue, hdrop, htake, hr, bind_assoc, pure_bind]
    | cast => exact join rfl rfl
    | region kind text => exact join rfl rfl
    | single c => exact join rfl rfl

/-- A query compiles to its template filled with what its names are bound to. -/
theorem compile_eq_fill (conn : Connection σ) (cells : Cells) (q : Query) :
    q.compile conn cells = Template.fill conn (q.value? cells) (Template.tokens q.template) := by
  have hs := splice_eq_fill conn cells q (Template.tokens q.template) [] (Nat.zero_add 0).symm
  simp only [List.nil_append, Template.text_tokens, bind_pure] at hs
  exact hs
/-- Filling tokens gives their text with each placeholder filled, or an error if one cannot be. -/
theorem gives_fill (h : conn.Escapes standard ready) (cells : Cells) (q : Query) (tokens : List Template.Token) :
    Action.Gives ready (Template.fill conn (q.value? cells) tokens)
      (Template.filled? (q.fill? standard cells) tokens) := by
  induction tokens with
  | nil => exact Action.Gives.pure _
  | cons token r ih =>
    have plain (t : Text) : Action.Gives ready
        (do let others ← Template.fill conn (q.value? cells) r; return t ++ others)
        ((Template.filled? (q.fill? standard cells) r).map (t ++ ·)) := by
      rw [Option.map_eq_bind]
      exact ih.bind fun others _ => Action.Gives.pure _
    cases token with
    | placeholder name =>
      rw [Template.fill, Template.filled?, Template.Token.filled?]
      cases hl : q.lookup? name with
      | none =>
        have hvalue : q.value? cells name = none := by rw [value?, hl, Option.map_none]
        rw [fill?_of_unbound hl, hvalue]
        exact Action.Gives.throw _
      | some parameter =>
        have hvalue : q.value? cells name = some (parameter.current cells) := by rw [value?, hl, Option.map_some]
        rw [fill?_of_lookup hl, hvalue]
        exact (Connection.gives_quote h _).bind fun text _ => plain text
    | cast => exact plain _
    | region kind text => exact plain _
    | single c => exact plain _

/-- **What compiling a query gives.** Its template with each placeholder filled, or an error if one cannot be. -/
theorem gives_compile (h : conn.Escapes standard ready) (cells : Cells) (q : Query) :
    Action.Gives ready (q.compile conn cells)
      (Template.filled? (q.fill? standard cells) (Template.tokens q.template)) := by
  rw [compile_eq_fill]
  exact gives_fill h cells q _

end Query

end SqlAccess
