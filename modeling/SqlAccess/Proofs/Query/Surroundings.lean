/-
What filling placeholders does to the rest of a query.

`tokens_compile_iff` says when a compiled query is read as the tokens of its template with the literals of the values
in place of the placeholders, where these stand between blanks, brackets and operators: unless a minus sign is
followed by a literal that begins with one. `difference_opens_comment` is a query for which it is.
-/
import SqlAccess.Proofs.Query.Compile
import SqlAccess.Proofs.Template.Filling

namespace SqlAccess

namespace Template

/-! ## Placeholders where they stand -/

theorem mem_placeholdersFrom {start : Nat} {tokens : List Token} {p : Placeholder} :
    p ∈ placeholdersFrom start tokens ↔ ∃ pre post, tokens = pre ++ .placeholder p.name :: post ∧
      p.start = start + (pre.flatMap Token.text).length ∧ p.stop = p.start + (p.name.length + 1) := by
  induction tokens generalizing start with
  | nil => simp [placeholdersFrom]
  | cons token r ih =>
    have hhead : p ∈ placeholdersFrom start (token :: r) ↔
        (token = .placeholder p.name ∧ p.start = start ∧ p.stop = p.start + (p.name.length + 1)) ∨
          p ∈ placeholdersFrom (start + token.text.length) r := by
      cases token with
      | placeholder name =>
        rw [placeholdersFrom, List.mem_cons]
        refine or_congr ?_ Iff.rfl
        obtain ⟨first, last, n⟩ := p
        simp only [Placeholder.mk.injEq, Token.placeholder.injEq]
        grind
      | _ => simp [placeholdersFrom]
    rw [hhead, ih]
    constructor
    · rintro (⟨rfl, hs, ht⟩ | ⟨pre, post, rfl, hs, ht⟩)
      · exact ⟨[], r, rfl, by simpa using hs, ht⟩
      · exact ⟨token :: pre, post, rfl, by rw [hs, List.flatMap_cons, List.length_append]; omega, ht⟩
    · rintro ⟨pre, post, e, hs, ht⟩
      cases pre with
      | nil =>
        obtain ⟨rfl, rfl⟩ := List.cons.inj e
        exact Or.inl ⟨rfl, by simpa using hs, ht⟩
      | cons first pre =>
        obtain ⟨rfl, rfl⟩ := List.cons.inj e
        refine Or.inr ⟨pre, post, rfl, ?_, ht⟩
        rw [hs, List.flatMap_cons, List.length_append]
        omega

/-- a template cut around one of its placeholders -/
theorem cut_of_tokens {template name : Text} {pre post : List Token}
    (e : tokens template = pre ++ .placeholder name :: post) :
    template.take (pre.flatMap Token.text).length = pre.flatMap Token.text ∧
      template.drop ((pre.flatMap Token.text).length + (name.length + 1)) = post.flatMap Token.text := by
  have htext : template = pre.flatMap Token.text ++ (':' :: name ++ post.flatMap Token.text) := by
    conv_lhs => rw [← text_tokens template, e]
    simp [Token.text]
  constructor
  · conv_lhs => rw [htext]
    exact List.take_left
  · conv_lhs => rw [htext, ← List.append_assoc]
    exact List.drop_left' (by simp)

/-- The placeholders of a template, and the tokens before and behind each. -/
theorem mem_placeholders_iff {template : Text} {p : Placeholder} : p ∈ placeholders template ↔
    ∃ pre post, tokens template = pre ++ .placeholder p.name :: post ∧
      p.start = (pre.flatMap Token.text).length ∧ p.stop = p.start + (p.name.length + 1) := by
  rw [placeholders, mem_placeholdersFrom]
  simp only [Nat.zero_add]

theorem placeholder_of_tokens {template name : Text} {pre post : List Token}
    (e : tokens template = pre ++ .placeholder name :: post) :
    ⟨(pre.flatMap Token.text).length, (pre.flatMap Token.text).length + (name.length + 1), name⟩ ∈
      placeholders template :=
  mem_placeholders_iff.2 ⟨pre, post, e, rfl, rfl⟩

variable {value : Text → Value}

/-- Where all placeholders could be filled, the text is that of the filled tokens. -/
theorem filledText_of_filled? {fill : Text → Option Text}
    (hf : ∀ name t, fill name = some t → (value name).written true = t) {tokens : List Token} {s : Text}
    (h : filled? fill tokens = some s) :
    s = tokens.flatMap (Token.filledText value) := by
  induction tokens generalizing s with
  | nil =>
    cases h
    rfl
  | cons token r ih =>
    obtain ⟨t, ht, h⟩ := Option.bind_eq_some_iff.1 h
    obtain ⟨u, hu, rfl⟩ := Option.map_eq_some_iff.1 h
    have htoken : token.filledText value = t := by
      cases token with
      | placeholder name => exact hf name t ht
      | _ => exact Option.some.inj ht
    rw [List.flatMap_cons, htoken, ← ih hu]

end Template

namespace Query

/-- the value a name is bound to now, null where it is not bound -/
def value (cells : Cells) (q : Query) (name : Text) : Value := (q.value? cells name).getD .null

variable {σ : Type} {conn : Connection σ} {ready : σ → Prop}

open Template

theorem fits_of_placeholders {q : Query} {cells : Cells}
    (hstand : ∀ p ∈ placeholders q.template,
      OpenBefore (q.template.take p.start) ∧ ClosedAfter (q.template.drop p.stop))
    (hvalue : ∀ p ∈ placeholders q.template, (q.value cells p.name).Inert) :
    Fits (q.value cells) [] (tokens q.template) := by
  intro pre name post e
  obtain ⟨htake, hdrop⟩ := cut_of_tokens e
  have hp := placeholder_of_tokens e
  obtain ⟨ho, hc⟩ := hstand _ hp
  rw [htake] at ho
  rw [hdrop] at hc
  exact ⟨ho, hc, hvalue _ hp⟩

theorem opensComment_iff {q : Query} {cells : Cells} : OpensComment (q.value cells) [] (tokens q.template) ↔
    ∃ p ∈ placeholders q.template, (q.template.take p.start).getLast? = some '-' ∧
      ((q.value cells p.name).written true).head? = some '-' := by
  constructor
  · rintro ⟨pre, name, post, e, hl, hh⟩
    refine ⟨_, placeholder_of_tokens e, ?_, hh⟩
    rw [(cut_of_tokens e).1]
    exact hl
  · rintro ⟨p, hp, hl, hh⟩
    obtain ⟨pre, post, e, hs, -⟩ := mem_placeholders_iff.1 hp
    rw [hs, (cut_of_tokens e).1] at hl
    exact ⟨pre, p.name, post, e, hl, hh⟩

/-- What was compiled is the template filled with the values. -/
theorem compiled_eq (h : conn.Escapes true ready) {cells : Cells} {q : Query} {state state' : σ} {s : Text}
    (hr : ready state) (hs : q.compile conn cells state = (.ok s, state')) :
    s = (tokens q.template).flatMap (Token.filledText (q.value cells)) := by
  refine filledText_of_filled? (fun name t ht => ?_) ((gives_compile h cells q).of_run hr hs).1
  obtain ⟨v, hv, hw⟩ := Option.bind_eq_some_iff.1 ht
  rw [value, hv]
  unfold Value.written? at hw
  split at hw
  · exact Option.some.inj hw
  · cases hw

/-- **When a filled template keeps its tokens.** Let every placeholder stand between blanks, brackets and operators, and
be bound to a value without expressions. What is compiled is read as the tokens of the template with the literals of the
values in place of the placeholders, if and only if no placeholder behind a minus sign is filled with a literal that
begins with one. -/
theorem tokens_compile_iff (hconn : conn.Escapes true ready) (cells : Cells) (q : Query)
    (hstand : ∀ p ∈ placeholders q.template,
      OpenBefore (q.template.take p.start) ∧ ClosedAfter (q.template.drop p.stop))
    (hvalue : ∀ p ∈ placeholders q.template, (q.value cells p.name).Inert)
    {state state' : σ} {s : Text} (hready : ready state) (hs : q.compile conn cells state = (.ok s, state')) :
    tokens s = (tokens q.template).flatMap (Token.filledTokens (q.value cells)) ↔
      ¬ ∃ p ∈ placeholders q.template, (q.template.take p.start).getLast? = some '-' ∧
        ((q.value cells p.name).written true).head? = some '-' := by
  have hfits := fits_of_placeholders hstand hvalue
  have hscan := scans_tokens q.template
  rw [← opensComment_iff]
  constructor
  · intro e hd
    have := scans_tokens s
    rw [e] at this
    exact hscan.not_filled hfits hd this
  · intro hd
    have hagree : Agree [] [] := ⟨Iff.rfl, Iff.rfl, Iff.rfl⟩
    have hfill := hscan.fill (Or.inl hagree) hfits hd
    rw [← compiled_eq hconn hready hs] at hfill
    exact tokensFrom_of_scans hfill

/-! ### One minus sign in front of a placeholder -/

/-- a query that subtracts a number -/
def difference (n : Int) : Query := (Query.of .select "SELECT 1-:x").bind ['x'] (.value (.integer n))

theorem tokens_difference (n : Int) : tokens (difference n).template =
    ['S', 'E', 'L', 'E', 'C', 'T', ' ', '1', '-'].map Token.single ++ [.placeholder ['x']] := by
  simp [difference, Query.of, Query.bind, Text.lit_eq, tokens, tokensFrom, nextToken, Token.text, Text.isWordChar,
    endsInWord, endsInBracket, Text.isNameStart, Text.isNameChar]

theorem placeholders_difference (n : Int) : placeholders (difference n).template = [⟨9, 11, ['x']⟩] := by
  rw [placeholders, tokens_difference]
  rfl

theorem difference_stands (n : Int) : ∀ p ∈ placeholders (difference n).template,
    OpenBefore ((difference n).template.take p.start) ∧ ClosedAfter ((difference n).template.drop p.stop) := by
  intro p hp
  rw [placeholders_difference, List.mem_singleton] at hp
  subst hp
  have e : (difference n).template = "SELECT 1-:x".toList := Text.lit_eq _
  rw [e]
  constructor
  · intro c hc
    obtain rfl : '-' = c := Option.some.inj hc
    decide
  · intro c hc
    cases hc

theorem difference_inert (n : Int) : ∀ p ∈ placeholders (difference n).template,
    ((difference n).value .empty p.name).Inert := by
  intro p hp
  rw [placeholders_difference, List.mem_singleton] at hp
  subst hp
  simp [value, value?, difference, Query.of, Query.bind, lookup?, bareName, Parameter.current, Value.Inert,
    Value.leaves]

theorem compile_difference (n : Int) :
    (difference n).compile (Recorder.connection []) .empty .fresh =
      (.ok ("SELECT 1-".toList ++ Text.ofInt n), .fresh) := by
  have hx : (difference n).lookup? ['x'] = some (.value (.integer n)) := rfl
  have hq : (Recorder.connection []).quote (.integer n) .fresh = (.ok (Text.ofInt n), .fresh) := by
    rw [Connection.quote]
    rfl
  have e : (difference n).template = "SELECT 1-:x".toList := Text.lit_eq _
  rw [compile, placeholders_difference, splice, hx, e]
  refine (Action.bind_of_ok hq).trans ?_
  rw [splice, Action.bind_of_ok (Action.pure_run _ _), Action.pure_run]
  simp

/-- With a positive number the tokens are kept. -/
theorem tokens_compile_difference : tokens "SELECT 1-1".toList =
    (tokens (difference 1).template).flatMap (Token.filledTokens ((difference 1).value .empty)) := by
  refine (tokens_compile_iff (Recorder.escapes []) .empty (difference 1) (difference_stands 1) (difference_inert 1)
    trivial (compile_difference 1)).2 ?_
  rintro ⟨p, hp, -, hh⟩
  rw [placeholders_difference, List.mem_singleton] at hp
  subst hp
  exact absurd hh (by decide)

/-- With a negative one the rest of the text becomes a comment. -/
theorem difference_opens_comment :
    (∀ p ∈ placeholders (difference (-1)).template, OpenBefore ((difference (-1)).template.take p.start) ∧
      ClosedAfter ((difference (-1)).template.drop p.stop)) ∧
    (∀ p ∈ placeholders (difference (-1)).template, ((difference (-1)).value .empty p.name).Inert) ∧
    (Recorder.connection []).Escapes true (fun _ => True) ∧
    (difference (-1)).compile (Recorder.connection []) .empty .fresh = (.ok "SELECT 1--1".toList, .fresh) ∧
    .region .lineComment "--1".toList ∈ tokens "SELECT 1--1".toList ∧
    tokens "SELECT 1--1".toList ≠
      (tokens (difference (-1)).template).flatMap (Token.filledTokens ((difference (-1)).value .empty)) := by
  have ht : tokens "SELECT 1--1".toList =
      ['S', 'E', 'L', 'E', 'C', 'T', ' ', '1'].map Token.single ++ [.region .lineComment "--1".toList] := by
    simp [tokens, tokensFrom, nextToken, Token.text, Text.through]
  refine ⟨difference_stands _, difference_inert _, Recorder.escapes [], compile_difference (-1), ?_, ?_⟩
  · rw [ht]
    decide
  · rw [ht, tokens_difference]
    decide

end Query

end SqlAccess
