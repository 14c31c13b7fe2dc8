/-
The kind of a statement behind blanks, comments and opening parentheses.

A `Trivium` is one item that may stand in front of a statement's first word. Main result, `kind_behind_trivia`: trivia
do not change the kind, as long as no block comment among them begins with `/*/`. There the star of the opening is
taken for the star of an end, and detection goes on with the comment's own text, as in `comment_read_as_statement`. The
scanner of templates ends every one of these comments where it is written to end.
-/
import SqlAccess.Proofs.Template.Filling
import SqlAccess.Query

namespace SqlAccess

namespace Text

/-- A text that does not hold the end of a block comment has the first one right behind it. -/
theorem firstAfter_starSlash {body : Text} (h : ¬ ['*', '/'] <:+: body) : FirstAfter ['*', '/'] body := by
  intro u v e
  rcases List.eq_nil_or_concat v with rfl | ⟨w, c, rfl⟩
  · rfl
  · -- the last two characters are those of the pattern, so what stands before them lies in the body and a star
    have hlast : body ++ ['*'] ++ ['/'] = u ++ ['*', '/'] ++ w ++ [c] := by simpa using e
    obtain ⟨hstar, -⟩ := List.append_inj' hlast rfl
    rcases List.eq_nil_or_concat w with rfl | ⟨x, d, rfl⟩
    · have hslash : body ++ ['*'] = (u ++ ['*']) ++ ['/'] := by simpa using hstar
      cases (List.append_inj' hslash rfl).2
    · have hbody : body ++ ['*'] = u ++ ['*', '/'] ++ x ++ [d] := by simpa using hstar
      exact absurd ⟨u, x, (List.append_inj' hbody rfl).1.symm⟩ h

/-- Nor does a star in front of it end the comment, unless a slash comes next. -/
theorem firstAfter_star {body : Text} (h : ¬ ['*', '/'] <:+: body) (hs : body.head? ≠ some '/') :
    FirstAfter ['*', '/'] ('*' :: body) := by
  apply (firstAfter_starSlash h).cons
  rw [Template.prefix_pair_iff]
  cases body with
  | nil => decide
  | cons c b => exact hs

end Text

/-! ## What stands in front of a statement -/

/-- one item in front of a statement's first word -/
inductive Trivium where
  | blank (c : Char) (isBlank : Text.isBlank c = true)
  | lineComment (body : Text) (oneLine : '\n' ∉ body)
  | blockComment (body : Text) (notEnded : ¬ ['*', '/'] <:+: body)
  | parenthesis

namespace Trivium

open Template

def lexeme : Trivium → Lexeme
  | blank c _ => .single c
  | lineComment body _ => .region .lineComment ('-' :: '-' :: (body ++ ['\n']))
  | blockComment body _ => .region .blockComment ('/' :: '*' :: (body ++ ['*', '/']))
  | parenthesis => .single '('

def text (item : Trivium) : Text := item.lexeme.text

/-- Every item is a lexeme by itself, wherever it stands. -/
theorem lexes (item : Trivium) (before rest : Text) : Lexes before item.lexeme rest := by
  cases item with
  | blank c h => exact .single (not_begins_of_isPlain (isPlain_of_isBlank h) rest)
  | lineComment body h => exact .lineComment h
  | blockComment body h => exact .blockComment (Text.firstAfter_starSlash h)
  | parenthesis => exact .single (not_begins_of_isPlain (by decide) rest)

theorem lexeme_ne_colon (item : Trivium) : item.lexeme ≠ .single ':' := by
  cases item with
  | blank c h =>
    intro e
    cases e
    exact absurd h (by decide)
  | _ => simp [lexeme]

/-- The scanner takes items one by one, each up to its end. -/
theorem scans_items (items : List Trivium) {before rest : Text} {tokens : List Token}
    (h : Scans (before ++ items.flatMap text) rest tokens) :
    Scans before (items.flatMap text ++ rest) (items.map (·.lexeme.token) ++ tokens) := by
  induction items generalizing before with
  | nil => simpa using h
  | cons item items ih =>
    have hitems : Scans (before ++ item.text) (items.flatMap text ++ rest) (items.map (·.lexeme.token) ++ tokens) := by
      apply ih
      simpa using h
    rw [List.flatMap_cons, List.append_assoc]
    exact Scans.lexeme (item.lexes before _) (fun e => absurd e item.lexeme_ne_colon) hitems

end Trivium

/-! ## Detection -/

namespace StatementKind

theorem skipTrivia_blank {c : Char} (h : Text.isBlank c = true) (rest : Text) :
    skipTrivia (c :: rest) = skipTrivia rest := by
  have htrim : Text.trimStart (c :: rest) = Text.trimStart rest := by simp [Text.trimStart, h]
  rw [skipTrivia.eq_def (c :: rest), skipTrivia.eq_def rest, htrim]

theorem skipTrivia_dashes (r : Text) : skipTrivia ('-' :: '-' :: r) = skipTrivia (Text.through ['\n'] r).2 := by
  rw [skipTrivia]
  rfl

theorem skipTrivia_slashStar (r : Text) :
    skipTrivia ('/' :: '*' :: r) = skipTrivia (Text.through ['*', '/'] ('*' :: r)).2 := by
  rw [skipTrivia]
  rfl

theorem skipTrivia_parenthesis (r : Text) : skipTrivia ('(' :: r) = skipTrivia r := by
  rw [skipTrivia]
  rfl

/-- An item is skipped, unless it is a block comment that begins with `/*/`. -/
theorem skipTrivia_item (item : Trivium) (h : ∀ body hb, item = .blockComment body hb → body.head? ≠ some '/')
    (rest : Text) : skipTrivia (item.text ++ rest) = skipTrivia rest := by
  cases item with
  | blank c hc => exact skipTrivia_blank hc rest
  | lineComment body hb =>
    have hcut := Text.through_of_firstAfter (by simp) (Template.firstAfter_newline hb) rest
    have htext : (Trivium.lineComment body hb).text ++ rest = '-' :: '-' :: (body ++ ['\n'] ++ rest) := by
      simp [Trivium.text, Trivium.lexeme, Template.Lexeme.text]
    rw [htext, skipTrivia_dashes, hcut]
  | blockComment body hb =>
    have hcut := Text.through_of_firstAfter (by simp) (Text.firstAfter_star hb (h body hb rfl)) rest
    have htext : (Trivium.blockComment body hb).text ++ rest = '/' :: '*' :: (body ++ ['*', '/'] ++ rest) := by
      simp [Trivium.text, Trivium.lexeme, Template.Lexeme.text]
    rw [List.cons_append, List.cons_append] at hcut
    rw [htext, skipTrivia_slashStar, hcut]
  | parenthesis => exact skipTrivia_parenthesis rest

theorem skipTrivia_items {items : List Trivium}
    (h : ∀ body hb, Trivium.blockComment body hb ∈ items → body.head? ≠ some '/') (sql : Text) :
    skipTrivia (items.flatMap Trivium.text ++ sql) = skipTrivia sql := by
  induction items with
  | nil => rfl
  | cons item items ih =>
    have hitem : ∀ body hb, item = .blockComment body hb → body.head? ≠ some '/' := by
      rintro body hb rfl
      exact h body hb List.mem_cons_self
    rw [List.flatMap_cons, List.append_assoc, skipTrivia_item item hitem]
    exact ih fun body hb hmem => h body hb (List.mem_cons_of_mem _ hmem)

theorem ofSql?_of_skipTrivia {s t : Text} (h : skipTrivia s = skipTrivia t) : ofSql? s = ofSql? t := by
  rw [ofSql?, ofSql?, h]

/-- **The kind behind trivia.** Let items stand in front of a statement. The scanner of templates takes each of them up
to its end and goes on with the statement. Detection does the same where no block comment among them begins with `/*/`:
the kind is that of the statement, and a query is made or refused as for the statement. Where one begins so, detection
goes on right behind these three characters. -/
theorem kind_behind_trivia (items : List Trivium) (sql : Text) :
    Template.tokens (items.flatMap Trivium.text ++ sql) =
      items.map (·.lexeme.token) ++ Template.tokensFrom (items.flatMap Trivium.text).reverse sql ∧
    ((∀ body hb, Trivium.blockComment body hb ∈ items → body.head? ≠ some '/') →
      ofSql? (items.flatMap Trivium.text ++ sql) = ofSql? sql ∧
      Query.detect (items.flatMap Trivium.text ++ sql) =
        (Query.detect sql).map ({ · with template := items.flatMap Trivium.text ++ sql })) ∧
    ∀ body hb, ofSql? ((Trivium.blockComment ('/' :: body) hb).text ++ sql) = ofSql? (body ++ ['*', '/'] ++ sql) := by
  refine ⟨?_, ?_, ?_⟩
  · have hsql := Template.scans_tokensFrom (items.flatMap Trivium.text).reverse sql
    rw [List.reverse_reverse] at hsql
    have hscans : Template.Scans [] (items.flatMap Trivium.text ++ sql) (items.map (·.lexeme.token) ++
        Template.tokensFrom (items.flatMap Trivium.text).reverse sql) := Trivium.scans_items items hsql
    exact Template.tokensFrom_of_scans hscans
  · intro h
    have hkind : ofSql? (items.flatMap Trivium.text ++ sql) = ofSql? sql :=
      ofSql?_of_skipTrivia (skipTrivia_items h sql)
    refine ⟨hkind, ?_⟩
    rw [Query.detect, Query.detect, hkind]
    cases ofSql? sql with
    | none => rfl
    | some kind => rfl
  · intro body hb
    apply ofSql?_of_skipTrivia
    have htext : (Trivium.blockComment ('/' :: body) hb).text ++ sql =
        '/' :: '*' :: '/' :: (body ++ ['*', '/'] ++ sql) := by
      simp [Trivium.text, Trivium.lexeme, Template.Lexeme.text]
    rw [htext, skipTrivia_slashStar]
    rfl

/-- notes behind a parenthesis, one on a line of its own and one between blanks -/
def notes : List Trivium :=
  [.parenthesis, .lineComment ['(', '*', '/'] (by decide), .blank ' ' (by decide),
    .blockComment ['*', ' ', '/'] (by simp [List.infix_cons_iff])]

theorem text_notes (sql : Text) : notes.flatMap Trivium.text ++ sql = "(--(*/\n /** /*/".toList ++ sql := rfl

/-- Ends and openings of comments inside another comment do not matter. -/
theorem kind_behind_trivia_notes :
    (∀ body hb, Trivium.blockComment body hb ∈ notes → body.head? ≠ some '/') ∧
    ofSql? ("(--(*/\n /** /*/".toList ++ "DELETE FROM t".toList) = some .delete := by
  have hnotes : ∀ body hb, Trivium.blockComment body hb ∈ notes → body.head? ≠ some '/' := by
    intro body hb hmem
    simp only [notes, List.mem_cons, reduceCtorEq, Trivium.blockComment.injEq, List.not_mem_nil, false_or, or_false]
      at hmem
    rw [hmem]
    decide
  obtain ⟨-, hkind, -⟩ := kind_behind_trivia notes "DELETE FROM t".toList
  obtain ⟨hkind, -⟩ := hkind hnotes
  rw [text_notes] at hkind
  refine ⟨hnotes, hkind.trans ?_⟩
  decide +kernel

/-- A deletion behind a comment that begins with `/*/` counts as a select, as the word in the comment says. -/
theorem comment_read_as_statement : ∃ item : Trivium,
    item.text ++ "DELETE FROM t".toList = "/*/ SELECT */DELETE FROM t".toList ∧
    ofSql? "/*/ SELECT */DELETE FROM t".toList = some .select ∧ ofSql? "DELETE FROM t".toList = some .delete := by
  refine ⟨.blockComment "/ SELECT ".toList (by simp [List.infix_cons_iff]), rfl, ?_, ?_⟩
  · decide +kernel
  · decide +kernel

end StatementKind

end SqlAccess
