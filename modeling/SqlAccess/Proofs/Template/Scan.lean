/-
Scans: how a text behind another is cut into tokens, as a relation.

`Scans before s tokens` builds the tokens of `s` from lexemes and placeholders one by one, with what must stand around
each. `scans_iff`: these are the tokens that the scanner returns. So a statement about all tokens is an induction over
scans, and the tokens of a text put together from parts are found by putting scans together.
-/
import SqlAccess.Proofs.Template.Grammar

namespace SqlAccess

namespace Template

/-- the tokens of a text that stands behind `before` -/
inductive Scans : Text → Text → List Token → Prop
  | nil {before : Text} : Scans before [] []
  | lexeme {before rest : Text} {lexeme : Lexeme} {tokens : List Token} : Lexes before lexeme rest →
      (lexeme = .single ':' → ¬ Introduces before rest) → Scans (before ++ lexeme.text) rest tokens →
      Scans before (lexeme.text ++ rest) (lexeme.token :: tokens)
  | placeholder {before name rest : Text} {tokens : List Token} : Introduces before (name ++ rest) →
      (∀ c ∈ name, Text.isNameChar c) → ¬ rest.head?.any Text.isNameChar →
      Scans (before ++ ':' :: name) rest tokens →
      Scans before (':' :: (name ++ rest)) (.placeholder name :: tokens)

variable {before : Text}

/-! ## Names -/

theorem isNameChar_takeWhile (s : Text) : ∀ c ∈ s.takeWhile Text.isNameChar, Text.isNameChar c :=
  List.all_eq_true.1 List.all_takeWhile

theorem head_dropWhile_isNameChar (s : Text) : ¬ (s.dropWhile Text.isNameChar).head?.any Text.isNameChar := by
  have h := List.head?_dropWhile_not Text.isNameChar s
  cases hd : (s.dropWhile Text.isNameChar).head? with
  | none => simp
  | some c => simpa [hd] using h

theorem takeWhile_isNameChar {name rest : Text} (hn : ∀ c ∈ name, Text.isNameChar c)
    (hr : ¬ rest.head?.any Text.isNameChar) :
    (name ++ rest).takeWhile Text.isNameChar = name ∧ (name ++ rest).dropWhile Text.isNameChar = rest := by
  apply Text.takeWhile_append_stop hn
  intro c hc
  have hhead : rest.head? = some c := hc
  simpa [hhead] using hr

/-! ## Plain characters -/

/-- whether a character begins nothing longer than itself, wherever it stands -/
def isPlain (c : Char) : Bool := c != '\'' && c != '"' && c != '$' && c != '-' && c != '/' && c != ':'

theorem not_begins_of_isPlain {c : Char} (h : isPlain c = true) (rest : Text) : ¬ Begins before c rest := by
  rintro (rfl | rfl | ⟨-, tag, ht, hp⟩ | ⟨_, e⟩ | ⟨_, e⟩ | ⟨_, e⟩)
  · exact absurd h (by decide)
  · exact absurd h (by decide)
  · rw [ht.head hp] at h
    exact absurd h (by decide)
  · rw [← (List.cons.inj e).1] at h
    exact absurd h (by decide)
  · rw [← (List.cons.inj e).1] at h
    exact absurd h (by decide)
  · rw [← (List.cons.inj e).1] at h
    exact absurd h (by decide)

theorem isPlain_of_isNameChar {c : Char} (h : Text.isNameChar c = true) : isPlain c = true := by
  simp only [isPlain, Bool.and_eq_true, bne_iff_ne, ne_eq]
  refine ⟨⟨⟨⟨⟨?_, ?_⟩, ?_⟩, ?_⟩, ?_⟩, ?_⟩ <;> rintro rfl <;> exact absurd h (by decide)

theorem not_begins_of_isNameChar {c : Char} (h : Text.isNameChar c) (rest : Text) : ¬ Begins before c rest :=
  not_begins_of_isPlain (isPlain_of_isNameChar h) rest

/-- A character that begins nothing longer and is no colon is a token by itself. -/
theorem Scans.single {c : Char} {rest : Text} {tokens : List Token} (hb : ¬ Begins before c rest) (hc : c ≠ ':')
    (h : Scans (before ++ [c]) rest tokens) : Scans before (c :: rest) (.single c :: tokens) := by
  refine Scans.lexeme (.single hb) (fun e => ?_) h
  cases e
  exact absurd rfl hc

/-- Plain characters are tokens by themselves. -/
theorem Scans.plain {t rest : Text} {tokens : List Token} (ht : ∀ c ∈ t, isPlain c = true)
    (h : Scans (before ++ t) rest tokens) : Scans before (t ++ rest) (t.map .single ++ tokens) := by
  induction t generalizing before with
  | nil => simpa using h
  | cons c r ih =>
    have hc : isPlain c = true := ht c List.mem_cons_self
    have hr : Scans (before ++ [c]) (r ++ rest) (r.map .single ++ tokens) :=
      ih (fun d hd => ht d (List.mem_cons_of_mem _ hd)) (by simpa using h)
    refine Scans.single (not_begins_of_isPlain hc _) ?_ hr
    rintro rfl
    exact absurd hc (by decide)

/-- A colon that introduces a placeholder begins nothing longer: what follows is no second colon. -/
theorem Introduces.not_begins {after : Text} (h : Introduces before after) : ¬ Begins before ':' after := by
  obtain ⟨-, -, hs⟩ := h
  rintro (e | e | ⟨-, tag, ht, hp⟩ | ⟨_, e⟩ | ⟨_, e⟩ | hp)
  · simp at e
  · simp at e
  · exact absurd (ht.head hp) (by decide)
  · simp at e
  · simp at e
  · rw [prefix_pair_iff.1 hp] at hs
    simp [Text.isNameStart] at hs

/-! ## The scanner's tokens -/

theorem scans_tokensFrom (b s : Text) : Scans b.reverse s (tokensFrom b s) := by
  fun_induction tokensFrom b s with
  | case1 b => exact .nil
  | case2 b c r ih =>
    rcases nextToken_cases b.reverse c r with ⟨lexeme, rest, e, hl, hc, hn⟩ | ⟨rfl, -, hi, hn⟩
    · rw [List.reverse_reverse] at hn
      simp only [hn, List.reverse_append, List.reverse_reverse, Lexeme.token_text] at ih
      rw [hn, ← e]
      exact .lexeme hl hc (by simpa using ih)
    · rw [List.reverse_reverse] at hn
      simp only [hn, List.reverse_append, List.reverse_reverse, Token.text] at ih
      have hs := List.takeWhile_append_dropWhile (p := Text.isNameChar) (l := r)
      have hp := @Scans.placeholder b.reverse _ _ _ (hs.symm ▸ hi) (isNameChar_takeWhile r)
        (head_dropWhile_isNameChar r) ih
      rw [hn]
      rw [hs] at hp
      simpa [Token.text] using hp

theorem tokensFrom_of_scans {s : Text} {tokens : List Token} (h : Scans before s tokens) :
    tokensFrom before.reverse s = tokens := by
  induction h with
  | nil => simp [tokensFrom]
  | @lexeme before rest lexeme tokens hl hc _ ih =>
    obtain ⟨c, r, e⟩ := List.exists_cons_of_ne_nil (List.append_ne_nil_of_left_ne_nil hl.text_ne_nil rest)
    rw [e, tokensFrom, nextToken_of_lexes hl e hc]
    rw [List.reverse_append] at ih
    simpa using ih
  | @placeholder before name rest tokens hi hn hr _ ih =>
    rw [tokensFrom, nextToken_placeholder hi.not_begins hi, (takeWhile_isNameChar hn hr).1,
      (takeWhile_isNameChar hn hr).2]
    rw [List.reverse_append] at ih
    simpa [Token.text] using ih

/-- Scans are what the scanner does. -/
theorem scans_iff {s : Text} {tokens : List Token} : Scans before s tokens ↔ tokensFrom before.reverse s = tokens := by
  constructor
  · exact tokensFrom_of_scans
  · rintro rfl
    simpa using scans_tokensFrom before.reverse s

theorem scans_tokens (template : Text) : Scans [] template (tokens template) := scans_tokensFrom [] template

theorem Scans.text {s : Text} {tokens : List Token} (h : Scans before s tokens) : tokens.flatMap Token.text = s := by
  rw [← tokensFrom_of_scans h, text_tokensFrom]

/-- The tokens behind a number of tokens are the tokens of the text behind them. -/
theorem Scans.split {s : Text} {pre post : List Token} (h : Scans before s (pre ++ post)) :
    Scans (before ++ pre.flatMap Token.text) (post.flatMap Token.text) post := by
  induction pre generalizing before s with
  | nil =>
    rw [List.nil_append] at h
    simpa [h.text] using h
  | cons token pre ih =>
    rw [List.cons_append] at h
    generalize ht : token :: (pre ++ post) = tokens at h
    cases h with
    | nil => simp at ht
    | lexeme _ _ hrest =>
      obtain ⟨rfl, rfl⟩ := List.cons.inj ht
      simpa using ih hrest
    | placeholder _ _ _ hrest =>
      obtain ⟨rfl, rfl⟩ := List.cons.inj ht
      simpa [Token.text] using ih hrest

end Template

end SqlAccess
