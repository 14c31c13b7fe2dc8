/-
Templates with values in place of their placeholders, read again.

`Token.filledTokens` are the tokens one would want in a filled template: its own, with the literals of a value in
place of each placeholder. `Scans.fill` says that they are what is read, if every placeholder stands between blanks,
brackets and operators (`Fits`) and no minus sign is followed by a literal that begins with one (`OpensComment`);
`Scans.not_filled` says that else they are not, for two minus signs open a comment. The scanner looks at most at what
ends the text before and at what follows a token, so the proof goes token by token through two texts that look alike
to it (`Agree`).
-/
import SqlAccess.Proofs.Literal.Scan

namespace SqlAccess

namespace Template

/-! ## Where values may stand -/

/-- a blank, an opening bracket, a comma or an operator -/
def opensValue (c : Char) : Bool := Text.isBlank c || ['(', ',', '+', '-', '*', '/', '<', '>', '='].elem c

/-- a blank, a closing bracket, a comma or a semicolon -/
def closesValue (c : Char) : Bool := Text.isBlank c || [')', ',', ';'].elem c

/-- what a value may stand behind -/
def OpenBefore (before : Text) : Prop := ∀ c, before.getLast? = some c → opensValue c = true

/-- what a value may stand in front of -/
def ClosedAfter (rest : Text) : Prop := ∀ c, rest.head? = some c → closesValue c = true

theorem isPlain_of_isBlank {c : Char} (h : Text.isBlank c = true) : isPlain c = true := by
  simp only [isPlain, Bool.and_eq_true, bne_iff_ne, ne_eq]
  refine ⟨⟨⟨⟨⟨?_, ?_⟩, ?_⟩, ?_⟩, ?_⟩, ?_⟩ <;> rintro rfl <;> exact absurd h (by decide)

theorem isPlain_of_closesValue {c : Char} (h : closesValue c = true) : isPlain c = true := by
  rcases (Bool.or_eq_true _ _).mp h with h | h
  · exact isPlain_of_isBlank h
  · have hc : c = ')' ∨ c = ',' ∨ c = ';' := by simpa using h
    rcases hc with rfl | rfl | rfl <;> decide

theorem not_isNameChar_of_isBlank {c : Char} (h : Text.isBlank c = true) : ¬ Text.isNameChar c = true := by
  intro hn
  rcases (Bool.or_eq_true _ _).mp hn with hn | hn
  · have hv := Text.toNat_of_isAlphanum hn
    simp [Text.isBlank, UInt32.le_iff_toNat_le, ← UInt32.toNat_inj] at h
    omega
  · rw [beq_iff_eq.1 hn] at h
    exact absurd h (by decide)

theorem not_isNameChar_of_opensValue {c : Char} (h : opensValue c = true) : ¬ Text.isNameChar c = true := by
  rcases (Bool.or_eq_true _ _).mp h with h | h
  · exact not_isNameChar_of_isBlank h
  · have hc : c = '(' ∨ c = ',' ∨ c = '+' ∨ c = '-' ∨ c = '*' ∨ c = '/' ∨ c = '<' ∨ c = '>' ∨ c = '=' := by
      simpa using h
    rcases hc with rfl | rfl | rfl | rfl | rfl | rfl | rfl | rfl | rfl <;> decide

/-! ## Texts that look alike to what follows -/

/-- two texts that what follows cannot tell apart -/
structure Agree (before before' : Text) : Prop where
  word : AfterWord before ↔ AfterWord before'
  bracket : AfterBracket before ↔ AfterBracket before'
  escapeMark : AfterEscapeMark before ↔ AfterEscapeMark before'

theorem Agree.concat {before before' : Text} (h : Agree before before') (c : Char) :
    Agree (before ++ [c]) (before' ++ [c]) := by
  refine ⟨?_, ?_, ?_⟩
  · rw [AfterWord, AfterWord, endsIn_concat, endsIn_concat]
  · rw [AfterBracket, AfterBracket, endsIn_concat, endsIn_concat]
  · rw [afterEscapeMark_concat, afterEscapeMark_concat, h.word]

theorem Agree.append {before before' : Text} (h : Agree before before') (t : Text) :
    Agree (before ++ t) (before' ++ t) := by
  induction t generalizing before before' with
  | nil => simpa using h
  | cons c r ih => simpa using ih (h.concat c)

/-- Behind a character that is no `E` nothing else matters. -/
theorem agree_concat {c : Char} (hE : c ≠ 'E') (he : c ≠ 'e') (before before' : Text) :
    Agree (before ++ [c]) (before' ++ [c]) := by
  refine ⟨?_, ?_, ?_⟩
  · rw [AfterWord, AfterWord, endsIn_concat, endsIn_concat]
  · rw [AfterBracket, AfterBracket, endsIn_concat, endsIn_concat]
  · rw [afterEscapeMark_concat, afterEscapeMark_concat]
    simp [hE, he]

/-! ## Lexemes in other surroundings -/

theorem pair_transfer {a b c : Char} {rest rest' : Text} (hr : rest'.head? = rest.head?)
    (h : [a, b] <+: c :: rest') : [a, b] <+: c :: rest := by
  obtain ⟨u, e⟩ := h
  obtain rfl : a = c := (List.cons.inj e).1
  have hb : rest'.head? = some b := prefix_pair_iff.1 ⟨u, e⟩
  exact prefix_pair_iff.2 (hr.symm.trans hb)

/-- A lexeme stays one where the text before agrees, the next character is the same and no new tag begins. -/
theorem Lexes.transfer {before before' rest rest' : Text} {lexeme : Lexeme} (h : Lexes before lexeme rest)
    (hb : Agree before before') (hr : rest'.head? = rest.head?)
    (ht : ∀ tag, IsTag tag → tag <+: '$' :: rest' → tag <+: '$' :: rest) : Lexes before' lexeme rest' := by
  have nil : rest = [] → rest' = [] := fun e => List.head?_eq_none_iff.1 (by rw [hr, e]; rfl)
  cases h with
  | string he hq hm => exact .string (he.trans hb.escapeMark) hq (by rwa [hr])
  | openString he ho => rw [nil rfl]; exact .openString (he.trans hb.escapeMark) ho
  | name hq hm => exact .name hq (by rwa [hr])
  | openName ho => rw [nil rfl]; exact .openName ho
  | dollarBody hw htag hf => exact .dollarBody (mt hb.word.2 hw) htag hf
  | openDollarBody hw htag hn => rw [nil rfl]; exact .openDollarBody (mt hb.word.2 hw) htag hn
  | lineComment hn => exact .lineComment hn
  | openLineComment hn => rw [nil rfl]; exact .openLineComment hn
  | blockComment hf => exact .blockComment hf
  | openBlockComment hn => rw [nil rfl]; exact .openBlockComment hn
  | cast => exact .cast
  | @single c _ hn =>
    refine .single fun hbeg => hn ?_
    rcases hbeg with e | e | ⟨hw, tag, htag, hp⟩ | hp | hp | hp
    · exact Or.inl e
    · exact Or.inr (Or.inl e)
    · obtain rfl := htag.head hp
      exact Or.inr (Or.inr (Or.inl ⟨mt hb.word.1 hw, tag, htag, ht tag htag hp⟩))
    · exact Or.inr (Or.inr (Or.inr (Or.inl (pair_transfer hr hp))))
    · exact Or.inr (Or.inr (Or.inr (Or.inr (Or.inl (pair_transfer hr hp)))))
    · exact Or.inr (Or.inr (Or.inr (Or.inr (Or.inr (pair_transfer hr hp)))))

/-- A lexeme behind which a value may stand is a character by itself or a closed comment, which stands anywhere. -/
theorem Lexes.cases_open {before rest : Text} {lexeme : Lexeme} (h : Lexes before lexeme rest) (hr : rest ≠ [])
    (ho : OpenBefore (before ++ lexeme.text)) :
    (∃ c, lexeme = .single c ∧ opensValue c = true) ∨
      (lexeme.text.getLast? ≠ some '-' ∧ ∀ before' rest', Lexes before' lexeme rest') := by
  have last : ∀ {p c}, before ++ lexeme.text = p ++ [c] → opensValue c = true := by
    intro p c e
    exact ho c (by rw [e]; simp)
  cases h with
  | @string _ body _ _ _ _ => exact absurd (@last (before ++ '\'' :: body) '\'' (by simp [Lexeme.text])) (by decide)
  | @name body _ _ _ => exact absurd (@last (before ++ '"' :: body) '"' (by simp [Lexeme.text])) (by decide)
  | @dollarBody tag body _ _ htag _ =>
    obtain ⟨n, rfl, -, -⟩ := htag
    exact absurd (@last (before ++ ('$' :: (n ++ ['$'])) ++ (body ++ '$' :: n)) '$' (by simp [Lexeme.text])) (by decide)
  | cast => exact absurd (@last (before ++ [':']) ':' (by simp [Lexeme.text])) (by decide)
  | @lineComment body _ hn =>
    refine Or.inr ⟨?_, fun _ _ => .lineComment hn⟩
    change ('-' :: '-' :: body ++ ['\n']).getLast? ≠ _
    rw [List.getLast?_append]
    simp
  | @blockComment body _ hf =>
    refine Or.inr ⟨?_, fun _ _ => .blockComment hf⟩
    change ('/' :: '*' :: body ++ ['*', '/']).getLast? ≠ _
    rw [List.getLast?_append]
    simp
  | @single c _ _ => exact Or.inl ⟨c, rfl, @last before c rfl⟩
  | _ => exact absurd rfl hr

/-- A lexeme that begins with what closes a value is that character. -/
theorem Lexes.single_of_closed {before rest : Text} {lexeme : Lexeme} (h : Lexes before lexeme rest)
    (hc : ClosedAfter (lexeme.text ++ rest)) : ∃ c, lexeme = .single c ∧ closesValue c = true := by
  obtain ⟨c, r, e⟩ := List.exists_cons_of_ne_nil (List.append_ne_nil_of_left_ne_nil h.text_ne_nil rest)
  have hclose : closesValue c = true := hc c (by rw [e]; rfl)
  have hs : Lexes before (.single c) r := .single (not_begins_of_isPlain (isPlain_of_closesValue hclose) r)
  exact ⟨c, (h.unique hs e).1, hclose⟩

/-! ## Filled tokens -/

/-- the text of a token, or of the value that fills its placeholder -/
def Token.filledText (value : Text → Value) : Token → Text
  | .placeholder name => (value name).written true
  | token => token.text

/-- a token, or the tokens of the value that fills its placeholder -/
def Token.filledTokens (value : Text → Value) : Token → List Token
  | .placeholder name => (value name).tokens
  | token => [token]

variable {value : Text → Value}

@[simp] theorem Lexeme.filledText_token (l : Lexeme) : l.token.filledText value = l.text := by cases l <;> rfl

@[simp] theorem Lexeme.filledTokens_token (l : Lexeme) : l.token.filledTokens value = [l.token] := by cases l <;> rfl

/-- Every placeholder stands where a value may, and its value holds no expression. -/
def Fits (value : Text → Value) (before : Text) (tokens : List Token) : Prop :=
  ∀ pre name post, tokens = pre ++ .placeholder name :: post →
    OpenBefore (before ++ pre.flatMap Token.text) ∧ ClosedAfter (post.flatMap Token.text) ∧ (value name).Inert

/-- A placeholder behind a minus sign is filled with a literal that begins with one. -/
def OpensComment (value : Text → Value) (before : Text) (tokens : List Token) : Prop :=
  ∃ pre name post, tokens = pre ++ .placeholder name :: post ∧
    (before ++ pre.flatMap Token.text).getLast? = some '-' ∧ ((value name).written true).head? = some '-'

theorem Fits.tail {before : Text} {token : Token} {tokens : List Token} (h : Fits value before (token :: tokens)) :
    Fits value (before ++ token.text) tokens := by
  intro pre name post e
  simpa using h (token :: pre) name post (by rw [e]; rfl)

theorem OpensComment.cons {before : Text} {token : Token} {tokens : List Token}
    (h : OpensComment value (before ++ token.text) tokens) : OpensComment value before (token :: tokens) := by
  obtain ⟨pre, name, post, rfl, hl, hh⟩ := h
  exact ⟨token :: pre, name, post, rfl, by simpa using hl, hh⟩

/-- the first placeholder among tokens, if there is one -/
theorem split_placeholder (tokens : List Token) :
    (∃ pre name post, tokens = pre ++ .placeholder name :: post ∧ ∀ n, .placeholder n ∉ pre) ∨
      ∀ n, .placeholder n ∉ tokens := by
  induction tokens with
  | nil => exact Or.inr fun n h => nomatch h
  | cons token r ih =>
    by_cases hp : ∃ name, token = .placeholder name
    · obtain ⟨name, rfl⟩ := hp
      exact Or.inl ⟨[], name, r, rfl, fun n h => nomatch h⟩
    have htoken : ∀ n, .placeholder n ≠ token := fun n e => hp ⟨n, e.symm⟩
    rcases ih with ⟨pre, name, post, rfl, hpre⟩ | hr
    · refine Or.inl ⟨token :: pre, name, post, rfl, fun n hn => ?_⟩
      exact (List.mem_cons.1 hn).elim (htoken n) (hpre n)
    · exact Or.inr fun n hn => (List.mem_cons.1 hn).elim (htoken n) (hr n)

theorem filledText_of_no_placeholder {tokens : List Token} (h : ∀ n, .placeholder n ∉ tokens) :
    tokens.flatMap (Token.filledText value) = tokens.flatMap Token.text := by
  induction tokens with
  | nil => rfl
  | cons token r ih =>
    have ht : token.filledText value = token.text := by
      cases token with
      | placeholder name => exact absurd List.mem_cons_self (h name)
      | _ => rfl
    rw [List.flatMap_cons, List.flatMap_cons, ht, ih fun n hn => h n (List.mem_cons_of_mem _ hn)]

theorem Scans.head_text_ne_nil {before s : Text} {token : Token} {tokens : List Token}
    (h : Scans before s (token :: tokens)) : token.text ≠ [] := by
  cases h with
  | lexeme hl _ _ => simpa using hl.text_ne_nil
  | placeholder _ _ _ _ => simp [Token.text]

theorem prefix_of_not_mem {l p u : Text} {d : Char} (h : l <+: p ++ d :: u) (hd : d ∉ l) : l <+: p := by
  rcases List.prefix_or_prefix_of_prefix h (List.prefix_append p (d :: u)) with hl | ⟨m, rfl⟩
  · exact hl
  · cases m with
    | nil => simp
    | cons c m =>
      rw [List.prefix_append_right_inj] at h
      obtain ⟨w, e⟩ := h
      obtain rfl : c = d := (List.cons.inj e).1
      exact absurd (by simp) hd

/-- No tag reaches from a filled template into what fills it. -/
theorem tag_of_filled {before s : Text} {tokens : List Token} (h : Scans before s tokens)
    (hf : Fits value before tokens) (hn : ∀ name post, tokens ≠ .placeholder name :: post) {tag : Text} (ht : IsTag tag)
    (hp : tag <+: '$' :: tokens.flatMap (Token.filledText value)) : tag <+: '$' :: tokens.flatMap Token.text := by
  rcases split_placeholder tokens with ⟨pre, name, post, rfl, hpre⟩ | hno
  · obtain ⟨ho, -, -⟩ := hf pre name post rfl
    have hne : pre.flatMap Token.text ≠ [] := by
      cases pre with
      | nil => exact absurd rfl (hn name post)
      | cons token pre => exact List.append_ne_nil_of_left_ne_nil h.head_text_ne_nil _
    obtain ⟨p, d, hpd⟩ : ∃ p d, pre.flatMap Token.text = p ++ [d] :=
      ⟨_, _, (List.dropLast_append_getLast hne).symm⟩
    have hd : opensValue d = true := ho d (by rw [hpd]; simp)
    obtain ⟨n, rfl, hname, -⟩ := ht
    have hdn : d ∉ n ++ ['$'] := by
      intro hm
      rcases List.mem_append.1 hm with hm | hm
      · exact not_isNameChar_of_opensValue hd (hname d hm)
      · rw [List.mem_singleton.1 hm] at hd
        exact absurd hd (by decide)
    rw [List.flatMap_append, filledText_of_no_placeholder hpre, hpd, List.cons_prefix_cons, List.append_assoc] at hp
    have hp' : n ++ ['$'] <+: p := prefix_of_not_mem hp.2 hdn
    rw [List.flatMap_append, hpd, List.cons_prefix_cons, List.append_assoc]
    exact ⟨rfl, hp'.trans (List.prefix_append p _)⟩
  · rwa [filledText_of_no_placeholder hno] at hp

theorem head_filled {before s : Text} {tokens : List Token} (h : Scans before s tokens)
    (hn : ∀ name post, tokens ≠ .placeholder name :: post) :
    (tokens.flatMap (Token.filledText value)).head? = (tokens.flatMap Token.text).head? := by
  cases tokens with
  | nil => rfl
  | cons token r =>
    have ht : token.filledText value = token.text := by
      cases token with
      | placeholder name => exact absurd rfl (hn name r)
      | _ => rfl
    obtain ⟨c, t, e⟩ := List.exists_cons_of_ne_nil h.head_text_ne_nil
    rw [List.flatMap_cons, List.flatMap_cons, ht, e]
    rfl

theorem not_afterEscapeMark_of_open {before : Text} (h : OpenBefore before) : ¬ AfterEscapeMark before := by
  rintro ⟨p, c, rfl, hc, -⟩
  have ho : opensValue c = true := h c (by simp)
  rcases hc with rfl | rfl <;> exact absurd ho (by decide)

/-- What stands in front of a value is still a token by itself once the value is there. -/
theorem lexes_before_value {before rest : Text} {c d : Char} (hc : opensValue c = true)
    (hd : d = '\'' ∨ d = '-' ∨ isBareChar d = true) (hcd : ¬ (c = '-' ∧ d = '-')) :
    Lexes before (.single c) (d :: rest) := by
  refine .single ?_
  rintro (rfl | rfl | ⟨-, tag, ht, hp⟩ | hp | hp | hp)
  · exact absurd hc (by decide)
  · exact absurd hc (by decide)
  · rw [ht.head hp] at hc
    exact absurd hc (by decide)
  · obtain ⟨u, e⟩ := hp
    exact hcd ⟨(List.cons.inj e).1.symm, (List.cons.inj (List.cons.inj e).2).1.symm⟩
  · obtain ⟨u, e⟩ := hp
    rw [← (List.cons.inj (List.cons.inj e).2).1] at hd
    revert hd
    decide
  · obtain ⟨u, e⟩ := hp
    rw [← (List.cons.inj e).1] at hc
    exact absurd hc (by decide)

/-- A lexeme in front of a placeholder is still one in front of the value, whatever stands before. -/
theorem lexes_in_front_of_value {before rest name : Text} {l : Lexeme} {post : List Token} (hl : Lexes before l rest)
    (hrest : Scans (before ++ l.text) rest (.placeholder name :: post))
    (hf : Fits value (before ++ l.text) (.placeholder name :: post))
    (hd : ¬ OpensComment value (before ++ l.text) (.placeholder name :: post)) (before' : Text) :
    Lexes before' l ((Token.placeholder name :: post).flatMap (Token.filledText value)) ∧
      (l = .single ':' → ¬ Introduces before' ((Token.placeholder name :: post).flatMap (Token.filledText value))) := by
  obtain ⟨ho, -, hv⟩ := hf [] name post rfl
  rw [List.flatMap_nil, List.append_nil] at ho
  have hcolon : l ≠ .single ':' := by
    rintro rfl
    exact absurd (ho ':' (by simp [Lexeme.text])) (by decide)
  refine ⟨?_, fun e => absurd e hcolon⟩
  have hne : rest ≠ [] := by
    rw [← hrest.text]
    simp [Token.text]
  rcases hl.cases_open hne ho with ⟨c, rfl, hopen⟩ | ⟨-, hany⟩
  · obtain ⟨d, r, hw, hdc⟩ := head_written hv
    have hcd : ¬ (c = '-' ∧ d = '-') := by
      rintro ⟨rfl, rfl⟩
      exact hd ⟨[], name, post, rfl, by simp [Lexeme.text], by rw [hw]; rfl⟩
    rw [List.flatMap_cons, Token.filledText, hw]
    exact lexes_before_value hopen hdc hcd
  · exact hany _ _

/-- A lexeme in front of a template is still one in front of the filled template. -/
theorem lexes_in_front_of_filled {before before' rest : Text} {l : Lexeme} {tokens : List Token}
    (hl : Lexes before l rest) (hc : l = .single ':' → ¬ Introduces before rest)
    (hrest : Scans (before ++ l.text) rest tokens) (hf : Fits value (before ++ l.text) tokens)
    (hd : ¬ OpensComment value (before ++ l.text) tokens)
    (hb : Agree before before' ∨ ClosedAfter (l.text ++ rest)) :
    Lexes before' l (tokens.flatMap (Token.filledText value)) ∧
      (l = .single ':' → ¬ Introduces before' (tokens.flatMap (Token.filledText value))) := by
  by_cases hp : ∃ name post, tokens = .placeholder name :: post
  · obtain ⟨name, post, rfl⟩ := hp
    exact lexes_in_front_of_value hl hrest hf hd before'
  have hnp : ∀ name post, tokens ≠ .placeholder name :: post := fun name post e => hp ⟨name, post, e⟩
  have hhead := @head_filled value _ _ _ hrest hnp
  rw [hrest.text] at hhead
  rcases hb with hb | hb
  · refine ⟨hl.transfer hb hhead fun tag ht htp => ?_, fun e hi => hc e ?_⟩
    · have htag := tag_of_filled hrest hf hnp ht htp
      rwa [hrest.text] at htag
    · obtain ⟨hw, hk, hs⟩ := hi
      exact ⟨mt hb.word.1 hw, mt hb.bracket.1 hk, by rwa [← hhead]⟩
  · obtain ⟨c, rfl, hclose⟩ := hl.single_of_closed hb
    refine ⟨.single (not_begins_of_isPlain (isPlain_of_closesValue hclose) _), ?_⟩
    intro e
    cases e
    exact absurd hclose (by decide)

/-- **Filling keeps the tokens.** A template whose placeholders stand where values may, and of which no minus sign is
followed by a literal that begins with one, is read as its own tokens with the literals in place of placeholders. -/
theorem Scans.fill {before s : Text} {tokens : List Token} (h : Scans before s tokens) {before' : Text}
    (hb : Agree before before' ∨ ClosedAfter s) (hf : Fits value before tokens)
    (hd : ¬ OpensComment value before tokens) :
    Scans before' (tokens.flatMap (Token.filledText value)) (tokens.flatMap (Token.filledTokens value)) := by
  induction h generalizing before' with
  | nil => exact .nil
  | @lexeme before rest l tokens hl hc hrest ih =>
    -- behind the lexeme both texts look alike again
    have hb' : Agree (before ++ l.text) (before' ++ l.text) := by
      rcases hb with hb | hb
      · exact hb.append l.text
      · obtain ⟨c, rfl, hclose⟩ := hl.single_of_closed hb
        refine agree_concat ?_ ?_ before before' <;> rintro rfl <;> exact absurd hclose (by decide)
    have htail : Fits value (before ++ l.text) tokens := by simpa using hf.tail
    have hdtail : ¬ OpensComment value (before ++ l.text) tokens := fun ho => hd (OpensComment.cons (by simpa using ho))
    have hscan := ih (Or.inl hb') htail hdtail
    obtain ⟨hlex, hcolon⟩ := lexes_in_front_of_filled hl hc hrest htail hdtail hb
    rw [List.flatMap_cons, List.flatMap_cons, Lexeme.filledText_token, Lexeme.filledTokens_token]
    exact .lexeme hlex hcolon hscan
  | @placeholder before name rest tokens hi hn hr hrest ih =>
    obtain ⟨ho, hclosed, hv⟩ := hf [] name tokens rfl
    rw [hrest.text] at hclosed
    have hagree : Agree before before' := by
      refine hb.resolve_right fun hs => ?_
      exact absurd (hs ':' rfl) (by decide)
    have hmark : ¬ AfterEscapeMark before' := by
      rw [← hagree.escapeMark]
      exact not_afterEscapeMark_of_open (by simpa using ho)
    have htail : Fits value (before ++ ':' :: name) tokens := hf.tail
    have hdtail : ¬ OpensComment value (before ++ ':' :: name) tokens := fun hoc => hd (OpensComment.cons hoc)
    have hscan := @ih (before' ++ (value name).written true) (Or.inr hclosed) htail hdtail
    have hquote : (tokens.flatMap (Token.filledText value)).head? ≠ some '\'' := by
      have hnp : ∀ n post, tokens ≠ .placeholder n :: post := by
        rintro n post rfl
        rw [← hrest.text] at hclosed
        exact absurd (hclosed ':' rfl) (by decide)
      rw [head_filled hrest hnp, hrest.text]
      intro hq
      exact absurd (hclosed '\'' hq) (by decide)
    exact Scans.written hv hmark hquote hscan

/-! ## Two minus signs -/

/-- Two minus signs side by side are never read as two tokens. -/
theorem Scans.not_two_minus {before s : Text} {pre post : List Token} :
    ¬ Scans before s (pre ++ .single '-' :: .single '-' :: post) := by
  intro h
  have h' := h.split
  generalize (Token.single '-' :: .single '-' :: post).flatMap Token.text = t at h'
  generalize ht : Token.single '-' :: .single '-' :: post = tokens at h'
  cases h' with
  | nil => cases ht
  | @lexeme _ rest l r hl _ hrest =>
    obtain ⟨hl', rfl⟩ := List.cons.inj ht
    obtain rfl : l = .single '-' := Lexeme.token_injective hl'.symm
    have hr : rest = '-' :: post.flatMap Token.text := by rw [← hrest.text]; rfl
    cases hl with
    | single hb => exact hb (Or.inr (Or.inr (Or.inr (Or.inl (prefix_pair_iff.2 (by rw [hr]; rfl))))))
  | placeholder _ _ _ _ => cases ht

/-- The token in front of a value that ends in a minus sign is that sign. -/
theorem Scans.minus_of_getLast {before s : Text} {token : Token} {post : List Token}
    (h : Scans before s (token :: post)) (hpost : post.flatMap Token.text ≠ []) (ho : OpenBefore (before ++ token.text))
    (hm : token.text.getLast? = some '-') : token = .single '-' := by
  generalize ht : token :: post = tokens at h
  cases h with
  | nil => cases ht
  | lexeme hl _ hrest =>
    obtain ⟨rfl, rfl⟩ := List.cons.inj ht
    rw [hrest.text] at hpost
    rw [Lexeme.token_text] at ho hm
    rcases hl.cases_open hpost ho with ⟨c, rfl, -⟩ | ⟨hne, -⟩
    · obtain rfl : c = '-' := by simpa [Lexeme.text] using hm
      rfl
    · exact absurd hm hne
  | @placeholder _ name _ _ _ hn _ _ =>
    obtain ⟨rfl, -⟩ := List.cons.inj ht
    have hmem : '-' ∈ ':' :: name := List.mem_of_getLast? hm
    rcases List.mem_cons.1 hmem with e | hmem
    · exact absurd e (by decide)
    · exact absurd (hn '-' hmem) (by decide)

/-- Where a comment is opened the filled tokens are not those that are read. -/
theorem Scans.not_filled {s s' : Text} {tokens : List Token} (h : Scans [] s tokens) (hf : Fits value [] tokens)
    (hd : OpensComment value [] tokens) : ¬ Scans [] s' (tokens.flatMap (Token.filledTokens value)) := by
  obtain ⟨pre, name, post, rfl, hl, hh⟩ := hd
  obtain ⟨ho, -, hv⟩ := hf pre name post rfl
  rcases List.eq_nil_or_concat pre with rfl | ⟨init, token, rfl⟩
  · simp at hl
  rw [List.concat_eq_append, List.append_assoc] at h
  have hsplit := h.split
  have htext : (init.concat token).flatMap Token.text = init.flatMap Token.text ++ token.text := by simp
  rw [htext, List.nil_append] at hl ho
  have hm : token.text.getLast? = some '-' := by
    rwa [List.getLast?_append, Option.or_of_isSome] at hl
    rw [List.getLast?_isSome]
    exact hsplit.head_text_ne_nil
  obtain rfl : token = .single '-' := hsplit.minus_of_getLast (by simp [Token.text]) (by simpa using ho) hm
  obtain ⟨r, hr⟩ := tokens_minus hv hh
  have e : ((init.concat (.single '-')) ++ .placeholder name :: post).flatMap (Token.filledTokens value)
      = init.flatMap (Token.filledTokens value) ++ .single '-' :: .single '-' ::
          (r ++ post.flatMap (Token.filledTokens value)) := by
    simp [Token.filledTokens, hr]
  rw [e]
  exact Scans.not_two_minus

end Template

end SqlAccess
