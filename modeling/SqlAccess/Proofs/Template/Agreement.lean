/-
Where the scanner and the server agree.

The scanner knows neither of the server's two rules. `departs` finds the tokens at which that shows: a comment that
opens another, a tag outside ASCII, and a character outside ASCII in front of something that only stands where no word
ends. Where no token does (`agrees`), `Settled` holds between any two of them: what ends there looks alike to both as far
as it matters to what follows. So the server reads the tokens of the scanner. The other way round, a template that it
reads like that, without a placeholder behind an identifier, has no token that departs: `placeholders_for_server`.
-/
import SqlAccess.Proofs.Query.Surroundings
import SqlAccess.Proofs.Template.Placeholder
import SqlAccess.Proofs.Template.Server

namespace SqlAccess

namespace Template

namespace Server

/-! ## Where scanner and server may part -/

/-- whether the text begins with something that only stands where no word ends -/
def mindsWord : Text → Bool
  | ':' :: r => r.head?.any Text.isNameStart
  | '$' :: r => (Template.dollarTag? r).isSome
  | 'E' :: '\'' :: _ => true
  | 'e' :: '\'' :: _ => true
  | _ => false

/-- whether the two part at a token behind `before`, last character first, and in front of `rest` -/
def departs (before rest : Text) : Token → Bool
  | .region .blockComment text => !rest.isEmpty && Text.contains ['/', '*'] (text.drop 2)
  | .single '$' => !endsInWord before && (dollarTag? isTagChar rest).any fun tagged => tagged.1.any isForeign
  | .single c => isForeign c && mindsWord rest
  | _ => false

/-- whether they part at none of the tokens, which stand behind `before` -/
def agreesFrom (before : Text) : List Token → Bool
  | [] => true
  | token :: r => !departs before (r.flatMap Token.text) token && agreesFrom (token.text.reverse ++ before) r

/-- whether they part nowhere in a template -/
def agrees (template : Text) : Bool := agreesFrom [] (tokens template)

theorem agreesFrom_cons {before : Text} {token : Token} {tokens : List Token} :
    agreesFrom before (token :: tokens) = true ↔ departs before (tokens.flatMap Token.text) token = false ∧
      agreesFrom (token.text.reverse ++ before) tokens = true := by
  rw [agreesFrom, Bool.and_eq_true, Bool.not_eq_true']

/-! ## What stands in front of a token -/

/-- Between `before`, last character first, and `s`: what ends there looks alike to scanner and server as far as `s` can
tell. -/
structure Settled (before s : Text) : Prop where
  word : mindsWord s = true → endsInWord before = Template.endsInWord before
  mark : s.head? = some '\'' → endsInEscapeMark before = Template.endsInEscapeMark before

theorem settled_nil (before : Text) : Settled before [] where
  word h := nomatch h
  mark h := nomatch h

theorem settled_empty (s : Text) : Settled [] s where
  word _ := rfl
  mark _ := rfl

theorem settled_cons {c : Char} {before s : Text} (hword : mindsWord s = true → isForeign c = false)
    (hmark : c = 'E' ∨ c = 'e' → s.head? = some '\'' → endsInWord before = Template.endsInWord before) :
    Settled (c :: before) s where
  word h := isWordChar_of_not_isForeign (hword h)
  mark h := by
    by_cases hc : c = 'E' ∨ c = 'e'
    · simp only [endsInEscapeMark, Template.endsInEscapeMark, hmark hc h]
    · have hc' : (c == 'E' || c == 'e') = false := by simpa using hc
      simp only [endsInEscapeMark, Template.endsInEscapeMark, hc', Bool.false_and]

/-- Behind a character of ASCII that is no `E` everything is settled. -/
theorem settled_of_closing {c : Char} (hc : isForeign c = false) (hmark : ¬ (c = 'E' ∨ c = 'e')) (before s : Text) :
    Settled (c :: before) s := settled_cons (fun _ => hc) fun h => absurd h hmark

/-- Behind two characters of ASCII everything is settled. -/
theorem settled_of_two {c d : Char} (hc : isForeign c = false) (hd : isForeign d = false) (before s : Text) :
    Settled (c :: d :: before) s := settled_cons (fun _ => hc) fun _ _ => isWordChar_of_not_isForeign hd

variable {before : Text}

/-- What is longer than a character ends where everything is settled. -/
theorem settled_of_region {kind : Region} {text rest : Text} (h : Lexes before (.region kind text) rest) (b : Text) :
    Settled (text.reverse ++ b) rest := by
  cases h with
  | string _ _ _ => simpa using settled_of_closing (by decide) (by decide) _ _
  | name _ _ => simpa using settled_of_closing (by decide) (by decide) _ _
  | dollarBody _ ht _ =>
    obtain ⟨name, rfl, -, -⟩ := ht
    simpa using settled_of_closing (by decide) (by decide) _ _
  | lineComment _ => simpa using settled_of_closing (by decide) (by decide) _ _
  | blockComment _ => simpa using settled_of_closing (by decide) (by decide) _ _
  | openString _ _ => exact settled_nil _
  | openName _ => exact settled_nil _
  | openDollarBody _ _ _ => exact settled_nil _
  | openLineComment _ => exact settled_nil _
  | openBlockComment _ => exact settled_nil _

/-- a character by itself -/
theorem settled_of_single {c : Char} {rest : Text} (hs : Settled before (c :: rest))
    (hd : departs before rest (.single c) = false) : Settled (c :: before) rest := by
  apply settled_cons
  · intro hrest
    by_cases hdollar : c = '$'
    · subst hdollar
      decide
    · simpa [departs, hdollar, hrest] using hd
  · intro hc hrest
    obtain ⟨r, rfl⟩ : ∃ r, rest = '\'' :: r := by
      cases rest with
      | nil => cases hrest
      | cons d r => exact ⟨r, by simpa using hrest⟩
    apply hs.word
    rcases hc with rfl | rfl <;> rfl

theorem name_ne_nil {name rest : Text} (h : Introduces before (name ++ rest))
    (hrest : ¬ rest.head?.any Text.isNameChar) : name ≠ [] := by
  rintro rfl
  obtain ⟨-, -, hstart⟩ := h
  apply hrest
  cases rest with
  | nil => cases hstart
  | cons c r =>
    simp only [List.nil_append, List.head?_cons, Option.any_some, Text.isNameStart, Text.isNameChar, Char.isAlphanum,
      Bool.or_eq_true] at hstart ⊢
    exact hstart.imp_left Or.inl

/-- the characters of a placeholder -/
theorem settled_of_name {name : Text} (hname : ∀ c ∈ name, Text.isNameChar c) (hne : name ≠ []) (b s : Text) :
    Settled (name.reverse ++ ':' :: b) s := by
  rcases List.eq_nil_or_concat name with rfl | ⟨front, c, rfl⟩
  · exact absurd rfl hne
  · have hc : isForeign c = false := not_isForeign_of_isNameChar (hname c (by simp))
    rcases List.eq_nil_or_concat front with rfl | ⟨front, d, rfl⟩
    · simpa using settled_of_two hc (by decide) b s
    · have hd : isForeign d = false := not_isForeign_of_isNameChar (hname d (by simp))
      simpa using settled_of_two hc hd (front.reverse ++ ':' :: b) s

/-- From one place between tokens to the next. -/
theorem settled_step {s : Text} {token : Token} {tokens : List Token} (h : Scans before s (token :: tokens))
    (hs : Settled before.reverse s) (hd : departs before.reverse (tokens.flatMap Token.text) token = false) :
    Settled (token.text.reverse ++ before.reverse) (tokens.flatMap Token.text) := by
  generalize ht : token :: tokens = all at h
  cases h with
  | nil => cases ht
  | @lexeme _ rest lexeme _ hl _ hrest =>
    obtain ⟨rfl, rfl⟩ := List.cons.inj ht
    rw [hrest.text] at hd ⊢
    rw [Lexeme.token_text]
    cases lexeme with
    | region kind text => exact settled_of_region hl before.reverse
    | cast => exact settled_of_two (by decide) (by decide) before.reverse rest
    | single c => exact settled_of_single hs hd
  | @placeholder _ name rest _ hi hn hr hrest =>
    obtain ⟨rfl, rfl⟩ := List.cons.inj ht
    rw [hrest.text]
    simpa [Token.text] using settled_of_name hn (name_ne_nil hi hr) before.reverse rest

/-! ## One step of both -/

/-- Where everything is settled, a token that agrees and is no placeholder is the server's lexeme. -/
theorem nextLexeme_eq {b r : Text} {c : Char} (hs : Settled b (c :: r))
    (hd : departs b (nextToken b c r).2 (nextToken b c r).1 = false)
    (hp : ∀ name, (nextToken b c r).1 ≠ .placeholder name) :
    ((nextLexeme b c r).1.token, (nextLexeme b c r).2) = nextToken b c r := by
  by_cases hquote : c = '\''
  · subst hquote
    rw [nextToken_quote, nextLexeme, if_pos rfl, hs.mark rfl]
    rfl
  by_cases hname : c = '"'
  · subst hname
    rfl
  by_cases hdollar : c = '$'
  · subst hdollar
    cases hscanner : Template.dollarTag? r with
    | some tagged =>
      have hword : endsInWord b = Template.endsInWord b := hs.word (by simp [mindsWord, hscanner])
      have hserver : dollarTag? isTagChar r = some tagged := dollarTag?_of_name hscanner
      cases hb : Template.endsInWord b <;> simp [nextToken, nextLexeme, hword, hb, hscanner, hserver, Lexeme.token]
    | none =>
      have htoken : nextToken b '$' r = (.single '$', r) := by simp [nextToken, hscanner]
      rw [htoken] at hd ⊢
      simp only [departs, Bool.and_eq_false_iff, Bool.not_eq_false'] at hd
      rcases hd with hword | hascii
      · simp [nextLexeme, hword, Lexeme.token]
      · -- a tag of the server's alone would be one outside ASCII
        have hserver : dollarTag? isTagChar r = none := (dollarTag?_eq hascii).trans hscanner
        simp [nextLexeme, hserver, Lexeme.token]
  by_cases hline : c = '-' ∧ r.head? = some '-'
  · simp [nextToken, nextLexeme, hline, Lexeme.token]
  by_cases hblock : c = '/' ∧ r.head? = some '*'
  · obtain ⟨rfl, hstar⟩ := hblock
    obtain ⟨body, rfl⟩ := List.head?_eq_some_iff.1 hstar
    rw [nextToken_slashStar] at hd ⊢
    rw [← (commentRun_eq_through_iff body).2 hd]
    rfl
  by_cases hcast : c = ':' ∧ r.head? = some ':'
  · simp [nextToken, nextLexeme, hcast, Lexeme.token]
  · have hlexeme : nextLexeme b c r = (.single c, r) := by
      simp [nextLexeme, hquote, hname, hdollar, hline, hblock, hcast]
    have htoken : nextToken b c r = (.single c, r) := by
      simp only [nextToken, hquote, hname, hdollar, hline, hblock, hcast, false_and, if_false] at hp ⊢
      split
      case isTrue hintroduces =>
        rw [if_pos hintroduces] at hp
        exact absurd rfl (hp _)
      case isFalse => rfl
    rw [hlexeme, htoken]
    rfl

theorem nextLexeme_of_nextToken {b r rest : Text} {c : Char} {lexeme : Lexeme}
    (htoken : nextToken b c r = (lexeme.token, rest)) (hs : Settled b (c :: r))
    (hd : departs b rest lexeme.token = false) : nextLexeme b c r = (lexeme, rest) := by
  have hstep := nextLexeme_eq hs (by rwa [htoken]) (by rw [htoken]; exact lexeme.token_ne_placeholder)
  rw [htoken] at hstep
  obtain ⟨hlexeme, hrest⟩ := Prod.mk.inj hstep
  exact Prod.ext (Lexeme.token_injective hlexeme) hrest

/-! ## Runs of both -/

theorem lexemesFrom_lexeme {b r rest : Text} {c : Char} {lexeme : Lexeme} (e : lexeme.text ++ rest = c :: r)
    (h : nextLexeme b c r = (lexeme, rest)) :
    lexemesFrom b (lexeme.text ++ rest) = lexeme :: lexemesFrom (lexeme.text.reverse ++ b) rest := by
  rw [e, lexemesFrom, h]

/-- To the server a placeholder is a colon and letters. -/
theorem lexemesFrom_placeholder {name rest : Text} (hi : Introduces before (name ++ rest))
    (hn : ∀ c ∈ name, Text.isNameChar c) (b : Text) : lexemesFrom b (':' :: (name ++ rest)) =
      (Token.placeholder name).lexemes ++ lexemesFrom ((Token.placeholder name).text.reverse ++ b) rest := by
  have hcolon : (name ++ rest).head? ≠ some ':' := by
    intro hhead
    obtain ⟨-, -, hstart⟩ := hi
    rw [hhead] at hstart
    cases hstart
  rw [lexemesFrom, nextLexeme_colon hcolon, lexemesFrom_name hn]
  simp [Token.lexemes, Token.text, Lexeme.text]

/-- Where the two part at no token, the server reads the tokens of the scanner. -/
theorem lexemesFrom_of_scans {s : Text} {tokens : List Token} (h : Scans before s tokens)
    (hs : Settled before.reverse s) (ha : agreesFrom before.reverse tokens = true) :
    lexemesFrom before.reverse s = tokens.flatMap Token.lexemes := by
  induction h with
  | nil => simp [lexemesFrom]
  | @lexeme before rest lexeme tokens hl hc hrest ih =>
    obtain ⟨hd, ha⟩ := agreesFrom_cons.1 ha
    have hnext := settled_step (.lexeme hl hc hrest) hs hd
    rw [hrest.text] at hd hnext
    rw [Lexeme.token_text] at ha hnext
    obtain ⟨c, r, e⟩ := List.exists_cons_of_ne_nil (List.append_ne_nil_of_left_ne_nil hl.text_ne_nil rest)
    have hstep : nextLexeme before.reverse c r = (lexeme, rest) :=
      nextLexeme_of_nextToken (nextToken_of_lexes hl e hc) (e ▸ hs) hd
    rw [← List.reverse_append] at ha hnext
    rw [lexemesFrom_lexeme e hstep, List.flatMap_cons, Lexeme.token_lexemes, List.singleton_append,
      ← ih hnext ha, List.reverse_append]
  | @placeholder before name rest tokens hi hn hr hrest ih =>
    obtain ⟨hd, ha⟩ := agreesFrom_cons.1 ha
    have hnext := settled_step (.placeholder hi hn hr hrest) hs hd
    rw [hrest.text] at hnext
    rw [← List.reverse_append] at ha hnext
    rw [lexemesFrom_placeholder hi hn, List.flatMap_cons, ← List.reverse_append]
    exact congrArg _ (ih hnext ha)

/-- What stands between two tokens is settled. -/
theorem settled_split {s : Text} {pre post : List Token} (h : Scans before s (pre ++ post))
    (hs : Settled before.reverse s) (ha : agreesFrom before.reverse (pre ++ post) = true) :
    Settled (before ++ pre.flatMap Token.text).reverse (post.flatMap Token.text) := by
  induction pre generalizing before s with
  | nil =>
    rw [List.nil_append] at h
    simpa [h.text] using hs
  | cons token pre ih =>
    rw [List.cons_append] at h ha
    obtain ⟨hd, ha⟩ := agreesFrom_cons.1 ha
    have hnext := settled_step h hs hd
    have hcut : Scans before s ([token] ++ (pre ++ post)) := h
    have hrest : Scans (before ++ token.text) ((pre ++ post).flatMap Token.text) (pre ++ post) := by
      simpa using hcut.split
    rw [← List.reverse_append] at ha hnext
    simpa using ih hrest hnext ha

/-! ## Tokens at which both part -/

theorem starts_of_blockComment {text rest : Text} (h : Lexes before (.region .blockComment text) rest) :
    ∃ s, text = '/' :: '*' :: s := by
  generalize hlexeme : Lexeme.region .blockComment text = lexeme at h
  cases h with
  | @string escapes _ _ _ _ _ => cases escapes <;> cases hlexeme
  | @openString escapes _ _ _ => cases escapes <;> cases hlexeme
  | blockComment _ =>
    cases hlexeme
    exact ⟨_, rfl⟩
  | openBlockComment _ =>
    cases hlexeme
    exact ⟨_, rfl⟩
  | _ => cases hlexeme

/-- Where the server takes the lexeme that the scanner takes, the two do not part, a character outside ASCII apart. -/
theorem departs_eq_false {c : Char} {r rest : Text} {lexeme : Lexeme} (hl : Lexes before lexeme rest)
    (htoken : nextToken before.reverse c r = (lexeme.token, rest))
    (hstep : nextLexeme before.reverse c r = (lexeme, rest)) (e : lexeme.text ++ rest = c :: r)
    (hnext : ∀ d, lexeme = .single d → isForeign d = true → mindsWord rest = false) :
    departs before.reverse rest lexeme.token = false := by
  cases lexeme with
  | cast => rfl
  | single d =>
    obtain ⟨rfl, rfl⟩ := List.cons.inj e
    by_cases hdollar : d = '$'
    · subst hdollar
      cases hword : endsInWord before.reverse with
      | true => simp [departs, Lexeme.token, hword]
      | false =>
        cases hserver : dollarTag? isTagChar rest with
        | none => simp [departs, Lexeme.token, hserver]
        | some tagged => simp [nextLexeme, hword, hserver] at hstep
    · cases hforeign : isForeign d with
      | false => simp [departs, Lexeme.token, hforeign]
      | true => simp [departs, Lexeme.token, hnext d rfl hforeign]
  | region kind text =>
    by_cases hkind : kind = .blockComment
    · subst hkind
      obtain ⟨s, rfl⟩ := starts_of_blockComment hl
      obtain ⟨rfl, rfl⟩ := List.cons.inj e
      have hscanner := (nextToken_slashStar before.reverse (s ++ rest)).symm.trans htoken
      have hserver := (nextLexeme_slashStar before.reverse (s ++ rest)).symm.trans hstep
      simp only [Lexeme.token, Prod.mk.injEq, Token.region.injEq, Lexeme.region.injEq, List.cons.injEq, true_and]
        at hscanner hserver
      have hsame : commentRun 0 (s ++ rest) = Text.through ['*', '/'] (s ++ rest) :=
        Prod.ext (hserver.1.trans hscanner.1.symm) (hserver.2.trans hscanner.2.symm)
      have hparts := (commentRun_eq_through_iff _).1 hsame
      rw [hscanner.1, hscanner.2] at hparts
      exact hparts
    · cases kind <;> first | rfl | exact absurd rfl hkind

/-- A string behind an `E` that ends a word to the server alone is of another kind to each. -/
theorem lexemesFrom_ne_of_mark {b r : Text} {m : Char} (hm : m = 'E' ∨ m = 'e') (hserver : endsInWord b = true)
    (hscanner : Template.endsInWord b = false) :
    lexemesFrom b (m :: '\'' :: r) ≠ (tokensFrom b (m :: '\'' :: r)).flatMap Token.lexemes := by
  have hplain : isPlain m = true := by rcases hm with rfl | rfl <;> decide
  have htoken : nextToken b m ('\'' :: r) = (.single m, '\'' :: r) := by rcases hm with rfl | rfl <;> rfl
  have hkinds : endsInEscapeMark (m :: b) = false ∧ Template.endsInEscapeMark (m :: b) = true := by
    rcases hm with rfl | rfl <;> simp [endsInEscapeMark, Template.endsInEscapeMark, hserver, hscanner]
  intro he
  rw [lexemesFrom, nextLexeme_of_isPlain hplain, tokensFrom, htoken, List.flatMap_cons] at he
  have hrest : lexemesFrom (m :: b) ('\'' :: r) = (tokensFrom (m :: b) ('\'' :: r)).flatMap Token.lexemes :=
    (List.cons.inj he).2
  rw [lexemesFrom, tokensFrom, nextToken_quote, hkinds.2, List.flatMap_cons] at hrest
  have hstring : (nextLexeme (m :: b) '\'' r).1 = .region .plainString ('\'' :: (quotedRun '\'' false r).1) := by
    rw [nextLexeme, if_pos rfl, hkinds.1]
    rfl
  have hhead := (List.cons.inj hrest).1
  rw [hstring] at hhead
  cases hhead

/-- Behind a character outside ASCII nothing stands that minds a word, where the server takes what the scanner takes and
no placeholder stands there. -/
theorem mindsWord_eq_false {b rest : Text} {c : Char} (hc : isForeign c = true)
    (he : lexemesFrom (c :: b) rest = (tokensFrom (c :: b) rest).flatMap Token.lexemes)
    (hp : ∀ name tokens, tokensFrom (c :: b) rest ≠ .placeholder name :: tokens) : mindsWord rest = false := by
  have hserver : endsInWord (c :: b) = true := by simp [endsInWord, isWordChar, hc]
  have hscanner : Template.endsInWord (c :: b) = false := by
    rw [Bool.eq_false_iff]
    intro hword
    rw [not_isForeign_of_isWordChar hword] at hc
    cases hc
  have hbracket : endsInBracket (c :: b) = false := by
    rw [Bool.eq_false_iff]
    intro hbracket
    have hc' : c = '[' ∨ c = ']' := by simpa [endsInBracket] using hbracket
    rcases hc' with rfl | rfl <;> cases hc
  rw [Bool.eq_false_iff]
  intro hminds
  unfold mindsWord at hminds
  split at hminds
  case h_1 r =>
    have hi : Introduces (c :: b).reverse r := introduces_iff.2 (by simp [hscanner, hbracket, hminds])
    have htoken := nextToken_placeholder hi.not_begins hi
    rw [List.reverse_reverse] at htoken
    apply hp
    rw [tokensFrom, htoken]
  case h_2 r =>
    obtain ⟨⟨tag, body⟩, htag⟩ := Option.isSome_iff_exists.1 hminds
    have hstep : nextLexeme (c :: b) '$' r = (.single '$', r) := by simp [nextLexeme, hserver]
    rw [lexemesFrom, hstep, tokensFrom, nextToken_dollar (by simp [hscanner]) htag] at he
    cases (List.cons.inj he).1
  case h_3 r => exact lexemesFrom_ne_of_mark (Or.inl rfl) hserver hscanner he
  case h_4 r => exact lexemesFrom_ne_of_mark (Or.inr rfl) hserver hscanner he
  case h_5 => cases hminds

/-- Where the server reads the tokens of the scanner and no placeholder stands behind a word, they part at no token. -/
theorem agreesFrom_of_lexemes {s : Text} {tokens : List Token} (h : Scans before s tokens)
    (he : lexemesFrom before.reverse s = tokens.flatMap Token.lexemes)
    (hp : ∀ pre name post, tokens = pre ++ .placeholder name :: post →
      endsInWord (before ++ pre.flatMap Token.text).reverse = false) : agreesFrom before.reverse tokens = true := by
  induction h with
  | nil => rfl
  | @lexeme before rest lexeme tokens hl hc hrest ih =>
    obtain ⟨c, r, e⟩ := List.exists_cons_of_ne_nil (List.append_ne_nil_of_left_ne_nil hl.text_ne_nil rest)
    rw [e, lexemesFrom, List.flatMap_cons, Lexeme.token_lexemes, List.singleton_append] at he
    obtain ⟨hhead, htail⟩ := List.cons.inj he
    have hleft : (nextLexeme before.reverse c r).2 = rest := by
      have htext := text_nextLexeme before.reverse c r
      rw [hhead, ← e] at htext
      exact List.append_cancel_left htext
    rw [hhead, hleft, ← List.reverse_append] at htail
    apply agreesFrom_cons.2
    rw [hrest.text, Lexeme.token_text, ← List.reverse_append]
    refine ⟨departs_eq_false hl (nextToken_of_lexes hl e hc) (Prod.ext hhead hleft) e ?_, ih htail ?_⟩
    · intro d hlexeme hforeign
      subst hlexeme
      have htokens : tokens = tokensFrom (d :: before.reverse) rest := by
        simpa [Lexeme.text] using (tokensFrom_of_scans hrest).symm
      refine mindsWord_eq_false (b := before.reverse) hforeign ?_ ?_
      · rw [← htokens]
        simpa [Lexeme.text] using htail
      · intro name others hothers
        have hword := hp [.single d] name others (by rw [htokens, hothers]; rfl)
        simp [endsInWord, isWordChar, hforeign, Token.text] at hword
    · intro pre name post htokens
      simpa using hp (lexeme.token :: pre) name post (by rw [htokens]; rfl)
  | @placeholder before name rest tokens hi hn hr hrest ih =>
    rw [lexemesFrom_placeholder hi hn, List.flatMap_cons, ← List.reverse_append] at he
    apply agreesFrom_cons.2
    rw [← List.reverse_append]
    refine ⟨rfl, ih (List.append_cancel_left he) ?_⟩
    intro pre other post htokens
    simpa [Token.text] using hp (.placeholder name :: pre) other post (by rw [htokens]; rfl)

/-! ## Placeholders and the server's regions -/

theorem introduced_of_placeholder {s name : Text} {tokens : List Token}
    (h : Scans before s (.placeholder name :: tokens)) : ¬ AfterWord before ∧ mindsWord s = true := by
  generalize ht : .placeholder name :: tokens = all at h
  cases h with
  | nil => cases ht
  | @lexeme _ _ lexeme _ _ _ _ => exact absurd (List.cons.inj ht).1.symm (lexeme.token_ne_placeholder name)
  | placeholder hi _ _ _ => exact ⟨hi.1, hi.2.2⟩

theorem endsIn_isWordChar_iff : EndsIn (fun c => isWordChar c) before ↔ endsInWord before.reverse := by
  rcases List.eq_nil_or_concat before with rfl | ⟨p, c, rfl⟩
  · simp [not_endsIn_nil, endsInWord]
  · simp [List.concat_eq_append, endsIn_concat, endsInWord]

/-- A region among the lexemes of tokens stands behind a placeholder of theirs or in front of it. -/
theorem region_apart {pre post : List Token} {name : Text} {front back : List Lexeme} {kind : Region} {text : Text}
    (e : (pre ++ .placeholder name :: post).flatMap Token.lexemes = front ++ .region kind text :: back) :
    (pre.flatMap Token.text).length + (name.length + 1) ≤ (front.flatMap Lexeme.text).length ∨
      (front.flatMap Lexeme.text).length + text.length ≤ (pre.flatMap Token.text).length := by
  rw [List.flatMap_append, List.flatMap_cons] at e
  rcases List.append_eq_append_iff.1 e with ⟨between, hfront, hrest⟩ | ⟨between, hpre, hrest⟩
  · -- the region is none of the placeholder's characters, so these are all in front of it
    have hbehind : ∃ gap, between = (Token.placeholder name).lexemes ++ gap := by
      rcases List.append_eq_append_iff.1 hrest with ⟨gap, hbetween, -⟩ | ⟨inside, hname, hregion⟩
      · exact ⟨gap, hbetween⟩
      · cases inside with
        | nil => exact ⟨[], by simpa using hname.symm⟩
        | cons lexeme inside =>
          obtain ⟨rfl, -⟩ := List.cons.inj hregion
          have hmem : Lexeme.region kind text ∈ (Token.placeholder name).lexemes := by simp [hname]
          simp [Token.lexemes] at hmem
    obtain ⟨gap, rfl⟩ := hbehind
    left
    rw [hfront]
    simp only [List.flatMap_append, flatMap_lexemes_text, Token.lexemes_text, List.length_append, Token.text,
      List.length_cons]
    omega
  · cases between with
    | nil => cases hrest
    | cons lexeme between =>
      obtain ⟨rfl, -⟩ := List.cons.inj hrest
      right
      rw [← flatMap_lexemes_text, hpre]
      simp only [List.flatMap_append, List.flatMap_cons, List.length_append, Lexeme.text]
      omega

/-- **Placeholders for the server.** Scanner and server part nowhere in a template if and only if the server reads the
tokens of the scanner and no placeholder stands behind a character of an identifier. Then every placeholder stands
outside the server's strings, quoted names, dollar-quoted bodies and comments. -/
theorem placeholders_for_server (template : Text) :
    (agrees template = true ↔ lexemes template = (tokens template).flatMap Token.lexemes ∧
      ∀ p ∈ placeholders template, ¬ EndsIn (fun c => isWordChar c) (template.take p.start)) ∧
    (agrees template = true → ∀ p ∈ placeholders template, ∀ front kind text back,
      lexemes template = front ++ .region kind text :: back →
        p.stop ≤ (front.flatMap Lexeme.text).length ∨ (front.flatMap Lexeme.text).length + text.length ≤ p.start) := by
  have hscan := scans_tokens template
  have hread (h : agrees template = true) : lexemes template = (tokens template).flatMap Token.lexemes :=
    lexemesFrom_of_scans hscan (settled_empty template) h
  refine ⟨⟨?_, ?_⟩, ?_⟩
  · intro h
    refine ⟨hread h, ?_⟩
    intro p hp
    obtain ⟨pre, post, htokens, hstart, -⟩ := mem_placeholders_iff.1 hp
    rw [agrees, htokens] at h
    rw [htokens] at hscan
    -- the colon minds a word, so what stands in front of it looks to the server as it looks to the scanner
    have hsettled := settled_split hscan (settled_empty template) h
    obtain ⟨hword, hminds⟩ := introduced_of_placeholder hscan.split
    rw [hstart, (cut_of_tokens htokens).1, endsIn_isWordChar_iff]
    rw [afterWord_iff, ← hsettled.word hminds] at hword
    exact hword
  · intro h
    obtain ⟨hlexemes, hwords⟩ := h
    refine agreesFrom_of_lexemes hscan hlexemes ?_
    intro pre name post htokens
    have hword := hwords _ (placeholder_of_tokens htokens)
    rw [(cut_of_tokens htokens).1, endsIn_isWordChar_iff] at hword
    simpa using hword
  · intro h p hp front kind text back hlexemes
    obtain ⟨pre, post, htokens, hstart, hstop⟩ := mem_placeholders_iff.1 hp
    rw [hread h, htokens] at hlexemes
    rw [hstop, hstart]
    exact region_apart hlexemes

/-- accents in a comment, in a body and inside a name, and a placeholder behind them -/
def accented : Text := "/* é:a */ SELECT $a$é:b$a$, naïve, :x".toList

/-- Accents in comments and bodies do not matter, nor inside a name. -/
theorem placeholders_for_server_accented : agrees accented = true ∧ placeholders accented = [⟨35, 37, ['x']⟩] ∧
    ¬ EndsIn (fun c => isWordChar c) (accented.take 35) ∧
    ∀ front kind text back, lexemes accented = front ++ .region kind text :: back →
      37 ≤ (front.flatMap Lexeme.text).length ∨ (front.flatMap Lexeme.text).length + text.length ≤ 35 := by
  have hagrees : agrees accented = true := by decide +kernel
  have hplaceholders : placeholders accented = [⟨35, 37, ['x']⟩] := by decide +kernel
  have hx : (⟨35, 37, ['x']⟩ : Placeholder) ∈ placeholders accented := by
    rw [hplaceholders]
    exact List.mem_cons_self
  obtain ⟨hiff, hregions⟩ := placeholders_for_server accented
  exact ⟨hagrees, hplaceholders, (hiff.1 hagrees).2 _ hx, hregions hagrees _ hx⟩

/-- The scanner finds a placeholder in a comment that opened another, in a body with an accent in its tag, and in the
middle of a word. -/
theorem placeholders_in_regions :
    (placeholders "/* /* */ :x */".toList = [⟨9, 11, ['x']⟩] ∧
      lexemes "/* /* */ :x */".toList = [.region .blockComment "/* /* */ :x */".toList]) ∧
    (placeholders "$é$ :x $é$".toList = [⟨4, 6, ['x']⟩] ∧
      lexemes "$é$ :x $é$".toList = [.region .dollarBody "$é$ :x $é$".toList]) ∧
    (placeholders "é:x".toList = [⟨1, 3, ['x']⟩] ∧ EndsIn (fun c => isWordChar c) ("é:x".toList.take 1)) := by
  refine ⟨⟨?_, ?_⟩, ⟨?_, ?_⟩, ?_, ?_⟩
  · decide +kernel
  · decide +kernel
  · decide +kernel
  · decide +kernel
  · decide +kernel
  · exact ⟨[], 'é', rfl, by decide⟩

end Server

end Template

end SqlAccess
