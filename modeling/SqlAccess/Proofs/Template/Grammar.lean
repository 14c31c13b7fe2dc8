/-
The grammar of templates, said without a scanner.

A template is read from left to right as lexemes: strings, quoted names, dollar-quoted bodies, comments, the pair
`::`, and any other character by itself. `Lexes before lexeme rest` says that the lexeme stands behind `before` and in
front of `rest`; `Reads` strings lexemes together. A lexeme that does not close reaches the end of the text.

`lexes_nextToken` and `nextToken_of_lexes` tie the scanner's step to the grammar: what it takes is a lexeme or a
placeholder, and where a lexeme stands it takes that lexeme. So the grammar is unambiguous.
-/
import SqlAccess.Proofs.Text
import SqlAccess.Proofs.Template.Run

namespace SqlAccess

namespace Template

/-! ## The grammar -/

/-- one unit of a template; a placeholder is a colon and letters here -/
inductive Lexeme where
  | region (kind : Region) (text : Text)
  | cast
  | single (c : Char)
  deriving DecidableEq, Repr

def Lexeme.text : Lexeme → Text
  | .region _ text => text
  | .cast => [':', ':']
  | .single c => [c]

/-- a character with the property ends the text before -/
def EndsIn (property : Char → Prop) (before : Text) : Prop := ∃ p c, before = p ++ [c] ∧ property c

/-- a letter, digit, `_` or `$` ends the text before -/
def AfterWord (before : Text) : Prop := EndsIn (fun c => Text.isWordChar c) before

def AfterBracket (before : Text) : Prop := EndsIn (fun c => c = '[' ∨ c = ']') before

/-- an `E` or `e` that does not itself stand behind a word character ends the text before -/
def AfterEscapeMark (before : Text) : Prop := ∃ p c, before = p ++ [c] ∧ (c = 'E' ∨ c = 'e') ∧ ¬ AfterWord p

/-- `$name$`, the name empty or of letters, digits and `_` with no digit first -/
def IsTag (tag : Text) : Prop :=
  ∃ name, tag = '$' :: (name ++ ['$']) ∧ (∀ c ∈ name, Text.isNameChar c) ∧ ¬ name.head?.any Char.isDigit

/-- the kind of a string whose backslashes escape, or not -/
def stringKind (escapes : Bool) : Region := if escapes then .escapeString else .plainString

/-- whether something longer than a single character begins with `c` in front of `rest` -/
def Begins (before : Text) (c : Char) (rest : Text) : Prop :=
  c = '\'' ∨ c = '"' ∨ (¬ AfterWord before ∧ ∃ tag, IsTag tag ∧ tag <+: c :: rest) ∨
    ['-', '-'] <+: c :: rest ∨ ['/', '*'] <+: c :: rest ∨ [':', ':'] <+: c :: rest

/-- the lexemes that stand behind `before` and in front of the rest -/
inductive Lexes (before : Text) : Lexeme → Text → Prop
  | string {escapes : Bool} {body rest : Text} : (escapes = true ↔ AfterEscapeMark before) →
      QuotedBody '\'' escapes body → rest.head? ≠ some '\'' →
      Lexes before (.region (stringKind escapes) ('\'' :: (body ++ ['\'']))) rest
  | openString {escapes : Bool} {body : Text} : (escapes = true ↔ AfterEscapeMark before) →
      OpenBody '\'' escapes body → Lexes before (.region (stringKind escapes) ('\'' :: body)) []
  | name {body rest : Text} : QuotedBody '"' false body → rest.head? ≠ some '"' →
      Lexes before (.region .quotedName ('"' :: (body ++ ['"']))) rest
  | openName {body : Text} : OpenBody '"' false body → Lexes before (.region .quotedName ('"' :: body)) []
  | dollarBody {tag body rest : Text} : ¬ AfterWord before → IsTag tag → Text.FirstAfter tag body →
      Lexes before (.region .dollarBody (tag ++ (body ++ tag))) rest
  | openDollarBody {tag body : Text} : ¬ AfterWord before → IsTag tag → ¬ tag <:+: body →
      Lexes before (.region .dollarBody (tag ++ body)) []
  | lineComment {body rest : Text} : '\n' ∉ body →
      Lexes before (.region .lineComment ('-' :: '-' :: (body ++ ['\n']))) rest
  | openLineComment {body : Text} : '\n' ∉ body → Lexes before (.region .lineComment ('-' :: '-' :: body)) []
  | blockComment {body rest : Text} : Text.FirstAfter ['*', '/'] body →
      Lexes before (.region .blockComment ('/' :: '*' :: (body ++ ['*', '/']))) rest
  | openBlockComment {body : Text} : ¬ ['*', '/'] <:+: body →
      Lexes before (.region .blockComment ('/' :: '*' :: body)) []
  | cast {rest : Text} : Lexes before .cast rest
  | single {c : Char} {rest : Text} : ¬ Begins before c rest → Lexes before (.single c) rest

/-- a text that stands behind `before`, read as lexemes -/
inductive Reads : Text → Text → List Lexeme → Prop
  | nil {before : Text} : Reads before [] []
  | cons {before rest : Text} {lexeme : Lexeme} {lexemes : List Lexeme} : Lexes before lexeme rest →
      Reads (before ++ lexeme.text) rest lexemes → Reads before (lexeme.text ++ rest) (lexeme :: lexemes)

/-- whether a colon between `before` and `after` introduces a placeholder, if it is a lexeme by itself -/
def Introduces (before after : Text) : Prop :=
  ¬ AfterWord before ∧ ¬ AfterBracket before ∧ after.head?.any Text.isNameStart

/-! ## What stands before -/

variable {before : Text}

theorem endsIn_concat {property : Char → Prop} {c : Char} : EndsIn property (before ++ [c]) ↔ property c := by
  constructor
  · rintro ⟨p, d, e, hd⟩
    obtain ⟨-, hcd⟩ := List.append_inj' e rfl
    rwa [(List.cons.inj hcd).1]
  · exact fun h => ⟨before, c, rfl, h⟩

theorem afterEscapeMark_concat {c : Char} :
    AfterEscapeMark (before ++ [c]) ↔ (c = 'E' ∨ c = 'e') ∧ ¬ AfterWord before := by
  constructor
  · rintro ⟨p, d, e, hd, hp⟩
    obtain ⟨rfl, hcd⟩ := List.append_inj' e rfl
    obtain ⟨rfl, -⟩ := List.cons.inj hcd
    exact ⟨hd, hp⟩
  · rintro ⟨hc, hb⟩
    exact ⟨before, c, rfl, hc, hb⟩

theorem not_endsIn_nil {property : Char → Prop} : ¬ EndsIn property [] := by
  rintro ⟨p, c, e, -⟩
  simp at e

theorem afterWord_iff : AfterWord before ↔ endsInWord before.reverse := by
  rcases List.eq_nil_or_concat before with rfl | ⟨p, c, rfl⟩
  · simp [AfterWord, not_endsIn_nil, endsInWord]
  · simp [AfterWord, List.concat_eq_append, endsIn_concat, endsInWord]

theorem afterBracket_iff : AfterBracket before ↔ endsInBracket before.reverse := by
  rcases List.eq_nil_or_concat before with rfl | ⟨p, c, rfl⟩
  · simp [AfterBracket, not_endsIn_nil, endsInBracket]
  · simp [AfterBracket, List.concat_eq_append, endsIn_concat, endsInBracket]

theorem afterEscapeMark_iff : AfterEscapeMark before ↔ endsInEscapeMark before.reverse := by
  rcases List.eq_nil_or_concat before with rfl | ⟨p, c, rfl⟩
  · simp [AfterEscapeMark, endsInEscapeMark]
  · have e : endsInEscapeMark (p ++ [c]).reverse = ((c == 'E' || c == 'e') && !endsInWord p.reverse) := by
      simp [endsInEscapeMark]
    rw [List.concat_eq_append, e]
    constructor
    · rintro ⟨q, d, e, hd, hq⟩
      obtain ⟨rfl, hcd⟩ := List.append_inj' e rfl
      rw [afterWord_iff] at hq
      simpa [(List.cons.inj hcd).1, hq] using hd
    · intro h
      simp only [Bool.and_eq_true, Bool.or_eq_true, beq_iff_eq, Bool.not_eq_true'] at h
      exact ⟨p, c, rfl, h.1, by simp [afterWord_iff, h.2]⟩

theorem endsInEscapeMark_eq {escapes : Bool} (h : escapes = true ↔ AfterEscapeMark before) :
    endsInEscapeMark before.reverse = escapes :=
  Bool.eq_iff_iff.2 (afterEscapeMark_iff.symm.trans h.symm)

theorem introduces_iff {after : Text} : Introduces before after ↔
    !endsInWord before.reverse ∧ !endsInBracket before.reverse ∧ after.head?.any Text.isNameStart := by
  simp [Introduces, afterWord_iff, afterBracket_iff]

/-! ## Tags -/

theorem dollarTag_eq_some {s tag body : Text} (h : dollarTag? s = some (tag, body)) :
    IsTag tag ∧ '$' :: s = tag ++ body := by
  refine ⟨?_, (dollarTag_append h).symm⟩
  have hs := List.takeWhile_append_dropWhile (p := Text.isNameChar) (l := s)
  simp only [dollarTag?] at h
  split at h
  · simp at h
  · rename_i hd
    split at h
    · rename_i r hr
      simp only [Option.some.injEq, Prod.mk.injEq] at h
      refine ⟨s.takeWhile Text.isNameChar, h.1.symm, List.all_eq_true.1 List.all_takeWhile, ?_⟩
      cases s with
      | nil => simp
      | cons c t =>
        rw [List.takeWhile_cons]
        split
        · simpa using hd
        · simp
    · simp at h

theorem takeWhile_name {name : Text} (h : ∀ c ∈ name, Text.isNameChar c) (r : Text) :
    (name ++ '$' :: r).takeWhile Text.isNameChar = name ∧
      (name ++ '$' :: r).dropWhile Text.isNameChar = '$' :: r := by
  apply Text.takeWhile_append_stop h
  intro c hc
  cases hc
  decide

theorem dollarTag_of_isTag {s tag body : Text} (ht : IsTag tag) (h : '$' :: s = tag ++ body) :
    dollarTag? s = some (tag, body) := by
  obtain ⟨name, rfl, hn, hd⟩ := ht
  have hs : s = name ++ '$' :: body := by simpa using h
  obtain ⟨h1, h2⟩ := takeWhile_name hn body
  have hd' : ¬ s.head?.any Char.isDigit := by
    cases name with
    | nil => simp [hs]
    | cons c n => simpa [hs] using hd
  rw [dollarTag?, if_neg hd', hs, h1, h2]
  rfl

theorem dollarTag_eq_none {s : Text} : dollarTag? s = none ↔ ¬ ∃ tag, IsTag tag ∧ tag <+: '$' :: s := by
  constructor
  · rintro h ⟨tag, ht, body, e⟩
    rw [dollarTag_of_isTag ht e.symm] at h
    simp at h
  · intro h
    cases hd : dollarTag? s with
    | none => rfl
    | some p =>
      obtain ⟨ht, e⟩ := dollarTag_eq_some hd
      exact absurd ⟨p.1, ht, p.2, e.symm⟩ h

theorem IsTag.head {tag s : Text} {c : Char} (h : IsTag tag) (hp : tag <+: c :: s) : c = '$' := by
  obtain ⟨name, rfl, -, -⟩ := h
  obtain ⟨t, e⟩ := hp
  exact (List.cons.inj e).1.symm

/-! ## The scanner's step, by what begins -/

theorem nextToken_quote (b r : Text) : nextToken b '\'' r =
    (.region (stringKind (endsInEscapeMark b)) ('\'' :: (quotedRun '\'' (endsInEscapeMark b) r).1),
      (quotedRun '\'' (endsInEscapeMark b) r).2) := rfl

theorem nextToken_doubleQuote (b r : Text) : nextToken b '"' r =
    (.region .quotedName ('"' :: (quotedRun '"' false r).1), (quotedRun '"' false r).2) := rfl

theorem nextToken_dollar {b r tag body : Text} (hb : ¬ endsInWord b) (h : dollarTag? r = some (tag, body)) :
    nextToken b '$' r = (.region .dollarBody (tag ++ (Text.through tag body).1), (Text.through tag body).2) := by
  simp [nextToken, hb, h]

theorem nextToken_dashes (b r : Text) : nextToken b '-' ('-' :: r) =
    (.region .lineComment ('-' :: (Text.through ['\n'] ('-' :: r)).1), (Text.through ['\n'] ('-' :: r)).2) := rfl

theorem nextToken_slashStar (b r : Text) : nextToken b '/' ('*' :: r) =
    (.region .blockComment ('/' :: '*' :: (Text.through ['*', '/'] r).1), (Text.through ['*', '/'] r).2) := rfl

theorem prefix_pair_iff {c d : Char} {r : Text} : [c, d] <+: c :: r ↔ r.head? = some d := by
  cases r with
  | nil => simp
  | cons e r => simp [List.cons_prefix_cons, eq_comm]

/-- Where nothing longer begins, the scanner takes one character, or a placeholder where a colon introduces one. -/
theorem nextToken_of_not_begins {c : Char} {r : Text} (h : ¬ Begins before c r) :
    nextToken before.reverse c r =
      if c = ':' ∧ !endsInWord before.reverse ∧ !endsInBracket before.reverse ∧ r.head?.any Text.isNameStart then
        (.placeholder (r.takeWhile Text.isNameChar), r.dropWhile Text.isNameChar)
      else (.single c, r) := by
  simp only [Begins, not_or] at h
  obtain ⟨hq, hn, hd, hl, hb, hc⟩ := h
  unfold nextToken
  rw [if_neg hq, if_neg hn]
  split
  · rename_i hw
    obtain ⟨rfl, hw⟩ := hw
    have hw' : ¬ AfterWord before := by rw [afterWord_iff]; simpa using hw
    rw [dollarTag_eq_none.2 fun ht => hd ⟨hw', ht⟩]
    simp
  rw [if_neg (fun e => hl (by rw [e.1, prefix_pair_iff]; exact e.2)),
    if_neg (fun e => hb (by rw [e.1, prefix_pair_iff]; exact e.2)),
    if_neg (fun e => hc (by rw [e.1, prefix_pair_iff]; exact e.2))]

theorem nextToken_single {c : Char} {r : Text} (h : ¬ Begins before c r) (hi : c = ':' → ¬ Introduces before r) :
    nextToken before.reverse c r = (.single c, r) := by
  rw [nextToken_of_not_begins h, if_neg]
  rintro ⟨hc, hw⟩
  exact hi hc (introduces_iff.2 hw)

theorem nextToken_placeholder {r : Text} (h : ¬ Begins before ':' r) (hi : Introduces before r) :
    nextToken before.reverse ':' r = (.placeholder (r.takeWhile Text.isNameChar), r.dropWhile Text.isNameChar) := by
  rw [nextToken_of_not_begins h, if_pos ⟨rfl, introduces_iff.1 hi⟩]

/-! ## The scanner's step and the grammar -/

def Lexeme.token : Lexeme → Token
  | .region kind text => .region kind text
  | .cast => .cast
  | .single c => .single c

@[simp] theorem Lexeme.token_text (lexeme : Lexeme) : lexeme.token.text = lexeme.text := by cases lexeme <;> rfl

theorem Lexeme.token_injective {l k : Lexeme} (h : l.token = k.token) : l = k := by
  cases l <;> cases k <;> simp_all [Lexeme.token]

theorem Lexeme.token_ne_placeholder (lexeme : Lexeme) (name : Text) : lexeme.token ≠ .placeholder name := by
  cases lexeme <;> simp [Lexeme.token]

theorem IsTag.ne_nil {tag : Text} (h : IsTag tag) : tag ≠ [] := by
  obtain ⟨name, rfl, -, -⟩ := h
  simp

theorem Lexes.text_ne_nil {lexeme : Lexeme} {rest : Text} (h : Lexes before lexeme rest) : lexeme.text ≠ [] := by
  cases h with
  | dollarBody _ ht _ => simp [Lexeme.text, ht.ne_nil]
  | openDollarBody _ ht _ => simp [Lexeme.text, ht.ne_nil]
  | _ => simp [Lexeme.text]

theorem infix_newline_iff {s : Text} : ['\n'] <:+: s ↔ '\n' ∈ s := by
  constructor
  · rintro ⟨u, v, rfl⟩; simp
  · intro h
    obtain ⟨u, v, rfl⟩ := List.append_of_mem h
    exact ⟨u, v, by simp⟩

theorem firstAfter_newline {body : Text} (h : '\n' ∉ body) : Text.FirstAfter ['\n'] body := by
  intro u v e
  rcases List.eq_nil_or_concat v with rfl | ⟨w, c, rfl⟩
  · rfl
  · rw [List.concat_eq_append, ← List.append_assoc] at e
    have hb := (List.append_inj' e rfl).1
    exact absurd (by simp [hb]) h

theorem not_mem_of_firstAfter {body : Text} (h : Text.FirstAfter ['\n'] body) : '\n' ∉ body := by
  intro hm
  obtain ⟨u, v, rfl⟩ := List.append_of_mem hm
  have := h u (v ++ ['\n']) (by simp)
  simp at this

/-- Some lexeme begins at every character. -/
theorem exists_lexes (before : Text) (c : Char) (r : Text) :
    ∃ lexeme rest, lexeme.text ++ rest = c :: r ∧ Lexes before lexeme rest := by
  by_cases h : Begins before c r
  · rcases h with rfl | rfl | ⟨hw, tag, ht, hp⟩ | hp | hp | hp
    · rcases quotedRun_cases '\'' (endsInEscapeMark before.reverse) r with
        ⟨body, rest, rfl, hb, hr, -⟩ | ⟨ho, -⟩
      · exact ⟨_, rest, by simp [Lexeme.text], .string afterEscapeMark_iff.symm hb hr⟩
      · exact ⟨_, [], by simp [Lexeme.text], .openString afterEscapeMark_iff.symm ho⟩
    · rcases quotedRun_cases '"' false r with ⟨body, rest, rfl, hb, hr, -⟩ | ⟨ho, -⟩
      · exact ⟨_, rest, by simp [Lexeme.text], .name hb hr⟩
      · exact ⟨_, [], by simp [Lexeme.text], .openName ho⟩
    · obtain ⟨s, e⟩ := hp
      rcases Text.through_cases ht.ne_nil s with ⟨body, rest, rfl, hf, -⟩ | ⟨hn, -⟩
      · exact ⟨_, rest, by simp [Lexeme.text, ← e], .dollarBody hw ht hf⟩
      · exact ⟨_, [], by simp [Lexeme.text, ← e], .openDollarBody hw ht hn⟩
    · obtain ⟨s, e⟩ := hp
      rcases Text.through_cases (List.cons_ne_nil '\n' []) s with ⟨body, rest, rfl, hf, -⟩ | ⟨hn, -⟩
      · exact ⟨_, rest, by simp [Lexeme.text, ← e], .lineComment (not_mem_of_firstAfter hf)⟩
      · exact ⟨_, [], by simp [Lexeme.text, ← e], .openLineComment (mt infix_newline_iff.2 hn)⟩
    · obtain ⟨s, e⟩ := hp
      rcases Text.through_cases (List.cons_ne_nil '*' ['/']) s with ⟨body, rest, rfl, hf, -⟩ | ⟨hn, -⟩
      · exact ⟨_, rest, by simp [Lexeme.text, ← e], .blockComment hf⟩
      · exact ⟨_, [], by simp [Lexeme.text, ← e], .openBlockComment hn⟩
    · obtain ⟨s, e⟩ := hp
      exact ⟨.cast, s, e, .cast⟩
  · exact ⟨.single c, r, rfl, .single h⟩

/-- Where a lexeme stands the scanner takes it, a colon that introduces a placeholder apart. -/
theorem nextToken_of_lexes {lexeme : Lexeme} {c : Char} {r rest : Text} (h : Lexes before lexeme rest)
    (e : lexeme.text ++ rest = c :: r) (hc : lexeme = .single ':' → ¬ Introduces before rest) :
    nextToken before.reverse c r = (lexeme.token, rest) := by
  cases h with
  | @string escapes body _ he hb hr =>
    have e' : '\'' :: (body ++ '\'' :: rest) = c :: r := by simpa [Lexeme.text] using e
    obtain ⟨rfl, rfl⟩ := List.cons.inj e'
    rw [nextToken_quote, endsInEscapeMark_eq he, quotedRun_closed (by decide) hb hr]
    rfl
  | @openString escapes body he ho =>
    have e' : '\'' :: body = c :: r := by simpa [Lexeme.text] using e
    obtain ⟨rfl, rfl⟩ := List.cons.inj e'
    rw [nextToken_quote, endsInEscapeMark_eq he, quotedRun_open ho]
    rfl
  | @name body _ hb hr =>
    have e' : '"' :: (body ++ '"' :: rest) = c :: r := by simpa [Lexeme.text] using e
    obtain ⟨rfl, rfl⟩ := List.cons.inj e'
    rw [nextToken_doubleQuote, quotedRun_closed (by decide) hb hr]
    rfl
  | @openName body ho =>
    have e' : '"' :: body = c :: r := by simpa [Lexeme.text] using e
    obtain ⟨rfl, rfl⟩ := List.cons.inj e'
    rw [nextToken_doubleQuote, quotedRun_open ho]
    rfl
  | @dollarBody tag body _ hw ht hf =>
    have e' : tag ++ (body ++ tag ++ rest) = c :: r := by simpa [Lexeme.text] using e
    obtain rfl := ht.head ⟨_, e'⟩
    rw [nextToken_dollar (mt afterWord_iff.2 hw) (dollarTag_of_isTag ht e'.symm),
      Text.through_of_firstAfter ht.ne_nil hf]
    rfl
  | @openDollarBody tag body hw ht hn =>
    have e' : tag ++ body = c :: r := by simpa [Lexeme.text] using e
    obtain rfl := ht.head ⟨_, e'⟩
    rw [nextToken_dollar (mt afterWord_iff.2 hw) (dollarTag_of_isTag ht e'.symm), Text.through_of_not_infix hn]
    rfl
  | @lineComment body _ hb =>
    have hf : Text.FirstAfter ['\n'] ('-' :: body) := firstAfter_newline (by simpa using hb)
    have e' : '-' :: '-' :: (body ++ ['\n'] ++ rest) = c :: r := by simpa [Lexeme.text] using e
    obtain ⟨rfl, rfl⟩ := List.cons.inj e'
    have ht := Text.through_of_firstAfter (by simp) hf rest
    rw [List.cons_append, List.cons_append] at ht
    rw [nextToken_dashes, ht]
    rfl
  | @openLineComment body hb =>
    have hn : ¬ ['\n'] <:+: '-' :: body := mt infix_newline_iff.1 (by simpa using hb)
    have e' : '-' :: '-' :: body = c :: r := by simpa [Lexeme.text] using e
    obtain ⟨rfl, rfl⟩ := List.cons.inj e'
    rw [nextToken_dashes, Text.through_of_not_infix hn]
    rfl
  | @blockComment body _ hf =>
    have e' : '/' :: '*' :: (body ++ ['*', '/'] ++ rest) = c :: r := by simpa [Lexeme.text] using e
    obtain ⟨rfl, rfl⟩ := List.cons.inj e'
    rw [nextToken_slashStar, Text.through_of_firstAfter (by simp) hf]
    rfl
  | @openBlockComment body hn =>
    have e' : '/' :: '*' :: body = c :: r := by simpa [Lexeme.text] using e
    obtain ⟨rfl, rfl⟩ := List.cons.inj e'
    rw [nextToken_slashStar, Text.through_of_not_infix hn]
    rfl
  | cast =>
    obtain ⟨rfl, rfl⟩ := List.cons.inj e
    rfl
  | single hb =>
    obtain ⟨rfl, rfl⟩ := List.cons.inj e
    exact nextToken_single hb fun h => hc (by rw [h])

/-- What the scanner takes is a lexeme, or the placeholder that a colon introduces. -/
theorem nextToken_cases (before : Text) (c : Char) (r : Text) :
    (∃ lexeme rest, lexeme.text ++ rest = c :: r ∧ Lexes before lexeme rest ∧
      (lexeme = .single ':' → ¬ Introduces before rest) ∧ nextToken before.reverse c r = (lexeme.token, rest)) ∨
    (c = ':' ∧ Lexes before (.single ':') r ∧ Introduces before r ∧
      nextToken before.reverse c r = (.placeholder (r.takeWhile Text.isNameChar), r.dropWhile Text.isNameChar)) := by
  obtain ⟨lexeme, rest, e, h⟩ := exists_lexes before c r
  by_cases hc : lexeme = .single ':' ∧ Introduces before rest
  · obtain ⟨rfl, hi⟩ := hc
    obtain ⟨rfl, rfl⟩ := List.cons.inj e
    cases h with
    | single hb => exact Or.inr ⟨rfl, .single hb, hi, nextToken_placeholder hb hi⟩
  · have hc' : lexeme = .single ':' → ¬ Introduces before rest := fun hl hi => hc ⟨hl, hi⟩
    exact Or.inl ⟨lexeme, rest, e, h, hc', nextToken_of_lexes h e hc'⟩

/-- One lexeme stands at each place. -/
theorem Lexes.unique {l k : Lexeme} {rest rest' : Text} (hl : Lexes before l rest) (hk : Lexes before k rest')
    (e : l.text ++ rest = k.text ++ rest') : l = k ∧ rest = rest' := by
  obtain ⟨c, r, hc⟩ := List.exists_cons_of_ne_nil (List.append_ne_nil_of_left_ne_nil hl.text_ne_nil rest)
  have hc' := e.symm.trans hc
  -- a colon that introduces a placeholder is the one lexeme that the scanner does not take
  by_cases hp : c = ':' ∧ ¬ Begins before c r ∧ Introduces before r
  · obtain ⟨rfl, hb, hi⟩ := hp
    have hn := nextToken_placeholder hb hi
    have key : ∀ {m : Lexeme} {s : Text}, Lexes before m s → m.text ++ s = ':' :: r → m = .single ':' ∧ s = r := by
      intro m s hm em
      by_cases hm' : m = .single ':'
      · subst hm'
        exact ⟨rfl, (List.cons.inj em).2⟩
      · have := (nextToken_of_lexes hm em fun h => absurd h hm').symm.trans hn
        exact absurd (Prod.mk.inj this).1 (m.token_ne_placeholder _)
    obtain ⟨rfl, rfl⟩ := key hl hc
    obtain ⟨rfl, rfl⟩ := key hk hc'
    exact ⟨rfl, rfl⟩
  · have key : ∀ {m : Lexeme} {s : Text}, Lexes before m s → m.text ++ s = c :: r →
        nextToken before.reverse c r = (m.token, s) := by
      intro m s hm em
      refine nextToken_of_lexes hm em fun h hi => hp ?_
      subst h
      obtain ⟨rfl, rfl⟩ := List.cons.inj em
      cases hm with
      | single hb => exact ⟨rfl, hb, hi⟩
    have h := (key hl hc).symm.trans (key hk hc')
    exact ⟨Lexeme.token_injective (Prod.mk.inj h).1, (Prod.mk.inj h).2⟩

/-- A text is read in one way. -/
theorem Reads.unique {s : Text} {ls ks : List Lexeme} (hl : Reads before s ls) (hk : Reads before s ks) : ls = ks := by
  induction hl generalizing ks with
  | nil =>
    generalize hs : ([] : Text) = s at hk
    cases hk with
    | nil => rfl
    | cons h _ => exact absurd (List.append_eq_nil_iff.1 hs.symm).1 h.text_ne_nil
  | @cons before rest l ls hl _ ih =>
    generalize hs : l.text ++ rest = s at hk
    cases hk with
    | nil => exact absurd (List.append_eq_nil_iff.1 hs).1 hl.text_ne_nil
    | cons hk hrest =>
      obtain ⟨rfl, rfl⟩ := hl.unique hk hs
      rw [ih hrest]

end Template

end SqlAccess
