/-
The lexemes of the server.

The server reads a template by the grammar with two rules of its own: block comments nest, and a character outside ASCII
may stand in an identifier and in the tag of a dollar-quoted body. `lexemes` reads a text like that, and written out
again its lexemes are the text: `text_lexemes`.

Against the scanner, a tag is the same where none outside ASCII begins (`dollarTag?_eq`), and a comment ends at the same
place unless it opens another and ends before the text does (`commentRun_eq_through_iff`).
-/
import SqlAccess.Proofs.Template.Scan

namespace SqlAccess

namespace Template

namespace Server

/-! ## The server's rules -/

/-- a character outside ASCII -/
def isForeign (c : Char) : Bool := decide (128 ≤ c.toNat)

/-- what continues an identifier or a number -/
def isWordChar (c : Char) : Bool := Text.isWordChar c || isForeign c

/-- what the tag of a dollar-quoted body is made of -/
def isTagChar (c : Char) : Bool := Text.isNameChar c || isForeign c

/-- whether the text before, last character first, ends in a word character -/
def endsInWord (before : Text) : Bool := before.head?.any isWordChar

/-- whether the text before, last character first, ends in an `E` that is a word of its own -/
def endsInEscapeMark : Text → Bool
  | c :: before => (c == 'E' || c == 'e') && !endsInWord before
  | [] => false

/-- Behind a `$`: the whole tag `$name$` when there is one, its name of the given characters, and what follows it. A
name does not begin with a digit. -/
def dollarTag? (inName : Char → Bool) (s : Text) : Option (Text × Text) :=
  if s.head?.any Char.isDigit then none
  else
    match s.dropWhile inName with
    | '$' :: r => some ('$' :: (s.takeWhile inName ++ ['$']), r)
    | _ => none

/-- A comment behind its opening, up to and including what closes it, and what follows. `depth` is the number of
comments open inside it. -/
def commentRun (depth : Nat) : Text → Text × Text
  | [] => ([], [])
  | [c] => ([c], [])
  | c :: d :: r =>
    if c = '*' ∧ d = '/' then
      match depth with
      | 0 => ([c, d], r)
      | depth + 1 => (c :: d :: (commentRun depth r).1, (commentRun depth r).2)
    else if c = '/' ∧ d = '*' then (c :: d :: (commentRun (depth + 1) r).1, (commentRun (depth + 1) r).2)
    else (c :: (commentRun depth (d :: r)).1, (commentRun depth (d :: r)).2)

/-- The lexeme that begins with `c`, and what follows it. `before` is the text before, last character first. -/
def nextLexeme (before : Text) (c : Char) (r : Text) : Lexeme × Text :=
  if c = '\'' then
    let escapes := endsInEscapeMark before
    let (run, rest) := quotedRun '\'' escapes r
    (.region (stringKind escapes) (c :: run), rest)
  else if c = '"' then
    let (run, rest) := quotedRun '"' false r
    (.region .quotedName (c :: run), rest)
  else if c = '$' ∧ !endsInWord before then
    match dollarTag? isTagChar r with
    | none => (.single c, r)
    | some (tag, body) =>
      let (run, rest) := Text.through tag body
      (.region .dollarBody (tag ++ run), rest)
  else if c = '-' ∧ r.head? = some '-' then
    let (run, rest) := Text.through ['\n'] r
    (.region .lineComment (c :: run), rest)
  else if c = '/' ∧ r.head? = some '*' then
    let (run, rest) := commentRun 0 (r.drop 1)
    (.region .blockComment (c :: '*' :: run), rest)
  else if c = ':' ∧ r.head? = some ':' then (.cast, r.drop 1)
  else (.single c, r)

theorem commentRun_append (depth : Nat) (s : Text) : (commentRun depth s).1 ++ (commentRun depth s).2 = s := by
  fun_induction commentRun depth s <;> simp_all

theorem dollarTag?_eq_some_iff (inName : Char → Bool) (hdollar : inName '$' = false) {s tag body : Text} :
    dollarTag? inName s = some (tag, body) ↔ ∃ name, tag = '$' :: (name ++ ['$']) ∧ s = name ++ '$' :: body ∧
      (∀ c ∈ name, inName c = true) ∧ ¬ name.head?.any Char.isDigit := by
  constructor
  · intro h
    have hs := List.takeWhile_append_dropWhile (p := inName) (l := s)
    simp only [dollarTag?] at h
    split at h
    case isTrue => cases h
    case isFalse hdigit =>
      split at h
      case h_2 => cases h
      case h_1 r hr =>
        simp only [Option.some.injEq, Prod.mk.injEq] at h
        obtain ⟨rfl, rfl⟩ := h
        rw [hr] at hs
        refine ⟨s.takeWhile inName, rfl, hs.symm, List.all_eq_true.1 List.all_takeWhile, ?_⟩
        -- the digit would be the first character behind the mark as well
        intro hname
        apply hdigit
        rw [← hs, List.head?_append]
        cases hhead : (s.takeWhile inName).head? <;> simp_all
  · rintro ⟨name, rfl, rfl, hname, hdigit⟩
    have hhead : ¬ (name ++ '$' :: body).head?.any Char.isDigit := by
      cases name with
      | nil => simp
      | cons c name => simpa using hdigit
    have hstop : ∀ c ∈ ('$' :: body).head?, inName c = false := by simpa using hdollar
    obtain ⟨htake, hdrop⟩ := Text.takeWhile_append_stop hname hstop
    rw [dollarTag?, if_neg hhead, hdrop, htake]
    rfl

theorem text_nextLexeme (before : Text) (c : Char) (r : Text) :
    (nextLexeme before c r).1.text ++ (nextLexeme before c r).2 = c :: r := by
  unfold nextLexeme
  split
  · simp [Lexeme.text, quotedRun_append]
  split
  · simp [Lexeme.text, quotedRun_append]
  split
  · split
    · simp [Lexeme.text]
    · rename_i hc _ tag body h
      obtain ⟨name, rfl, rfl, -, -⟩ := (dollarTag?_eq_some_iff isTagChar rfl).1 h
      simp [Lexeme.text, Text.through_append, hc.1]
  split
  · simp [Lexeme.text, Text.through_append]
  split
  · rename_i h
    cases r with
    | nil => simp at h
    | cons d r => simp_all [Lexeme.text, commentRun_append]
  split
  · rename_i h
    cases r with
    | nil => simp at h
    | cons d r => simp_all [Lexeme.text]
  · simp [Lexeme.text]

theorem length_nextLexeme (before : Text) (c : Char) (r : Text) : (nextLexeme before c r).2.length ≤ r.length := by
  have h := congrArg List.length (text_nextLexeme before c r)
  have ht : 1 ≤ (nextLexeme before c r).1.text.length := by
    unfold nextLexeme
    split
    · simp [Lexeme.text]
    split
    · simp [Lexeme.text]
    split
    · split
      · simp [Lexeme.text]
      · rename_i tag body hd
        obtain ⟨name, rfl, -, -, -⟩ := (dollarTag?_eq_some_iff isTagChar rfl).1 hd
        simp [Lexeme.text]
    repeat' split
    all_goals simp [Lexeme.text]
  simp only [List.length_append, List.length_cons] at h
  omega

/-- the lexemes of `s`, which stands behind `before`, last character first -/
def lexemesFrom (before : Text) : Text → List Lexeme
  | [] => []
  | c :: r =>
    (nextLexeme before c r).1 ::
      lexemesFrom ((nextLexeme before c r).1.text.reverse ++ before) (nextLexeme before c r).2
termination_by s => s.length
decreasing_by
  have := length_nextLexeme before c r
  simp only [List.length_cons]
  omega

def lexemes (template : Text) : List Lexeme := lexemesFrom [] template

/-- The lexemes of a text, written out again, are the text. -/
theorem text_lexemesFrom (before s : Text) : (lexemesFrom before s).flatMap Lexeme.text = s := by
  fun_induction lexemesFrom before s with
  | case1 => rfl
  | case2 before c r ih => rw [List.flatMap_cons, ih, text_nextLexeme]

theorem text_lexemes (template : Text) : (lexemes template).flatMap Lexeme.text = template :=
  text_lexemesFrom [] template

/-! ## Characters of both -/

theorem not_isForeign_of_isWordChar {c : Char} (h : Text.isWordChar c = true) : isForeign c = false := by
  have hc : c.toNat ≤ 122 := by
    simp only [Text.isWordChar, Bool.or_eq_true, beq_iff_eq] at h
    rcases h with (h | rfl) | rfl
    · exact (Text.toNat_of_isAlphanum h).2
    · decide
    · decide
  simp only [isForeign, decide_eq_false_iff_not]
  omega

theorem not_isForeign_of_isNameChar {c : Char} (h : Text.isNameChar c = true) : isForeign c = false := by
  apply not_isForeign_of_isWordChar
  simp only [Text.isNameChar, Bool.or_eq_true] at h
  simp only [Text.isWordChar, Bool.or_eq_true]
  exact Or.inl h

theorem isWordChar_of_not_isForeign {c : Char} (h : isForeign c = false) : isWordChar c = Text.isWordChar c := by
  rw [isWordChar, h, Bool.or_false]

/-! ## Tags of both -/

theorem dollarTag?_of_name {s tag body : Text} (h : Template.dollarTag? s = some (tag, body)) :
    dollarTag? isTagChar s = some (tag, body) := by
  obtain ⟨name, htag, hs, hname, hdigit⟩ := (dollarTag?_eq_some_iff Text.isNameChar rfl).1 h
  refine (dollarTag?_eq_some_iff isTagChar rfl).2 ⟨name, htag, hs, ?_, hdigit⟩
  intro c hc
  rw [isTagChar, hname c hc, Bool.true_or]

/-- Where the server finds no tag outside ASCII, both find the same. -/
theorem dollarTag?_eq {s : Text} (h : ((dollarTag? isTagChar s).any fun tagged => tagged.1.any isForeign) = false) :
    dollarTag? isTagChar s = Template.dollarTag? s := by
  cases hserver : dollarTag? isTagChar s with
  | none =>
    cases hscanner : Template.dollarTag? s with
    | none => rfl
    | some tagged =>
      rw [dollarTag?_of_name hscanner] at hserver
      cases hserver
  | some tagged =>
    obtain ⟨tag, body⟩ := tagged
    rw [hserver] at h
    obtain ⟨name, rfl, hs, hname, hdigit⟩ := (dollarTag?_eq_some_iff isTagChar rfl).1 hserver
    have hascii : ∀ c ∈ name, isForeign c = false := by
      intro c hc
      simp only [Option.any_some, List.any_cons, List.any_append, Bool.or_eq_false_iff, List.any_eq_false] at h
      simpa using h.2.1 c hc
    refine ((dollarTag?_eq_some_iff Text.isNameChar rfl).2 ⟨name, rfl, hs, ?_, hdigit⟩).symm
    intro c hc
    simpa [isTagChar, hascii c hc] using hname c hc

/-! ## Comments of both -/

theorem length_commentRun_lt {s : Text} (hs : s ≠ []) (depth : Nat) : (commentRun depth s).2.length < s.length := by
  have happend := congrArg List.length (commentRun_append depth s)
  have hfst : (commentRun depth s).1 ≠ [] := by
    fun_cases commentRun depth s <;> simp_all [commentRun]
  have hpos : 0 < (commentRun depth s).1.length := List.length_pos_iff.2 hfst
  rw [List.length_append] at happend
  omega

theorem through_cons_cons {c d : Char} (h : ¬ (c = '*' ∧ d = '/')) (r : Text) :
    Text.through ['*', '/'] (c :: d :: r) =
      (c :: (Text.through ['*', '/'] (d :: r)).1, (Text.through ['*', '/'] (d :: r)).2) := by
  have hnot : ¬ List.isPrefixOf ['*', '/'] (c :: d :: r) = true := by
    intro hstarts
    simp only [List.isPrefixOf, Bool.and_true, Bool.and_eq_true, beq_iff_eq] at hstarts
    exact h ⟨hstarts.1.symm, hstarts.2.symm⟩
  rw [Text.through, if_neg hnot]

theorem exists_through_cons (d : Char) (r : Text) : ∃ t, (Text.through ['*', '/'] (d :: r)).1 = d :: t := by
  rw [Text.through]
  split <;> exact ⟨_, rfl⟩

/-- A star in front lets the closing mark come no later. -/
theorem length_through_star (r : Text) :
    (Text.through ['*', '/'] r).2.length ≤ (Text.through ['*', '/'] ('*' :: r)).2.length := by
  cases r with
  | nil => exact Nat.le_refl _
  | cons d r =>
    by_cases hd : d = '/'
    · subst hd
      cases r with
      | nil => exact Nat.le_refl _
      | cons e r =>
        rw [through_cons_cons (by simp)]
        exact Text.length_through_snd ['*', '/'] (e :: r)
    · have hopen : ¬ ('*' = '*' ∧ d = '/') := fun h => hd h.2
      have hcut := through_cons_cons hopen r
      exact Nat.le_of_eq (congrArg (·.2.length) hcut).symm

/-- The server's comment ends no sooner than the scanner's. -/
theorem length_commentRun_le (depth : Nat) (s : Text) :
    (commentRun depth s).2.length ≤ (Text.through ['*', '/'] s).2.length := by
  fun_induction commentRun depth s with
  | case1 => exact Nat.le_refl _
  | case2 depth c => simp
  | case3 c d r h =>
    obtain ⟨rfl, rfl⟩ := h
    exact Nat.le_refl _
  | case4 c d r h depth ih =>
    obtain ⟨rfl, rfl⟩ := h
    exact Nat.le_trans ih (Text.length_through_snd ['*', '/'] r)
  | case5 depth c d r h hopen ih =>
    obtain ⟨rfl, rfl⟩ := hopen
    rw [through_cons_cons h]
    exact Nat.le_trans ih (length_through_star r)
  | case6 depth c d r h hopen ih =>
    rw [through_cons_cons h]
    exact ih

/-- Behind an opening the rest is that of the run behind it. -/
theorem opened_lt {depth : Nat} {r : Text}
    (h : (Text.through ['*', '/'] r).2 ≠ [] →
      (commentRun (depth + 1) r).2.length < (Text.through ['*', '/'] r).2.length)
    (hrest : (Text.through ['*', '/'] ('*' :: r)).2 ≠ []) :
    (commentRun (depth + 1) r).2.length < (Text.through ['*', '/'] ('*' :: r)).2.length := by
  by_cases hr : (Text.through ['*', '/'] r).2 = []
  · have hle := length_commentRun_le (depth + 1) r
    rw [hr] at hle
    exact Nat.lt_of_le_of_lt hle (List.length_pos_iff.2 hrest)
  · exact Nat.lt_of_lt_of_le (h hr) (length_through_star r)

/-- Inside another comment it ends later, if there is anything left. -/
theorem length_commentRun_inner {depth : Nat} {s : Text} (hdepth : 0 < depth)
    (hrest : (Text.through ['*', '/'] s).2 ≠ []) :
    (commentRun depth s).2.length < (Text.through ['*', '/'] s).2.length := by
  fun_induction commentRun depth s with
  | case1 => exact absurd rfl hrest
  | case2 depth c =>
    have hnil : (Text.through ['*', '/'] [c]).2 = [] := by simp [Text.through]
    exact absurd hnil hrest
  | case3 c d r h => exact absurd hdepth (Nat.lt_irrefl 0)
  | case4 c d r h depth ih =>
    obtain ⟨rfl, rfl⟩ := h
    exact length_commentRun_lt hrest depth
  | case5 depth c d r h hopen ih =>
    obtain ⟨rfl, rfl⟩ := hopen
    rw [through_cons_cons h] at hrest ⊢
    exact opened_lt (ih (Nat.succ_pos depth)) hrest
  | case6 depth c d r h hopen ih =>
    rw [through_cons_cons h] at hrest ⊢
    exact ih hdepth hrest

/-- A comment in which another is opened ends later, if there is anything left. -/
theorem length_commentRun_nested {s : Text} (hopens : Text.contains ['/', '*'] (Text.through ['*', '/'] s).1 = true)
    (hrest : (Text.through ['*', '/'] s).2 ≠ []) :
    (commentRun 0 s).2.length < (Text.through ['*', '/'] s).2.length := by
  induction s with
  | nil => exact absurd rfl hrest
  | cons c r ih =>
    cases r with
    | nil => simp [Text.through] at hrest
    | cons d r =>
      by_cases hclose : c = '*' ∧ d = '/'
      · obtain ⟨rfl, rfl⟩ := hclose
        cases hopens
      rw [through_cons_cons hclose] at hopens hrest ⊢
      by_cases hnested : c = '/' ∧ d = '*'
      · rw [commentRun, if_neg hclose, if_pos hnested]
        obtain ⟨rfl, rfl⟩ := hnested
        exact opened_lt (length_commentRun_inner Nat.one_pos) hrest
      · rw [commentRun, if_neg hclose, if_neg hnested]
        apply ih _ hrest
        rw [Text.contains, Bool.or_eq_true] at hopens
        refine hopens.resolve_left ?_
        intro hstarts
        obtain ⟨t, ht⟩ := exists_through_cons d r
        rw [ht] at hstarts
        simp only [List.isPrefixOf, Bool.and_true, Bool.and_eq_true, beq_iff_eq] at hstarts
        exact hnested ⟨hstarts.1.symm, hstarts.2.symm⟩

/-- A comment that opens no other closes where its first closing mark stands. -/
theorem commentRun_of_not_nested {s : Text} (h : Text.contains ['/', '*'] (Text.through ['*', '/'] s).1 = false) :
    commentRun 0 s = Text.through ['*', '/'] s := by
  induction s with
  | nil => rfl
  | cons c r ih =>
    cases r with
    | nil => simp [commentRun, Text.through]
    | cons d r =>
      by_cases hclose : c = '*' ∧ d = '/'
      · obtain ⟨rfl, rfl⟩ := hclose
        rfl
      rw [through_cons_cons hclose] at h ⊢
      rw [Text.contains, Bool.or_eq_false_iff] at h
      obtain ⟨hopens, hrest⟩ := h
      have hnested : ¬ (c = '/' ∧ d = '*') := by
        rintro ⟨rfl, rfl⟩
        obtain ⟨t, ht⟩ := exists_through_cons '*' r
        rw [ht] at hopens
        cases hopens
      rw [commentRun, if_neg hclose, if_neg hnested, ih hrest]

/-- Scanner and server end a comment at the same place, unless it opens another one and ends before the text does. -/
theorem commentRun_eq_through_iff (s : Text) : commentRun 0 s = Text.through ['*', '/'] s ↔
    (!(Text.through ['*', '/'] s).2.isEmpty && Text.contains ['/', '*'] (Text.through ['*', '/'] s).1) = false := by
  rw [Bool.and_eq_false_iff, Bool.not_eq_false', List.isEmpty_iff]
  constructor
  · intro h
    by_cases hrest : (Text.through ['*', '/'] s).2 = []
    · exact Or.inl hrest
    · right
      rw [Bool.eq_false_iff]
      intro hopens
      have hlater := length_commentRun_nested hopens hrest
      rw [h] at hlater
      exact absurd hlater (Nat.lt_irrefl _)
  · intro h
    rcases h with hrest | hopens
    · have hle := length_commentRun_le 0 s
      rw [hrest] at hle
      have hnil : (commentRun 0 s).2 = [] := List.eq_nil_of_length_eq_zero (Nat.le_zero.1 hle)
      have hserver := commentRun_append 0 s
      have hscanner := Text.through_append ['*', '/'] s
      rw [hnil, List.append_nil] at hserver
      rw [hrest, List.append_nil] at hscanner
      exact Prod.ext (hserver.trans hscanner.symm) (hnil.trans hrest.symm)
    · exact commentRun_of_not_nested hopens

/-! ## The server's step, by what begins -/

theorem nextLexeme_of_isPlain {c : Char} (h : isPlain c = true) (b r : Text) : nextLexeme b c r = (.single c, r) := by
  simp only [isPlain, Bool.and_eq_true, bne_iff_ne, ne_eq] at h
  simp [nextLexeme, h]

theorem nextLexeme_slashStar (b r : Text) : nextLexeme b '/' ('*' :: r) =
    (.region .blockComment ('/' :: '*' :: (commentRun 0 r).1), (commentRun 0 r).2) := rfl

theorem nextLexeme_colon {b r : Text} (h : r.head? ≠ some ':') : nextLexeme b ':' r = (.single ':', r) := by
  simp [nextLexeme, h]

/-- The letters of a name are lexemes by themselves. -/
theorem lexemesFrom_name {name : Text} (hname : ∀ c ∈ name, Text.isNameChar c) (b rest : Text) :
    lexemesFrom b (name ++ rest) = name.map .single ++ lexemesFrom (name.reverse ++ b) rest := by
  induction name generalizing b with
  | nil => rfl
  | cons c r ih =>
    have hplain : isPlain c = true := isPlain_of_isNameChar (hname c List.mem_cons_self)
    rw [List.cons_append, lexemesFrom, nextLexeme_of_isPlain hplain]
    rw [ih fun d hd => hname d (List.mem_cons_of_mem _ hd)]
    simp [Lexeme.text]

end Server

end Template

end SqlAccess
