/-
SQL templates as tokens: literals, quoted names, dollar-quoted bodies and comments as single tokens, `:name` placeholders
in between, and every other character by itself.

A colon opens a placeholder when a letter or `_` follows, nothing that could make it an array slice precedes (a word
character or a bracket), and it is not half of a `::` cast. The tokens of a template are the template: `text_tokens`.
`placeholders` keeps the placeholders alone, each with the place where it stands.
-/
import SqlAccess.Text

namespace SqlAccess

namespace Template

/-- the kinds of text that a placeholder cannot stand in -/
inductive Region where
  | plainString
  | escapeString
  | quotedName
  | dollarBody
  | lineComment
  | blockComment
  deriving DecidableEq, Repr

inductive Token where
  | placeholder (name : Text)
  | cast
  | region (kind : Region) (text : Text)
  | single (c : Char)
  deriving DecidableEq, Repr

def Token.text : Token → Text
  | .placeholder name => ':' :: name
  | .cast => [':', ':']
  | .region _ text => text
  | .single c => [c]

/-! ## Parts of tokens -/

/-- A quoted run behind its opening mark, up to and including its closing mark, and what follows. A doubled mark does not
close, nor does a mark behind a backslash where backslashes escape. A run that does not close takes all. -/
def quotedRun (mark : Char) (escapes : Bool) : Text → Text × Text
  | [] => ([], [])
  | [c] => ([c], [])
  | c :: d :: r =>
    if (escapes && c == '\\') || (c == mark && d == mark) then
      (c :: d :: (quotedRun mark escapes r).1, (quotedRun mark escapes r).2)
    else if c == mark then ([c], d :: r)
    else (c :: (quotedRun mark escapes (d :: r)).1, (quotedRun mark escapes (d :: r)).2)

/-- whether the text before, last character first, ends in a word character -/
def endsInWord (before : Text) : Bool := before.head?.any Text.isWordChar

/-- whether the text before, last character first, ends in an `E` that is a word of its own -/
def endsInEscapeMark : Text → Bool
  | c :: before => (c == 'E' || c == 'e') && !endsInWord before
  | [] => false

/-- whether the text before, last character first, ends in a bracket -/
def endsInBracket (before : Text) : Bool := before.head?.any fun c => c == '[' || c == ']'

/-- Behind a `$`: the whole tag `$name$` when there is one, and what follows it. A name does not begin with a digit. -/
def dollarTag? (s : Text) : Option (Text × Text) :=
  if s.head?.any Char.isDigit then none
  else
    match s.dropWhile Text.isNameChar with
    | '$' :: r => some ('$' :: (s.takeWhile Text.isNameChar ++ ['$']), r)
    | _ => none

/-! ## Tokens -/

/-- The token that begins with `c`, and what follows it. `before` is the text before, last character first. -/
def nextToken (before : Text) (c : Char) (r : Text) : Token × Text :=
  if c = '\'' then
    let escapes := endsInEscapeMark before
    let (run, rest) := quotedRun '\'' escapes r
    (.region (if escapes then .escapeString else .plainString) (c :: run), rest)
  else if c = '"' then
    let (run, rest) := quotedRun '"' false r
    (.region .quotedName (c :: run), rest)
  else if c = '$' ∧ !endsInWord before then
    match dollarTag? r with
    | none => (.single c, r)
    | some (tag, body) =>
      let (run, rest) := Text.through tag body
      (.region .dollarBody (tag ++ run), rest)
  else if c = '-' ∧ r.head? = some '-' then
    let (run, rest) := Text.through ['\n'] r
    (.region .lineComment (c :: run), rest)
  else if c = '/' ∧ r.head? = some '*' then
    let (run, rest) := Text.through ['*', '/'] (r.drop 1)
    (.region .blockComment (c :: '*' :: run), rest)
  else if c = ':' ∧ r.head? = some ':' then (.cast, r.drop 1)
  else if c = ':' ∧ !endsInWord before ∧ !endsInBracket before ∧ r.head?.any Text.isNameStart then
    (.placeholder (r.takeWhile Text.isNameChar), r.dropWhile Text.isNameChar)
  else (.single c, r)

theorem quotedRun_append (mark : Char) (escapes : Bool) (s : Text) :
    (quotedRun mark escapes s).1 ++ (quotedRun mark escapes s).2 = s := by
  fun_induction quotedRun mark escapes s <;> simp_all

theorem dollarTag_append {s tag body : Text} (h : dollarTag? s = some (tag, body)) : tag ++ body = '$' :: s := by
  simp only [dollarTag?] at h
  split at h
  · simp at h
  · split at h
    · rename_i r hr
      simp only [Option.some.injEq, Prod.mk.injEq] at h
      have hs := List.takeWhile_append_dropWhile (p := Text.isNameChar) (l := s)
      rw [hr, h.2] at hs
      rw [← h.1]
      simpa using hs
    · simp at h

theorem text_nextToken (before : Text) (c : Char) (r : Text) :
    (nextToken before c r).1.text ++ (nextToken before c r).2 = c :: r := by
  unfold nextToken
  split
  · simp [Token.text, quotedRun_append]
  split
  · simp [Token.text, quotedRun_append]
  split
  · split
    · simp [Token.text]
    · rename_i hc _ tag body h
      simp only [Token.text]
      rw [List.append_assoc, Text.through_append, dollarTag_append h, hc.1]
  split
  · simp [Token.text, Text.through_append]
  split
  · rename_i h
    cases r with
    | nil => simp at h
    | cons d r => simp_all [Token.text, Text.through_append]
  split
  · rename_i h
    cases r with
    | nil => simp at h
    | cons d r => simp_all [Token.text]
  split
  · rename_i h
    simp [Token.text, h.1]
  · simp [Token.text]

theorem length_nextToken (before : Text) (c : Char) (r : Text) : (nextToken before c r).2.length ≤ r.length := by
  have h := congrArg List.length (text_nextToken before c r)
  have ht : 1 ≤ (nextToken before c r).1.text.length := by
    unfold nextToken
    split
    · simp [Token.text]
    split
    · simp [Token.text]
    split
    · split
      · simp [Token.text]
      · rename_i tag body hd
        have := congrArg List.length (dollarTag_append hd)
        simp only [dollarTag?] at hd
        split at hd
        · simp at hd
        · split at hd
          · simp only [Option.some.injEq, Prod.mk.injEq] at hd
            simp [Token.text, ← hd.1]
          · simp at hd
    repeat' split
    all_goals simp [Token.text]
  simp only [List.length_append, List.length_cons] at h
  omega

/-- the tokens of `s`, which stands behind `before`, last character first -/
def tokensFrom (before : Text) : Text → List Token
  | [] => []
  | c :: r => (nextToken before c r).1 :: tokensFrom ((nextToken before c r).1.text.reverse ++ before) (nextToken before c r).2
termination_by s => s.length
decreasing_by
  have := length_nextToken before c r
  simp only [List.length_cons]
  omega

def tokens (template : Text) : List Token := tokensFrom [] template

/-- The tokens of a template, written out again, are the template. -/
theorem text_tokensFrom (before s : Text) : (tokensFrom before s).flatMap Token.text = s := by
  fun_induction tokensFrom before s with
  | case1 => rfl
  | case2 before c r ih => rw [List.flatMap_cons, ih, text_nextToken]

theorem text_tokens (template : Text) : (tokens template).flatMap Token.text = template :=
  text_tokensFrom [] template

/-! ## Placeholders -/

/-- a placeholder where it stands: its colon at `start`, the end of its name in front of `stop` -/
structure Placeholder where
  start : Nat
  stop : Nat
  name : Text
  deriving DecidableEq, Repr

/-- the placeholders among tokens of which the first stands at `start` -/
def placeholdersFrom (start : Nat) : List Token → List Placeholder
  | [] => []
  | .placeholder name :: r =>
    ⟨start, start + (name.length + 1), name⟩ :: placeholdersFrom (start + (name.length + 1)) r
  | token :: r => placeholdersFrom (start + token.text.length) r

/-- the placeholders of a template, from left to right -/
def placeholders (template : Text) : List Placeholder := placeholdersFrom 0 (tokens template)

end Template

end SqlAccess
