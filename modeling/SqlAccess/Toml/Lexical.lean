/-
The words of TOML: blanks, comments, strings, keys, and the words without quotes.

Each reader takes a text and gives what it read with the rest, or nothing when the text does not begin so.
-/
import SqlAccess.Toml.Tree

namespace SqlAccess

namespace Toml

/-! ## Blanks -/

/-- a character that may stand in a comment or a string; of the controls only the tab -/
def isPlain (c : Char) : Bool := c == '\t' || (0x20 ≤ c.val && c.val != 0x7F)

def skipSpaces (s : Text) : Text := s.dropWhile fun c => c == ' ' || c == '\t'

def lineBreak? : Text → Option Text
  | '\n' :: r => some r
  | '\r' :: '\n' :: r => some r
  | _ => none

/-- behind a comment, at the end of its line -/
def skipComment : Text → Option Text
  | '#' :: r =>
    let body := r.takeWhile fun c => c != '\n' && c != '\r'
    if body.all isPlain then some (r.dropWhile fun c => c != '\n' && c != '\r') else none
  | s => some s

/-- behind the end of a line: spaces, an optional comment, and a line break or the end of the text -/
def endOfLine (s : Text) : Option Text :=
  (skipComment (skipSpaces s)).bind fun r => if r.isEmpty then some [] else lineBreak? r

/-- without spaces, comments and line breaks in front, through at most `turns` of them -/
def skipLines : (turns : Nat) → Text → Option Text
  | 0, s => some s
  | turns + 1, s =>
    match skipComment (skipSpaces s) with
    | none => none
    | some r =>
      match lineBreak? r with
      | some r => skipLines turns r
      | none => some r

def skipBlank (s : Text) : Option Text := skipLines s.length s

/-! ## Strings -/

/-- a character given by `count` hexadecimal digits -/
def codeEscape (count : Nat) (s : Text) : Option (Char × Text) :=
  if s.length < count then none
  else (Text.wholeIn? 16 (s.take count)).bind fun n => if n.isValidChar then some (Char.ofNat n, s.drop count) else none

def escape : Text → Option (Char × Text)
  | 'b' :: r => some ('\x08', r)
  | 't' :: r => some ('\t', r)
  | 'n' :: r => some ('\n', r)
  | 'f' :: r => some ('\x0c', r)
  | 'r' :: r => some ('\r', r)
  | 'e' :: r => some ('\x1b', r)
  | '"' :: r => some ('"', r)
  | '\\' :: r => some ('\\', r)
  | 'x' :: r => codeEscape 2 r
  | 'u' :: r => codeEscape 4 r
  | 'U' :: r => codeEscape 8 r
  | _ => none

/-- A string in double quotes behind the opening one, through at most `turns` characters. -/
def basicString : (turns : Nat) → Text → Option (Text × Text)
  | 0, _ => none
  | _ + 1, [] => none
  | _ + 1, '"' :: r => some ([], r)
  | turns + 1, '\\' :: r =>
    match escape r with
    | none => none
    | some (c, r) => (basicString turns r).map fun (t, rest) => (c :: t, rest)
  | turns + 1, c :: r => if isPlain c then (basicString turns r).map fun (t, rest) => (c :: t, rest) else none

def literalString : Text → Option (Text × Text)
  | [] => none
  | '\'' :: r => some ([], r)
  | c :: r => if isPlain c then (literalString r).map fun (t, rest) => (c :: t, rest) else none

/-- the closing of a string of several lines: three marks, with up to two more in front that belong to the string -/
def closing? (mark : Char) (s : Text) : Option (Text × Text) :=
  let run := (s.take 5).takeWhile (· == mark)
  if 3 ≤ run.length then some (run.drop 3, s.drop run.length) else none

def skipMargin : Text → Text
  | ' ' :: r => skipMargin r
  | '\t' :: r => skipMargin r
  | '\n' :: r => skipMargin r
  | '\r' :: '\n' :: r => skipMargin r
  | r => r

/-- behind a backslash at the end of a line: without the spaces and line breaks up to the next character -/
def continuation? (s : Text) : Option Text := (lineBreak? (skipSpaces s)).map skipMargin

/-- the body of a string in double quotes over several lines, through at most `turns` characters -/
def basicLines : (turns : Nat) → Text → Option (Text × Text)
  | 0, _ => none
  | turns + 1, s =>
    match closing? '"' s with
    | some done => some done
    | none =>
      match s with
      | [] => none
      | '\\' :: r =>
        match continuation? r with
        | some r => basicLines turns r
        | none =>
          match escape r with
          | none => none
          | some (c, r) => (basicLines turns r).map fun (t, rest) => (c :: t, rest)
      | c :: r =>
        match lineBreak? s with
        | some rest => (basicLines turns rest).map fun (t, last) => (s.take (s.length - rest.length) ++ t, last)
        | none => if isPlain c then (basicLines turns r).map fun (t, rest) => (c :: t, rest) else none

/-- the body of a string in single quotes over several lines, through at most `turns` characters -/
def literalLines : (turns : Nat) → Text → Option (Text × Text)
  | 0, _ => none
  | turns + 1, s =>
    match closing? '\'' s with
    | some done => some done
    | none =>
      match s with
      | [] => none
      | c :: r =>
        match lineBreak? s with
        | some rest => (literalLines turns rest).map fun (t, last) => (s.take (s.length - rest.length) ++ t, last)
        | none => if isPlain c then (literalLines turns r).map fun (t, rest) => (c :: t, rest) else none

def dropLineBreak (s : Text) : Text := (lineBreak? s).getD s

def string? : Text → Option (Text × Text)
  | '"' :: '"' :: '"' :: r => basicLines (r.length + 1) (dropLineBreak r)
  | '\'' :: '\'' :: '\'' :: r => literalLines (r.length + 1) (dropLineBreak r)
  | '"' :: r => basicString (r.length + 1) r
  | '\'' :: r => literalString r
  | _ => none

/-! ## Keys -/

def isKeyChar (c : Char) : Bool := c.isAlphanum || c == '_' || c == '-'

def simpleKey : Text → Option (Text × Text)
  | '"' :: r => basicString (r.length + 1) r
  | '\'' :: r => literalString r
  | s => if (s.takeWhile isKeyChar).isEmpty then none else some (s.takeWhile isKeyChar, s.dropWhile isKeyChar)

/-- a key of parts joined by dots, through at most `turns` parts: the parts before the last, and the last -/
def dottedKey : (turns : Nat) → Text → Option ((List Text × Text) × Text)
  | 0, _ => none
  | turns + 1, s =>
    match simpleKey (skipSpaces s) with
    | none => none
    | some (part, r) =>
      match skipSpaces r with
      | '.' :: r => (dottedKey turns r).map fun ((path, key), rest) => ((part :: path, key), rest)
      | r => some (([], part), r)

def maxParts : Nat := 80

/-- a key of parts joined by dots, within the greatest number of them -/
def key? (s : Text) : Option ((List Text × Text) × Text) := dottedKey maxParts s

/-! ## Truth values, numbers and moments -/

def isBareChar (c : Char) : Bool :=
  let ends : Text := ['=', ',', '[', ']', '\x7b', '\x7d', '#', ' ', '\t', '\r', '\n']
  !ends.elem c

/-- A word without quotes. A day takes a time behind a single blank along. -/
def bareWord (s : Text) : Text × Text :=
  let first := s.takeWhile isBareChar
  match s.dropWhile isBareChar with
  | ' ' :: c :: r =>
    if (Moment.date? first).any (·.2.isEmpty) && c.isDigit then
      (first ++ ' ' :: (c :: r).takeWhile isBareChar, (c :: r).dropWhile isBareChar)
    else (first, ' ' :: c :: r)
  | r => (first, r)

def ofWord? (w : Text) : Option Value :=
  if w = "true" then some (.boolean true)
  else if w = "false" then some (.boolean false)
  else match Number.ofText? w with
    | some n => some (.number n)
    | none => (Moment.ofText? w).map .moment

def scalar? (s : Text) : Option (Value × Text) := (ofWord? (bareWord s).1).map fun v => (v, (bareWord s).2)

end Toml

end SqlAccess
