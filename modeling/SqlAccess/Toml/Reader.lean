/-
Whole TOML documents: values with the arrays and inline tables in them, and the lines they stand on.
-/
import SqlAccess.Toml.Lexical

namespace SqlAccess

namespace Toml

/-! ## Values -/

/-- how deep arrays and inline tables may stand in one another -/
def maxDepth : Nat := 80

mutual

/-- a value within `fuel` steps, with at most `room` arrays and inline tables in one another -/
def value : (fuel room : Nat) → Text → Option (Value × Text)
  | 0, _, _ => none
  | fuel + 1, room + 1, '[' :: r =>
    (skipBlank r).bind fun r => (items fuel room r).map fun (vs, rest) => (.array vs, rest)
  | fuel + 1, room + 1, '\x7b' :: r =>
    (skipBlank r).bind fun r => (members fuel room [] r).map fun (es, rest) => (.table (finishEntries es), rest)
  | _ + 1, _, s =>
    match string? s with
    | some (t, rest) => some (.string t, rest)
    | none => if s.head? = some '"' ∨ s.head? = some '\'' then none else scalar? s

/-- the items of an array up to its end; a comma may follow the last -/
def items : (fuel room : Nat) → Text → Option (List Value × Text)
  | 0, _, _ => none
  | _ + 1, _, ']' :: r => some ([], r)
  | fuel + 1, room, s =>
    match value fuel room s with
    | none => none
    | some (v, r) =>
      match skipBlank r with
      | some (',' :: r) => (skipBlank r).bind fun r => (items fuel room r).map fun (vs, rest) => (v :: vs, rest)
      | some (']' :: r) => some ([v], r)
      | _ => none

/-- the members of an inline table up to its end, added to those read; a comma may follow the last -/
def members : (fuel room : Nat) → Entries → Text → Option (Entries × Text)
  | 0, _, _, _ => none
  | _ + 1, _, entries, '\x7d' :: r => some (entries, r)
  | fuel + 1, room, entries, s =>
    match (key? s).bind fun (key, r) => (skipBlank r).map fun r => (key, r) with
    | some ((path, key), '=' :: r) =>
      match (skipBlank r).bind (value fuel room) with
      | none => none
      | some (v, r) =>
        match assign path key v entries, skipBlank r with
        | some entries, some (',' :: r) => (skipBlank r).bind fun r => members fuel room entries r
        | some entries, some ('\x7d' :: r) => some (entries, r)
        | _, _ => none
    | _ => none

end

/-! ## Lines -/

/-- one line: a header, which becomes the current one, or a key with its value -/
def line (header : List Text) (entries : Entries) : Text → Option (List Text × Entries × Text)
  | '[' :: '[' :: r =>
    match key? r with
    | some ((path, key), ']' :: ']' :: r) =>
      (defineNext path key entries).bind fun entries => (endOfLine r).map fun r => (path ++ [key], entries, r)
    | _ => none
  | '[' :: r =>
    match key? r with
    | some ((path, key), ']' :: r) =>
      (define path key entries).bind fun entries => (endOfLine r).map fun r => (path ++ [key], entries, r)
    | _ => none
  | s =>
    match key? s with
    | some ((path, key), '=' :: r) =>
      (value (2 * r.length + 2) maxDepth (skipSpaces r)).bind fun (v, r) =>
        (assignIn header path key v entries).bind fun entries => (endOfLine r).map fun r => (header, entries, r)
    | _ => none

/-- all lines of a text, through at most `turns` of them -/
def lines : (turns : Nat) → List Text → Entries → Text → Option Entries
  | 0, _, entries, _ => some entries
  | turns + 1, header, entries, s =>
    match skipBlank s with
    | none => none
    | some [] => some entries
    | some s => (line header entries s).bind fun (header, entries, r) => lines turns header entries r

/-- the entries of a document, none when it is malformed -/
def read (source : Text) : Option (List (Text × Value)) :=
  let source := if source.head? = some '\ufeff' then source.drop 1 else source
  (lines (source.length + 1) [] [] source).map finishEntries

end Toml

end SqlAccess
