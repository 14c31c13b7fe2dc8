/-
Dotted paths of names: `users.id`, `public."User Table".id`, `u.*`.

A bare name is an ASCII letter or `_` and then letters, digits, `_` or `$`. A quoted name holds any characters but NUL and
writes a quote inside it twice. `*` stands only at the end. `Path.read` reads a path or says what is wrong with it first;
`Path.write` is its other side: the parts written out and joined by dots.
-/
import SqlAccess.Error

namespace SqlAccess

inductive Part where
  | bare (name : Text)
  | quoted (name : Text)
  | star
  deriving DecidableEq, Repr

abbrev Path := List Part

/-- a name in double quotes, the quotes inside it doubled -/
def delimited (name : Text) : Text := '"' :: (Text.doubled (· == '"') name ++ ['"'])

namespace Part

/-- the name a part stands for, `*` for the wildcard -/
def name : Part → Text
  | .bare name => name
  | .quoted name => name
  | .star => ['*']

def write : Part → Text
  | .bare name => name
  | .quoted name => delimited name
  | .star => ['*']

/-! ## Reading one part -/

/-- A quoted name behind its opening quote, and what follows its closing quote. -/
def readQuoted : Text → Option (Text × Text)
  | [] => none
  | '"' :: '"' :: r => (readQuoted r).map fun (name, rest) => ('"' :: name, rest)
  | '"' :: r => some ([], r)
  | c :: r => (readQuoted r).map fun (name, rest) => (c :: name, rest)

/-- the first character that a bare name may not have where it stands -/
def firstBad : Text → Option Char
  | [] => none
  | c :: r => if Text.isNameStart c then r.find? (fun d => !Text.isWordChar d) else some c

/-- a bare name: everything up to the next dot, if its characters allow -/
def readBare (path s : Text) : Except Invalid (Part × Text) :=
  let name := s.takeWhile (· != '.')
  match firstBad name with
  | some c => .error (.badCharacter c path)
  | none => if name.isEmpty then .error .emptySegment else .ok (.bare name, s.dropWhile (· != '.'))

/-- one part at the start of `s`, and what follows it -/
def read (path : Text) : Text → Except Invalid (Part × Text)
  | '*' :: r => .ok (.star, r)
  | '"' :: r =>
    match readQuoted r with
    | none => .error .unclosedQuote
    | some (name, rest) => if name.isEmpty then .error .emptyQuoted else .ok (.quoted name, rest)
  | s => readBare path s

theorem length_of_readQuoted {s name rest : Text} (h : readQuoted s = some (name, rest)) :
    rest.length ≤ s.length := by
  fun_induction readQuoted s generalizing name with
  | case1 => simp at h
  | case2 r ih =>
    obtain ⟨⟨n, t⟩, hr, e⟩ := Option.map_eq_some_iff.1 h
    obtain ⟨_, rfl⟩ := Prod.mk.inj e
    have := ih hr
    simp; omega
  | case3 r => simp_all
  | case4 c r _ _ ih =>
    obtain ⟨⟨n, t⟩, hr, e⟩ := Option.map_eq_some_iff.1 h
    obtain ⟨_, rfl⟩ := Prod.mk.inj e
    have := ih hr
    simp; omega

theorem length_of_readBare {path s rest : Text} {part : Part} (h : readBare path s = .ok (part, rest)) :
    rest.length ≤ s.length := by
  simp only [readBare] at h
  split at h
  · simp at h
  · split at h
    · simp at h
    · simp only [Except.ok.injEq, Prod.mk.injEq] at h
      exact h.2 ▸ (List.dropWhile_suffix _).length_le

theorem length_of_read {path s rest : Text} {part : Part} (h : read path s = .ok (part, rest)) :
    rest.length ≤ s.length := by
  unfold read at h
  split at h
  · simp only [Except.ok.injEq, Prod.mk.injEq] at h
    simp [← h.2]
  · split at h
    · simp at h
    · rename_i hq
      split at h
      · simp at h
      · simp only [Except.ok.injEq, Prod.mk.injEq] at h
        have := length_of_readQuoted hq
        simp [← h.2]; omega
  · exact length_of_readBare h

end Part

namespace Path

/-! ## Reading a path -/

/-- The parts from `s` on. Behind a part stands the end or a dot and another part; behind `*` only the end. -/
def readFrom (path s : Text) : Except Invalid Path :=
  match _h : Part.read path s with
  | .error e => .error e
  | .ok (part, []) => .ok [part]
  | .ok (part, c :: r) =>
    if part = .star then .error (.starNotLast path)
    else if c ≠ '.' then .error (.expectedDot c)
    else if r.isEmpty then .error .trailingDot
    else (readFrom path r).map (part :: ·)
termination_by s.length
decreasing_by
  have := Part.length_of_read _h
  simp at this
  omega

/-- the parts of a path, or what is wrong with it first -/
def read (s : Text) : Except Invalid Path :=
  if s.isEmpty then .error .emptyIdentifier
  else if '\x00' ∈ s then .error .nulInIdentifier
  else readFrom s s

def write (path : Path) : Text := Text.joined ['.'] (path.map Part.write)

/-! ## Quoting -/

/-- One part for the server: `*` bare, a name in quotes, the table's with the prefix in front. -/
def quotedPart (tablePrefix : Text) (tableAt : Option Nat) (index : Nat) : Part → Text
  | .star => ['*']
  | part => delimited (if tableAt = some index then tablePrefix ++ part.name else part.name)

/-- The path for the server, every name in quotes; `tableAt` is the place of the part that names a table. -/
def quoted (tablePrefix : Text) (tableAt : Option Nat) (path : Path) : Text :=
  Text.joined ['.'] (path.mapIdx (quotedPart tablePrefix tableAt))

end Path

end SqlAccess
