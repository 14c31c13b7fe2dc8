/-
Text as a list of characters, so that scanners and printers are plain recursions on it.

`lit` is a fixed piece of text; `joined` puts a separator between pieces; `doubled` writes chosen characters twice (the
escape of quoted names and of string literals); `through` cuts a text just behind the first occurrence of a pattern.
The laws beside them say what each keeps: `through_append`, `length_through_snd`, `doubled_append`.
-/

namespace SqlAccess

/-- a text is the list of its characters -/
abbrev Text := List Char

namespace Text

/-- A fixed piece of text. It stays folded until `lit_eq` opens it. -/
@[irreducible] def lit (s : String) : Text := s.toList

theorem lit_eq (s : String) : lit s = s.toList := by unfold lit; rfl

end Text

instance : Coe String Text := ⟨Text.lit⟩

namespace Text

/-- the text as a string, for the outer layer -/
def toString (t : Text) : String := String.ofList t

/-! ## Joining and doubling -/

def joined (separator : Text) : List Text → Text
  | [] => []
  | [t] => t
  | t :: ts => t ++ separator ++ joined separator ts

@[simp] theorem joined_nil (separator : Text) : joined separator [] = [] := rfl

@[simp] theorem joined_singleton (separator t : Text) : joined separator [t] = t := rfl

@[simp] theorem joined_cons_cons (separator t u : Text) (ts : List Text) :
    joined separator (t :: u :: ts) = t ++ separator ++ joined separator (u :: ts) := rfl

/-- every character of the chosen kind written twice -/
def doubled (chosen : Char → Bool) : Text → Text
  | [] => []
  | c :: r => if chosen c then c :: c :: doubled chosen r else c :: doubled chosen r

@[simp] theorem doubled_nil (chosen : Char → Bool) : doubled chosen [] = [] := rfl

@[simp] theorem doubled_append (chosen : Char → Bool) (s t : Text) :
    doubled chosen (s ++ t) = doubled chosen s ++ doubled chosen t := by
  induction s with
  | nil => rfl
  | cons c r ih => by_cases h : chosen c <;> simp [doubled, h, ih]

/-! ## Cutting -/

/-- The text up to and including the first occurrence of `pattern`, and what follows it. Without an occurrence nothing
is left over. -/
def through (pattern : Text) : Text → Text × Text
  | [] => ([], [])
  | c :: r =>
    if pattern.isPrefixOf (c :: r) then ((c :: r).take pattern.length, (c :: r).drop pattern.length)
    else (c :: (through pattern r).1, (through pattern r).2)

theorem through_append (pattern s : Text) : (through pattern s).1 ++ (through pattern s).2 = s := by
  induction s with
  | nil => rfl
  | cons c r ih => by_cases h : pattern.isPrefixOf (c :: r) <;> simp [through, h, ih]

theorem length_through_snd (pattern s : Text) : (through pattern s).2.length ≤ s.length := by
  have h := congrArg List.length (through_append pattern s)
  simp only [List.length_append] at h
  omega

/-- whether `pattern` occurs somewhere in the text -/
def contains (pattern : Text) : Text → Bool
  | [] => pattern.isEmpty
  | c :: r => pattern.isPrefixOf (c :: r) || contains pattern r

/-- What stands before and after the last occurrence of `mark`, if there is one. -/
def splitLast (mark : Char) (t : Text) : Option (Text × Text) :=
  if mark ∈ t then
    some (((t.reverse.dropWhile (· != mark)).drop 1).reverse, (t.reverse.takeWhile (· != mark)).reverse)
  else none

/-- The longest beginning that takes at most `limit` bytes in UTF-8. -/
def takeBytes : Nat → Text → Text
  | _, [] => []
  | limit, c :: r => if c.utf8Size ≤ limit then c :: takeBytes (limit - c.utf8Size) r else []

/-! ## Letters -/

/-- ASCII letters in upper case, all else as it is -/
def upper (t : Text) : Text := t.map Char.toUpper

/-- ASCII letters in lower case, all else as it is -/
def lower (t : Text) : Text := t.map Char.toLower

/-- an ASCII letter or `_`: what a name may begin with -/
def isNameStart (c : Char) : Bool := c.isAlpha || c == '_'

/-- an ASCII letter, digit or `_` -/
def isNameChar (c : Char) : Bool := c.isAlphanum || c == '_'

/-- an ASCII letter, digit, `_` or `$`: what continues a name or a number -/
def isWordChar (c : Char) : Bool := c.isAlphanum || c == '_' || c == '$'

def isDigits (t : Text) : Bool := !t.isEmpty && t.all Char.isDigit

/-! ## Blanks -/

/-- The characters with the Unicode property White_Space. -/
def isBlank (c : Char) : Bool :=
  (9 ≤ c.val && c.val ≤ 13) || c.val == 0x20 || c.val == 0x85 || c.val == 0xA0 || c.val == 0x1680 ||
    (0x2000 ≤ c.val && c.val ≤ 0x200A) || c.val == 0x2028 || c.val == 0x2029 || c.val == 0x202F ||
    c.val == 0x205F || c.val == 0x3000

def trimStart (t : Text) : Text := t.dropWhile isBlank

def trim (t : Text) : Text := (t.trimStart.reverse.dropWhile isBlank).reverse

theorem length_trimStart (t : Text) : t.trimStart.length ≤ t.length :=
  (List.dropWhile_suffix _).length_le

end Text

end SqlAccess
