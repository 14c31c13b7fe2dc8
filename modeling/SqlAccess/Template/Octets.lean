/-
The placeholders of a template, looked for byte by byte.

A scan stands at a position counted in bytes, looks at single bytes and cuts pieces out of the template, where every
byte and every cut is checked. It may come to stand inside a character, and in a quoted run even behind the end. Each
turn takes it further and not past the end (`turnAt_forward`), so a scan comes to an end whatever it finds.
-/
import SqlAccess.Template
import SqlAccess.Text.Octets

namespace SqlAccess

namespace Template

variable (template : Text)

/-! ## Looking back -/

/-- whether there is a byte in front of a position, and it has the property -/
def behind (property : Char → Bool) (position : Nat) : Except Misplaced Bool :=
  if position = 0 then .ok false else (template.byteAt (position - 1)).map property

/-- whether the byte in front of a position is an `E` that is a word of its own -/
def behindEscapeMark (position : Nat) : Except Misplaced Bool := do
  if ← behind template (fun c => c == 'E' || c == 'e') position then
    let word ← behind template Text.isWordChar (position - 1)
    return !word
  else return false

/-! ## Ends -/

/-- where the quoted run ends that goes on at a position -/
def quotedEnd (mark : Char) (escapes : Bool) (position : Nat) : Except Misplaced Nat :=
  if _h : position < template.size then do
    let c ← template.byteAt position
    if escapes && c == '\\' then quotedEnd mark escapes (position + 2)
    else if c == mark then
      if template.byteAt? (position + 1) = some mark then quotedEnd mark escapes (position + 2)
      else return position + 1
    else quotedEnd mark escapes (position + 1)
  else return template.size
termination_by template.size - position

/-- where the letters, digits and `_` end that go on at a position -/
def nameEnd (position : Nat) : Except Misplaced Nat :=
  if _h : position < template.size then do
    let c ← template.byteAt position
    if Text.isNameChar c then nameEnd (position + 1) else return position
  else return position
termination_by template.size - position

/-- where the first occurrence of a pattern ends that stands behind a position, or else the template -/
def patternEnd (pattern : Text) (position : Nat) : Except Misplaced Nat := do
  let rest ← template.slice position template.size
  return match Text.find? pattern rest with
    | some n => position + n + pattern.size
    | none => template.size

/-- the tag `$name$` that opens at a position, if one does -/
def tagAt (position : Nat) : Except Misplaced (Option Text) := do
  if (template.byteAt? (position + 1)).any Char.isDigit then return none
  let stop ← nameEnd template (position + 1)
  if template.byteAt? stop = some '$' then
    let tag ← template.slice position (stop + 1)
    return some tag
  else return none

/-! ## The scan -/

/-- what a colon begins that is no half of a cast: a placeholder or nothing, and the position behind it -/
def colonAt (position : Nat) : Except Misplaced (Nat × Option Placeholder) := do
  if ← behind template Text.isWordChar position then return (position + 1, none)
  if ← behind template (fun c => c == '[' || c == ']') position then return (position + 1, none)
  if (template.byteAt? (position + 1)).any Text.isNameStart then
    let stop ← nameEnd template (position + 1)
    let name ← template.slice (position + 1) stop
    return (stop, some ⟨position, stop, name⟩)
  else return (position + 1, none)

/-- one turn of the scan: the position of the next turn, and the placeholder found -/
def turnAt (position : Nat) : Except Misplaced (Nat × Option Placeholder) := do
  let c ← template.byteAt position
  if c = '\'' then
    let escapes ← behindEscapeMark template position
    let stop ← quotedEnd template '\'' escapes (position + 1)
    return (stop, none)
  else if c = '"' then
    let stop ← quotedEnd template '"' false (position + 1)
    return (stop, none)
  else if c = '$' then
    if ← behind template Text.isWordChar position then return (position + 1, none)
    match ← tagAt template position with
    | some tag =>
      let stop ← patternEnd template tag (position + tag.size)
      return (stop, none)
    | none => return (position + 1, none)
  else if c = '-' ∧ template.byteAt? (position + 1) = some '-' then
    let stop ← patternEnd template ['\n'] position
    return (stop, none)
  else if c = '/' ∧ template.byteAt? (position + 1) = some '*' then
    let stop ← patternEnd template ['*', '/'] (position + 2)
    return (stop, none)
  else if c = ':' then
    if template.byteAt? (position + 1) = some ':' then return (position + 2, none) else colonAt template position
  else return (position + 1, none)

/-! ## Each turn goes on -/

variable {template} {mark : Char} {escapes : Bool} {pattern : Text} {position stop : Nat}

theorem ok_bind {α β : Type} (a : α) (f : α → Except Misplaced β) : (Except.ok a >>= f) = f a := rfl

theorem bind_eq_ok {α β : Type} {x : Except Misplaced α} {f : α → Except Misplaced β} {b : β}
    (h : (x >>= f) = .ok b) : ∃ a, x = .ok a ∧ f a = .ok b := by
  cases x with
  | error e => cases h
  | ok a => exact ⟨a, rfl, h⟩

/-- From any position, also inside a character and past the end, a quoted run has an end. -/
theorem exists_quotedEnd (template : Text) (mark : Char) (escapes : Bool) (position : Nat) :
    ∃ stop, quotedEnd template mark escapes position = .ok stop ∧ min position template.size ≤ stop ∧
      stop ≤ template.size := by
  fun_induction quotedEnd template mark escapes position with
  | case1 position h ih₁ ih₂ =>
    obtain ⟨c, hc⟩ := Text.exists_byteAt h
    obtain ⟨stop₁, hstop₁, hle₁, hsize₁⟩ := ih₁
    obtain ⟨stop₂, hstop₂, hle₂, hsize₂⟩ := ih₂
    rw [hc, ok_bind]
    split
    · exact ⟨stop₁, hstop₁, by omega, hsize₁⟩
    split
    · split
      · exact ⟨stop₁, hstop₁, by omega, hsize₁⟩
      · exact ⟨position + 1, rfl, by omega, h⟩
    · exact ⟨stop₂, hstop₂, by omega, hsize₂⟩
  | case2 position h => exact ⟨_, rfl, Nat.min_le_right _ _, Nat.le_refl _⟩

theorem quotedEnd_bounds (h : quotedEnd template mark escapes position = .ok stop) :
    min position template.size ≤ stop ∧ stop ≤ template.size := by
  obtain ⟨_, hstop, hbounds⟩ := exists_quotedEnd template mark escapes position
  cases h.symm.trans hstop
  exact hbounds

theorem nameEnd_bounds (hposition : position ≤ template.size) (h : nameEnd template position = .ok stop) :
    position ≤ stop ∧ stop ≤ template.size := by
  fun_induction nameEnd template position with
  | case1 position hbelow ih =>
    obtain ⟨c, -, h⟩ := bind_eq_ok h
    split at h
    · have := ih hbelow h
      omega
    · cases h
      omega
  | case2 position hbelow =>
    cases h
    exact ⟨Nat.le_refl _, hposition⟩

theorem patternEnd_bounds (h : patternEnd template pattern position = .ok stop) :
    position ≤ stop ∧ stop ≤ template.size ∧ (0 < pattern.size → position < template.size → position < stop) := by
  obtain ⟨rest, hrest, h⟩ := bind_eq_ok h
  obtain ⟨hsize, -⟩ := Text.size_of_slice hrest
  cases h
  split
  · rename_i n hfound
    have := Text.add_size_le_of_find? hfound
    omega
  · omega

theorem tagAt_bounds {tag : Text} (hposition : position < template.size)
    (h : tagAt template position = .ok (some tag)) : 0 < tag.size := by
  unfold tagAt at h
  split at h
  · cases h
  obtain ⟨stop, hstop, h⟩ := bind_eq_ok h
  split at h
  · obtain ⟨tag', htag, h⟩ := bind_eq_ok h
    cases h
    have := nameEnd_bounds hposition hstop
    have := Text.size_of_slice htag
    omega
  · cases h

variable {next : Nat} {found : Option Placeholder}

theorem colonAt_forward (hposition : position < template.size) (h : colonAt template position = .ok (next, found)) :
    position < next ∧ next ≤ template.size := by
  obtain ⟨word, -, h⟩ := bind_eq_ok h
  split at h
  · cases h
    omega
  obtain ⟨bracket, -, h⟩ := bind_eq_ok h
  split at h
  · cases h
    omega
  split at h
  · obtain ⟨stop, hstop, h⟩ := bind_eq_ok h
    obtain ⟨name, -, h⟩ := bind_eq_ok h
    have := nameEnd_bounds hposition hstop
    cases h
    omega
  · cases h
    omega

/-- **A turn goes on**: it takes the scan further and not past the end, whatever bytes it finds. -/
theorem turnAt_forward (h : turnAt template position = .ok (next, found)) :
    position < next ∧ next ≤ template.size := by
  obtain ⟨c, hc, h⟩ := bind_eq_ok h
  have hposition := Text.lt_size_of_byteAt hc
  split at h
  · obtain ⟨escapes, -, h⟩ := bind_eq_ok h
    obtain ⟨stop, hstop, h⟩ := bind_eq_ok h
    have := quotedEnd_bounds hstop
    cases h
    omega
  split at h
  · obtain ⟨stop, hstop, h⟩ := bind_eq_ok h
    have := quotedEnd_bounds hstop
    cases h
    omega
  split at h
  · obtain ⟨word, -, h⟩ := bind_eq_ok h
    split at h
    · cases h
      omega
    obtain ⟨tag?, htag, h⟩ := bind_eq_ok h
    split at h
    · obtain ⟨stop, hstop, h⟩ := bind_eq_ok h
      have := tagAt_bounds hposition htag
      have := patternEnd_bounds hstop
      cases h
      omega
    · cases h
      omega
  split at h
  · obtain ⟨stop, hstop, h⟩ := bind_eq_ok h
    obtain ⟨-, hsize, hlt⟩ := patternEnd_bounds hstop
    cases h
    exact ⟨hlt (by decide) hposition, hsize⟩
  split at h
  · obtain ⟨stop, hstop, h⟩ := bind_eq_ok h
    have := patternEnd_bounds hstop
    cases h
    omega
  split at h
  · split at h
    · rename_i hnext
      have := Text.lt_size_of_byteAt? hnext
      cases h
      omega
    · exact colonAt_forward hposition h
  · cases h
    omega

variable (template)

/-- the placeholders that a scan finds from a position on -/
def spansFrom (position : Nat) : Except Misplaced (List Placeholder) :=
  if _h : position < template.size then
    match _ht : turnAt template position with
    | .error misplaced => .error misplaced
    | .ok (next, found) => (spansFrom next).map (found.toList ++ ·)
  else .ok []
termination_by template.size - position
decreasing_by
  have := turnAt_forward _ht
  omega

/-- the placeholders of a template with their positions in bytes -/
def spans : Except Misplaced (List Placeholder) := spansFrom template 0

end Template

end SqlAccess
