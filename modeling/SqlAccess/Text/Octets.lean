/-
Text as its bytes in UTF-8, with positions in it counted in bytes.

A text can be cut where a character begins and where the text ends, and nowhere else: `cutAt?`. `byteAt` and `slice`
refuse every other position, so that whoever works with positions in bytes has to show that they are sound. `find?`
looks for bytes among bytes, whatever characters these belong to.
-/
import SqlAccess.Text

namespace SqlAccess

/-- what is wrong with a position: no byte is there, or there is nothing to cut out between two of them -/
inductive Misplaced where
  | index (position : Nat)
  | slice (start stop : Nat)
  deriving DecidableEq, Repr

namespace Text

/-- the bytes of a text in UTF-8 -/
def octets (t : Text) : List UInt8 := t.flatMap String.utf8EncodeChar

def size (t : Text) : Nat := t.octets.length

/-- The byte at a position, if there is one, as the character of its code. Only ASCII characters have bytes in ASCII. -/
def byteAt? (t : Text) (position : Nat) : Option Char := t.octets[position]?.map fun b => Char.ofNat b.toNat

/-- the byte that must be at a position -/
def byteAt (t : Text) (position : Nat) : Except Misplaced Char :=
  match t.byteAt? position with
  | some c => .ok c
  | none => .error (.index position)

/-- The text in front of a position and behind it; none past the end and inside a character. -/
def cutAt? : Nat → Text → Option (Text × Text)
  | 0, t => some ([], t)
  | _ + 1, [] => none
  | n + 1, c :: r =>
    if c.utf8Size ≤ n + 1 then (cutAt? (n + 1 - c.utf8Size) r).map fun (front, back) => (c :: front, back) else none

/-- the text between two positions, which must be in order and sound for cutting -/
def slice (t : Text) (start stop : Nat) : Except Misplaced Text :=
  if start ≤ stop then
    match (t.cutAt? start).bind fun (_, rest) => rest.cutAt? (stop - start) with
    | some (piece, _) => .ok piece
    | none => .error (.slice start stop)
  else .error (.slice start stop)

/-- the first position at which the bytes of a pattern stand -/
def find? (pattern t : Text) : Option Nat :=
  (List.range (t.size + 1)).find? fun position => pattern.octets.isPrefixOf (t.octets.drop position)

/-! ## Sizes -/

@[simp] theorem size_nil : size [] = 0 := rfl

@[simp] theorem size_append (s t : Text) : size (s ++ t) = s.size + t.size := by
  simp [size, octets]

@[simp] theorem size_cons (c : Char) (t : Text) : size (c :: t) = c.utf8Size + size t := by
  simp [size, octets]

/-- Of two beginnings of a text the one with fewer bytes is a beginning of the other. -/
theorem prefix_of_size_le {s t whole : Text} (hs : s <+: whole) (ht : t <+: whole) (h : s.size ≤ t.size) : s <+: t := by
  rcases List.prefix_or_prefix_of_prefix hs ht with h' | h'
  · exact h'
  · obtain ⟨u, rfl⟩ := h'
    cases u with
    | nil => simp
    | cons c u =>
      have := c.utf8Size_pos
      simp only [size_append, size_cons] at h
      omega

/-! ## Cutting -/

/-- whether a character of the text begins at the position, or the text ends there -/
def IsBoundary (t : Text) (position : Nat) : Prop := ∃ front back, t = front ++ back ∧ position = front.size

theorem cutAt?_cons (c : Char) (n : Nat) (t : Text) :
    cutAt? (c.utf8Size + n) (c :: t) = (cutAt? n t).map fun (front, back) => (c :: front, back) := by
  obtain ⟨m, hm⟩ := Nat.exists_eq_add_one.2 c.utf8Size_pos
  have hposition : c.utf8Size + n = m + n + 1 := by omega
  rw [hposition, cutAt?, ← hposition, if_pos (Nat.le_add_right _ _), Nat.add_sub_cancel_left]

theorem cutAt?_size (front back : Text) : cutAt? front.size (front ++ back) = some (front, back) := by
  induction front with
  | nil => simp [cutAt?]
  | cons c front ih =>
    rw [size_cons, List.cons_append, cutAt?_cons, ih]
    rfl

theorem cutAt?_eq_some_iff {position : Nat} {t front back : Text} :
    cutAt? position t = some (front, back) ↔ t = front ++ back ∧ position = front.size := by
  constructor
  · intro h
    fun_induction cutAt? position t generalizing front back with
    | case1 t =>
      cases h
      exact ⟨rfl, rfl⟩
    | case2 => cases h
    | case3 n c r hfits ih =>
      obtain ⟨⟨front', back'⟩, hcut, e⟩ := Option.map_eq_some_iff.1 h
      cases e
      obtain ⟨rfl, hsize⟩ := ih hcut
      refine ⟨rfl, ?_⟩
      rw [size_cons, ← hsize]
      omega
    | case4 => cases h
  · rintro ⟨rfl, rfl⟩
    exact cutAt?_size front back

variable {t : Text} {start stop : Nat}

/-- A slice is what stands between two boundaries. -/
theorem slice_eq_ok_iff {piece : Text} : t.slice start stop = .ok piece ↔
    ∃ front back, t = front ++ (piece ++ back) ∧ start = front.size ∧ stop = front.size + piece.size := by
  unfold slice
  constructor
  · intro h
    split at h
    · rename_i hle
      split at h
      · rename_i piece' back hcut
        cases h
        obtain ⟨⟨front, rest⟩, hfront, hpiece⟩ := Option.bind_eq_some_iff.1 hcut
        obtain ⟨rfl, rfl⟩ := cutAt?_eq_some_iff.1 hfront
        obtain ⟨rfl, hsize⟩ := cutAt?_eq_some_iff.1 hpiece
        exact ⟨front, back, rfl, rfl, by omega⟩
      · cases h
    · cases h
  · rintro ⟨front, back, rfl, rfl, rfl⟩
    rw [if_pos (Nat.le_add_right _ _), cutAt?_size, Option.bind_some]
    simp only [Nat.add_sub_cancel_left, cutAt?_size]

theorem slice_between (front piece back : Text) :
    (front ++ (piece ++ back)).slice front.size (front.size + piece.size) = .ok piece :=
  slice_eq_ok_iff.2 ⟨front, back, rfl, rfl, rfl⟩

/-- A slice is of the size that its positions say. -/
theorem size_of_slice {piece : Text} (h : t.slice start stop = .ok piece) :
    start + piece.size = stop ∧ stop ≤ t.size := by
  obtain ⟨front, back, rfl, rfl, rfl⟩ := slice_eq_ok_iff.1 h
  rw [size_append, size_append]
  omega

/-- A text has a slice between two positions exactly if they are in order and boundaries of it. -/
theorem slice_sound_iff : (∃ piece, t.slice start stop = .ok piece) ↔
    start ≤ stop ∧ stop ≤ t.size ∧ t.IsBoundary start ∧ t.IsBoundary stop := by
  constructor
  · rintro ⟨piece, h⟩
    obtain ⟨front, back, rfl, rfl, rfl⟩ := slice_eq_ok_iff.1 h
    refine ⟨Nat.le_add_right _ _, ?_, ⟨front, piece ++ back, rfl, rfl⟩, ⟨front ++ piece, back, ?_, ?_⟩⟩
    · rw [size_append, size_append]
      omega
    · rw [List.append_assoc]
    · rw [size_append]
  · rintro ⟨hle, -, ⟨front, rest, rfl, rfl⟩, ⟨upto, back, hupto, rfl⟩⟩
    obtain ⟨piece, rfl⟩ := prefix_of_size_le (List.prefix_append front rest) ⟨back, hupto.symm⟩ hle
    rw [List.append_assoc] at hupto
    rw [List.append_cancel_left hupto, size_append]
    exact ⟨piece, slice_between front piece back⟩

/-! ## Single bytes and patterns -/

theorem lt_size_of_byteAt? {position : Nat} {c : Char} (h : t.byteAt? position = some c) : position < t.size := by
  obtain ⟨b, hb, -⟩ := Option.map_eq_some_iff.1 h
  exact (List.getElem?_eq_some_iff.1 hb).1

theorem byteAt_eq_ok_iff {position : Nat} {c : Char} : t.byteAt position = .ok c ↔ t.byteAt? position = some c := by
  unfold byteAt
  cases t.byteAt? position <;> simp

theorem lt_size_of_byteAt {position : Nat} {c : Char} (h : t.byteAt position = .ok c) : position < t.size :=
  lt_size_of_byteAt? (byteAt_eq_ok_iff.1 h)

/-- Below the size there is a byte. -/
theorem exists_byteAt {position : Nat} (h : position < t.size) : ∃ c, t.byteAt position = .ok c := by
  rw [byteAt, byteAt?, List.getElem?_eq_getElem h]
  exact ⟨_, rfl⟩

/-- What is found is inside the text. -/
theorem add_size_le_of_find? {pattern : Text} {n : Nat} (h : find? pattern t = some n) : n + pattern.size ≤ t.size := by
  obtain ⟨hthere, hrange, -⟩ := List.find?_range_eq_some.1 h
  have hlength := (List.isPrefixOf_iff_prefix.1 hthere).length_le
  rw [List.length_drop] at hlength
  have hn := Nat.lt_succ_iff.1 (List.mem_range.1 hrange)
  have hsizes : pattern.size ≤ t.size - n := hlength
  omega

end Text

end SqlAccess
