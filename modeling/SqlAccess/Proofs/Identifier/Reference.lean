/-
Rendered references read back.

A column or a table comes out as a path that can be read again: the same parts with every name in quotes, and the table
prefix in front of one of them, the last but one of a column and the last of a table (`Path.requoted`). The text of a
path is that path written out (`quoted_eq_write`), so what was said about reading applies to it. Main result,
`references_read_back`; without a prefix a rendered path is rendered as itself.
-/
import SqlAccess.Connection
import SqlAccess.Proofs.Identifier.Path
import SqlAccess.Recorder

namespace SqlAccess

/-- a part as it is read back: `*`, or its name in quotes with `added` in front -/
def Part.requoted (added : Text) : Part → Part
  | .star => .star
  | part => .quoted (added ++ part.name)

theorem Part.requoted_of_ne_star {part : Part} (h : part ≠ .star) (added : Text) :
    part.requoted added = .quoted (added ++ part.name) := by
  cases part with
  | star => exact absurd rfl h
  | bare name => rfl
  | quoted name => rfl

/-- in quotes, or `*` -/
def Part.IsQuoted : Part → Prop
  | .bare _ => False
  | .quoted _ => True
  | .star => True

theorem Part.isQuoted_requoted (added : Text) (part : Part) : (part.requoted added).IsQuoted := by
  cases part <;> trivial

namespace Path

/-- the parts as they are read back, with the prefix in front of the part in this place, counted from the end -/
def requoted (tablePrefix : Text) (fromEnd : Nat) (path : Path) : Path :=
  path.mapIdx fun i part => part.requoted (if i + fromEnd = path.length then tablePrefix else [])

variable {tablePrefix : Text} {path : Path}

theorem quotedPart_eq_write (tablePrefix : Text) (tableAt : Option Nat) (i : Nat) (part : Part) :
    quotedPart tablePrefix tableAt i part = (part.requoted (if tableAt = some i then tablePrefix else [])).write := by
  cases part with
  | star => rfl
  | bare name => by_cases h : tableAt = some i <;> simp [quotedPart, Part.requoted, Part.write, Part.name, h]
  | quoted name => by_cases h : tableAt = some i <;> simp [quotedPart, Part.requoted, Part.write, Part.name, h]

/-- The text of a path is its parts, requoted, written out. -/
theorem quoted_eq_write {tableAt : Option Nat} {fromEnd : Nat}
    (h : ∀ i < path.length, tableAt = some i ↔ i + fromEnd = path.length) :
    path.quoted tablePrefix tableAt = (path.requoted tablePrefix fromEnd).write := by
  have hparts : path.mapIdx (quotedPart tablePrefix tableAt) = (path.requoted tablePrefix fromEnd).map Part.write := by
    apply List.ext_getElem
    · simp [requoted]
    · intro i hi hi'
      have hlt : i < path.length := by simpa using hi
      simp [requoted, quotedPart_eq_write, h i hlt]
  rw [quoted, write, hparts]

theorem quoted_column : path.quoted tablePrefix (Identifier.tableOfColumn path) =
    (path.requoted tablePrefix 2).write := by
  apply quoted_eq_write
  intro i hi
  unfold Identifier.tableOfColumn
  split
  · rw [Option.some.injEq]
    omega
  · simp
    omega

theorem quoted_table : path.quoted tablePrefix (some (path.length - 1)) = (path.requoted tablePrefix 1).write := by
  apply quoted_eq_write
  intro i hi
  rw [Option.some.injEq]
  omega

theorem isQuoted_requoted {fromEnd : Nat} : ∀ part ∈ path.requoted tablePrefix fromEnd, part.IsQuoted := by
  intro part hpart
  obtain ⟨i, hi, rfl⟩ := List.mem_mapIdx.1 hpart
  exact Part.isQuoted_requoted _ _

/-- A qualified column has the prefix in front of its qualifier. -/
theorem requoted_pair (tablePrefix : Text) (table part : Part) :
    requoted tablePrefix 2 [table, part] = [table.requoted tablePrefix, part.requoted []] := by
  simp [requoted]

/-- A table has the prefix in front of its last name. -/
theorem requoted_concat (tablePrefix : Text) (front : Path) (last : Part) :
    requoted tablePrefix 1 (front ++ [last]) = front.map (Part.requoted []) ++ [last.requoted tablePrefix] := by
  apply List.ext_getElem
  · simp [requoted]
  · intro i hi hi'
    rcases Nat.lt_or_ge i front.length with hlt | hge
    · have hne : i ≠ front.length := Nat.ne_of_lt hlt
      simp [requoted, List.getElem_append_left, hlt, hne]
    · have hi'' : i < front.length + 1 := by simpa [requoted] using hi
      obtain rfl : i = front.length := by omega
      simp [requoted]

/-! ## Well-formed again -/

theorem wellFormed_requoted_part {part : Part} (h : part.WellFormed) {added : Text} (ha : '\x00' ∉ added) :
    (part.requoted added).WellFormed := by
  cases part with
  | star => trivial
  | bare name =>
    have hnul : '\x00' ∉ name := Part.not_mem_of_isBareName h (by decide)
    have hne : name ≠ [] := by
      rintro rfl
      exact h
    exact ⟨by simp [Part.name, hne], by simp [Part.name, ha, hnul]⟩
  | quoted name => exact ⟨by simp [Part.name, h.1], by simp [Part.name, ha, h.2]⟩

theorem requoted_eq_star {part : Part} {added : Text} (h : part.requoted added = .star) : part = .star := by
  cases part with
  | star => rfl
  | bare name => cases h
  | quoted name => cases h

theorem star_mem_of_requoted {fromEnd : Nat} (h : .star ∈ path.requoted tablePrefix fromEnd) : .star ∈ path := by
  obtain ⟨i, hi, e⟩ := List.mem_mapIdx.1 h
  exact requoted_eq_star e ▸ List.getElem_mem hi

/-- Requoting keeps the grammar, whatever prefix without NUL it puts in. -/
theorem WellFormed.requoted (h : path.WellFormed) (hp : '\x00' ∉ tablePrefix) (fromEnd : Nat) :
    (path.requoted tablePrefix fromEnd).WellFormed := by
  obtain ⟨hne, hparts, hstar⟩ := h
  refine ⟨by simpa [Path.requoted] using hne, ?_, ?_⟩
  · intro part hpart
    obtain ⟨i, hi, rfl⟩ := List.mem_mapIdx.1 hpart
    apply wellFormed_requoted_part (hparts _ (List.getElem_mem hi))
    split
    · exact hp
    · exact List.not_mem_nil
  · obtain ⟨init, last, rfl⟩ := (List.eq_nil_or_concat path).resolve_left hne
    rw [List.concat_eq_append, List.dropLast_concat] at hstar
    rw [Path.requoted, List.concat_eq_append, List.mapIdx_append, List.mapIdx_singleton, List.dropLast_concat]
    intro hmem
    obtain ⟨i, hi, e⟩ := List.mem_mapIdx.1 hmem
    exact hstar (requoted_eq_star e ▸ List.getElem_mem hi)

/-- Without a prefix a requoted path is requoted to itself. -/
theorem requoted_requoted (path : Path) (m n : Nat) : (path.requoted [] m).requoted [] n = path.requoted [] m := by
  apply List.ext_getElem
  · simp [requoted]
  · intro i hi hi'
    have hlt : i < path.length := by simpa [requoted] using hi
    cases hpart : path[i] <;> simp [requoted, hpart, Part.requoted, Part.name]

end Path

namespace Connection

variable {σ : Type} {path : Text} {parts : Path}

/-! ## References -/

theorem quoteColumn_name (conn : Connection σ) (h : Path.read path = .ok parts) (label : Option Text) (state : σ) :
    conn.quoteColumn (.name path label) state =
      (.ok ((parts.requoted conn.tablePrefix 2).write ++ Identifier.aliasText label), state) := by
  rw [quoteColumn, Identifier.asColumn, h, ← Path.quoted_column]
  rfl

theorem quoteTable_name (conn : Connection σ) (h : Path.read path = .ok parts) (hstar : .star ∉ parts)
    (label : Option Text) (state : σ) : conn.quoteTable (.name path label) state =
      (.ok ((parts.requoted conn.tablePrefix 1).write ++ Identifier.aliasText label), state) := by
  have hne : parts ≠ [] := (Path.write_of_read h).1.1
  rw [quoteTable, Identifier.asTable, h]
  simp only [if_neg hstar, Path.quoted_table]
  rfl

/-- A table that comes out is a path without `*`. -/
theorem exists_of_quoteTable {conn : Connection σ} {label : Option Text} {state state' : σ} {text : Text}
    (h : conn.quoteTable (.name path label) state = (.ok text, state')) :
    ∃ parts, Path.read path = .ok parts ∧ .star ∉ parts := by
  rw [quoteTable, Identifier.asTable] at h
  cases hread : Path.read path with
  | error e =>
    rw [hread] at h
    cases h
  | ok parts =>
    refine ⟨parts, rfl, fun hmem => ?_⟩
    simp only [hread, if_pos hmem] at h
    cases h

/-- from every state the action answers a path that reads as these parts, with the label in quotes behind it if there is
one -/
def RendersPath (x : Action σ Text) (label : Option Text) (parts : Path) : Prop :=
  ∃ text, (∀ state, x state = (.ok (text ++ label.elim [] fun l => (" AS " : Text) ++ delimited l), state)) ∧
    Path.read text = .ok parts

/-- **Rendered references read back.** The text of a column is a path with the parts meant, every name in quotes and the
prefix in front of the last but one, which is a name; the text of a table has the prefix in front of the last. Without
a prefix a rendered path is rendered as itself. -/
theorem references_read_back (conn : Connection σ) (hnul : '\x00' ∉ conn.tablePrefix)
    (hread : Path.read path = .ok parts) (label : Option Text) :
    .star ∉ parts.dropLast ∧
    RendersPath (conn.quoteColumn (.name path label)) label (parts.requoted conn.tablePrefix 2) ∧
    (.star ∉ parts →
      RendersPath (conn.quoteTable (.name path label)) label (parts.requoted conn.tablePrefix 1)) ∧
    (conn.tablePrefix = [] →
      (∀ text state state', conn.quoteColumn (.name path none) state = (.ok text, state') →
        ∀ s, conn.quoteColumn (.name text none) s = (.ok text, s)) ∧
      (∀ text state state', conn.quoteTable (.name path none) state = (.ok text, state') →
        ∀ s, conn.quoteTable (.name text none) s = (.ok text, s))) := by
  obtain ⟨hparts, -⟩ := Path.write_of_read hread
  have hback : ∀ n, Path.read (parts.requoted conn.tablePrefix n).write = .ok (parts.requoted conn.tablePrefix n) := by
    intro n
    exact Path.read_write (hparts.requoted hnul n)
  have hlabel : Identifier.aliasText label = label.elim [] fun l => (" AS " : Text) ++ delimited l := by
    cases label <;> rfl
  refine ⟨hparts.2.2, ⟨_, ?_, hback 2⟩, fun hstar => ⟨_, ?_, hback 1⟩, fun hnone => ⟨?_, ?_⟩⟩
  · intro state
    rw [quoteColumn_name conn hread, hlabel]
  · intro state
    rw [quoteTable_name conn hread hstar, hlabel]
  · intro text state state' h s
    rw [quoteColumn_name conn hread] at h
    cases h
    simp only [hnone, Identifier.aliasText, List.append_nil] at hback ⊢
    rw [quoteColumn_name conn (hback 2), hnone, Path.requoted_requoted, Identifier.aliasText, List.append_nil]
  · intro text state state' h s
    have hstar : .star ∉ parts := by
      obtain ⟨parts', hread', hstar⟩ := exists_of_quoteTable h
      cases hread.symm.trans hread'
      exact hstar
    rw [quoteTable_name conn hread hstar] at h
    cases h
    simp only [hnone, Identifier.aliasText, List.append_nil] at hback ⊢
    have hstar' : .star ∉ parts.requoted [] 1 := fun hmem => hstar (Path.star_mem_of_requoted hmem)
    rw [quoteTable_name conn (hback 1) hstar', hnone, Path.requoted_requoted, Identifier.aliasText, List.append_nil]

/-- A name with a quote inside, behind a prefix with a quote and a dot; and read back without a prefix. -/
theorem references_read_back_awkward :
    '\x00' ∉ (Recorder.connection "p\".".toList).tablePrefix ∧
    Path.read "s.\"t\"\"x\"".toList = .ok [.bare ['s'], .quoted "t\"x".toList] ∧
    RendersPath ((Recorder.connection "p\".".toList).quoteColumn (.name "s.\"t\"\"x\"".toList (some ['k'])))
      (some ['k']) [.quoted "p\".s".toList, .quoted "t\"x".toList] ∧
    RendersPath ((Recorder.connection "p\".".toList).quoteTable (.name "s.\"t\"\"x\"".toList (some ['k'])))
      (some ['k']) [.quoted ['s'], .quoted "p\".t\"x".toList] ∧
    ∀ s, (Recorder.connection []).quoteColumn (.name "\"s\".\"t\"\"x\"".toList none) s =
      (.ok "\"s\".\"t\"\"x\"".toList, s) := by
  have hwell : Path.WellFormed [.bare ['s'], .quoted "t\"x".toList] := by decide
  have hread : Path.read "s.\"t\"\"x\"".toList = .ok [.bare ['s'], .quoted "t\"x".toList] := Path.read_write hwell
  have hnul : '\x00' ∉ (Recorder.connection "p\".".toList).tablePrefix := by decide
  have hempty : '\x00' ∉ (Recorder.connection []).tablePrefix := by decide
  obtain ⟨-, hcolumn, htable, -⟩ := references_read_back _ hnul hread (some ['k'])
  obtain ⟨-, -, -, hnone⟩ := references_read_back _ hempty hread none
  refine ⟨hnul, hread, hcolumn, htable (by decide), ?_⟩
  exact (hnone rfl).1 _ .fresh .fresh (quoteColumn_name _ hread none Recorder.fresh)

end Connection

end SqlAccess
