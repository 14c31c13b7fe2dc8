/-
The names in quotes of a rendered reference.

`quotedNames` reads a text as a server does: what stands between double quotes is a name, and a quote is written twice
in it. It knows nothing of paths. In a rendered reference it finds the names of the path, with the prefix, and the label
behind them (`quotedNames_reference`). The path has been read, so its names are never empty and hold no NUL, but a label
is taken as it is: `legal_iff`.
-/
import SqlAccess.Proofs.Identifier.Reference

namespace SqlAccess

/-! ## The reader -/

/-- where a reader of quoted names stands: between them, in one, or behind a quote in one that may be its end -/
inductive Quoting where
  | outside
  | inside (name : Text)
  | closing (name : Text)
  deriving DecidableEq, Repr

/-- The names in quotes from where the reader stands. A name that is open must be closed. -/
def quotedNamesFrom : Quoting → Text → Option (List Text)
  | .outside, [] => some []
  | .inside _, [] => none
  | .closing name, [] => some [name]
  | .outside, c :: r => if c = '"' then quotedNamesFrom (.inside []) r else quotedNamesFrom .outside r
  | .inside name, c :: r =>
    if c = '"' then quotedNamesFrom (.closing name) r else quotedNamesFrom (.inside (name ++ [c])) r
  | .closing name, c :: r =>
    if c = '"' then quotedNamesFrom (.inside (name ++ ['"'])) r else (quotedNamesFrom .outside r).map (name :: ·)

def quotedNames (t : Text) : Option (List Text) := quotedNamesFrom .outside t

/-- A text without NUL whose names in quotes are all closed and not empty. -/
def Legal (t : Text) : Prop := '\x00' ∉ t ∧ ∃ names, quotedNames t = some names ∧ [] ∉ names

/-! ## Reading what was written -/

/-- A name with its quotes doubled is read up to the quote behind it. -/
theorem quotedNamesFrom_doubled (front name rest : Text) :
    quotedNamesFrom (.inside front) (Text.doubled (· == '"') name ++ '"' :: rest) =
      quotedNamesFrom (.closing (front ++ name)) rest := by
  induction name generalizing front with
  | nil => simp [quotedNamesFrom]
  | cons c name ih =>
    by_cases hc : c = '"'
    · subst hc
      simp [Text.doubled, quotedNamesFrom, ih]
    · simp [Text.doubled, quotedNamesFrom, hc, ih]

theorem quotedNames_delimited (name : Text) {rest : Text} (h : rest.head? ≠ some '"') :
    quotedNames (delimited name ++ rest) = (quotedNames rest).map (name :: ·) := by
  have hopen : quotedNames (delimited name ++ rest) = quotedNamesFrom (.closing name) rest := by
    simp [quotedNames, delimited, quotedNamesFrom, quotedNamesFrom_doubled]
  rw [hopen]
  cases rest with
  | nil => rfl
  | cons c rest =>
    have hc : c ≠ '"' := by
      rintro rfl
      exact h rfl
    simp [quotedNames, quotedNamesFrom, hc]

/-- What holds no quote adds no name. -/
theorem quotedNames_of_not_mem {front : Text} (h : '"' ∉ front) (rest : Text) :
    quotedNames (front ++ rest) = quotedNames rest := by
  induction front with
  | nil => rfl
  | cons c front ih =>
    have hc : c ≠ '"' := fun he => h (he ▸ List.mem_cons_self)
    rw [← ih fun hmem => h (List.mem_cons_of_mem c hmem)]
    simp [quotedNames, quotedNamesFrom, hc]

def Part.quotedName? : Part → Option Text
  | .quoted name => some name
  | _ => none

theorem quotedNames_part {part : Part} (h : part.IsQuoted) {rest : Text} (hrest : rest.head? ≠ some '"') :
    quotedNames (part.write ++ rest) = (quotedNames rest).map (part.quotedName?.toList ++ ·) := by
  cases part with
  | bare name => exact h.elim
  | star =>
    have hstar : '"' ∉ Part.star.write := by decide
    rw [quotedNames_of_not_mem hstar]
    simp [Part.quotedName?]
  | quoted name => exact quotedNames_delimited name hrest

/-- A path of parts in quotes is read as their names, whatever follows but a quote. -/
theorem quotedNames_write {path : Path} (h : ∀ part ∈ path, part.IsQuoted) {rest : Text}
    (hrest : rest.head? ≠ some '"') :
    quotedNames (path.write ++ rest) = (quotedNames rest).map (path.filterMap Part.quotedName? ++ ·) := by
  induction path with
  | nil => simp [Path.write]
  | cons part path ih =>
    obtain ⟨hpart, hpath⟩ := List.forall_mem_cons.1 h
    have hnames : (part :: path).filterMap Part.quotedName? =
        part.quotedName?.toList ++ path.filterMap Part.quotedName? := by
      cases part <;> rfl
    by_cases hne : path = []
    · subst hne
      have hwrite : Path.write [part] = part.write := rfl
      rw [hwrite, quotedNames_part hpart hrest, hnames, List.filterMap_nil, List.append_nil]
    · have hmark : '"' ∉ ['.'] := by decide
      have hdot : quotedNames ('.' :: (Path.write path ++ rest)) = quotedNames (Path.write path ++ rest) :=
        quotedNames_of_not_mem hmark _
      rw [Path.write_cons part hne, List.append_assoc, List.cons_append, quotedNames_part hpart (by simp), hdot,
        ih hpath, Option.map_map, hnames]
      simp only [Function.comp_def, List.append_assoc]

/-- In a reference stand the names of its path, and the label behind them. -/
theorem quotedNames_reference {path : Path} (h : ∀ part ∈ path, part.IsQuoted) (label : Option Text) :
    quotedNames (path.write ++ Identifier.aliasText label) =
      some (path.filterMap Part.quotedName? ++ label.toList) := by
  have hend : ([] : Text).head? ≠ some '"' := nofun
  cases label with
  | none =>
    rw [Identifier.aliasText, quotedNames_write h hend]
    rfl
  | some label =>
    have hblank : (Identifier.aliasText (some label)).head? ≠ some '"' := by
      rw [Identifier.aliasText, Text.lit_eq]
      simp
    have hlabel : quotedNames (Identifier.aliasText (some label)) = some [label] := by
      have hread := quotedNames_delimited label hend
      rw [List.append_nil] at hread
      rw [Identifier.aliasText, quotedNames_of_not_mem (by decide +kernel), hread]
      rfl
    rw [quotedNames_write h hblank, hlabel]
    rfl

/-! ## Legal references -/

/-- With a well-formed path, all depends on the label. -/
theorem legal_reference_iff {path : Path} (hpath : path.WellFormed) (hquoted : ∀ part ∈ path, part.IsQuoted)
    (label : Option Text) :
    Legal (path.write ++ Identifier.aliasText label) ↔ ∀ l ∈ label, l ≠ [] ∧ '\x00' ∉ l := by
  have hnames : [] ∉ path.filterMap Part.quotedName? := by
    intro hmem
    obtain ⟨part, hpart, hname⟩ := List.mem_filterMap.1 hmem
    cases part with
    | quoted name =>
      cases hname
      exact (hpath.2.1 _ hpart).1 rfl
    | _ => cases hname
  have hnul : '\x00' ∉ path.write := hpath.nul_not_mem_write
  simp only [Legal, quotedNames_reference hquoted, Option.some.injEq, exists_eq_left', List.mem_append, not_or, hnul,
    hnames, not_false_eq_true, true_and]
  cases label with
  | none => simp [Identifier.aliasText]
  | some label =>
    have has : '\x00' ∉ Text.lit " AS " := by decide +kernel
    simp [Identifier.aliasText, delimited, Text.mem_doubled, has, and_comm, eq_comm]

namespace Connection

/-- **When a rendered reference is legal.** A column or a table that is rendered, with a prefix without NUL, holds no NUL
and no empty name in quotes if and only if its label, if it has one, is neither empty nor holds NUL. -/
theorem reference_legal_iff {σ : Type} (conn : Connection σ) (hnul : '\x00' ∉ conn.tablePrefix) {path text : Text}
    {label : Option Text} {state state' : σ} (h : conn.quoteColumn (.name path label) state = (.ok text, state') ∨
      conn.quoteTable (.name path label) state = (.ok text, state')) :
    Legal text ↔ ∀ l ∈ label, l ≠ [] ∧ '\x00' ∉ l := by
  rcases h with h | h
  · cases hread : Path.read path with
    | error e =>
      rw [quoteColumn, Identifier.asColumn, hread] at h
      cases h
    | ok parts =>
      rw [quoteColumn_name conn hread] at h
      cases h
      exact legal_reference_iff ((Path.write_of_read hread).1.requoted hnul 2) Path.isQuoted_requoted label
  · obtain ⟨parts, hread, hstar⟩ := exists_of_quoteTable h
    rw [quoteTable_name conn hread hstar] at h
    cases h
    exact legal_reference_iff ((Path.write_of_read hread).1.requoted hnul 1) Path.isQuoted_requoted label

/-- Quotes in the name of a table and in its label. -/
theorem reference_legal_quotes :
    ((Recorder.connection []).quoteTable (.name "\"t\"\"x\"" (some "k\"")) .fresh).1 =
      .ok "\"t\"\"x\" AS \"k\"\"\"" ∧ Legal "\"t\"\"x\" AS \"k\"\"\"" := by
  have hwell : Path.WellFormed [.quoted "t\"x"] := by decide +kernel
  have hread : Path.read "\"t\"\"x\"" = .ok [.quoted "t\"x"] :=
    (Path.read_eq_ok_iff _ _).2 ⟨hwell, by decide +kernel⟩
  have htext : (Path.requoted [] 1 [.quoted "t\"x"]).write ++ Identifier.aliasText (some "k\"") =
      "\"t\"\"x\" AS \"k\"\"\"" := by decide +kernel
  have htable := quoteTable_name (Recorder.connection []) hread (by decide) (some "k\"") .fresh
  have hlabel : Text.lit "k\"" ≠ [] ∧ '\x00' ∉ Text.lit "k\"" := by decide +kernel
  have hlegal := (reference_legal_iff _ (by decide) (.inr htable)).2 (by rintro l ⟨⟩; exact hlabel)
  exact ⟨htext ▸ congrArg Prod.fst htable, htext ▸ hlegal⟩

/-- A label is not looked at: an empty one becomes an empty name, and NUL goes through. -/
theorem label_not_checked :
    let answer (label : Text) := ((Recorder.connection []).quoteColumn (.name "id" (some label)) .fresh).1
    (answer [] = .ok "\"id\" AS \"\"" ∧ quotedNames "\"id\" AS \"\"" = some [Text.lit "id", []] ∧
      ¬Legal "\"id\" AS \"\"") ∧
    answer ['a', '\x00', 'b'] = .ok "\"id\" AS \"a\x00b\"" ∧ ¬Legal "\"id\" AS \"a\x00b\"" := by
  have hread : Path.read "id" = .ok [.bare "id"] := Path.read_bareName (by decide +kernel)
  have hanswer (label : Text) : ((Recorder.connection []).quoteColumn (.name "id" (some label)) .fresh).1 =
      .ok ((Path.requoted [] 2 [.bare "id"]).write ++ Identifier.aliasText (some label)) :=
    congrArg Prod.fst (quoteColumn_name _ hread (some label) Recorder.fresh)
  have hnames : quotedNames "\"id\" AS \"\"" = some [Text.lit "id", []] := by decide +kernel
  refine ⟨⟨?_, hnames, ?_⟩, ?_, ?_⟩
  · exact (hanswer []).trans (congrArg Except.ok (by decide +kernel))
  · intro h
    obtain ⟨-, names, hread, hne⟩ := h
    cases hnames.symm.trans hread
    exact hne (by simp)
  · exact (hanswer _).trans (congrArg Except.ok (by decide +kernel))
  · intro h
    exact h.1 (by decide +kernel)

end Connection

end SqlAccess
