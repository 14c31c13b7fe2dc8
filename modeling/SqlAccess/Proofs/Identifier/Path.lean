/-
The grammar of paths.

`Path.WellFormed` says which parts a path may have and `Path.write` how they are written. A part is read up to where it
can end, whatever stands behind it (`Part.read_start_iff`); a path is read part by part (`readFrom_write`,
`write_of_readFrom`). Main result, `read_eq_ok_iff`: a text is read as a path exactly when the path is well formed and
the text is the path written out.
-/
import SqlAccess.Identifier
import SqlAccess.Proofs.Text

namespace SqlAccess

/-! ## The grammar -/

namespace Part

/-- an ASCII letter or `_`, and then letters, digits, `_` or `$` -/
def IsBareName : Text → Prop
  | [] => False
  | c :: r => Text.isNameStart c = true ∧ ∀ d ∈ r, Text.isWordChar d = true

instance : DecidablePred IsBareName
  | [] => inferInstanceAs (Decidable False)
  -- the characters of the name, not all characters there are
  | _ :: r => @instDecidableAnd _ _ inferInstance (List.decidableBAll _ r)

/-- the parts that can be written: a quoted name is not empty -/
def Writable : Part → Prop
  | .bare name => IsBareName name
  | .quoted name => name ≠ []
  | .star => True

/-- the parts of the grammar: besides, a quoted name is free of NUL -/
def WellFormed : Part → Prop
  | .bare name => IsBareName name
  | .quoted name => name ≠ [] ∧ '\x00' ∉ name
  | .star => True

instance : DecidablePred WellFormed
  | .bare name => inferInstanceAs (Decidable (IsBareName name))
  | .quoted name => inferInstanceAs (Decidable (name ≠ [] ∧ '\x00' ∉ name))
  | .star => inferInstanceAs (Decidable True)

end Part

/-- a path has parts, all of them well formed, and `*` is at most the last -/
def Path.WellFormed (path : Path) : Prop :=
  path ≠ [] ∧ (∀ part ∈ path, part.WellFormed) ∧ .star ∉ path.dropLast

instance : DecidablePred Path.WellFormed := fun path =>
  inferInstanceAs (Decidable (path ≠ [] ∧ (∀ part ∈ path, part.WellFormed) ∧ .star ∉ path.dropLast))

namespace Part

/-! ## Reading one part -/

/-- what can stand behind a bare name: the end or a dot -/
def Ends (rest : Text) : Prop := ∀ c ∈ rest.head?, c = '.'

theorem ends_nil : Ends [] := fun _ h => nomatch h

theorem ends_dot (rest : Text) : Ends ('.' :: rest) := fun _ h => (Option.some.inj h).symm

theorem readQuoted_doubled (name : Text) {rest : Text} (h : rest.head? ≠ some '"') :
    readQuoted (Text.doubled (· == '"') name ++ '"' :: rest) = some (name, rest) := by
  induction name with
  | nil =>
    cases rest with
    | nil => rfl
    | cons c r =>
      have hc : c ≠ '"' := by
        rintro rfl
        exact h rfl
      simp [readQuoted, hc]
  | cons c name ih =>
    by_cases hc : c = '"'
    · subst hc
      simp [Text.doubled, readQuoted, ih]
    · have hd : Text.doubled (· == '"') (c :: name) = c :: Text.doubled (· == '"') name := by simp [Text.doubled, hc]
      rw [hd, List.cons_append, readQuoted, ih]
      · rfl
      · rintro r rfl
        exact absurd rfl hc
      · rintro rfl
        exact absurd rfl hc

/-- What is read as a quoted name is the name with its quotes doubled, and the quote behind it closes it. -/
theorem of_readQuoted {s name rest : Text} (h : readQuoted s = some (name, rest)) :
    s = Text.doubled (· == '"') name ++ '"' :: rest ∧ rest.head? ≠ some '"' := by
  fun_induction readQuoted s generalizing name with
  | case1 => cases h
  | case2 r ih =>
    obtain ⟨⟨inner, left⟩, hr, e⟩ := Option.map_eq_some_iff.1 h
    obtain ⟨rfl, rfl⟩ := Prod.mk.inj e
    obtain ⟨rfl, hl⟩ := ih hr
    exact ⟨by simp [Text.doubled], hl⟩
  | case3 r hr =>
    cases h
    refine ⟨rfl, fun e => ?_⟩
    obtain ⟨tail, rfl⟩ := List.head?_eq_some_iff.1 e
    exact hr tail rfl
  | case4 c r h₁ hc ih =>
    obtain ⟨⟨inner, left⟩, hr, e⟩ := Option.map_eq_some_iff.1 h
    obtain ⟨rfl, rfl⟩ := Prod.mk.inj e
    obtain ⟨rfl, hl⟩ := ih hr
    have hq : c ≠ '"' := hc
    exact ⟨by simp [Text.doubled, hq], hl⟩

/-- A name in quotes ends where no quote follows. -/
theorem of_delimited_append {a b rest rest' : Text} (h : delimited a ++ rest = delimited b ++ rest')
    (ha : rest.head? ≠ some '"') (hb : rest'.head? ≠ some '"') : a = b := by
  have hread : readQuoted (Text.doubled (· == '"') a ++ '"' :: rest) = some (a, rest) :=
    readQuoted_doubled a ha
  have hsame : Text.doubled (· == '"') a ++ '"' :: rest = Text.doubled (· == '"') b ++ '"' :: rest' := by
    simpa [delimited] using h
  rw [hsame, readQuoted_doubled b hb] at hread
  exact (Prod.mk.inj (Option.some.inj hread)).1.symm

theorem delimited_injective {a b : Text} (h : delimited a = delimited b) : a = b := by
  have happend : delimited a ++ [] = delimited b ++ [] := by rw [h]
  exact of_delimited_append happend nofun nofun

theorem firstBad_eq_none_iff {name : Text} : firstBad name = none ↔ name = [] ∨ IsBareName name := by
  cases name with
  | nil => simp [firstBad]
  | cons c r => by_cases hc : Text.isNameStart c = true <;> simp [firstBad, IsBareName, hc]

theorem isWordChar_of_isBareName {name : Text} (h : IsBareName name) : ∀ c ∈ name, Text.isWordChar c = true := by
  cases name with
  | nil => exact h.elim
  | cons c r =>
    intro d hd
    rcases List.mem_cons.1 hd with rfl | hd
    · have hstart : d.isAlpha = true ∨ d = '_' := by simpa [Text.isNameStart] using h.1
      rcases hstart with ha | rfl
      · simp [Text.isWordChar, Char.isAlphanum, ha]
      · decide
    · exact h.2 d hd

theorem not_mem_of_isBareName {name : Text} (h : IsBareName name) {c : Char} (hc : Text.isWordChar c = false) :
    c ∉ name := by
  intro hmem
  exact absurd (isWordChar_of_isBareName h c hmem) (by simp [hc])

/-- A bare name is read up to the dot or the end behind it. -/
theorem readBare_eq_ok_iff {path s rest : Text} {part : Part} : readBare path s = .ok (part, rest) ↔
    ∃ name, part = .bare name ∧ IsBareName name ∧ s = name ++ rest ∧ Ends rest := by
  constructor
  · intro h
    simp only [readBare] at h
    split at h
    · cases h
    split at h
    · cases h
    · rename_i hbad hne
      cases h
      refine ⟨_, rfl, ?_, List.takeWhile_append_dropWhile.symm, ?_⟩
      · rcases firstBad_eq_none_iff.1 hbad with he | hname
        · simp [he] at hne
        · exact hname
      · intro c hc
        have hd := List.head?_dropWhile_not (· != '.') s
        rw [hc] at hd
        simpa using hd
  · rintro ⟨name, rfl, hname, rfl, hends⟩
    have hne : name ≠ [] := by
      rintro rfl
      exact hname
    have hdot : ∀ c ∈ name, (c != '.') = true := by
      intro c hc
      rw [bne_iff_ne]
      rintro rfl
      exact not_mem_of_isBareName hname (by decide) hc
    have hstop : ∀ c ∈ rest.head?, (c != '.') = false := by
      intro c hc
      simpa using hends c hc
    obtain ⟨ht, hd⟩ := Text.takeWhile_append_stop hdot hstop
    simp [readBare, ht, hd, firstBad_eq_none_iff.2 (Or.inr hname), hne]

/-- what can stand behind a part -/
def CanEnd : Part → Text → Prop
  | .bare _, rest => Ends rest
  | .quoted _, rest => rest.head? ≠ some '"'
  | .star, _ => True

theorem canEnd_nil (part : Part) : part.CanEnd [] := by
  cases part with
  | star => trivial
  | quoted name => simp [CanEnd]
  | bare name => exact ends_nil

theorem canEnd_dot (part : Part) (rest : Text) : part.CanEnd ('.' :: rest) := by
  cases part with
  | star => trivial
  | quoted name => simp [CanEnd]
  | bare name => exact ends_dot rest

/-- **One part is read exactly as it is written**, whatever can stand behind it. -/
theorem read_start_iff {path s rest : Text} {part : Part} : read path s = .ok (part, rest) ↔
    part.Writable ∧ s = part.write ++ rest ∧ part.CanEnd rest := by
  constructor
  · intro h
    unfold read at h
    split at h
    · cases h
      exact ⟨trivial, rfl, trivial⟩
    · split at h
      · cases h
      split at h
      · cases h
      · rename_i hq hne
        cases h
        obtain ⟨rfl, hrest⟩ := of_readQuoted hq
        exact ⟨by simpa [Writable] using hne, by simp [write, delimited], hrest⟩
    · obtain ⟨name, rfl, hname, rfl, hends⟩ := readBare_eq_ok_iff.1 h
      exact ⟨hname, rfl, hends⟩
  · rintro ⟨hpart, rfl, hrest⟩
    cases part with
    | star => rfl
    | quoted name =>
      have hne : name ≠ [] := hpart
      have hq : readQuoted (Text.doubled (· == '"') name ++ ['"'] ++ rest) = some (name, rest) := by
        simpa using readQuoted_doubled name hrest
      simp only [write, delimited, List.cons_append, read, hq]
      simp [hne]
    | bare name =>
      have hstart : Text.isNameStart '*' = false ∧ Text.isNameStart '"' = false := by decide
      have hbare : readBare path (name ++ rest) = .ok (.bare name, rest) :=
        readBare_eq_ok_iff.2 ⟨name, rfl, hpart, rfl, hrest⟩
      cases name with
      | nil => exact absurd hpart id
      | cons c r =>
        have hc : Text.isNameStart c = true := hpart.1
        rw [write, List.cons_append, read, ← List.cons_append, hbare]
        · rintro t e
          obtain ⟨rfl, -⟩ := List.cons.inj e
          simp [hstart] at hc
        · rintro t e
          obtain ⟨rfl, -⟩ := List.cons.inj e
          simp [hstart] at hc

theorem write_ne_nil {part : Part} (h : part.Writable) : part.write ≠ [] := by
  cases part with
  | star => exact List.cons_ne_nil _ _
  | quoted name => exact List.cons_ne_nil _ _
  | bare name =>
    rintro rfl
    exact h

/-- A writable part is well formed unless it writes NUL. -/
theorem wellFormed_iff {part : Part} : part.WellFormed ↔ part.Writable ∧ '\x00' ∉ part.write := by
  cases part with
  | star => simp [WellFormed, Writable, write]
  | quoted name => simp [WellFormed, Writable, write, delimited, Text.mem_doubled]
  | bare name => exact ⟨fun h => ⟨h, not_mem_of_isBareName h (by decide)⟩, And.left⟩

end Part

namespace Path

/-! ## Reading a path -/

theorem write_cons (part : Part) {path : Path} (h : path ≠ []) :
    write (part :: path) = part.write ++ '.' :: write path := by
  rw [write, List.map_cons, Text.joined_cons _ _ (by simpa using h)]
  simp [write]

/-- Written parts leave nothing empty. -/
theorem write_ne_nil {part : Part} {path : Path} (hmem : part ∈ path) (h : part.Writable) : path.write ≠ [] := by
  intro e
  have hinfix : part.write <:+: path.write := Text.infix_joined (List.mem_map_of_mem hmem)
  rw [e] at hinfix
  exact Part.write_ne_nil h (List.infix_nil.1 hinfix)

/-- A sequence of parts is read back from its text. -/
theorem readFrom_write (whole : Text) {path : Path} (hne : path ≠ []) (hparts : ∀ part ∈ path, part.Writable)
    (hstar : .star ∉ path.dropLast) : readFrom whole path.write = .ok path := by
  induction path with
  | nil => exact absurd rfl hne
  | cons part path ih =>
    have hpart : part.Writable := hparts part List.mem_cons_self
    cases path with
    | nil =>
      have hread : Part.read whole part.write = .ok (part, []) :=
        Part.read_start_iff.2 ⟨hpart, (List.append_nil _).symm, part.canEnd_nil⟩
      rw [readFrom, write, List.map_singleton, Text.joined_singleton, hread]
    | cons next path =>
      have hread : Part.read whole (write (part :: next :: path)) = .ok (part, '.' :: write (next :: path)) :=
        Part.read_start_iff.2 ⟨hpart, write_cons part (List.cons_ne_nil _ _), part.canEnd_dot _⟩
      have hnext : write (next :: path) ≠ [] := write_ne_nil List.mem_cons_self (hparts next (by simp))
      have hrest : readFrom whole (write (next :: path)) = .ok (next :: path) := by
        apply ih (List.cons_ne_nil _ _)
        · intro p hp
          exact hparts p (List.mem_cons_of_mem _ hp)
        · intro hmem
          exact hstar (List.mem_cons_of_mem _ hmem)
      have hlast : part ≠ .star := by
        rintro rfl
        exact hstar List.mem_cons_self
      rw [readFrom, hread]
      simp [hlast, hnext, hrest, Except.map]

theorem map_eq_ok {α β : Type} {f : α → β} {x : Except Invalid α} {b : β} (h : x.map f = .ok b) :
    ∃ a, x = .ok a ∧ f a = b := by
  cases x with
  | error e => cases h
  | ok a => exact ⟨a, rfl, Except.ok.inj h⟩

/-- What is read is a sequence of parts, written out. -/
theorem write_of_readFrom {whole s : Text} {path : Path} (h : readFrom whole s = .ok path) :
    path ≠ [] ∧ (∀ part ∈ path, part.Writable) ∧ .star ∉ path.dropLast ∧ s = path.write := by
  fun_induction readFrom whole s generalizing path with
  | case1 => cases h
  | case2 s part hread =>
    cases h
    obtain ⟨hpart, hs, -⟩ := Part.read_start_iff.1 hread
    refine ⟨List.cons_ne_nil _ _, ?_, List.not_mem_nil, by rw [hs]; exact List.append_nil _⟩
    intro p hp
    rwa [List.mem_singleton.1 hp]
  | case3 => cases h
  | case4 => cases h
  | case5 => cases h
  | case6 s part c r hread hlast hdot hrest ih =>
    obtain ⟨others, hothers, rfl⟩ := map_eq_ok h
    obtain ⟨hne, hparts, hstar, hr⟩ := ih hothers
    obtain ⟨hpart, hs, -⟩ := Part.read_start_iff.1 hread
    obtain rfl := Decidable.of_not_not hdot
    refine ⟨List.cons_ne_nil _ _, ?_, ?_, ?_⟩
    · intro p hp
      rcases List.mem_cons.1 hp with rfl | hp
      · exact hpart
      · exact hparts p hp
    · rw [List.dropLast_cons_of_ne_nil hne]
      intro hmem
      rcases List.mem_cons.1 hmem with e | hmem
      · exact hlast e.symm
      · exact hstar hmem
    · rw [hs, hr, write_cons part hne]

theorem nul_mem_write {path : Path} : '\x00' ∈ path.write ↔ ∃ part ∈ path, '\x00' ∈ part.write := by
  constructor
  · intro h
    rcases Text.mem_joined h with h | ⟨t, ht, h⟩
    · exact absurd h (by decide)
    · obtain ⟨part, hpart, rfl⟩ := List.mem_map.1 ht
      exact ⟨part, hpart, h⟩
  · rintro ⟨part, hpart, h⟩
    exact (Text.infix_joined (List.mem_map_of_mem hpart)).subset h

theorem WellFormed.nul_not_mem_write {path : Path} (h : path.WellFormed) : '\x00' ∉ path.write := by
  rw [nul_mem_write]
  rintro ⟨part, hp, hnul⟩
  exact (Part.wellFormed_iff.1 (h.2.1 part hp)).2 hnul

/-- A well-formed path is read back from its text. -/
theorem read_write {path : Path} (h : path.WellFormed) : read path.write = .ok path := by
  have hnul : '\x00' ∉ path.write := h.nul_not_mem_write
  obtain ⟨hne, hparts, hstar⟩ := h
  have hwritable : ∀ part ∈ path, part.Writable := fun part hp => (Part.wellFormed_iff.1 (hparts part hp)).1
  obtain ⟨part, hp⟩ := List.exists_mem_of_ne_nil path hne
  have hwrite : path.write ≠ [] := write_ne_nil hp (hwritable part hp)
  rw [read, if_neg (by simpa using hwrite), if_neg hnul]
  exact readFrom_write _ hne hwritable hstar

/-- A bare name is a path by itself. -/
theorem read_bareName {name : Text} (h : Part.IsBareName name) : read name = .ok [.bare name] := by
  have hwell : WellFormed [.bare name] := by
    refine ⟨List.cons_ne_nil _ _, ?_, List.not_mem_nil⟩
    intro part hpart
    rwa [List.mem_singleton.1 hpart]
  exact read_write hwell

/-- What is read is well formed, and the text is the path written out. -/
theorem write_of_read {s : Text} {path : Path} (h : read s = .ok path) : path.WellFormed ∧ s = path.write := by
  rw [read] at h
  split at h
  · cases h
  split at h
  · cases h
  · rename_i hnul
    obtain ⟨hne, hparts, hstar, rfl⟩ := write_of_readFrom h
    refine ⟨⟨hne, fun part hp => ?_, hstar⟩, rfl⟩
    exact Part.wellFormed_iff.2 ⟨hparts part hp, fun h => hnul (nul_mem_write.2 ⟨part, hp, h⟩)⟩

/-- **The grammar of paths.** A text is read as a path exactly when the path is well formed and the text is its parts
written out and joined by dots. -/
theorem read_eq_ok_iff (s : Text) (path : Path) : read s = .ok path ↔ path.WellFormed ∧ s = path.write := by
  constructor
  · intro h
    exact write_of_read h
  · rintro ⟨h, rfl⟩
    exact read_write h

end Path

end SqlAccess
