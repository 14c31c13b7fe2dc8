/-
The clauses without values as pieces of a template.

Names come out in quotes, and the words a caller chooses are letters and blanks, so what a clause without values
writes is a piece that is filled to itself, and is the same each time (`yields_columns`, `yields_joins`,
`yields_orderBy`, …).
-/
import SqlAccess.Proofs.Statement.Substitution

namespace SqlAccess

namespace Template

theorem leads_lit {s : String} (h : leads s.toList = true) : leads (s : Text) = true := by rwa [Text.lit_eq]

theorem closes_lit {s : String} (h : closes s.toList = true) : closes (s : Text) = true := by rwa [Text.lit_eq]

theorem plain_lit {s : String} (h : s.toList.all isPlain = true) : ∀ c ∈ (s : Text), isPlain c = true := by
  rw [Text.lit_eq]
  exact List.all_eq_true.1 h

theorem leads_append {p q : Text} (hp : ∀ c ∈ p, isPlain c = true) (hq : leads q = true) : leads (p ++ q) = true := by
  have hall := leads_plain hq
  simp only [leads, Bool.and_eq_true, List.all_eq_true] at hq ⊢
  refine ⟨fun c hc => (List.mem_append.1 hc).elim (hp c) (hall c), ?_⟩
  rw [List.getLast?_append]
  cases hl : q.getLast? with
  | none => simp [hl] at hq
  | some c => simpa [hl] using hq.2

theorem closes_append {p q : Text} (hp : closes p = true) (hq : ∀ c ∈ q, isPlain c = true) :
    closes (p ++ q) = true := by
  have hall := closes_plain hp
  simp only [closes, Bool.and_eq_true, List.all_eq_true] at hp ⊢
  refine ⟨fun c hc => (List.mem_append.1 hc).elim (hall c) (hq c), ?_⟩
  cases p with
  | nil => simp at hp
  | cons c p => exact hp.2

/-- Plain characters between blanks are a word that leads and closes. -/
theorem leads_closes_word {w : Text} (hw : ∀ c ∈ w, isPlain c = true) :
    leads (' ' :: (w ++ [' '])) = true ∧ closes (' ' :: (w ++ [' '])) = true := by
  have hcons : ∀ c ∈ ' ' :: w, isPlain c = true := by
    intro c hc
    rcases List.mem_cons.1 hc with rfl | hc
    · decide
    · exact hw c hc
  have hconcat : ∀ c ∈ w ++ [' '], isPlain c = true := by
    intro c hc
    rcases List.mem_append.1 hc with hc | hc
    · exact hw c hc
    · rw [List.mem_singleton.1 hc]
      decide
  have hblank : leads [' '] = true ∧ closes [' '] = true := by decide
  exact ⟨leads_append hcons hblank.1, closes_append hblank.2 hconcat⟩

variable {fill : Text → Option Text}

/-- a piece that is filled to itself -/
def Piece (fill : Text → Option Text) (t : Text) : Prop := Fills fill t t

/-- a piece that brings its own closing and is filled to itself -/
def TailPiece (fill : Text → Option Text) (t : Text) : Prop := Tails fill t t

/-- Pieces with a separator between neighbours. -/
theorem piece_joined {p : Text} (hp : leads p = true) (hc : closes p = true) {ts : List Text}
    (h : ∀ t ∈ ts, Piece fill t) : Piece fill (Text.joined p ts) := Fills.joined hp hc (List.forall₂_same.2 h)

/-! ## Names -/

theorem tailPiece_aliasText (label : Option Text) : TailPiece fill (Identifier.aliasText label) := by
  cases label with
  | none => exact tails_nil
  | some label => exact (fills_delimited label).tail (leads_lit (by decide)) (closes_lit (by decide))

theorem piece_quotedPart (tablePrefix : Text) (tableAt : Option Nat) (index : Nat) (part : Part) :
    Piece fill (Path.quotedPart tablePrefix tableAt index part) := by
  cases part with
  | star =>
    have hstar : ∀ c ∈ ['*'], isPlain c = true := List.all_eq_true.1 (by decide)
    exact fills_plain hstar
  | bare name => exact fills_delimited _
  | quoted name => exact fills_delimited _

theorem piece_quoted (tablePrefix : Text) (tableAt : Option Nat) (path : Path) :
    Piece fill (path.quoted tablePrefix tableAt) := by
  refine piece_joined (by decide) (by decide) fun t ht => ?_
  obtain ⟨i, hi, rfl⟩ := List.mem_mapIdx.1 ht
  exact piece_quotedPart tablePrefix tableAt i _

theorem piece_asColumn {tablePrefix t : Text} {i : Identifier} (hi : i.IsNamed) (h : i.asColumn tablePrefix = .ok t) :
    Piece fill t := by
  obtain ⟨path, label, rfl⟩ := hi
  rw [Identifier.asColumn] at h
  split at h
  · cases h
  · cases h
    exact Fills.append (piece_quoted _ _ _) (tailPiece_aliasText label)

theorem piece_asTable {tablePrefix t : Text} {i : Identifier} (hi : i.IsNamed) (h : i.asTable tablePrefix = .ok t) :
    Piece fill t := by
  obtain ⟨path, label, rfl⟩ := hi
  rw [Identifier.asTable] at h
  split at h
  · cases h
  split at h
  · cases h
  · cases h
    exact Fills.append (piece_quoted _ _ _) (tailPiece_aliasText label)

/-! ## Words -/

theorem isPlain_toUpper {c : Char} (h : isPlain c = true) : isPlain c.toUpper = true := by
  unfold Char.toUpper
  split
  · rename_i hc
    have hv : 97 ≤ c.toNat ∧ c.toNat ≤ 122 := ⟨UInt32.le_iff_toNat_le.1 hc.1, UInt32.le_iff_toNat_le.1 hc.2⟩
    simp only [isPlain, Bool.and_eq_true, bne_iff_ne, ne_eq, Char.ext_iff]
    refine ⟨⟨⟨⟨⟨?_, ?_⟩, ?_⟩, ?_⟩, ?_⟩, ?_⟩ <;> intro e <;> have e := congrArg UInt32.toNat e <;> simp at e <;> omega
  · exact h

theorem isPlain_upper_trim {t : Text} (h : ∀ c ∈ t, isPlain c = true) : ∀ c ∈ t.trim.upper, isPlain c = true := by
  intro c hc
  obtain ⟨d, hd, rfl⟩ := List.mem_map.1 hc
  refine isPlain_toUpper (h d ?_)
  have h1 : d ∈ t.trimStart.reverse := (List.dropWhile_suffix _).subset (List.mem_reverse.1 hd)
  exact (List.dropWhile_suffix _).subset (List.mem_reverse.1 h1)

theorem isPlain_of_isAlpha {c : Char} (h : c.isAlpha = true) : isPlain c = true := by
  refine isPlain_of_isNameChar ?_
  simp [Text.isNameChar, Char.isAlphanum, h]

theorem isPlain_of_isWords {t : Text} (h : IsWords t) : ∀ c ∈ t, isPlain c = true := by
  intro c hc
  rcases h c hc with ha | rfl
  · exact isPlain_of_isAlpha ha
  · decide

theorem isPlain_of_isOperator {t : Text} (h : IsOperator t) : ∀ c ∈ t, isPlain c = true := by
  intro c hc
  rcases h c hc with ha | hs
  · exact isPlain_of_isAlpha ha
  · have hc' : c = ' ' ∨ c = '=' ∨ c = '<' ∨ c = '>' ∨ c = '!' ∨ c = '~' := by simpa using hs
    rcases hc' with rfl | rfl | rfl | rfl | rfl | rfl <;> decide

/-- A word that the caller chose is plain. -/
theorem isPlain_normalWord {word : Option Text} (h : ∀ w, word = some w → IsWords w) {t : Text}
    (ht : normalWord word = some t) : ∀ c ∈ t, isPlain c = true := by
  cases word with
  | none => cases ht
  | some w =>
    rw [normalWord] at ht
    split at ht
    · cases ht
    · cases ht
      exact isPlain_upper_trim (isPlain_of_isWords (h w rfl))

end Template

namespace Connection

open Template SqlAccess.Action

variable {σ : Type} {conn : Connection σ} {ready : σ → Prop} (fill : Text → Option Text)

/-! ## Clauses without values -/

theorem yields_quoteColumn {i : Identifier} (hi : i.IsNamed) : Yields ready (Piece fill) (conn.quoteColumn i) :=
  Yields.ofExcept fun _ => piece_asColumn hi

theorem yields_quoteTable {i : Identifier} (hi : i.IsNamed) : Yields ready (Piece fill) (conn.quoteTable i) :=
  Yields.ofExcept fun _ => piece_asTable hi

theorem yields_columns {columns : List Identifier} (h : ∀ c ∈ columns, c.IsNamed) :
    Yields ready (Piece fill) (conn.compileColumns columns) := by
  refine (Yields.mapM fun c hc => yields_quoteColumn fill (h c hc)).bind fun texts ht => ?_
  exact Yields.pure (piece_joined (by decide) (by decide) ht)

theorem yields_tables {tables : List Identifier} (h : ∀ t ∈ tables, t.IsNamed) :
    Yields ready (Piece fill) (conn.compileTables tables) := by
  refine (Yields.mapM fun t ht => yields_quoteTable fill (h t ht)).bind fun texts ht => ?_
  exact Yields.pure (piece_joined (by decide) (by decide) ht)

theorem yields_pair {pair : Identifier × Identifier} (h : pair.1.IsNamed ∧ pair.2.IsNamed) :
    Yields ready (Piece fill) (conn.compilePair pair) := by
  refine (yields_quoteColumn fill h.1).bind fun left hl => (yields_quoteColumn fill h.2).bind fun right hr => ?_
  exact Yields.pure (Fills.separated (by decide) (by decide) hl hr)

theorem yields_joinCondition {join : Join} (h : join.Late) :
    Yields ready (TailPiece fill) (conn.compileJoinCondition join) := by
  obtain ⟨-, -, hpairs, hmatching⟩ := h
  have hclose : TailPiece fill [')'] := tails_closes (by decide)
  unfold compileJoinCondition
  split
  · refine (yields_columns fill hmatching).bind fun columns hc => ?_
    exact Yields.pure ((Fills.tail (leads_lit (by decide)) (closes_lit (by decide)) hc).append hclose)
  split
  · refine (Yields.mapM fun pair hp => yields_pair fill (hpairs pair hp)).bind fun pairs hp => ?_
    split
    · rename_i pair
      refine Yields.pure (Fills.tail (leads_lit (by decide)) (closes_lit (by decide)) ?_)
      exact hp pair List.mem_cons_self
    · have hand : Piece fill (Text.joined " AND " pairs) :=
        piece_joined (leads_lit (by decide)) (closes_lit (by decide)) hp
      exact Yields.pure ((Fills.tail (leads_lit (by decide)) (closes_lit (by decide)) hand).append hclose)
  · exact Yields.pure tails_nil

theorem leads_joinKind {kind : Option Text} (h : ∀ k, kind = some k → IsWords k) :
    leads ((normalWord kind).elim [] (· ++ [' ']) ++ "JOIN ") = true := by
  refine leads_append ?_ (leads_lit (by decide))
  cases hw : normalWord kind with
  | none => exact fun c hc => nomatch hc
  | some word =>
    intro c hc
    rcases List.mem_append.1 hc with hc | hc
    · exact isPlain_normalWord h hw c hc
    · rw [List.mem_singleton.1 hc]
      decide

theorem yields_join {join : Join} (h : join.Late) : Yields ready (Piece fill) (conn.compileJoin join) := by
  refine (yields_quoteTable fill h.1).bind fun table ht => (yields_joinCondition fill h).bind fun condition hc => ?_
  exact Yields.pure (Fills.append (Fills.lead (leads_joinKind h.2.1) ht) hc)

theorem yields_joins {joins : List Join} (h : ∀ j ∈ joins, j.Late) :
    Yields ready (Piece fill) (conn.compileJoins joins) := by
  refine (Yields.mapM fun j hj => yields_join fill (h j hj)).bind fun texts ht => ?_
  exact Yields.pure (piece_joined (by decide) (by decide) ht)

theorem yields_sortTerm {term : SortTerm} (h : term.Late) : Yields ready (Piece fill) (conn.compileSortTerm term) := by
  refine (yields_quoteColumn fill h.1).bind fun column hc => Yields.pure (Fills.append hc ?_)
  cases hw : normalWord term.direction with
  | none => exact tails_nil
  | some word =>
    have hblank : closes [' '] = true := by decide
    exact tails_closes (closes_append hblank (isPlain_normalWord h.2 hw))

theorem yields_orderBy {terms : List SortTerm} (h : ∀ t ∈ terms, t.Late) :
    Yields ready (Piece fill) (conn.compileOrderBy terms) := by
  unfold compileOrderBy
  split
  · exact Yields.pure tails_nil.fills
  · refine (Yields.mapM fun t ht => yields_sortTerm fill (h t ht)).bind fun texts ht => ?_
    exact Yields.pure (Fills.lead (leads_lit (by decide)) (piece_joined (by decide) (by decide) ht))

theorem yields_groupBy {columns : List Identifier} (h : ∀ c ∈ columns, c.IsNamed) :
    Yields ready (Piece fill) (conn.compileGroupBy columns) := by
  unfold compileGroupBy
  split
  · exact Yields.pure tails_nil.fills
  · refine (yields_columns fill h).bind fun text ht => ?_
    exact Yields.pure (Fills.lead (leads_lit (by decide)) ht)

end Connection

end SqlAccess
