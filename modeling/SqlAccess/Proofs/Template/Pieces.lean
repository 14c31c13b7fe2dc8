/-
Templates put together from pieces.

`Fills fill s t` says of a piece `t` of a template that, wherever it stands behind an opening and in front of a
closing, it is scanned by itself and its placeholders filled give `s`; `Tails fill s t` is the same for a piece that
brings its own closing and may stand behind anything. Both are kept when pieces are joined with words and punctuation
between them, so the scan of a whole statement is put together the way its text is (`Fills.append`, `Fills.lead`,
`Fills.separated`, `Fills.joined`). The smallest pieces are plain characters, literals, delimited names and
placeholders.
-/
import Mathlib.Data.List.Forall2
import SqlAccess.Identifier
import SqlAccess.Proofs.Literal.Scan
import SqlAccess.Proofs.Query.Compile

namespace SqlAccess

namespace Template

/-! ## Surroundings -/

/-- a placeholder or a string may begin behind this -/
def Opening (before : Text) : Prop := ¬ AfterWord before ∧ ¬ AfterBracket before

/-- whether a character can follow a placeholder or anything in quotes -/
def isClosing (c : Char) : Bool := !Text.isNameChar c && c != '\'' && c != '"'

/-- a placeholder or anything in quotes may end in front of this -/
def Closing (rest : Text) : Prop := ∀ c, rest.head? = some c → isClosing c = true

theorem not_afterEscapeMark_of_opening {before : Text} (h : Opening before) : ¬ AfterEscapeMark before := by
  rintro ⟨p, c, rfl, hc, -⟩
  refine h.1 (endsIn_concat.2 ?_)
  rcases hc with rfl | rfl <;> decide

theorem Closing.head_ne {rest : Text} (h : Closing rest) :
    rest.head? ≠ some '\'' ∧ rest.head? ≠ some '"' ∧ ¬ rest.head?.any Text.isNameChar := by
  refine ⟨fun e => absurd (h _ e) (by decide), fun e => absurd (h _ e) (by decide), ?_⟩
  cases hh : rest.head? with
  | none => simp
  | some c =>
    have hc := h c hh
    simp only [isClosing, Bool.and_eq_true, Bool.not_eq_true'] at hc
    simp [hc.1.1]

theorem closing_nil : Closing [] := fun _ h => nomatch h

theorem opening_nil : Opening [] := ⟨not_endsIn_nil, not_endsIn_nil⟩

/-- plain characters, the last of them one that a placeholder can stand behind -/
def leads (p : Text) : Bool := p.all isPlain && p.getLast?.any fun c => !Text.isWordChar c && c != '[' && c != ']'

/-- plain characters, the first of them one that closes what stands before -/
def closes (p : Text) : Bool := p.all isPlain && p.head?.any isClosing

theorem leads_plain {p : Text} (h : leads p = true) : ∀ c ∈ p, isPlain c = true := by
  simp only [leads, Bool.and_eq_true, List.all_eq_true] at h
  exact h.1

theorem closes_plain {p : Text} (h : closes p = true) : ∀ c ∈ p, isPlain c = true := by
  simp only [closes, Bool.and_eq_true, List.all_eq_true] at h
  exact h.1

theorem opening_of_leads {p : Text} (h : leads p = true) (before : Text) : Opening (before ++ p) := by
  simp only [leads, Bool.and_eq_true] at h
  rcases List.eq_nil_or_concat p with rfl | ⟨q, c, rfl⟩
  · exact absurd h.2 (by simp)
  · rw [List.concat_eq_append] at h ⊢
    have hc : (Text.isWordChar c = false ∧ ¬ c = '[') ∧ ¬ c = ']' := by simpa using h.2
    rw [← List.append_assoc]
    constructor
    · rw [AfterWord, endsIn_concat, hc.1.1]
      decide
    · rw [AfterBracket, endsIn_concat]
      exact fun e => e.elim hc.1.2 hc.2

theorem closing_of_closes {p : Text} (h : closes p = true) (rest : Text) : Closing (p ++ rest) := by
  simp only [closes, Bool.and_eq_true] at h
  intro c hc
  cases p with
  | nil => exact absurd h.2 (by simp)
  | cons d p =>
    obtain rfl : d = c := by simpa using hc
    simpa using h.2

/-! ## Pieces -/

/-- the piece `t` behind `before` and in front of `rest` is scanned by itself and filled to `s` -/
def ScansAs (fill : Text → Option Text) (before rest s t : Text) : Prop :=
  ∀ tokens, Scans (before ++ t) rest tokens →
    ∃ own, Scans before (t ++ rest) (own ++ tokens) ∧ filled? fill own = some s

/-- a piece that is scanned by itself behind an opening and in front of a closing -/
def Fills (fill : Text → Option Text) (s t : Text) : Prop :=
  ∀ before rest, Opening before → Closing rest → ScansAs fill before rest s t

/-- a piece that is scanned by itself behind anything, and closes what stands before it if what follows does -/
def Tails (fill : Text → Option Text) (s t : Text) : Prop :=
  ∀ before rest, Closing rest → Closing (t ++ rest) ∧ ScansAs fill before rest s t

variable {fill : Text → Option Text} {s t s' t' p : Text}

theorem ScansAs.append {before rest : Text} (h : ScansAs fill before (t' ++ rest) s t)
    (h' : ScansAs fill (before ++ t) rest s' t') : ScansAs fill before rest (s ++ s') (t ++ t') := by
  intro tokens hs
  obtain ⟨own', hs', hf'⟩ := h' tokens (by simpa using hs)
  obtain ⟨own, hs, hf⟩ := h _ hs'
  refine ⟨own ++ own', by simpa using hs, ?_⟩
  rw [filled?_append, hf, hf']
  rfl

theorem filled?_single (fill : Text → Option Text) (p : Text) : filled? fill (p.map .single) = some p := by
  rw [filled?_of_no_placeholder (by simp)]
  congr 1
  induction p with
  | nil => rfl
  | cons c r ih => rw [List.map_cons, List.flatMap_cons, ih]; rfl

/-- Plain characters are scanned by themselves, whatever stands around. -/
theorem scansAs_plain (hp : ∀ c ∈ p, isPlain c = true) (before rest : Text) : ScansAs fill before rest p p :=
  fun _ hs => ⟨_, Scans.plain hp hs, filled?_single fill p⟩

theorem Tails.fills (h : Tails fill s t) : Fills fill s t := fun before rest _ hr => (h before rest hr).2

theorem fills_plain (hp : ∀ c ∈ p, isPlain c = true) : Fills fill p p :=
  fun before rest _ _ => scansAs_plain hp before rest

theorem tails_nil : Tails fill [] [] := fun before rest hr => ⟨hr, fun tokens hs => ⟨[], by simpa using hs, rfl⟩⟩

theorem tails_closes (hp : closes p = true) : Tails fill p p :=
  fun before rest _ => ⟨closing_of_closes hp rest, scansAs_plain (closes_plain hp) before rest⟩

/-! ## Putting pieces together -/

theorem Fills.append (h : Fills fill s t) (h' : Tails fill s' t') : Fills fill (s ++ s') (t ++ t') := by
  intro before rest hb hr
  obtain ⟨hc, ht⟩ := h' (before ++ t) rest hr
  exact (h before (t' ++ rest) hb hc).append ht

theorem Tails.append (h : Tails fill s t) (h' : Tails fill s' t') : Tails fill (s ++ s') (t ++ t') := by
  intro before rest hr
  obtain ⟨hc', ht'⟩ := h' (before ++ t) rest hr
  obtain ⟨hc, ht⟩ := h before (t' ++ rest) hc'
  exact ⟨by rwa [List.append_assoc], ht.append ht'⟩

/-- A word in front. -/
theorem Fills.lead (hp : leads p = true) (h : Fills fill s t) : Fills fill (p ++ s) (p ++ t) := by
  intro before rest _ hr
  exact (scansAs_plain (leads_plain hp) before (t ++ rest)).append
    (h (before ++ p) rest (opening_of_leads hp before) hr)

/-- A word in front that closes what stands before it. -/
theorem Fills.tail (hp : leads p = true) (hc : closes p = true) (h : Fills fill s t) :
    Tails fill (p ++ s) (p ++ t) := by
  intro before rest hr
  refine ⟨?_, ?_⟩
  · rw [List.append_assoc]
    exact closing_of_closes hc (t ++ rest)
  · exact (scansAs_plain (leads_plain hp) before (t ++ rest)).append
      (h (before ++ p) rest (opening_of_leads hp before) hr)

/-- Two pieces with a word between them. -/
theorem Fills.separated (hp : leads p = true) (hc : closes p = true) (h : Fills fill s t) (h' : Fills fill s' t') :
    Fills fill (s ++ p ++ s') (t ++ p ++ t') := by
  rw [List.append_assoc, List.append_assoc]
  exact h.append (h'.tail hp hc)

theorem Fills.joined (hp : leads p = true) (hc : closes p = true) {ss ts : List Text}
    (h : List.Forall₂ (Fills fill) ss ts) : Fills fill (Text.joined p ss) (Text.joined p ts) := by
  induction h with
  | nil => exact tails_nil.fills
  | @cons s t ss ts hst hrest ih =>
    cases hrest with
    | nil => exact hst
    | cons hst' hrest' => exact Fills.separated hp hc hst ih

/-! ## The smallest pieces -/

/-- A delimited name. -/
theorem fills_delimited (name : Text) : Fills fill (delimited name) (delimited name) := by
  intro before rest _ hr tokens hs
  have hl : Lexes before (.region .quotedName (delimited name)) rest :=
    .name (quotedBody_doubled '"' name) hr.head_ne.2.1
  refine ⟨[.region .quotedName (delimited name)], .lexeme hl (by simp) hs, ?_⟩
  simp [filled?, Token.filled?, Token.text]

theorem literalTokens_text (t : Text) : (literalTokens t).flatMap Token.text = t := by
  unfold literalTokens
  split
  · simp [Token.text]
  · have h := filled?_single (fun _ => none) t
    rw [filled?_of_no_placeholder (by simp)] at h
    exact Option.some.inj h

theorem no_placeholder_literalTokens (t name : Text) : .placeholder name ∉ literalTokens t := by
  unfold literalTokens
  split <;> simp

/-- A literal. -/
theorem fills_literal (h : IsString t ∨ IsBare t) : Fills fill t t := by
  intro before rest hb hr tokens hs
  refine ⟨literalTokens t, Scans.literal h (not_afterEscapeMark_of_opening hb) hr.head_ne.1 hs, ?_⟩
  rw [filled?_of_no_placeholder (no_placeholder_literalTokens t), literalTokens_text]

/-- an ASCII letter or `_`, and then letters, digits and `_` -/
def IsName (name : Text) : Prop := name.head?.any Text.isNameStart ∧ ∀ c ∈ name, Text.isNameChar c

/-- A placeholder, filled. -/
theorem fills_placeholder {name : Text} (hn : IsName name) (hf : fill name = some s) : Fills fill s (':' :: name) := by
  intro before rest hb hr tokens hs
  obtain ⟨hstart, hchars⟩ := hn
  have hi : Introduces before (name ++ rest) := by
    refine ⟨hb.1, hb.2, ?_⟩
    cases name with
    | nil => exact absurd hstart (by simp)
    | cons c r => exact hstart
  refine ⟨[.placeholder name], .placeholder hi hchars hr.head_ne.2.2 hs, ?_⟩
  simp [filled?, Token.filled?, hf]

/-- **A whole template.** A piece that is the template is compiled to what it is filled to. -/
theorem Fills.filled_tokens (h : Fills fill s t) : filled? fill (tokens t) = some s := by
  obtain ⟨own, hs, hf⟩ := h [] [] opening_nil closing_nil [] .nil
  have ht : tokensFrom [] t = own := by simpa using tokensFrom_of_scans hs
  rw [tokens, ht, hf]

end Template

end SqlAccess
