/-
The placeholders of a template, found by its grammar.

The scanner takes a placeholder as one token, the grammar as a colon and letters; `Scans.reads` says that the tokens
are the lexemes all the same. `placeholders_of_reading`: every template is read in exactly one way, and its
placeholders are, in order and apart, the colons that stand as lexemes by themselves and introduce a name.
-/
import SqlAccess.Proofs.Template.Scan

namespace SqlAccess

namespace Template

/-- `p` is the placeholder of a colon between `before` and `after`: it takes the longest name behind the colon -/
def Marks (before after : Text) (p : Placeholder) : Prop :=
  Introduces before after ∧
    (∃ rest, after = p.name ++ rest ∧ (∀ c ∈ p.name, Text.isNameChar c) ∧ ¬ rest.head?.any Text.isNameChar) ∧
    p.start = before.length ∧ p.stop = before.length + (p.name.length + 1)

/-! ## Tokens as lexemes -/

/-- a token as lexemes: a placeholder is a colon and the letters of its name -/
def Token.lexemes : Token → List Lexeme
  | .placeholder name => .single ':' :: name.map .single
  | .cast => [.cast]
  | .region kind text => [.region kind text]
  | .single c => [.single c]

theorem flatMap_single (name : Text) : (name.map Lexeme.single).flatMap Lexeme.text = name := by
  induction name with
  | nil => rfl
  | cons c r ih => simpa [Lexeme.text] using ih

theorem Token.lexemes_text (token : Token) : token.lexemes.flatMap Lexeme.text = token.text := by
  cases token with
  | placeholder name => simpa [Token.lexemes, Token.text, Lexeme.text] using flatMap_single name
  | _ => simp [Token.lexemes, Token.text, Lexeme.text]

theorem flatMap_lexemes_text (tokens : List Token) :
    (tokens.flatMap Token.lexemes).flatMap Lexeme.text = tokens.flatMap Token.text := by
  rw [List.flatMap_assoc]
  simp only [Token.lexemes_text]

@[simp] theorem Lexeme.token_lexemes (lexeme : Lexeme) : lexeme.token.lexemes = [lexeme] := by cases lexeme <;> rfl

variable {before : Text}

theorem reads_name {name rest : Text} {lexemes : List Lexeme} (hn : ∀ c ∈ name, Text.isNameChar c)
    (h : Reads (before ++ name) rest lexemes) : Reads before (name ++ rest) (name.map .single ++ lexemes) := by
  induction name generalizing before with
  | nil => simpa using h
  | cons c r ih =>
    have hr : Reads (before ++ [c]) (r ++ rest) (r.map .single ++ lexemes) :=
      ih (fun d hd => hn d (List.mem_cons_of_mem _ hd)) (by simpa using h)
    exact .cons (.single (not_begins_of_isNameChar (hn c List.mem_cons_self) _)) hr

/-- The tokens of a text are a reading of it. -/
theorem Scans.reads {s : Text} {tokens : List Token} (h : Scans before s tokens) :
    Reads before s (tokens.flatMap Token.lexemes) := by
  induction h with
  | nil => exact .nil
  | lexeme hl _ _ ih =>
    rw [List.flatMap_cons, Lexeme.token_lexemes]
    exact .cons hl ih
  | @placeholder before name rest tokens hi hn _ _ ih =>
    have hname : Reads (before ++ [':']) (name ++ rest) (name.map .single ++ tokens.flatMap Token.lexemes) :=
      reads_name hn (by simpa using ih)
    exact .cons (.single hi.not_begins) hname

/-! ## Placeholders by lexemes -/

instance (after : Text) : Decidable (Introduces before after) := decidable_of_iff _ introduces_iff.symm

/-- the placeholders that colons introduce, the lexemes standing behind `before` -/
def introducedFrom (before : Text) : List Lexeme → List Placeholder
  | [] => []
  | l :: ls =>
    if l = .single ':' ∧ Introduces before (ls.flatMap Lexeme.text) then
      ⟨before.length, before.length + (((ls.flatMap Lexeme.text).takeWhile Text.isNameChar).length + 1),
        (ls.flatMap Lexeme.text).takeWhile Text.isNameChar⟩ :: introducedFrom (before ++ l.text) ls
    else introducedFrom (before ++ l.text) ls

theorem marks_iff {after : Text} {p : Placeholder} : Marks before after p ↔ Introduces before after ∧
    p = ⟨before.length, before.length + ((after.takeWhile Text.isNameChar).length + 1),
      after.takeWhile Text.isNameChar⟩ := by
  constructor
  · rintro ⟨hi, ⟨rest, e, hn, hr⟩, hs, ht⟩
    have hname : after.takeWhile Text.isNameChar = p.name := by rw [e, (takeWhile_isNameChar hn hr).1]
    refine ⟨hi, ?_⟩
    rw [hname, ← ht, ← hs]
  · rintro ⟨hi, rfl⟩
    exact ⟨hi, ⟨after.dropWhile Text.isNameChar, List.takeWhile_append_dropWhile.symm, isNameChar_takeWhile after,
      head_dropWhile_isNameChar after⟩, rfl, rfl⟩

theorem mem_introducedFrom {lexemes : List Lexeme} {p : Placeholder} : p ∈ introducedFrom before lexemes ↔
    ∃ pre post, lexemes = pre ++ .single ':' :: post ∧
      Marks (before ++ pre.flatMap Lexeme.text) (post.flatMap Lexeme.text) p := by
  induction lexemes generalizing before with
  | nil => simp [introducedFrom]
  | cons l ls ih =>
    have hhead : p ∈ introducedFrom before (l :: ls) ↔
        (l = .single ':' ∧ Marks before (ls.flatMap Lexeme.text) p) ∨ p ∈ introducedFrom (before ++ l.text) ls := by
      rw [introducedFrom, marks_iff]
      split
      · rename_i h
        simp [h]
      · rename_i h
        constructor
        · exact Or.inr
        · rintro (⟨hl, hi, -⟩ | hp)
          · exact absurd ⟨hl, hi⟩ h
          · exact hp
    rw [hhead, ih]
    constructor
    · rintro (⟨rfl, hm⟩ | ⟨pre, post, rfl, hm⟩)
      · exact ⟨[], ls, rfl, by simpa using hm⟩
      · exact ⟨l :: pre, post, rfl, by simpa using hm⟩
    · rintro ⟨pre, post, e, hm⟩
      cases pre with
      | nil =>
        obtain ⟨rfl, rfl⟩ := List.cons.inj e
        exact Or.inl ⟨rfl, by simpa using hm⟩
      | cons k pre =>
        obtain ⟨rfl, rfl⟩ := List.cons.inj e
        exact Or.inr ⟨pre, post, rfl, by simpa using hm⟩

/-- The letters of a name introduce nothing. -/
theorem introducedFrom_name {name : Text} (hn : ∀ c ∈ name, Text.isNameChar c) (lexemes : List Lexeme) :
    introducedFrom before (name.map .single ++ lexemes) = introducedFrom (before ++ name) lexemes := by
  induction name generalizing before with
  | nil => simp
  | cons c r ih =>
    have hc : c ≠ ':' := by
      rintro rfl
      exact absurd (hn _ List.mem_cons_self) (by decide)
    rw [List.map_cons, List.cons_append, introducedFrom, if_neg (by simp [hc]),
      ih fun d hd => hn d (List.mem_cons_of_mem _ hd)]
    simp [Lexeme.text]

theorem Scans.placeholders {s : Text} {tokens : List Token} (h : Scans before s tokens) :
    placeholdersFrom before.length tokens = introducedFrom before (tokens.flatMap Token.lexemes) := by
  induction h with
  | nil => rfl
  | @lexeme before rest lexeme tokens _ hc hrest ih =>
    have htext : (tokens.flatMap Token.lexemes).flatMap Lexeme.text = rest := by rw [flatMap_lexemes_text, hrest.text]
    have hhead : placeholdersFrom before.length (lexeme.token :: tokens) =
        placeholdersFrom (before ++ lexeme.text).length tokens := by
      rw [List.length_append]
      cases lexeme <;> rfl
    rw [List.flatMap_cons, Lexeme.token_lexemes, List.singleton_append, introducedFrom, htext,
      if_neg fun h => hc h.1 h.2, hhead, ih]
  | @placeholder before name rest tokens hi hn hr hrest ih =>
    have htext : (name.map Lexeme.single ++ tokens.flatMap Token.lexemes).flatMap Lexeme.text = name ++ rest := by
      rw [List.flatMap_append, flatMap_single, flatMap_lexemes_text, hrest.text]
    have hlen : (before ++ ':' :: name).length = before.length + (name.length + 1) := by simp
    rw [hlen] at ih
    rw [List.flatMap_cons, placeholdersFrom, ih, Token.lexemes, List.cons_append, introducedFrom, htext,
      if_pos ⟨rfl, hi⟩, (takeWhile_isNameChar hn hr).1, introducedFrom_name hn]
    simp [Lexeme.text]

/-! ## Order -/

theorem start_of_mem_placeholdersFrom {start : Nat} {tokens : List Token} {p : Placeholder}
    (h : p ∈ placeholdersFrom start tokens) : start ≤ p.start := by
  induction tokens generalizing start with
  | nil => simp [placeholdersFrom] at h
  | cons token r ih =>
    cases token with
    | placeholder name =>
      rcases List.mem_cons.1 h with rfl | h
      · exact Nat.le_refl _
      · have := ih h; omega
    | _ => have := ih h; omega

theorem pairwise_placeholdersFrom (start : Nat) (tokens : List Token) :
    (placeholdersFrom start tokens).Pairwise fun p q => p.stop ≤ q.start := by
  induction tokens generalizing start with
  | nil => exact List.Pairwise.nil
  | cons token r ih =>
    cases token with
    | placeholder name => exact List.Pairwise.cons (fun q hq => start_of_mem_placeholdersFrom hq) (ih _)
    | _ => exact ih _

/-- **The scanner finds the placeholders of the grammar.** Every template is read as lexemes in exactly one way. Its
placeholders stand in order and apart, and they are the colons that are lexemes by themselves, with a letter or `_`
behind and no word character or bracket in front, each with the longest name behind it. -/
theorem placeholders_of_reading (template : Text) :
    ∃ lexemes, Reads [] template lexemes ∧ (∀ others, Reads [] template others → others = lexemes) ∧
      (placeholders template).Pairwise (fun p q => p.stop ≤ q.start) ∧
      ∀ p, p ∈ placeholders template ↔ ∃ pre post, lexemes = pre ++ .single ':' :: post ∧
        Marks (pre.flatMap Lexeme.text) (post.flatMap Lexeme.text) p := by
  have hscan := scans_tokens template
  refine ⟨_, hscan.reads, fun others ho => ho.unique hscan.reads, pairwise_placeholdersFrom 0 _, fun p => ?_⟩
  have h : placeholders template = introducedFrom [] ((tokens template).flatMap Token.lexemes) := hscan.placeholders
  rw [h, mem_introducedFrom]
  simp

end Template

end SqlAccess
