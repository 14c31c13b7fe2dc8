/-
Literals as the scanner of templates reads them.

The literal of a leaf that is no expression is a string in quotes, or letters, digits and points with at most a minus
sign in front (`literal_shape`): finite floats too, for their text is digits and a point. So in code a string is one
token, and of any other literal each character is a token by itself (`Scans.literal`); the literals of a value are
read one by one, with a comma and a blank between neighbours (`Scans.written`).
-/
import SqlAccess.Proofs.Literal
import SqlAccess.Proofs.Template.Scan

namespace SqlAccess

namespace Template

/-- a string in quotes whose inner quotes are doubled -/
def IsString (t : Text) : Prop := ∃ body, t = '\'' :: (body ++ ['\'']) ∧ QuotedBody '\'' false body

def isBareChar (c : Char) : Bool := c.isAlphanum || c == '.'

/-- letters, digits and points, at least one, with or without a minus sign in front -/
def IsBare (t : Text) : Prop := ∃ u, u ≠ [] ∧ (∀ c ∈ u, isBareChar c = true) ∧ (t = u ∨ t = '-' :: u)

/-! ## The shape of literals -/

theorem isPlain_of_isBareChar {c : Char} (h : isBareChar c = true) : isPlain c = true := by
  rcases (Bool.or_eq_true _ _).mp h with h | h
  · refine isPlain_of_isNameChar ?_
    rw [Text.isNameChar, h]
    rfl
  · rw [beq_iff_eq.1 h]
    decide

theorem isBareChar_of_isDigit {c : Char} (h : c.isDigit = true) : isBareChar c = true := by
  simp [isBareChar, Char.isAlphanum, h]

theorem isBareChar_ofNat (n : Nat) : ∀ c ∈ Text.ofNat n, isBareChar c = true :=
  fun _ h => isBareChar_of_isDigit (Nat.isDigit_of_mem_toDigits (by decide) (by decide) h)

theorem isBareChar_zeros (n : Nat) : ∀ c ∈ Decimal.zeros n, isBareChar c = true := by
  intro c h
  rw [List.eq_of_mem_replicate h]
  decide

/-- A decimal is written with digits and at most a point. -/
theorem isBareChar_positional (d : Decimal) : ∀ c ∈ d.positional, isBareChar c = true := by
  have hd := isBareChar_ofNat d.coefficient
  intro c h
  simp only [Decimal.positional] at h
  split at h
  · rcases List.mem_append.1 h with h | h
    · exact hd c h
    · exact isBareChar_zeros _ c h
  split at h
  · rcases List.mem_append.1 h with h | h
    · exact hd c (List.mem_of_mem_take h)
    · rcases List.mem_cons.1 h with rfl | h
      · decide
      · exact hd c (List.mem_of_mem_drop h)
  · simp only [List.mem_cons, List.mem_append] at h
    rcases h with rfl | rfl | h | h
    · decide
    · decide
    · exact isBareChar_zeros _ c h
    · exact hd c h

theorem positional_ne_nil (d : Decimal) : d.positional ≠ [] := by
  simp only [Decimal.positional]
  split
  · exact List.append_ne_nil_of_left_ne_nil Nat.toDigits_ne_nil _
  split
  · simp
  · simp

theorem quotedBody_of_not_mem {body : Text} (h : '\'' ∉ body) : QuotedBody '\'' false body := by
  induction body with
  | nil => exact .nil
  | cons c r ih =>
    have hc : c ≠ '\'' := fun e => h (by simp [e])
    exact .plain hc (fun e => nomatch e) (ih fun hr => h (List.mem_cons_of_mem _ hr))

theorem isBare_digits (n : Nat) : IsBare (Text.ofNat n) := ⟨_, Nat.toDigits_ne_nil, isBareChar_ofNat n, Or.inl rfl⟩

theorem isString_or_isBare_float (x : Binary64) :
    IsString (Connection.floatLiteral x) ∨ IsBare (Connection.floatLiteral x) := by
  unfold Connection.floatLiteral
  cases x.view with
  | notANumber => exact Or.inl ⟨['N', 'a', 'N'], Text.lit_eq _, quotedBody_of_not_mem (by decide)⟩
  | infinite negative =>
    cases negative with
    | false =>
      exact Or.inl ⟨['I', 'n', 'f', 'i', 'n', 'i', 't', 'y'], Text.lit_eq _, quotedBody_of_not_mem (by decide)⟩
    | true =>
      exact Or.inl ⟨['-', 'I', 'n', 'f', 'i', 'n', 'i', 't', 'y'], Text.lit_eq _, quotedBody_of_not_mem (by decide)⟩
  | finite negative mantissa exponent =>
    refine Or.inr ⟨(Decimal.shortest .upper mantissa exponent).positional, positional_ne_nil _,
      isBareChar_positional _, ?_⟩
    cases negative with
    | false => exact Or.inl rfl
    | true => exact Or.inr rfl

/-- **The shape of literals.** A string in quotes, or letters, digits and points with at most a minus sign in
front. -/
theorem literal_shape {leaf : Value} (h : ∀ sql, leaf ≠ .expression sql) :
    IsString (leaf.literal true) ∨ IsBare (leaf.literal true) := by
  cases leaf with
  | null => exact Or.inr ⟨"NULL".toList, by decide, List.all_eq_true.1 (by decide), Or.inl (Text.lit_eq _)⟩
  | boolean b =>
    cases b with
    | false => exact Or.inr ⟨"FALSE".toList, by decide, List.all_eq_true.1 (by decide), Or.inl (Text.lit_eq _)⟩
    | true => exact Or.inr ⟨"TRUE".toList, by decide, List.all_eq_true.1 (by decide), Or.inl (Text.lit_eq _)⟩
  | integer n =>
    cases n with
    | ofNat n => exact Or.inr (isBare_digits n)
    | negSucc n => exact Or.inr ⟨_, Nat.toDigits_ne_nil, isBareChar_ofNat (n + 1), Or.inr rfl⟩
  | float x => exact isString_or_isBare_float x
  | text t =>
    by_cases hd : t.isDigits = true
    · have ht := Text.isDigits_iff.1 hd
      rw [Value.literal, if_pos hd]
      exact Or.inr ⟨t, ht.1, fun c hc => isBareChar_of_isDigit (ht.2 c hc), Or.inl rfl⟩
    · rw [Value.literal, if_neg hd, Postgres.Session.escapeLiteral_standard]
      exact Or.inl ⟨_, rfl, quotedBody_doubled '\'' t⟩
  | list items => exact Or.inr ⟨"NULL".toList, by decide, List.all_eq_true.1 (by decide), Or.inl (Text.lit_eq _)⟩
  | expression sql => exact absurd rfl (h sql)

/-! ## The tokens of literals -/

/-- the tokens of a literal in code: a string is one, of any other literal each character is -/
def literalTokens (t : Text) : List Token :=
  if t.head? = some '\'' then [.region .plainString t] else t.map .single

/-- the tokens of literals with a comma and a blank between neighbours -/
def literalsTokens : List Text → List Token
  | [] => []
  | [t] => literalTokens t
  | t :: u :: ts => literalTokens t ++ (.single ',' :: .single ' ' :: literalsTokens (u :: ts))

/-- A literal in code, and what follows it unless that goes on with a quote. -/
theorem Scans.literal {before t rest : Text} {tokens : List Token} (ht : IsString t ∨ IsBare t)
    (hb : ¬ AfterEscapeMark before) (hr : rest.head? ≠ some '\'') (h : Scans (before ++ t) rest tokens) :
    Scans before (t ++ rest) (literalTokens t ++ tokens) := by
  rcases ht with ⟨body, rfl, hq⟩ | ⟨u, hu, hp, e⟩
  · have hl : Lexes before (.region .plainString ('\'' :: (body ++ ['\'']))) rest :=
      @Lexes.string _ false _ _ (by simp [hb]) hq hr
    rw [literalTokens, if_pos List.head?_cons]
    exact .lexeme hl (by simp) h
  · obtain ⟨c, r, rfl⟩ := List.exists_cons_of_ne_nil hu
    have hp' : ∀ d ∈ c :: r, isPlain d = true := fun d hd => isPlain_of_isBareChar (hp d hd)
    have hc : isPlain c = true := hp' c List.mem_cons_self
    have hq : c ≠ '\'' := by rintro rfl; revert hc; decide
    have hm : c ≠ '-' := by rintro rfl; revert hc; decide
    rcases e with rfl | rfl
    · rw [literalTokens, if_neg (by simpa using hq)]
      exact Scans.plain hp' h
    · rw [literalTokens, if_neg (by simp)]
      refine Scans.single ?_ (by decide) (Scans.plain hp' (by simpa using h))
      rintro (e | e | ⟨-, tag, htag, htp⟩ | hpre | ⟨_, e⟩ | ⟨_, e⟩)
      · simp at e
      · simp at e
      · exact absurd (htag.head htp) (by decide)
      · rw [prefix_pair_iff] at hpre
        exact hm (by simpa using hpre)
      · simp at e
      · simp at e

theorem Scans.literals {ts : List Text} (hn : ts ≠ []) (hts : ∀ t ∈ ts, IsString t ∨ IsBare t) {before rest : Text}
    {tokens : List Token} (hb : ¬ AfterEscapeMark before) (hr : rest.head? ≠ some '\'')
    (h : Scans (before ++ Text.joined [',', ' '] ts) rest tokens) :
    Scans before (Text.joined [',', ' '] ts ++ rest) (literalsTokens ts ++ tokens) := by
  induction ts generalizing before with
  | nil => exact absurd rfl hn
  | cons t ts ih =>
    cases ts with
    | nil => exact Scans.literal (hts t List.mem_cons_self) hb hr h
    | cons u us =>
      have hblank : ¬ AfterEscapeMark (before ++ t ++ [','] ++ [' ']) := by
        rw [afterEscapeMark_concat]
        exact fun h => absurd h.1 (by decide)
      have hus : Scans (before ++ t ++ [','] ++ [' ']) (Text.joined [',', ' '] (u :: us) ++ rest)
          (literalsTokens (u :: us) ++ tokens) := by
        refine ih (by simp) (fun v hv => hts v (List.mem_cons_of_mem _ hv)) hblank ?_
        simpa [Text.joined_cons_cons] using h
      have hcomma : Scans (before ++ t) (',' :: ' ' :: (Text.joined [',', ' '] (u :: us) ++ rest))
          (.single ',' :: .single ' ' :: (literalsTokens (u :: us) ++ tokens)) :=
        Scans.single (not_begins_of_isPlain (by decide) _) (by decide)
          (Scans.single (not_begins_of_isPlain (by decide) _) (by decide) hus)
      have ht := Scans.literal (hts t List.mem_cons_self) hb (by simp) hcomma
      simpa [literalsTokens, Text.joined_cons_cons] using ht

end Template

namespace Value

/-- no expression anywhere inside -/
def Inert (v : Value) : Prop := ∀ leaf ∈ v.leaves, ∀ sql, leaf ≠ .expression sql

def tokens (v : Value) : List Template.Token := Template.literalsTokens (v.leaves.map (literal true))

end Value

namespace Template

/-- **A value in code is read as its literals.** -/
theorem Scans.written {v : Value} (hv : v.Inert) {before rest : Text} {tokens : List Token}
    (hb : ¬ AfterEscapeMark before) (hr : rest.head? ≠ some '\'') (h : Scans (before ++ v.written true) rest tokens) :
    Scans before (v.written true ++ rest) (v.tokens ++ tokens) := by
  refine Scans.literals (by simpa using v.leaves_ne_nil) (fun t ht => ?_) hb hr h
  obtain ⟨leaf, hleaf, rfl⟩ := List.mem_map.1 ht
  exact literal_shape (hv leaf hleaf)

/-- A value begins with a quote, a minus sign, or a letter, digit or point. -/
theorem head_written {v : Value} (hv : v.Inert) :
    ∃ c r, v.written true = c :: r ∧ (c = '\'' ∨ c = '-' ∨ isBareChar c = true) := by
  obtain ⟨leaf, leaves, e⟩ := List.exists_cons_of_ne_nil v.leaves_ne_nil
  have hleaf : ∃ c r, leaf.literal true = c :: r ∧ (c = '\'' ∨ c = '-' ∨ isBareChar c = true) := by
    rcases literal_shape (hv leaf (by rw [e]; exact List.mem_cons_self)) with ⟨body, hb, -⟩ | ⟨u, hu, hc, hb | hb⟩
    · exact ⟨_, _, hb, Or.inl rfl⟩
    · obtain ⟨c, r, rfl⟩ := List.exists_cons_of_ne_nil hu
      exact ⟨c, r, hb, Or.inr (Or.inr (hc c List.mem_cons_self))⟩
    · exact ⟨_, _, hb, Or.inr (Or.inl rfl)⟩
  obtain ⟨c, r, hl, hc⟩ := hleaf
  unfold Value.written
  rw [e]
  cases leaves with
  | nil => exact ⟨c, r, hl, hc⟩
  | cons next leaves =>
    refine ⟨c, r ++ ([',', ' '] ++ Text.joined [',', ' '] ((next :: leaves).map (Value.literal true))), ?_, hc⟩
    rw [List.map_cons, Text.joined_cons _ _ (by simp), hl]
    simp

theorem literalTokens_minus {t : Text} (h : t.head? = some '-') : ∃ r, literalTokens t = .single '-' :: r := by
  cases t with
  | nil => cases h
  | cons c r =>
    obtain rfl : c = '-' := by simpa using h
    exact ⟨r.map .single, if_neg (by simp)⟩

/-- A value that begins with a minus sign begins with it as a token. -/
theorem tokens_minus {v : Value} (hv : v.Inert) (h : (v.written true).head? = some '-') :
    ∃ r, v.tokens = .single '-' :: r := by
  obtain ⟨leaf, leaves, e⟩ := List.exists_cons_of_ne_nil v.leaves_ne_nil
  have hne : leaf.literal true ≠ [] := by
    rcases literal_shape (hv leaf (by rw [e]; exact List.mem_cons_self)) with ⟨body, hb, -⟩ | ⟨u, hu, -, hb | hb⟩
    · rw [hb]; exact List.cons_ne_nil _ _
    · rwa [hb]
    · rw [hb]; exact List.cons_ne_nil _ _
  obtain ⟨c, t, ht⟩ := List.exists_cons_of_ne_nil hne
  have hleaf : (leaf.literal true).head? = some '-' := by
    unfold Value.written at h
    rw [e] at h
    cases leaves with
    | nil => exact h
    | cons next leaves =>
      rw [List.map_cons, Text.joined_cons _ _ (by simp), ht] at h
      rw [ht]
      exact h
  obtain ⟨r, hr⟩ := literalTokens_minus hleaf
  unfold Value.tokens
  rw [e]
  cases leaves with
  | nil => exact ⟨r, hr⟩
  | cons next leaves =>
    rw [List.map_cons, List.map_cons, literalsTokens, hr]
    exact ⟨_, rfl⟩

end Template

end SqlAccess
