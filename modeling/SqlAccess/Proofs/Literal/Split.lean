/-
Splitting SQL at its top-level commas.

`Split.items` goes through a text character by character. What it needs to tell a comma between items from one in a
string or in parentheses is its `Mode`: a text that takes it from one mode to another without such a comma `Passes`.
It knows nothing of values. `IsLiteral` is what a server reads as one literal. The text of a value splits into one
literal for each of its leaves, and so do the texts of values with commas between them: `literally_written`.
-/
import SqlAccess.Proofs.Literal.Scan

namespace SqlAccess

open Template (QuotedBody)

namespace Split

/-! ## The splitter -/

/-- Where the splitter stands: in code or in a string, with parentheses open around it, or behind a backslash in a
string. -/
inductive Mode where
  | code (depth : Nat)
  | string (depth : Nat)
  | escaped (depth : Nat)
  deriving DecidableEq, Repr

/-- the mode behind a character; unless strings are standard a backslash in one escapes the next character -/
def Mode.next (standard : Bool) : Mode → Char → Mode
  | .code depth, c =>
    if c = '\'' then .string depth
    else if c = '(' then .code (depth + 1)
    else if c = ')' then .code (depth - 1)
    else .code depth
  | .string depth, c =>
    if c = '\'' then .code depth
    else if !standard && c == '\\' then .escaped depth
    else .string depth
  | .escaped depth, _ => .string depth

/-- the pieces between top-level commas, the first of them begun already -/
def pieces (standard : Bool) (mode : Mode) (begun : Text) : Text → List Text
  | [] => [begun]
  | c :: r =>
    if mode = .code 0 ∧ c = ',' then begun :: pieces standard mode [] r
    else pieces standard (mode.next standard c) (begun ++ [c]) r

/-- the pieces between top-level commas, without blanks around them -/
def items (standard : Bool) (t : Text) : List Text := (pieces standard (.code 0) [] t).map Text.trim

/-- the text takes the splitter from one mode to the other without a top-level comma -/
def Passes (standard : Bool) (mode : Mode) (t : Text) (mode' : Mode) : Prop :=
  ∀ begun rest, pieces standard mode begun (t ++ rest) = pieces standard mode' (begun ++ t) rest

variable {standard : Bool} {mode mode' mode'' : Mode}

theorem Passes.nil : Passes standard mode [] mode := by
  intro begun rest
  simp

theorem Passes.cons {c : Char} {t : Text} (hc : ¬ (mode = .code 0 ∧ c = ','))
    (h : Passes standard (mode.next standard c) t mode') : Passes standard mode (c :: t) mode' := by
  intro begun rest
  rw [List.cons_append, pieces, if_neg hc, h, List.append_assoc, List.singleton_append]

theorem Passes.append {s t : Text} (hs : Passes standard mode s mode') (ht : Passes standard mode' t mode'') :
    Passes standard mode (s ++ t) mode'' := by
  intro begun rest
  rw [List.append_assoc, hs, ht, List.append_assoc]

/-! ## Literals -/

/-- digits, with or without a point and more digits -/
def IsNumber (t : Text) : Prop :=
  t.isDigits = true ∨ ∃ whole decimals : Text, whole.isDigits = true ∧ decimals.isDigits = true ∧
    t = whole ++ '.' :: decimals

/-- one literal: a word, a number with or without a minus sign, or a string -/
inductive IsLiteral (standard : Bool) : Text → Prop
  | word {t : Text} : t ∈ ["NULL".toList, "TRUE".toList, "FALSE".toList] → IsLiteral standard t
  | number {t : Text} : IsNumber t → IsLiteral standard t
  | negative {t : Text} : IsNumber t → IsLiteral standard ('-' :: t)
  | string {body : Text} : QuotedBody '\'' (!standard) body → IsLiteral standard ('\'' :: (body ++ ['\'']))

/-- A decimal is written as a number. -/
theorem isNumber_positional (d : Decimal) : IsNumber d.positional := by
  obtain ⟨hne, hdigits⟩ := Text.isDigits_iff.1 (Text.isDigits_ofNat d.coefficient)
  have hzeros (n : Nat) : ∀ c ∈ Decimal.zeros n, c.isDigit = true := by
    intro c hc
    rw [List.eq_of_mem_replicate hc]
    decide
  simp only [Decimal.positional]
  split
  case isTrue =>
    refine Or.inl (Text.isDigits_iff.2 ⟨by simp [hne], ?_⟩)
    intro c hc
    rcases List.mem_append.1 hc with hc | hc
    · exact hdigits c hc
    · exact hzeros _ c hc
  case isFalse hneg =>
  split
  case isTrue hplaces =>
    -- the point stands within the digits, with some on both sides
    refine Or.inr ⟨_, _, Text.isDigits_iff.2 ⟨?_, ?_⟩, Text.isDigits_iff.2 ⟨?_, ?_⟩, rfl⟩
    · rw [Ne, List.take_eq_nil_iff, not_or]
      exact ⟨by omega, hne⟩
    · exact fun c hc => hdigits c (List.mem_of_mem_take hc)
    · rw [Ne, List.drop_eq_nil_iff]
      omega
    · exact fun c hc => hdigits c (List.mem_of_mem_drop hc)
  case isFalse =>
    refine Or.inr ⟨['0'], Decimal.zeros _ ++ Text.ofNat d.coefficient, by decide, ?_, rfl⟩
    refine Text.isDigits_iff.2 ⟨by simp [hne], ?_⟩
    intro c hc
    rcases List.mem_append.1 hc with hc | hc
    · exact hzeros _ c hc
    · exact hdigits c hc

/-- A text escaped for a string is an inside of one. -/
theorem quotedBody_escapeLiteral (standard : Bool) (t : Text) :
    QuotedBody '\'' (!standard) (Postgres.Session.escapeLiteral standard t) := by
  unfold Postgres.Session.escapeLiteral
  induction t with
  | nil => exact .nil
  | cons c r ih =>
    by_cases hquote : c = '\''
    · subst hquote
      simpa [Text.doubled] using QuotedBody.doubled ih
    by_cases hbackslash : (!standard) = true ∧ c = '\\'
    · obtain ⟨hescapes, rfl⟩ := hbackslash
      have hpair := ih.escaped (c := '\\') hescapes
      simpa [Text.doubled, hescapes] using hpair
    · have hplain : (!standard) = true → c ≠ '\\' := fun hescapes hc => hbackslash ⟨hescapes, hc⟩
      have hchosen : ¬ (c == '\'' || (!standard && c == '\\')) = true := by
        simpa [hquote] using hplain
      rw [Text.doubled, if_neg hchosen]
      exact .plain hquote hplain ih

/-- **A leaf is written as one literal**, unless it is an expression. -/
theorem isLiteral_literal {leaf : Value} (h : ∀ sql, leaf ≠ .expression sql) :
    IsLiteral standard (leaf.literal standard) := by
  have hnull : IsLiteral standard ("NULL" : Text) := by
    rw [Text.lit_eq]
    exact .word (by decide)
  cases leaf with
  | null => exact hnull
  | boolean b =>
    refine .word ?_
    rw [Value.literal, Text.lit_eq, Text.lit_eq]
    cases b <;> decide
  | integer n =>
    cases n with
    | ofNat n => exact .number (Or.inl (Text.isDigits_ofNat n))
    | negSucc n => exact .negative (Or.inl (Text.isDigits_ofNat (n + 1)))
  | float x =>
    have hnamed {t : Text} (ht : Postgres.Session.escapeLiteral standard t = t) :
        IsLiteral standard ('\'' :: (t ++ ['\''])) := .string (ht ▸ quotedBody_escapeLiteral standard t)
    rw [Value.literal, Connection.floatLiteral]
    cases x.view with
    | notANumber =>
      rw [Text.lit_eq]
      exact hnamed (t := "NaN".toList) (by cases standard <;> rfl)
    | infinite negative =>
      cases negative with
      | false =>
        change IsLiteral standard ("'Infinity'" : Text)
        rw [Text.lit_eq]
        exact hnamed (t := "Infinity".toList) (by cases standard <;> rfl)
      | true =>
        change IsLiteral standard ("'-Infinity'" : Text)
        rw [Text.lit_eq]
        exact hnamed (t := "-Infinity".toList) (by cases standard <;> rfl)
    | finite negative mantissa exponent =>
      have hnumber := isNumber_positional (Decimal.shortest .upper mantissa exponent)
      cases negative with
      | false => exact .number hnumber
      | true => exact .negative hnumber
  | text t =>
    by_cases hdigits : t.isDigits = true
    · rw [Value.literal, if_pos hdigits]
      exact .number (Or.inl hdigits)
    · rw [Value.literal, if_neg hdigits]
      exact .string (quotedBody_escapeLiteral standard t)
  | list items => exact hnull
  | expression sql => exact absurd rfl (h sql)

/-! ## Splitting literals -/

/-- a character that the splitter takes for itself, and that is no blank -/
def isInner (c : Char) : Bool := !([',', '\'', '(', ')'].elem c) && !Text.isBlank c

theorem isInner_of_isDigit {c : Char} (h : c.isDigit = true) : isInner c = true := by
  have hrange := Text.toNat_of_isAlphanum (c := c) (by simp [Char.isAlphanum, h])
  rw [isInner, Bool.and_eq_true, Bool.not_eq_true', Bool.not_eq_true']
  constructor
  · rw [← Bool.not_eq_true]
    intro hspecial
    have hcases : c = ',' ∨ c = '\'' ∨ c = '(' ∨ c = ')' := by simpa using hspecial
    rcases hcases with rfl | rfl | rfl | rfl <;> exact absurd h (by decide)
  · rw [← Bool.not_eq_true]
    intro hblank
    simp [Text.isBlank, UInt32.le_iff_toNat_le, ← UInt32.toNat_inj] at hblank
    omega

theorem IsNumber.inner {t : Text} (h : IsNumber t) : t ≠ [] ∧ ∀ c ∈ t, isInner c = true := by
  have hdigits {u : Text} (hu : u.isDigits = true) : ∀ c ∈ u, isInner c = true := fun c hc =>
    isInner_of_isDigit ((Text.isDigits_iff.1 hu).2 c hc)
  rcases h with h | ⟨whole, decimals, hwhole, hdecimals, rfl⟩
  · exact ⟨(Text.isDigits_iff.1 h).1, hdigits h⟩
  · refine ⟨by simp, fun c hc => ?_⟩
    rcases List.mem_append.1 hc with hc | hc
    · exact hdigits hwhole c hc
    rcases List.mem_cons.1 hc with rfl | hc
    · decide
    · exact hdigits hdecimals c hc

/-- A literal is a string, or is made of characters that the splitter takes for themselves. -/
theorem IsLiteral.string_or_inner {t : Text} (h : IsLiteral standard t) :
    (∃ body, t = '\'' :: (body ++ ['\'']) ∧ QuotedBody '\'' (!standard) body) ∨
      (t ≠ [] ∧ ∀ c ∈ t, isInner c = true) := by
  cases h with
  | word hword =>
    have hcases : t = "NULL".toList ∨ t = "TRUE".toList ∨ t = "FALSE".toList := by
      simpa only [List.mem_cons, List.not_mem_nil, or_false] using hword
    rcases hcases with rfl | rfl | rfl <;> exact Or.inr ⟨by decide, List.all_eq_true.1 (by decide)⟩
  | number hnumber => exact Or.inr hnumber.inner
  | negative hnumber =>
    refine Or.inr ⟨by simp, fun c hc => ?_⟩
    rcases List.mem_cons.1 hc with rfl | hc
    · decide
    · exact hnumber.inner.2 c hc
  | string hbody => exact Or.inl ⟨_, rfl, hbody⟩

theorem Passes.inner {t : Text} (h : ∀ c ∈ t, isInner c = true) (depth : Nat) :
    Passes standard (.code depth) t (.code depth) := by
  induction t with
  | nil => exact Passes.nil
  | cons c t ih =>
    have hc := h c List.mem_cons_self
    have hspecial : ¬ c = ',' ∧ ¬ c = '\'' ∧ ¬ c = '(' ∧ ¬ c = ')' := by
      refine ⟨?_, ?_, ?_, ?_⟩ <;> (intro e; rw [e] at hc; revert hc; decide)
    obtain ⟨hcomma, hquote, hopening, hclosing⟩ := hspecial
    refine Passes.cons (fun hcut => hcomma hcut.2) ?_
    rw [Mode.next, if_neg hquote, if_neg hopening, if_neg hclosing]
    exact ih fun d hd => h d (List.mem_cons_of_mem _ hd)

/-- An inside of a string is passed in it: doubled quotes leave it and are back at once. -/
theorem Passes.body {body : Text} (h : QuotedBody '\'' (!standard) body) (depth : Nat) :
    Passes standard (.string depth) body (.string depth) := by
  induction h with
  | nil => exact Passes.nil
  | @plain c r hquote hbackslash _ ih =>
    refine Passes.cons (by simp) ?_
    rw [Mode.next, if_neg hquote, if_neg (by simpa using hbackslash)]
    exact ih
  | @doubled r _ ih =>
    have hback : Passes standard (.code depth) ('\'' :: r) (.string depth) := Passes.cons (by simp) ih
    exact Passes.cons (by simp) hback
  | @escaped c r hescapes _ ih =>
    have hback : Passes standard (.escaped depth) (c :: r) (.string depth) := Passes.cons (by simp) ih
    refine Passes.cons (by simp) ?_
    rw [Mode.next, if_neg (by decide), if_pos (by simpa using hescapes)]
    exact hback

theorem IsLiteral.passes {t : Text} (h : IsLiteral standard t) (depth : Nat) :
    Passes standard (.code depth) t (.code depth) := by
  rcases h.string_or_inner with ⟨body, rfl, hbody⟩ | ⟨-, hinner⟩
  · have hclosing : Passes standard (.string depth) ['\''] (.code depth) := Passes.cons (by simp) Passes.nil
    exact Passes.cons (by simp) ((Passes.body hbody depth).append hclosing)
  · exact Passes.inner hinner depth

/-- A literal has no blanks at its ends. -/
theorem IsLiteral.trim {t : Text} (h : IsLiteral standard t) : t.trim = t := by
  have hends : ∃ c r last front, t = c :: r ∧ t = front ++ [last] ∧ Text.isBlank c = false ∧
      Text.isBlank last = false := by
    have hblank {c : Char} (hc : isInner c = true) : Text.isBlank c = false := by
      rw [isInner, Bool.and_eq_true, Bool.not_eq_true'] at hc
      simpa using hc.2
    rcases h.string_or_inner with ⟨body, rfl, -⟩ | ⟨hne, hinner⟩
    · exact ⟨'\'', body ++ ['\''], '\'', '\'' :: body, rfl, rfl, by decide, by decide⟩
    · obtain ⟨c, r, hfirst⟩ := List.exists_cons_of_ne_nil hne
      refine ⟨c, r, t.getLast hne, t.dropLast, hfirst, (List.dropLast_append_getLast hne).symm, hblank ?_, hblank ?_⟩
      · exact hinner c (hfirst ▸ List.mem_cons_self)
      · exact hinner _ (List.getLast_mem hne)
  obtain ⟨c, r, last, front, hfirst, hlast, hc, hd⟩ := hends
  have hstart : t.trimStart = t := by rw [Text.trimStart, hfirst, List.dropWhile_cons_of_neg (by simp [hc])]
  rw [Text.trim, hstart, hlast, List.reverse_concat, List.dropWhile_cons_of_neg (by simp [hd]), ← List.reverse_concat,
    List.reverse_reverse]

theorem trim_blank (t : Text) : Text.trim (' ' :: t) = t.trim := rfl

/-- Literals with commas and blanks between them are cut at each of these commas and nowhere else. -/
theorem pieces_joined {t : Text} {ts : List Text} (h : ∀ u ∈ t :: ts, IsLiteral standard u) (begun : Text) :
    pieces standard (.code 0) begun (Text.joined [',', ' '] (t :: ts)) = (begun ++ t) :: ts.map (' ' :: ·) := by
  induction ts generalizing t begun with
  | nil =>
    have ht := (h t List.mem_cons_self).passes 0 begun []
    rwa [List.append_nil, pieces] at ht
  | cons u us ih =>
    have hrest := ih (fun v hv => h v (List.mem_cons_of_mem _ hv)) [' ']
    rw [Text.joined_cons_cons, List.append_assoc, (h t List.mem_cons_self).passes 0]
    rw [List.cons_append, pieces, if_pos ⟨rfl, rfl⟩, List.singleton_append, pieces, if_neg (by decide)]
    exact congrArg _ hrest

/-- **Literals with commas between them are split into exactly these.** -/
theorem items_joined {ts : List Text} (hne : ts ≠ []) (h : ∀ t ∈ ts, IsLiteral standard t) :
    items standard (Text.joined [',', ' '] ts) = ts := by
  obtain ⟨t, ts, rfl⟩ := List.exists_cons_of_ne_nil hne
  have htrim : ∀ u ∈ t :: ts, u.trim = u := fun u hu => (h u hu).trim
  rw [items, pieces_joined h, List.nil_append, List.map_cons, List.map_map, htrim t List.mem_cons_self]
  refine congrArg (t :: ·) ((List.map_congr_left fun u hu => ?_).trans (List.map_id ts))
  exact (trim_blank u).trans (htrim u (List.mem_cons_of_mem _ hu))

example : items false "'a, \\' b', -1.5, NULL".toList = ["'a, \\' b'".toList, "-1.5".toList, "NULL".toList] := by decide

/-- the text splits into literals, those of the leaves -/
structure Literally (standard : Bool) (leaves : List Value) (t : Text) : Prop where
  items : items standard t = leaves.map (Value.literal standard)
  literals : ∀ item ∈ Split.items standard t, IsLiteral standard item

theorem Literally.length {leaves : List Value} {t : Text} (h : Literally standard leaves t) :
    (Split.items standard t).length = leaves.length := by rw [h.items, List.length_map]

/-- **Values with commas between them are split into the literals of their leaves.** -/
theorem literally_written {vs : List Value} (hne : vs ≠ []) (h : ∀ v ∈ vs, v.Inert) :
    Literally standard (Value.leavesOf vs) (Text.joined [',', ' '] (vs.map (Value.written standard))) := by
  obtain ⟨v, vs, rfl⟩ := List.exists_cons_of_ne_nil hne
  have hliterals : ∀ t ∈ (Value.leavesOf (v :: vs)).map (Value.literal standard), IsLiteral standard t := by
    intro t ht
    obtain ⟨leaf, hleaf, rfl⟩ := List.mem_map.1 ht
    rw [Value.leavesOf_eq] at hleaf
    obtain ⟨leaves, hmem, hleaf⟩ := List.mem_flatten.1 hleaf
    obtain ⟨w, hw, rfl⟩ := List.mem_map.1 hmem
    exact isLiteral_literal (h w hw leaf hleaf)
  have hsome : (Value.leavesOf (v :: vs)).map (Value.literal standard) ≠ [] := by
    rw [Value.leavesOf]
    simp [Value.leaves_ne_nil]
  have hitems := items_joined hsome hliterals
  rw [← Value.written_list]
  exact ⟨hitems, hitems ▸ hliterals⟩

end Split

end SqlAccess
