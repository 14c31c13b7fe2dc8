/-
The inside of quoted runs.

`QuotedBody mark escapes` holds the texts that a quoted run can enclose: their marks are doubled or, where backslashes
escape, behind a backslash. `quotedRun_cases` reads every run in these terms, closed by the first mark that is
neither, or open up to the end. A text with its marks doubled is such an inside: `quotedBody_doubled`.
-/
import SqlAccess.Template

namespace SqlAccess

namespace Template

/-- a text without a mark that stands alone, read from the left in pairs -/
inductive QuotedBody (mark : Char) (escapes : Bool) : Text → Prop
  | nil : QuotedBody mark escapes []
  | plain {c : Char} {r : Text} : c ≠ mark → (escapes = true → c ≠ '\\') → QuotedBody mark escapes r →
      QuotedBody mark escapes (c :: r)
  | doubled {r : Text} : QuotedBody mark escapes r → QuotedBody mark escapes (mark :: mark :: r)
  | escaped {c : Char} {r : Text} : escapes = true → QuotedBody mark escapes r →
      QuotedBody mark escapes ('\\' :: c :: r)

/-- what a run takes that does not close: an inside, or one with half a backslash pair behind it -/
def OpenBody (mark : Char) (escapes : Bool) (s : Text) : Prop :=
  QuotedBody mark escapes s ∨ (escapes = true ∧ ∃ body, s = body ++ ['\\'] ∧ QuotedBody mark escapes body)

variable {mark : Char} {escapes : Bool}

theorem quotedBody_doubled (mark : Char) (t : Text) : QuotedBody mark false (Text.doubled (· == mark) t) := by
  induction t with
  | nil => exact .nil
  | cons c r ih =>
    by_cases h : c = mark
    · subst h
      simpa [Text.doubled] using QuotedBody.doubled ih
    · simpa [Text.doubled, h] using QuotedBody.plain h (by simp) ih

/-! ## Runs of known insides -/

theorem quotedRun_cons_plain {c : Char} (h : c ≠ mark) (he : escapes = true → c ≠ '\\') (s : Text) :
    quotedRun mark escapes (c :: s) = (c :: (quotedRun mark escapes s).1, (quotedRun mark escapes s).2) := by
  cases s with
  | nil => rfl
  | cons d r =>
    have hp : ¬ ((escapes && c == '\\') || (c == mark && d == mark)) = true := by
      simp only [Bool.or_eq_true, Bool.and_eq_true, beq_iff_eq]
      rintro (⟨e, hc⟩ | ⟨hc, -⟩)
      · exact he e hc
      · exact h hc
    rw [quotedRun, if_neg hp, if_neg (by simpa using h)]

theorem quotedRun_cons_pair {c d : Char} (h : (escapes = true ∧ c = '\\') ∨ (c = mark ∧ d = mark)) (s : Text) :
    quotedRun mark escapes (c :: d :: s) =
      (c :: d :: (quotedRun mark escapes s).1, (quotedRun mark escapes s).2) := by
  rw [quotedRun, if_pos (by simpa using h)]

/-- A run goes through an inside as it stands, whatever follows. -/
theorem quotedRun_body {body : Text} (h : QuotedBody mark escapes body) (t : Text) :
    quotedRun mark escapes (body ++ t) = (body ++ (quotedRun mark escapes t).1, (quotedRun mark escapes t).2) := by
  induction h with
  | nil => rfl
  | plain hc he _ ih => rw [List.cons_append, quotedRun_cons_plain hc he, ih]; rfl
  | doubled _ ih => rw [List.cons_append, List.cons_append, quotedRun_cons_pair (Or.inr ⟨rfl, rfl⟩), ih]; rfl
  | escaped he _ ih => rw [List.cons_append, List.cons_append, quotedRun_cons_pair (Or.inl ⟨he, rfl⟩), ih]; rfl

theorem quotedRun_mark (hm : mark ≠ '\\') {rest : Text} (hr : rest.head? ≠ some mark) :
    quotedRun mark escapes (mark :: rest) = ([mark], rest) := by
  cases rest with
  | nil => rfl
  | cons d r =>
    have hd : d ≠ mark := by simpa using hr
    rw [quotedRun, if_neg (by simp [hm, hd]), if_pos (by simp)]

/-- An inside, its closing mark, and no further mark: that much is the run. -/
theorem quotedRun_closed (hm : mark ≠ '\\') {body rest : Text} (hb : QuotedBody mark escapes body)
    (hr : rest.head? ≠ some mark) :
    quotedRun mark escapes (body ++ mark :: rest) = (body ++ [mark], rest) := by
  rw [quotedRun_body hb, quotedRun_mark hm hr]

theorem quotedRun_open {s : Text} (h : OpenBody mark escapes s) : quotedRun mark escapes s = (s, []) := by
  rcases h with h | ⟨-, body, rfl, hb⟩
  · simpa [quotedRun] using quotedRun_body h []
  · rw [quotedRun_body hb]; rfl

/-! ## Every run -/

/-- One plain character or pair in front of an open run leaves it open. -/
theorem OpenBody.plain {c : Char} {s : Text} (hc : c ≠ mark) (he : escapes = true → c ≠ '\\')
    (h : OpenBody mark escapes s) : OpenBody mark escapes (c :: s) := by
  rcases h with h | ⟨e, body, rfl, hb⟩
  · exact Or.inl (.plain hc he h)
  · exact Or.inr ⟨e, c :: body, rfl, .plain hc he hb⟩

theorem quotedBody_pair {c d : Char} {s : Text} (hp : (escapes = true ∧ c = '\\') ∨ (c = mark ∧ d = mark))
    (h : QuotedBody mark escapes s) : QuotedBody mark escapes (c :: d :: s) := by
  rcases hp with ⟨e, rfl⟩ | ⟨rfl, rfl⟩
  · exact .escaped e h
  · exact .doubled h

theorem OpenBody.pair {c d : Char} {s : Text} (hp : (escapes = true ∧ c = '\\') ∨ (c = mark ∧ d = mark))
    (h : OpenBody mark escapes s) : OpenBody mark escapes (c :: d :: s) := by
  rcases h with h | ⟨e, body, rfl, hb⟩
  · exact Or.inl (quotedBody_pair hp h)
  · exact Or.inr ⟨e, c :: d :: body, rfl, quotedBody_pair hp hb⟩

/-- Every text is cut behind the mark that closes its run, or its run is open and takes it whole. -/
theorem quotedRun_cases (mark : Char) (escapes : Bool) (s : Text) :
    (∃ body rest, s = body ++ mark :: rest ∧ QuotedBody mark escapes body ∧ rest.head? ≠ some mark ∧
      quotedRun mark escapes s = (body ++ [mark], rest)) ∨
    (OpenBody mark escapes s ∧ quotedRun mark escapes s = (s, [])) := by
  fun_induction quotedRun mark escapes s with
  | case1 => exact Or.inr ⟨Or.inl .nil, rfl⟩
  | case2 c =>
    by_cases hc : c = mark
    · exact Or.inl ⟨[], [], by simp [hc], .nil, by simp, by simp [hc]⟩
    by_cases he : escapes = true ∧ c = '\\'
    · exact Or.inr ⟨Or.inr ⟨he.1, [], by simp [he.2], .nil⟩, rfl⟩
    · exact Or.inr ⟨Or.inl (.plain hc (fun e h => he ⟨e, h⟩) .nil), rfl⟩
  | case3 c d r hp ih =>
    have hp' : (escapes = true ∧ c = '\\') ∨ (c = mark ∧ d = mark) := by simpa using hp
    rcases ih with ⟨body, rest, e, hb, hr, hq⟩ | ⟨ho, hq⟩
    · exact Or.inl ⟨c :: d :: body, rest, by simp [e], quotedBody_pair hp' hb, hr, by simp [hq]⟩
    · exact Or.inr ⟨ho.pair hp', by simp [hq]⟩
  | case4 c d r hp hc =>
    have hc' : c = mark := by simpa using hc
    have hd : d ≠ mark := fun h => hp (by simp [hc', h])
    exact Or.inl ⟨[], d :: r, by simp [hc'], .nil, by simpa using hd, by simp [hc']⟩
  | case5 c d r hp hc ih =>
    have hc' : c ≠ mark := by simpa using hc
    have he : escapes = true → c ≠ '\\' := fun e h => hp (by simp [e, h])
    rcases ih with ⟨body, rest, e, hb, hr, hq⟩ | ⟨ho, hq⟩
    · exact Or.inl ⟨c :: body, rest, by simp [e], .plain hc' he hb, hr, by simp [hq]⟩
    · exact Or.inr ⟨ho.plain hc' he, by simp [hq]⟩

end Template

end SqlAccess
