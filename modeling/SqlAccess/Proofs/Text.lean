/-
Laws of characters, and of joining and cutting texts.

`FirstAfter pattern body` says that `pattern` is found for the first time right behind `body`; `through_cases` reads
every cut in these terms. Pieces that are themselves joined can be joined in one go: `joined_map_joined`.
-/
import SqlAccess.Text

namespace SqlAccess

namespace Text

/-! ## Letters and digits -/

theorem isAlpha_iff {c : Char} :
    c.isAlpha = true ↔ (65 ≤ c.toNat ∧ c.toNat ≤ 90) ∨ (97 ≤ c.toNat ∧ c.toNat ≤ 122) := by
  have e : c.isAlpha = (decide (65 ≤ c.val ∧ c.val ≤ 90) || (decide (97 ≤ c.val) && decide (c.val ≤ 122))) := rfl
  rw [e]
  simp [UInt32.le_iff_toNat_le]

theorem not_isDigit_of_isAlpha {c : Char} (h : c.isAlpha = true) : ¬ c.isDigit = true := by
  intro hd
  have hd := Char.isDigit_iff_toNat.1 hd
  have h := isAlpha_iff.1 h
  simp at hd
  omega

theorem toNat_of_isAlphanum {c : Char} (h : c.isAlphanum = true) : 48 ≤ c.toNat ∧ c.toNat ≤ 122 := by
  rcases (Bool.or_eq_true _ _).mp h with h | h
  · have h := isAlpha_iff.1 h
    omega
  · have h := Char.isDigit_iff_toNat.1 h
    simp at h
    omega

theorem isDigits_iff {t : Text} : t.isDigits = true ↔ t ≠ [] ∧ ∀ c ∈ t, c.isDigit = true := by
  simp [isDigits]

theorem not_isDigits_of_mem {t : Text} {c : Char} (hmem : c ∈ t) (hc : c.isDigit = false) : t.isDigits = false := by
  rw [Bool.eq_false_iff]
  intro h
  rw [(isDigits_iff.1 h).2 c hmem] at hc
  cases hc

/-! ## Joining -/

theorem joined_cons (separator t : Text) {ts : List Text} (h : ts ≠ []) :
    joined separator (t :: ts) = t ++ separator ++ joined separator ts := by
  cases ts with
  | nil => exact absurd rfl h
  | cons u us => rfl

theorem joined_append (separator : Text) {ts us : List Text} (ht : ts ≠ []) (hu : us ≠ []) :
    joined separator (ts ++ us) = joined separator ts ++ separator ++ joined separator us := by
  induction ts with
  | nil => exact absurd rfl ht
  | cons t ts ih =>
    cases ts with
    | nil => exact joined_cons separator t hu
    | cons t' ts =>
      rw [List.cons_append, joined_cons separator t (by simp), ih (by simp), joined_cons separator t (by simp)]
      simp

/-- Lists of pieces joined one by one and then together are all their pieces joined, if no list is empty. -/
theorem joined_map_joined (separator : Text) {lists : List (List Text)} (h : ∀ l ∈ lists, l ≠ []) :
    joined separator (lists.map (joined separator)) = joined separator lists.flatten := by
  induction lists with
  | nil => rfl
  | cons l ls ih =>
    cases ls with
    | nil => simp
    | cons k ks =>
      have hk : (k :: ks).flatten ≠ [] := by
        have := h k (by simp)
        simp [this]
      rw [List.map_cons, joined_cons separator _ (by simp), ih (fun m hm => h m (List.mem_cons_of_mem _ hm))]
      exact (joined_append separator (h l (by simp)) hk).symm

theorem mem_joined {c : Char} {separator : Text} {ts : List Text} (h : c ∈ joined separator ts) :
    c ∈ separator ∨ ∃ t ∈ ts, c ∈ t := by
  induction ts with
  | nil => cases h
  | cons t ts ih =>
    cases ts with
    | nil => exact Or.inr ⟨t, List.mem_cons_self, h⟩
    | cons u us =>
      rw [joined_cons_cons, List.mem_append, List.mem_append] at h
      rcases h with (h | h) | h
      · exact Or.inr ⟨t, List.mem_cons_self, h⟩
      · exact Or.inl h
      · rcases ih h with h | ⟨v, hv, h⟩
        · exact Or.inl h
        · exact Or.inr ⟨v, List.mem_cons_of_mem _ hv, h⟩

/-- Each piece stands in the joined text. -/
theorem infix_joined {separator t : Text} {ts : List Text} (h : t ∈ ts) : t <:+: joined separator ts := by
  induction ts with
  | nil => cases h
  | cons u us ih =>
    cases us with
    | nil =>
      obtain rfl := List.mem_singleton.1 h
      exact List.infix_rfl
    | cons v vs =>
      rw [joined_cons_cons]
      rcases List.mem_cons.1 h with rfl | h
      · rw [List.append_assoc]
        exact (List.prefix_append _ _).isInfix
      · exact (ih h).trans (List.suffix_append _ _).isInfix

theorem mem_doubled {c : Char} {chosen : Char → Bool} {t : Text} : c ∈ doubled chosen t ↔ c ∈ t := by
  induction t with
  | nil => rfl
  | cons d t ih => by_cases hd : chosen d <;> simp [doubled, hd, ih]

theorem length_le_doubled (chosen : Char → Bool) (t : Text) : t.length ≤ (doubled chosen t).length := by
  induction t with
  | nil => exact Nat.le_refl _
  | cons d t ih =>
    rw [doubled]
    split <;> simp only [List.length_cons] <;> omega

/-! ## Cutting -/

/-- Where the characters of `s` pass and the next one does not, `s` is taken and the rest is left. -/
theorem takeWhile_append_stop {p : Char → Bool} {s rest : Text} (hs : ∀ c ∈ s, p c = true)
    (hr : ∀ c ∈ rest.head?, p c = false) : (s ++ rest).takeWhile p = s ∧ (s ++ rest).dropWhile p = rest := by
  rw [List.takeWhile_append_of_pos hs, List.dropWhile_append_of_pos hs]
  cases rest with
  | nil => exact ⟨List.append_nil s, rfl⟩
  | cons c r =>
    have hc : p c = false := hr c rfl
    simp [hc]

/-- A text is split at the mark behind which there is none. -/
theorem splitLast_append {mark : Char} {before after : Text} (h : mark ∉ after) :
    splitLast mark (before ++ mark :: after) = some (before, after) := by
  have hpass : ∀ c ∈ after.reverse, (c != mark) = true := by
    intro c hc
    rw [bne_iff_ne]
    rintro rfl
    exact h (List.mem_reverse.1 hc)
  have hstop : ∀ c ∈ (mark :: before.reverse).head?, (c != mark) = false := by
    intro c hc
    cases hc
    exact bne_self_eq_false _
  obtain ⟨htaken, hleft⟩ := takeWhile_append_stop hpass hstop
  have hreverse : (before ++ mark :: after).reverse = after.reverse ++ mark :: before.reverse := by simp
  rw [splitLast, if_pos (by simp), hreverse, htaken, hleft]
  simp

theorem splitLast_of_not_mem {mark : Char} {t : Text} (h : mark ∉ t) : splitLast mark t = none := if_neg h

/-- What stands before and after the last mark makes up the text. -/
theorem exists_splitLast {mark : Char} {t : Text} (h : mark ∈ t) :
    ∃ before after, t = before ++ mark :: after ∧ splitLast mark t = some (before, after) := by
  obtain ⟨after, before, hreverse, hlast⟩ := List.eq_append_cons_of_mem (List.mem_reverse.2 h)
  have ht : t = before.reverse ++ mark :: after.reverse := by
    rw [← List.reverse_reverse t, hreverse]
    simp
  refine ⟨before.reverse, after.reverse, ht, ?_⟩
  rw [ht]
  exact splitLast_append fun hmem => hlast (List.mem_reverse.1 hmem)

/-- `pattern` stands right behind `body` and nowhere before -/
def FirstAfter (pattern body : Text) : Prop := ∀ u v, body ++ pattern = u ++ pattern ++ v → v = []

theorem firstAfter_nil (pattern : Text) : FirstAfter pattern [] := by
  intro u v h
  have hl := congrArg List.length h
  simp only [List.nil_append, List.length_append] at hl
  exact List.eq_nil_of_length_eq_zero (by omega)

/-- Behind a longer body the pattern is still first if it does not begin with the body's first character. -/
theorem FirstAfter.cons {pattern body : Text} {c : Char} (h : FirstAfter pattern body)
    (hc : ¬ pattern <+: c :: (body ++ pattern)) : FirstAfter pattern (c :: body) := by
  intro u v e
  cases u with
  | nil => exact absurd ⟨v, e.symm⟩ hc
  | cons d u => exact h u v (List.cons.inj e).2

theorem FirstAfter.tail {pattern body : Text} {c : Char} (h : FirstAfter pattern (c :: body)) :
    FirstAfter pattern body := by
  intro u v e
  exact h (c :: u) v (by rw [List.cons_append, e]; rfl)

/-- A pattern that is first behind a body does not stand at the start of it, whatever follows. -/
theorem FirstAfter.not_starts {pattern body : Text} {c : Char} (h : FirstAfter pattern (c :: body)) (rest : Text) :
    ¬ pattern <+: c :: (body ++ pattern ++ rest) := by
  intro hp
  have hp' : pattern <+: c :: (body ++ pattern) :=
    List.prefix_of_prefix_length_le hp ⟨rest, by simp⟩ (by simp; omega)
  obtain ⟨v, e⟩ := hp'
  have hv : v = [] := h [] v e.symm
  have hl := congrArg List.length e
  simp only [hv, List.length_append, List.length_cons, List.length_nil] at hl
  omega

theorem through_of_firstAfter {pattern body : Text} (hp : pattern ≠ []) (h : FirstAfter pattern body) (rest : Text) :
    through pattern (body ++ pattern ++ rest) = (body ++ pattern, rest) := by
  induction body with
  | nil =>
    obtain ⟨c, r, rfl⟩ := List.exists_cons_of_ne_nil hp
    have ht : (c :: r).isPrefixOf (c :: (r ++ rest)) = true := by
      rw [List.isPrefixOf_iff_prefix]
      exact ⟨rest, rfl⟩
    simp [through, ht]
  | cons c b ih =>
    have hc : ¬ pattern.isPrefixOf (c :: (b ++ pattern ++ rest)) := by
      rw [List.isPrefixOf_iff_prefix]
      exact h.not_starts rest
    rw [List.cons_append, List.cons_append, through, if_neg hc, ih h.tail]

theorem through_of_not_infix {pattern s : Text} (h : ¬ pattern <:+: s) : through pattern s = (s, []) := by
  induction s with
  | nil => rfl
  | cons c r ih =>
    have hc : ¬ pattern.isPrefixOf (c :: r) := by
      rw [List.isPrefixOf_iff_prefix]
      exact fun hp => h hp.isInfix
    have hr : ¬ pattern <:+: r := fun hi => h (hi.trans (List.suffix_cons c r).isInfix)
    rw [through, if_neg hc, ih hr]

/-- A text is cut behind the first occurrence of the pattern, or it does not hold the pattern and is taken whole. -/
theorem through_cases {pattern : Text} (hp : pattern ≠ []) (s : Text) :
    (∃ body rest, s = body ++ pattern ++ rest ∧ FirstAfter pattern body ∧
      through pattern s = (body ++ pattern, rest)) ∨
    (¬ pattern <:+: s ∧ through pattern s = (s, [])) := by
  induction s with
  | nil => exact Or.inr ⟨fun h => hp (List.infix_nil.1 h), rfl⟩
  | cons c r ih =>
    by_cases hc : pattern <+: c :: r
    · obtain ⟨rest, e⟩ := hc
      refine Or.inl ⟨[], rest, e.symm, firstAfter_nil pattern, ?_⟩
      rw [← e]
      exact through_of_firstAfter hp (firstAfter_nil pattern) rest
    · rcases ih with ⟨body, rest, e, hf, -⟩ | ⟨hr, -⟩
      · have hf' : FirstAfter pattern (c :: body) :=
          hf.cons fun h => hc (h.trans ⟨rest, by rw [e]; simp⟩)
        refine Or.inl ⟨c :: body, rest, by rw [e]; simp, hf', ?_⟩
        rw [e]
        exact through_of_firstAfter hp hf' rest
      · have hcr : ¬ pattern <:+: c :: r := by
          rw [List.infix_cons_iff]
          exact fun h => h.elim hc hr
        exact Or.inr ⟨hcr, through_of_not_infix hcr⟩

end Text

end SqlAccess
