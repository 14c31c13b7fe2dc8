/-
The byte-wise scan is the scan by characters.

Where a character begins, each part of the byte-wise scan finds what its counterpart among `Template.nextToken`'s parts
finds, and ends where that ends, counted in bytes: `quotedEnd_eq`, `nameEnd_eq`, `patternEnd_eq`, `tagAt_eq`. Only ASCII
characters are compared, and no byte inside another character is one, so from inside a character a scan merely goes on
to its end (`quotedEnd_plain`, `turnAt_wide`). A turn goes as far as one token (`turnAt_eq`), no turn is refused, from
whatever position (`exists_turnAt`), and the spans are the placeholders with their places counted in bytes: `spans_eq`.
-/
import SqlAccess.Template.Octets
import SqlAccess.Proofs.Template.Scan
import SqlAccess.Proofs.Text.Octets

namespace SqlAccess

namespace Template

open Text

variable {template before r s : Text} {c mark : Char} {escapes : Bool}

/-! ## Looking back -/

/-- At a boundary the scan sees the last character in front of it. -/
theorem behind_eq (h : template = before ++ r) {p : Char → Bool} (hp : AsciiOnly p) :
    behind template p before.size = .ok (before.reverse.head?.any p) := by
  rcases List.eq_nil_or_concat before with rfl | ⟨front, d, rfl⟩
  · rfl
  · have hd := d.utf8Size_pos
    have hsize : size (front ++ [d]) = size front + (d.utf8Size - 1) + 1 := by
      rw [size_append, size_cons, size_nil]
      omega
    have hsplit : template = front ++ d :: r := by rw [h]; simp
    obtain ⟨b, hbyte, -, hsame⟩ := exists_byteAt?_in hsplit (Nat.sub_one_lt_of_lt hd)
    rw [List.concat_eq_append, hsize, behind, if_neg (Nat.succ_ne_zero _), Nat.add_sub_cancel,
      byteAt_eq_ok_iff.2 hbyte, List.reverse_append]
    exact congrArg Except.ok (hsame p hp)

theorem behindWord_eq (h : template = before ++ r) :
    behind template isWordChar before.size = .ok (endsInWord before.reverse) := behind_eq h asciiOnly_isWordChar

theorem behindBracket_eq (h : template = before ++ r) :
    behind template (fun c => c == '[' || c == ']') before.size = .ok (endsInBracket before.reverse) :=
  behind_eq h ((asciiOnly_beq (by decide)).or (asciiOnly_beq (by decide)))

theorem behindEscapeMark_eq (h : template = before ++ r) :
    behindEscapeMark template before.size = .ok (endsInEscapeMark before.reverse) := by
  have hmark : AsciiOnly fun c => c == 'E' || c == 'e' :=
    (asciiOnly_beq (by decide)).or (asciiOnly_beq (by decide))
  unfold behindEscapeMark
  rw [behind_eq h hmark]
  rcases List.eq_nil_or_concat before with rfl | ⟨front, d, rfl⟩
  · rfl
  rw [List.concat_eq_append] at h ⊢
  rw [List.reverse_append, List.reverse_cons, List.reverse_nil, List.nil_append, List.singleton_append,
    List.head?_cons, Option.any_some, endsInEscapeMark]
  cases hd : (d == 'E' || d == 'e') with
  | false => rfl
  | true =>
    have hsize : size (front ++ [d]) - 1 = size front := by
      rw [size_append, size_cons, size_nil, utf8Size_eq_one_iff.2 (hmark d hd)]
      rfl
    rw [hsize, ok_bind, if_pos rfl, behindWord_eq (r := d :: r) (by rw [h]; simp)]
    rfl

/-! ## Quoted runs -/

/-- what a quoted run does with the byte at a position -/
theorem quotedEnd_step {position : Nat} (h : template.byteAt position = .ok c) :
    quotedEnd template mark escapes position =
      if escapes && c == '\\' then quotedEnd template mark escapes (position + 2)
      else if c == mark then
        if template.byteAt? (position + 1) = some mark then quotedEnd template mark escapes (position + 2)
        else .ok (position + 1)
      else quotedEnd template mark escapes (position + 1) := by
  rw [quotedEnd, dif_pos (lt_size_of_byteAt h), h]
  rfl

theorem quotedEnd_past {position : Nat} (h : template.size ≤ position) :
    quotedEnd template mark escapes position = .ok template.size := by
  rw [quotedEnd, dif_neg (Nat.not_lt.2 h)]
  rfl

/-- From anywhere in a character that is neither a mark nor a backslash that escapes, a run goes on to its end. -/
theorem quotedEnd_plain (hm : mark.toNat < 128) (h : template = before ++ c :: r) (hc : c ≠ mark)
    (he : escapes = true → c ≠ '\\') {k : Nat} (hk : k ≤ c.utf8Size) :
    quotedEnd template mark escapes (before.size + k) = quotedEnd template mark escapes (before.size + c.utf8Size) := by
  -- by the bytes that are left of the character, none of which a run minds
  obtain ⟨left, hleft⟩ := Nat.exists_eq_add_of_le hk
  induction left generalizing k with
  | zero => rw [hleft, Nat.add_zero]
  | succ left ih =>
    obtain ⟨d, hbyte, -, hsame⟩ := exists_byteAt?_in h (k := k) (by omega)
    have hd : (d == mark) = false := by
      rw [hsame (· == mark) (asciiOnly_beq hm)]
      exact beq_false_of_ne hc
    have hd' : (escapes && d == '\\') = false := by
      rw [hsame (· == '\\') (asciiOnly_beq (by decide)), Bool.and_eq_false_iff]
      cases escapes with
      | false => exact Or.inl rfl
      | true => exact Or.inr (beq_false_of_ne (he rfl))
    rw [quotedEnd_step (byteAt_eq_ok_iff.2 hbyte), hd, hd']
    exact ih (k := k + 1) (by omega) (by omega)

/-- A run goes through an inside as it stands, also where a backslash pair ends in the midst of a character. -/
theorem quotedEnd_body (hm : mark.toNat < 128) (hslash : mark ≠ '\\') {body : Text}
    (hb : QuotedBody mark escapes body) (h : template = before ++ (body ++ r)) :
    quotedEnd template mark escapes before.size = quotedEnd template mark escapes (size (before ++ body)) := by
  induction hb generalizing before with
  | nil => rw [List.append_nil]
  | @plain c body hc he _ ih =>
    have hstep := quotedEnd_plain (k := 0) hm (r := body ++ r) h hc he (Nat.zero_le _)
    have hnext : before.size + c.utf8Size = size (before ++ [c]) := by simp
    rw [Nat.add_zero] at hstep
    rw [hstep, hnext, ih (by rw [h]; simp), List.append_assoc, List.singleton_append]
  | @doubled body _ ih =>
    have hnext : template.byteAt? (before.size + 1) = some mark := by
      rw [← size_concat hm, ← byteAt_eq_ok_iff]
      exact byteAt_ascii (r := body ++ r) (by rw [h]; simp) hm
    have hmark : (escapes && mark == '\\') = false := by simp [hslash]
    rw [quotedEnd_step (byteAt_ascii h hm), hmark, beq_self_eq_true, if_neg Bool.false_ne_true, if_pos rfl,
      if_pos hnext, ← size_pair hm hm, ih (by rw [h]; simp), List.append_assoc]
    rfl
  | @escaped c body he _ ih =>
    have hbyte := byteAt_ascii (c := '\\') (r := c :: (body ++ r)) h (by decide)
    have hsize : before.size + 2 = size (before ++ ['\\']) + 1 := by
      rw [size_concat (by decide)]
    have hnext : size (before ++ ['\\']) + c.utf8Size = size (before ++ ['\\', c]) := by
      simp [Nat.add_assoc]
    -- the pair is two bytes: the whole of an ASCII character, or the first byte of another one
    have hrest : quotedEnd template mark escapes (size (before ++ ['\\']) + 1) =
        quotedEnd template mark escapes (size (before ++ ['\\']) + c.utf8Size) := by
      by_cases hc : c.toNat < 128
      · rw [utf8Size_eq_one_iff.2 hc]
      · refine quotedEnd_plain (r := body ++ r) hm (by rw [h]; simp) ?_ ?_ c.utf8Size_pos
        · rintro rfl
          exact hc hm
        · rintro - rfl
          exact hc (by decide)
    rw [quotedEnd_step hbyte, he, Bool.true_and, beq_self_eq_true, if_pos rfl, ← he, hsize, hrest, hnext,
      ih (by rw [h]; simp), List.append_assoc]
    rfl

theorem quotedEnd_eq (hm : mark.toNat < 128) (hslash : mark ≠ '\\') (h : template = before ++ s) :
    quotedEnd template mark escapes before.size = .ok (size (before ++ (quotedRun mark escapes s).1)) := by
  rcases quotedRun_cases mark escapes s with ⟨body, rest, rfl, hb, hrest, hrun⟩ | ⟨hopen, hrun⟩
  · have hbyte : template.byteAt (size (before ++ body)) = .ok mark :=
      byteAt_ascii (r := rest) (by rw [h]; simp) hm
    have hbehind : template = before ++ body ++ [mark] ++ rest := by rw [h]; simp
    have hnext : ¬ template.byteAt? (size (before ++ body) + 1) = some mark := by
      rw [← size_concat hm, byteAt?_eq_some_iff hbehind hm]
      exact hrest
    have hmark : (escapes && mark == '\\') = false := by simp [hslash]
    rw [quotedEnd_body hm hslash hb h, hrun, quotedEnd_step hbyte, hmark, beq_self_eq_true, if_neg Bool.false_ne_true,
      if_pos rfl, if_neg hnext, ← size_concat hm, List.append_assoc]
  · rw [hrun, ← h]
    rcases hopen with hb | ⟨he, body, rfl, hb⟩
    · rw [quotedEnd_body (r := []) hm hslash hb (by rw [h]; simp), ← h, quotedEnd_past (Nat.le_refl _)]
    · have hbyte : template.byteAt (size (before ++ body)) = .ok '\\' :=
        byteAt_ascii (r := []) (by rw [h]; simp) (by decide)
      have hsize : template.size ≤ size (before ++ body) + 2 := by
        rw [h, ← List.append_assoc, size_concat (by decide)]
        omega
      rw [quotedEnd_body hm hslash hb h, quotedEnd_step hbyte, he, Bool.true_and, beq_self_eq_true, if_pos rfl,
        quotedEnd_past hsize]

/-! ## Names, patterns and tags -/

theorem nameEnd_eq (h : template = before ++ s) :
    nameEnd template before.size = .ok (size (before ++ s.takeWhile isNameChar)) := by
  induction s generalizing before with
  | nil =>
    have hsize : ¬ before.size < template.size := by rw [h]; simp
    rw [nameEnd, dif_neg hsize, List.takeWhile_nil, List.append_nil]
    rfl
  | cons c s ih =>
    obtain ⟨d, hbyte, -, hsame⟩ := exists_byteAt?_in h c.utf8Size_pos
    rw [Nat.add_zero] at hbyte
    rw [nameEnd, dif_pos (lt_size_of_byteAt? hbyte), byteAt_eq_ok_iff.2 hbyte]
    rw [ok_bind, hsame _ asciiOnly_isNameChar, List.takeWhile_cons]
    cases hc : isNameChar c with
    | false => rw [if_neg Bool.false_ne_true, if_neg Bool.false_ne_true, List.append_nil]; rfl
    | true =>
      rw [if_pos rfl, if_pos rfl, ← size_concat (asciiOnly_isNameChar c hc), ih (by rw [h]; simp), List.append_assoc]
      rfl

theorem patternEnd_eq {pattern : Text} (hp : pattern ≠ []) (h : template = before ++ s) :
    patternEnd template pattern before.size = .ok (size (before ++ (through pattern s).1)) := by
  subst h
  rw [patternEnd, slice_to_end, ok_bind]
  rcases through_cases hp s with ⟨body, rest, rfl, hfirst, hrun⟩ | ⟨hnone, hrun⟩
  · rw [hrun, find?_of_firstAfter hp hfirst rest]
    change Except.ok (before.size + body.size + pattern.size) = Except.ok (size (before ++ (body ++ pattern)))
    rw [size_append, size_append, Nat.add_assoc]
  · rw [hrun, find?_of_not_infix hp hnone]
    rfl

theorem tagAt_eq (h : template = before ++ '$' :: r) :
    tagAt template before.size = .ok ((dollarTag? r).map Prod.fst) := by
  have hbehind : template = (before ++ ['$']) ++ r := by rw [h]; simp
  have hname : template = (before ++ ['$'] ++ r.takeWhile isNameChar) ++ r.dropWhile isNameChar := by
    rw [List.append_assoc, List.takeWhile_append_dropWhile]
    exact hbehind
  unfold tagAt dollarTag?
  rw [← size_concat (by decide : ('$' : Char).toNat < 128), any_byteAt? hbehind asciiOnly_isDigit, nameEnd_eq hbehind]
  split
  · rfl
  rw [ok_bind]
  have hdollar := byteAt?_eq_some_iff hname (d := '$') (by decide)
  split
  · rename_i hthere
    obtain ⟨rest, hrest⟩ := List.head?_eq_some_iff.1 (hdollar.1 hthere)
    have htag : template = before ++ (('$' :: (r.takeWhile isNameChar ++ ['$'])) ++ rest) := by
      rw [hname, hrest]
      simp
    have hstop : size (before ++ ['$'] ++ r.takeWhile isNameChar) + 1 =
        before.size + size ('$' :: (r.takeWhile isNameChar ++ ['$'])) := by
      rw [← size_concat (by decide : ('$' : Char).toNat < 128), ← size_append, List.append_assoc, List.append_assoc]
      rfl
    rw [hstop, slice_eq_ok_iff.2 ⟨_, _, htag, rfl, rfl⟩, hrest]
    rfl
  · rename_i hthere
    cases hrest : r.dropWhile isNameChar with
    | nil => rfl
    | cons d rest =>
      have hd : d ≠ '$' := by
        rintro rfl
        exact hthere (hdollar.2 (by rw [hrest]; rfl))
      split
      · rename_i e
        exact absurd (List.cons.inj e).1 hd
      · rfl

/-! ## Turns -/

/-- a token between two places, if it is a placeholder -/
def Token.spanned (start stop : Nat) : Token → Option Placeholder
  | .placeholder name => some ⟨start, stop, name⟩
  | _ => none

/-- where a turn gets that takes a token behind a text, and the placeholder if it is one -/
def reached (before : Text) (token : Token) : Nat × Option Placeholder :=
  (size (before ++ token.text), token.spanned before.size (size (before ++ token.text)))

theorem reached_single (hc : c.toNat < 128) : reached before (.single c) = (before.size + 1, none) :=
  congrArg (·, none) (size_concat hc)

theorem reached_region (kind : Region) (t : Text) : reached before (.region kind t) = (size (before ++ t), none) := rfl

theorem nextToken_colon {b : Text} (hr : r.head? ≠ some ':') : nextToken b ':' r =
    if !endsInWord b ∧ !endsInBracket b ∧ r.head?.any isNameStart then
      (.placeholder (r.takeWhile isNameChar), r.dropWhile isNameChar)
    else (.single ':', r) := by
  simp [nextToken, hr]

theorem colonAt_eq (h : template = before ++ ':' :: r) (hr : r.head? ≠ some ':') :
    colonAt template before.size = .ok (reached before (nextToken before.reverse ':' r).1) := by
  have hbehind : template = (before ++ [':']) ++ r := by rw [h]; simp
  have hsize : before.size + 1 = size (before ++ [':']) := (size_concat (by decide)).symm
  unfold colonAt
  rw [nextToken_colon hr, behindWord_eq h, ok_bind, behindBracket_eq h, hsize,
    any_byteAt? hbehind asciiOnly_isNameStart]
  cases endsInWord before.reverse with
  | true => rfl
  | false =>
    cases endsInBracket before.reverse with
    | true => rfl
    | false =>
      cases r.head?.any isNameStart with
      | false => rfl
      | true =>
        have hstop : size (before ++ [':'] ++ r.takeWhile isNameChar) =
            size (before ++ ':' :: r.takeWhile isNameChar) := by
          rw [List.append_assoc]
          rfl
        have hslice : template.slice (size (before ++ [':'])) (size (before ++ ':' :: r.takeWhile isNameChar)) =
            .ok (r.takeWhile isNameChar) := by
          refine slice_eq_ok_iff.2 ⟨before ++ [':'], r.dropWhile isNameChar, ?_, rfl, ?_⟩
          · rw [List.takeWhile_append_dropWhile]
            exact hbehind
          · rw [← hstop, size_append]
        simp only [nameEnd_eq hbehind, hstop, hslice, ok_bind, Bool.false_eq_true, if_false, if_true]
        rfl

theorem turnAt_dollar (h : template = before ++ '$' :: r) :
    turnAt template before.size = .ok (reached before (nextToken before.reverse '$' r).1) := by
  have hsingle : reached before (.single '$') = (before.size + 1, none) := reached_single (by decide)
  unfold turnAt
  rw [byteAt_ascii h (by decide), ok_bind, if_neg (by decide), if_neg (by decide), if_pos rfl, behindWord_eq h, ok_bind]
  cases hword : endsInWord before.reverse with
  | true =>
    have htoken : nextToken before.reverse '$' r = (.single '$', r) := by simp [nextToken, hword]
    rw [if_pos rfl, htoken, hsingle]
    rfl
  | false =>
    rw [if_neg Bool.false_ne_true, tagAt_eq h, ok_bind]
    cases htag : dollarTag? r with
    | none =>
      have htoken : nextToken before.reverse '$' r = (.single '$', r) := by simp [nextToken, htag]
      rw [htoken, hsingle]
      rfl
    | some tagged =>
      obtain ⟨tag, body⟩ := tagged
      have hbody : template = (before ++ tag) ++ body := by
        rw [h, List.append_assoc, dollarTag_append htag]
      have hne : tag ≠ [] := (dollarTag_eq_some htag).1.ne_nil
      simp only [Option.map_some]
      rw [nextToken_dollar (by simp [hword]) htag, reached_region, ← size_append, patternEnd_eq hne hbody, ok_bind,
        List.append_assoc]
      rfl

/-- **A turn takes one token**, where it begins at an ASCII character. -/
theorem turnAt_eq (hc : c.toNat < 128) (h : template = before ++ c :: r) :
    turnAt template before.size = .ok (reached before (nextToken before.reverse c r).1) := by
  have hbehind : template = (before ++ [c]) ++ r := by rw [h]; simp
  have hsize : before.size + 1 = size (before ++ [c]) := (size_concat hc).symm
  have hnext {d : Char} (hd : d.toNat < 128) : template.byteAt? (before.size + 1) = some d ↔ r.head? = some d := by
    rw [hsize]
    exact byteAt?_eq_some_iff hbehind hd
  -- one case for each way in which a token begins, in the order in which a turn looks for them, the tag first
  by_cases hdollar : c = '$'
  · subst hdollar
    exact turnAt_dollar h
  unfold turnAt
  rw [byteAt_ascii h hc, ok_bind]
  by_cases hquote : c = '\''
  · subst hquote
    rw [if_pos rfl, behindEscapeMark_eq h, ok_bind, hsize, quotedEnd_eq (by decide) (by decide) hbehind, ok_bind,
      nextToken_quote, reached_region, List.append_assoc]
    rfl
  by_cases hname : c = '"'
  · subst hname
    rw [if_neg hquote, if_pos rfl, hsize, quotedEnd_eq (by decide) (by decide) hbehind, ok_bind,
      nextToken_doubleQuote, reached_region, List.append_assoc]
    rfl
  by_cases hdash : c = '-' ∧ r.head? = some '-'
  · obtain ⟨rfl, hr⟩ := hdash
    obtain ⟨r, rfl⟩ := List.head?_eq_some_iff.1 hr
    rw [if_neg hquote, if_neg hname, if_neg hdollar, if_pos ⟨rfl, (hnext (by decide)).2 hr⟩,
      patternEnd_eq (List.cons_ne_nil _ _) h, ok_bind, nextToken_dashes, reached_region]
    rfl
  by_cases hslash : c = '/' ∧ r.head? = some '*'
  · obtain ⟨rfl, hr⟩ := hslash
    obtain ⟨r, rfl⟩ := List.head?_eq_some_iff.1 hr
    have hbody : template = (before ++ ['/', '*']) ++ r := by rw [h]; simp
    have hsize' : before.size + 2 = size (before ++ ['/', '*']) := (size_pair hc (by decide)).symm
    rw [if_neg hquote, if_neg hname, if_neg hdollar, if_neg (fun e => hdash ⟨e.1, (hnext (by decide)).1 e.2⟩),
      if_pos ⟨rfl, (hnext (by decide)).2 hr⟩, hsize', patternEnd_eq (List.cons_ne_nil _ _) hbody, ok_bind,
      nextToken_slashStar, reached_region, List.append_assoc]
    rfl
  rw [if_neg hquote, if_neg hname, if_neg hdollar, if_neg (fun e => hdash ⟨e.1, (hnext (by decide)).1 e.2⟩),
    if_neg (fun e => hslash ⟨e.1, (hnext (by decide)).1 e.2⟩)]
  by_cases hcolon : c = ':'
  · subst hcolon
    rw [if_pos rfl]
    split
    · rename_i hcast
      obtain ⟨r, rfl⟩ := List.head?_eq_some_iff.1 ((hnext (by decide)).1 hcast)
      have hreached : reached before .cast = (before.size + 2, none) := congrArg (·, none) (size_pair hc hc)
      exact congrArg Except.ok hreached.symm
    · rename_i hcast
      exact colonAt_eq h fun hr => hcast ((hnext (by decide)).2 hr)
  · have htoken : nextToken before.reverse c r = (.single c, r) := by
      simp [nextToken, hquote, hname, hdollar, hdash, hslash, hcolon]
    rw [if_neg hcolon, htoken, reached_single hc]
    rfl

/-- Anywhere in a character outside ASCII a turn takes one byte. -/
theorem turnAt_wide (hc : 128 ≤ c.toNat) (h : template = before ++ c :: r) {k : Nat} (hk : k < c.utf8Size) :
    turnAt template (before.size + k) = .ok (before.size + k + 1, none) := by
  obtain ⟨d, hbyte, -, hsame⟩ := exists_byteAt?_in h hk
  have hne {x : Char} (hx : x.toNat < 128) : d ≠ x := by
    rintro rfl
    have hcd := hsame (· == d) (asciiOnly_beq hx)
    rw [beq_self_eq_true] at hcd
    exact Nat.not_lt.2 hc (asciiOnly_beq hx c hcd.symm)
  unfold turnAt
  rw [byteAt_eq_ok_iff.2 hbyte, ok_bind, if_neg (hne (by decide)), if_neg (hne (by decide)), if_neg (hne (by decide)),
    if_neg fun e => hne (by decide) e.1, if_neg fun e => hne (by decide) e.1, if_neg (hne (by decide))]
  rfl

theorem nextToken_wide (hc : 128 ≤ c.toNat) (b r : Text) : nextToken b c r = (.single c, r) := by
  have hne {x : Char} (hx : x.toNat < 128) : c ≠ x := by
    rintro rfl
    exact Nat.not_lt.2 hc hx
  simp [nextToken, hne]

/-- **No turn is refused**, also where it begins inside a character. -/
theorem exists_turnAt {position : Nat} (h : position < template.size) :
    ∃ next found, turnAt template position = .ok (next, found) := by
  obtain ⟨front, c, back, k, htemplate, rfl, hk⟩ := exists_at h
  by_cases hc : c.toNat < 128
  · obtain rfl : k = 0 := by
      have := utf8Size_eq_one_iff.2 hc
      omega
    exact ⟨_, _, turnAt_eq hc htemplate⟩
  · exact ⟨_, _, turnAt_wide (Nat.not_lt.1 hc) htemplate hk⟩

/-! ## Spans -/

theorem spansFrom_turn {position next : Nat} {found : Option Placeholder}
    (h : turnAt template position = .ok (next, found)) :
    spansFrom template position = (spansFrom template next).map (found.toList ++ ·) := by
  have hforward := turnAt_forward h
  rw [spansFrom, dif_pos (by omega)]
  split
  · rename_i hrefused
    cases h.symm.trans hrefused
  · rename_i hturn
    cases h.symm.trans hturn
    rfl

theorem spansFrom_size (template : Text) : spansFrom template template.size = .ok [] := by
  rw [spansFrom, dif_neg (Nat.lt_irrefl _)]

theorem spansFrom_wide (hc : 128 ≤ c.toNat) (h : template = before ++ c :: r) {k : Nat} (hk : k ≤ c.utf8Size) :
    spansFrom template (before.size + k) = spansFrom template (before.size + c.utf8Size) := by
  -- by the bytes that are left of the character
  obtain ⟨left, hleft⟩ := Nat.exists_eq_add_of_le hk
  induction left generalizing k with
  | zero => rw [hleft, Nat.add_zero]
  | succ left ih =>
    rw [spansFrom_turn (turnAt_wide hc h (by omega)), Nat.add_assoc, ih (by omega) (by omega)]
    cases spansFrom template (before.size + c.utf8Size) <;> rfl

/-- From a boundary on, the scan goes over the next token. -/
theorem spansFrom_token (h : template = before ++ c :: r) :
    spansFrom template before.size =
      (spansFrom template (reached before (nextToken before.reverse c r).1).1).map
        ((reached before (nextToken before.reverse c r).1).2.toList ++ ·) := by
  by_cases hc : c.toNat < 128
  · exact spansFrom_turn (turnAt_eq hc h)
  · have hwide := spansFrom_wide (Nat.not_lt.1 hc) h (Nat.zero_le _)
    have hsize : before.size + c.utf8Size = size (before ++ [c]) := by simp
    rw [Nat.add_zero, hsize] at hwide
    rw [nextToken_wide (Nat.not_lt.1 hc), hwide]
    change spansFrom template (size (before ++ [c])) = (spansFrom template (size (before ++ [c]))).map ([] ++ ·)
    cases spansFrom template (size (before ++ [c])) <;> rfl

/-- a placeholder of a template with its place counted in bytes -/
def Placeholder.inOctets (template : Text) (p : Placeholder) : Placeholder :=
  ⟨size (template.take p.start), size (template.take p.stop), p.name⟩

theorem placeholdersFrom_cons (start : Nat) (token : Token) (tokens : List Token) :
    placeholdersFrom start (token :: tokens) =
      (token.spanned start (start + token.text.length)).toList ++
        placeholdersFrom (start + token.text.length) tokens := by
  cases token <;> rfl

theorem map_inOctets_spanned {token : Token} (h : template = before ++ (token.text ++ r)) :
    (token.spanned before.length (before.length + token.text.length)).toList.map (Placeholder.inOctets template) =
      (reached before token).2.toList := by
  have hstart : template.take before.length = before := by rw [h, List.take_left]
  have hstop : template.take (before.length + token.text.length) = before ++ token.text := by
    rw [h, ← List.append_assoc, ← List.length_append, List.take_left]
  cases token with
  | placeholder name =>
    simp only [Token.spanned, Option.toList_some, List.map_cons, List.map_nil, Placeholder.inOctets, hstart, hstop,
      reached]
  | cast => rfl
  | region => rfl
  | single => rfl

theorem spansFrom_eq {b : Text} (h : template = b.reverse ++ s) :
    spansFrom template (size b.reverse) =
      .ok ((placeholdersFrom b.length (tokensFrom b s)).map (Placeholder.inOctets template)) := by
  fun_induction tokensFrom b s with
  | case1 b =>
    rw [List.append_nil] at h
    rw [← h]
    exact spansFrom_size template
  | case2 b c r ih =>
    have htoken : template = b.reverse ++ ((nextToken b c r).1.text ++ (nextToken b c r).2) := by
      rw [h, text_nextToken]
    have hrest := ih (by rw [htoken]; simp)
    have hnext : size ((nextToken b c r).1.text.reverse ++ b).reverse = (reached b.reverse (nextToken b c r).1).1 := by
      simp [reached]
    have hlength : ((nextToken b c r).1.text.reverse ++ b).length = b.length + (nextToken b c r).1.text.length := by
      rw [List.length_append, List.length_reverse, Nat.add_comm]
    have hfound := map_inOctets_spanned htoken
    rw [hnext, hlength] at hrest
    rw [List.length_reverse] at hfound
    rw [spansFrom_token h, List.reverse_reverse, hrest, placeholdersFrom_cons, List.map_append, hfound]
    rfl

/-- **The spans are the placeholders**, with their places counted in bytes. -/
theorem spans_eq (template : Text) :
    spans template = .ok ((placeholders template).map (Placeholder.inOctets template)) :=
  spansFrom_eq (b := []) rfl

end Template

end SqlAccess
