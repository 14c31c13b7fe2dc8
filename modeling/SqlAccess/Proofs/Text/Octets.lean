/-
The bytes of a text, and looking for them.

Every position below the size is in some character (`exists_at`), and what byte is there depends on that character
alone: an ASCII character is its own byte, and all bytes of another one are outside ASCII. The first byte of a character
is found in no other position of a character, so the bytes of a pattern stand only where its characters stand:
`exists_of_octets`.
-/
import SqlAccess.Text.Octets
import SqlAccess.Proofs.Text

namespace SqlAccess

namespace Text

/-! ## Bytes -/

theorem utf8Size_eq_one_iff {c : Char} : c.utf8Size = 1 ↔ c.toNat < 128 := by
  rw [Char.utf8Size_eq_one_iff, UInt32.le_iff_toNat_le]
  exact Nat.lt_succ_iff.symm

theorem size_concat {c : Char} {t : Text} (hc : c.toNat < 128) : size (t ++ [c]) = t.size + 1 := by
  rw [size_append, size_cons, size_nil, utf8Size_eq_one_iff.2 hc]

theorem size_pair {c d : Char} {t : Text} (hc : c.toNat < 128) (hd : d.toNat < 128) :
    size (t ++ [c, d]) = t.size + 2 := by
  rw [List.append_cons, size_concat hd, size_concat hc]

/-- a character that is its own byte in UTF-8 -/
theorem octets_of_ascii {c : Char} (h : c.toNat < 128) : String.utf8EncodeChar c = [UInt8.ofNat c.toNat] := by
  have hval : c.val.toNat ≤ 0x7f := Nat.lt_succ_iff.1 h
  simp only [String.utf8EncodeChar, if_pos hval]
  rfl

/-- All bytes of a character outside ASCII are outside ASCII. -/
theorem octet_of_wide {c : Char} (h : 128 ≤ c.toNat) {b : UInt8} (hb : b ∈ String.utf8EncodeChar c) :
    128 ≤ b.toNat := by
  have hval : ¬ c.val.toNat ≤ 0x7f := Nat.not_le.2 h
  rw [String.utf8EncodeChar, if_neg hval] at hb
  split at hb
  · simp only [List.mem_cons, List.not_mem_nil, or_false] at hb
    rcases hb with rfl | rfl <;> rw [UInt8.toNat_ofNat'] <;> omega
  · split at hb
    · simp only [List.mem_cons, List.not_mem_nil, or_false] at hb
      rcases hb with rfl | rfl | rfl <;> rw [UInt8.toNat_ofNat'] <;> omega
    · simp only [List.mem_cons, List.not_mem_nil, or_false] at hb
      rcases hb with rfl | rfl | rfl | rfl <;> rw [UInt8.toNat_ofNat'] <;> omega

theorem octets_append (s t : Text) : octets (s ++ t) = s.octets ++ t.octets := List.flatMap_append

theorem drop_octets (front back : Text) (k : Nat) :
    (octets (front ++ back)).drop (front.size + k) = back.octets.drop k := by
  rw [octets_append, size, List.drop_length_add_append]

theorem byteAt?_append (front back : Text) (k : Nat) : byteAt? (front ++ back) (front.size + k) = back.byteAt? k := by
  rw [byteAt?, byteAt?, size, octets_append, List.getElem?_append_right (Nat.le_add_right _ _),
    Nat.add_sub_cancel_left]

/-- In its first position an ASCII character is found. -/
theorem byteAt?_ascii {c : Char} (h : c.toNat < 128) (t : Text) : byteAt? (c :: t) 0 = some c := by
  have hoctets : octets (c :: t) = UInt8.ofNat c.toNat :: t.octets := by
    rw [octets, List.flatMap_cons, octets_of_ascii h]
    rfl
  have hcode : (UInt8.ofNat c.toNat).toNat = c.toNat := by
    rw [UInt8.toNat_ofNat']
    omega
  rw [byteAt?, hoctets, List.getElem?_cons_zero, Option.map_some, hcode, Char.ofNat_toNat]

/-- In every position of another character something outside ASCII is found. -/
theorem byteAt?_wide {c : Char} (h : 128 ≤ c.toNat) {k : Nat} (hk : k < c.utf8Size) (t : Text) :
    ∃ d : Char, byteAt? (c :: t) k = some d ∧ 128 ≤ d.toNat := by
  have hlt : k < (String.utf8EncodeChar c).length := by rwa [String.length_utf8EncodeChar]
  have hget : (octets (c :: t))[k]? = some (String.utf8EncodeChar c)[k] := by
    rw [octets, List.flatMap_cons, List.getElem?_append_left hlt, List.getElem?_eq_getElem hlt]
  have hbyte := octet_of_wide h (List.getElem_mem hlt)
  generalize (String.utf8EncodeChar c)[k] = b at hget hbyte
  refine ⟨Char.ofNat b.toNat, by rw [byteAt?, hget, Option.map_some], ?_⟩
  have hvalid : b.toNat.isValidChar := Or.inl (Nat.lt_trans b.toNat_lt (by decide))
  rwa [Char.ofNat, dif_pos hvalid]

/-- Every position below the size is in a character of the text. -/
theorem exists_at {t : Text} {position : Nat} (h : position < t.size) :
    ∃ (front : Text) (c : Char) (back : Text) (k : Nat),
      t = front ++ c :: back ∧ position = front.size + k ∧ k < c.utf8Size := by
  induction t generalizing position with
  | nil => exact absurd h (Nat.not_lt_zero _)
  | cons c t ih =>
    by_cases hc : position < c.utf8Size
    · exact ⟨[], c, t, position, rfl, (Nat.zero_add _).symm, hc⟩
    · rw [size_cons] at h
      have hbehind : position - c.utf8Size < size t := by omega
      obtain ⟨front, d, back, k, rfl, hposition, hk⟩ := ih hbehind
      refine ⟨c :: front, d, back, k, rfl, ?_, hk⟩
      rw [size_cons]
      omega

/-- whether a property holds of ASCII characters alone -/
def AsciiOnly (property : Char → Bool) : Prop := ∀ c, property c = true → c.toNat < 128

theorem asciiOnly_beq {d : Char} (hd : d.toNat < 128) : AsciiOnly (· == d) := by
  intro c hc
  rwa [beq_iff_eq.1 hc]

theorem AsciiOnly.or {p q : Char → Bool} (hp : AsciiOnly p) (hq : AsciiOnly q) : AsciiOnly fun c => p c || q c := by
  intro c hc
  exact ((Bool.or_eq_true _ _).mp hc).elim (hp c) (hq c)

theorem asciiOnly_isAlphanum : AsciiOnly Char.isAlphanum := by
  intro c hc
  have := toNat_of_isAlphanum hc
  omega

theorem asciiOnly_isNameChar : AsciiOnly isNameChar := asciiOnly_isAlphanum.or (asciiOnly_beq (by decide))

theorem asciiOnly_isWordChar : AsciiOnly isWordChar := asciiOnly_isNameChar.or (asciiOnly_beq (by decide))

theorem asciiOnly_isDigit : AsciiOnly Char.isDigit := by
  intro c hc
  exact asciiOnly_isAlphanum c (by simp [Char.isAlphanum, hc])

theorem asciiOnly_isNameStart : AsciiOnly isNameStart := by
  refine AsciiOnly.or (fun c hc => ?_) (asciiOnly_beq (by decide))
  exact asciiOnly_isAlphanum c (by simp [Char.isAlphanum, hc])

/-- No property of ASCII characters alone tells a byte of a character from the character. -/
theorem exists_byteAt?_in {t front back : Text} {c : Char} (h : t = front ++ c :: back) {k : Nat}
    (hk : k < c.utf8Size) :
    ∃ d, t.byteAt? (front.size + k) = some d ∧ (c.toNat < 128 → d = c) ∧ ∀ p, AsciiOnly p → p d = p c := by
  subst h
  rw [byteAt?_append]
  by_cases hc : c.toNat < 128
  · obtain rfl : k = 0 := by
      have := utf8Size_eq_one_iff.2 hc
      omega
    exact ⟨c, byteAt?_ascii hc back, fun _ => rfl, fun _ _ => rfl⟩
  · obtain ⟨d, hbyte, hd⟩ := byteAt?_wide (Nat.not_lt.1 hc) hk back
    refine ⟨d, hbyte, fun h => absurd h hc, fun p hp => ?_⟩
    have hpd : p d = false := Bool.eq_false_iff.2 fun h => absurd (hp d h) (Nat.not_lt.2 hd)
    have hpc : p c = false := Bool.eq_false_iff.2 fun h => hc (hp c h)
    rw [hpd, hpc]

theorem byteAt_ascii {t front r : Text} {c : Char} (h : t = front ++ c :: r) (hc : c.toNat < 128) :
    t.byteAt front.size = .ok c := by
  obtain ⟨d, hbyte, hsame, -⟩ := exists_byteAt?_in h c.utf8Size_pos
  rw [byteAt_eq_ok_iff, ← hsame hc]
  exact hbyte

/-- At a boundary a property of ASCII characters alone is found where the next character has it. -/
theorem any_byteAt? {t front back : Text} (h : t = front ++ back) {p : Char → Bool} (hp : AsciiOnly p) :
    (t.byteAt? front.size).any p = back.head?.any p := by
  cases back with
  | nil =>
    rw [List.append_nil] at h
    have hnone : t.byteAt? front.size = none := by
      subst h
      rw [byteAt?, size, List.getElem?_eq_none (Nat.le_refl _)]
      rfl
    rw [hnone]
    rfl
  | cons c back =>
    obtain ⟨d, hbyte, -, hsame⟩ := exists_byteAt?_in h c.utf8Size_pos
    rw [Nat.add_zero] at hbyte
    rw [hbyte, List.head?_cons, Option.any_some, Option.any_some, hsame p hp]

theorem byteAt?_eq_some_iff {t front back : Text} (h : t = front ++ back) {d : Char} (hd : d.toNat < 128) :
    t.byteAt? front.size = some d ↔ back.head? = some d := by
  have hany := any_byteAt? h (asciiOnly_beq hd)
  rw [Bool.eq_iff_iff, Option.any_eq_true, Option.any_eq_true] at hany
  simpa using hany

/-! ## Places of characters -/

theorem size_take_le (t : Text) {start stop : Nat} (h : start ≤ stop) : size (t.take start) ≤ size (t.take stop) := by
  obtain ⟨u, hu⟩ := List.take_prefix_take_left (l := t) h
  rw [← hu, size_append]
  exact Nat.le_add_right _ _

theorem isBoundary_take (t : Text) (n : Nat) : t.IsBoundary (size (t.take n)) :=
  ⟨t.take n, t.drop n, (List.take_append_drop n t).symm, rfl⟩

/-- Between two characters there is the slice of what stands between them. -/
theorem slice_take (t : Text) {start stop : Nat} (h : start ≤ stop) :
    t.slice (size (t.take start)) (size (t.take stop)) = .ok ((t.drop start).take (stop - start)) := by
  have htake : t.take stop = t.take start ++ (t.drop start).take (stop - start) := by
    rw [← List.take_add, Nat.add_sub_cancel' h]
  refine slice_eq_ok_iff.2 ⟨t.take start, t.drop stop, ?_, rfl, ?_⟩
  · rw [← List.append_assoc, ← htake, List.take_append_drop]
  · rw [← size_append, ← htake]

theorem slice_to_end (front back : Text) :
    (front ++ back).slice front.size (size (front ++ back)) = .ok back := by
  rw [size_append]
  simpa using slice_between front back []

/-! ## Looking for bytes -/

/-- The first byte of a character begins no other one. -/
theorem eq_of_octets_append {c d : Char} {s t : List UInt8}
    (h : String.utf8EncodeChar c ++ s = String.utf8EncodeChar d ++ t) : c = d := by
  have hc := ByteArray.utf8DecodeChar?_utf8EncodeChar_append (b := s.toByteArray) (c := c)
  have hd := ByteArray.utf8DecodeChar?_utf8EncodeChar_append (b := t.toByteArray) (c := d)
  rw [← List.toByteArray_append] at hc hd
  rw [h, hd] at hc
  exact (Option.some.inj hc).symm

theorem prefix_of_octets {pattern t : Text} (h : pattern.octets <+: t.octets) : pattern <+: t := by
  induction pattern generalizing t with
  | nil => exact List.nil_prefix
  | cons c pattern ih =>
    cases t with
    | nil =>
      have hsize := h.length_le
      have := c.utf8Size_pos
      change size (c :: pattern) ≤ 0 at hsize
      rw [size_cons] at hsize
      omega
    | cons d t =>
      obtain ⟨rest, e⟩ := h
      simp only [octets, List.flatMap_cons, List.append_assoc] at e
      obtain rfl := eq_of_octets_append e
      exact List.cons_prefix_cons.2 ⟨rfl, ih ⟨rest, List.append_cancel_left e⟩⟩

/-- The first byte of a character is found in no other position of a character. -/
theorem eq_zero_of_first {c d : Char} {k : Nat} (hk : k < c.utf8Size) {s t : List UInt8}
    (h : String.utf8EncodeChar d ++ s = (String.utf8EncodeChar c ++ t).drop k) : k = 0 := by
  have hc : k < (String.utf8EncodeChar c).length := by rwa [String.length_utf8EncodeChar]
  have hd : 0 < (String.utf8EncodeChar d).length := by
    rw [String.length_utf8EncodeChar]
    exact d.utf8Size_pos
  have hbyte := congrArg (fun bytes : List UInt8 => bytes[0]?) h
  simp only [List.getElem?_drop, Nat.add_zero] at hbyte
  rw [List.getElem?_append_left hd, List.getElem?_append_left hc, List.getElem?_eq_getElem hd,
    List.getElem?_eq_getElem hc] at hbyte
  have hfirst : (String.utf8EncodeChar d)[0].IsUTF8FirstByte := UInt8.isUTF8FirstByte_getElem_utf8EncodeChar.2 rfl
  rw [Option.some.inj hbyte] at hfirst
  exact UInt8.isUTF8FirstByte_getElem_utf8EncodeChar.1 hfirst

/-- The bytes of a pattern stand only where its characters stand. -/
theorem exists_of_octets {pattern t : Text} (hp : pattern ≠ []) {position : Nat}
    (h : pattern.octets <+: t.octets.drop position) :
    ∃ front back, t = front ++ (pattern ++ back) ∧ position = size front := by
  obtain ⟨d, p, rfl⟩ := List.exists_cons_of_ne_nil hp
  have hbelow : position < t.size := by
    have hlength := h.length_le
    have := d.utf8Size_pos
    change size (d :: p) ≤ _ at hlength
    rw [size_cons, List.length_drop] at hlength
    change position < t.octets.length
    omega
  obtain ⟨front, c, back, k, rfl, rfl, hk⟩ := exists_at hbelow
  rw [drop_octets] at h
  obtain ⟨bytes, hbytes⟩ := h
  rw [octets, List.flatMap_cons, List.append_assoc, octets, List.flatMap_cons] at hbytes
  obtain rfl := eq_zero_of_first hk hbytes
  have hprefix : octets (d :: p) <+: octets (c :: back) := by
    refine ⟨bytes, ?_⟩
    rw [octets, List.flatMap_cons, List.append_assoc, octets, List.flatMap_cons]
    exact hbytes
  obtain ⟨rest, e⟩ := prefix_of_octets hprefix
  exact ⟨front, rest, by rw [e], rfl⟩

/-- Where a pattern stands for the first time, its bytes are found. -/
theorem find?_of_firstAfter {pattern body : Text} (hp : pattern ≠ []) (h : FirstAfter pattern body) (rest : Text) :
    find? pattern (body ++ pattern ++ rest) = some body.size := by
  rw [find?, List.find?_range_eq_some]
  refine ⟨?_, ?_, ?_⟩
  · have hdrop := drop_octets body (pattern ++ rest) 0
    rw [Nat.add_zero, List.drop_zero] at hdrop
    rw [List.isPrefixOf_iff_prefix, List.append_assoc, hdrop, octets_append]
    exact List.prefix_append _ _
  · rw [List.mem_range, size_append, size_append]
    omega
  · intro position hposition
    rw [Bool.not_eq_true', Bool.eq_false_iff]
    intro hthere
    obtain ⟨front, back, e, rfl⟩ := exists_of_octets hp (List.isPrefixOf_iff_prefix.1 hthere)
    -- an earlier occurrence would end in front of the end of the first one
    have hfront : front ++ pattern <+: body ++ pattern := by
      refine prefix_of_size_le ⟨back, ?_⟩ (List.prefix_append _ rest) ?_
      · rw [e, List.append_assoc]
      · rw [size_append, size_append]
        omega
    obtain ⟨v, hv⟩ := hfront
    obtain rfl := h front v hv.symm
    rw [List.append_nil] at hv
    rw [List.append_cancel_right hv] at hposition
    exact Nat.lt_irrefl _ hposition

theorem find?_of_not_infix {pattern t : Text} (hp : pattern ≠ []) (h : ¬ pattern <:+: t) : find? pattern t = none := by
  rw [find?, List.find?_range_eq_none]
  intro position _
  rw [Bool.not_eq_true', Bool.eq_false_iff]
  intro hthere
  obtain ⟨front, back, e, -⟩ := exists_of_octets hp (List.isPrefixOf_iff_prefix.1 hthere)
  exact h ⟨front, back, by rw [e, List.append_assoc]⟩

end Text

end SqlAccess
