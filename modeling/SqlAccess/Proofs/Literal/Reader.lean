/-
A reader of literals, and what it finds in quoted values.

`readAll standard` reads literals with a comma and a blank between neighbours: NULL, TRUE and FALSE, digits with or
without a minus sign, and strings, in which a quote is doubled and, where backslashes are not plain, a backslash too.
It knows nothing of values or of how they are quoted. `quote_reads_back` says that it gets back from a quoted value
exactly the leaves of the value, so that no text leaves its literal, and that quoting fails for NUL in a text and for
nothing else.
-/
import SqlAccess.Proofs.Literal
import SqlAccess.Postgres.Script

namespace SqlAccess

inductive Literal where
  | null
  | boolean (b : Bool)
  | number (negative : Bool) (digits : Text)
  | string (t : Text)
  deriving DecidableEq, Repr

namespace Literal

/-! ## The reader -/

/-- whether a character stands for itself only when it is doubled -/
def isMark (standard : Bool) (c : Char) : Bool := c == '\'' || (!standard && c == '\\')

/-- Behind the opening quote of a string: its text, and what follows the closing quote. -/
def readBody (standard : Bool) : Text → Option (Text × Text)
  | [] => none
  | [c] => if c = '\'' then some ([], []) else none
  | c :: d :: r =>
    if isMark standard c ∧ d = c then (readBody standard r).map fun (t, rest) => (c :: t, rest)
    else if c = '\'' then some ([], d :: r)
    else if isMark standard c then none
    else (readBody standard (d :: r)).map fun (t, rest) => (c :: t, rest)

/-- at least one digit, and what follows the digits -/
def readNumber (negative : Bool) (s : Text) : Option (Literal × Text) :=
  if s.takeWhile Char.isDigit = [] then none
  else some (.number negative (s.takeWhile Char.isDigit), s.dropWhile Char.isDigit)

/-- one of the three words, and what follows it -/
def readWord (s : Text) : Option (Literal × Text) :=
  if s.takeWhile Char.isAlpha = "NULL" then some (.null, s.dropWhile Char.isAlpha)
  else if s.takeWhile Char.isAlpha = "TRUE" then some (.boolean true, s.dropWhile Char.isAlpha)
  else if s.takeWhile Char.isAlpha = "FALSE" then some (.boolean false, s.dropWhile Char.isAlpha)
  else none

def readOne (standard : Bool) : Text → Option (Literal × Text)
  | [] => none
  | c :: r =>
    if c = '\'' then (readBody standard r).map fun (t, rest) => (.string t, rest)
    else if c = '-' then readNumber true r
    else if c.isDigit then readNumber false (c :: r)
    else readWord (c :: r)

theorem readBody_lt {standard : Bool} {s t rest : Text} (h : readBody standard s = some (t, rest)) :
    rest.length < s.length := by
  fun_induction readBody standard s generalizing t rest with
  | case1 => cases h
  | case2 => cases h; decide
  | case3 => cases h
  | case4 c d r _ ih =>
    obtain ⟨⟨t', rest'⟩, hr, he⟩ := Option.map_eq_some_iff.1 h
    cases he
    have := ih hr
    simp only [List.length_cons]
    omega
  | case5 d r _ => cases h; simp
  | case6 => cases h
  | case7 c d r _ _ _ ih =>
    obtain ⟨⟨t', rest'⟩, hr, he⟩ := Option.map_eq_some_iff.1 h
    cases he
    have := ih hr
    simp only [List.length_cons] at this ⊢
    omega

theorem dropWhile_lt {p : Char → Bool} {s : Text} (h : s.takeWhile p ≠ []) : (s.dropWhile p).length < s.length := by
  have e := congrArg List.length (List.takeWhile_append_dropWhile (p := p) (l := s))
  have hp := List.length_pos_iff.2 h
  rw [List.length_append] at e
  omega

theorem readNumber_lt {negative : Bool} {s rest : Text} {l : Literal} (h : readNumber negative s = some (l, rest)) :
    rest.length < s.length := by
  unfold readNumber at h
  split at h
  · cases h
  · rename_i hd
    cases h
    exact dropWhile_lt hd

theorem readWord_lt {s rest : Text} {l : Literal} (h : readWord s = some (l, rest)) : rest.length < s.length := by
  have hs : s.takeWhile Char.isAlpha ≠ [] := by
    intro he
    simp [readWord, he, Text.lit_eq] at h
  have hr : rest = s.dropWhile Char.isAlpha := by
    unfold readWord at h
    split at h
    · cases h; rfl
    split at h
    · cases h; rfl
    split at h
    · cases h; rfl
    · cases h
  rw [hr]
  exact dropWhile_lt hs

theorem readOne_lt {standard : Bool} {s rest : Text} {l : Literal} (h : readOne standard s = some (l, rest)) :
    rest.length < s.length := by
  cases s with
  | nil => cases h
  | cons c r =>
    rw [readOne] at h
    split at h
    · obtain ⟨⟨t, rest'⟩, hr, he⟩ := Option.map_eq_some_iff.1 h
      cases he
      exact Nat.lt_succ_of_lt (readBody_lt hr)
    split at h
    · exact Nat.lt_succ_of_lt (readNumber_lt h)
    split at h
    · exact readNumber_lt h
    · exact readWord_lt h

/-- literals with a comma and a blank between neighbours -/
def readAll (standard : Bool) (s : Text) : Option (List Literal) :=
  match _h : readOne standard s with
  | some (l, []) => some [l]
  | some (l, ',' :: ' ' :: rest) => (readAll standard rest).map (l :: ·)
  | _ => none
termination_by s.length
decreasing_by
  have := readOne_lt _h
  simp only [List.length_cons] at this
  omega

/-! ## What literals say of values -/

/-- the literal that a text is written as: a number where it is made of digits, else a string -/
def ofText (t : Text) : Literal := if t.isDigits then .number false t else .string t

theorem ofText_eq_string_iff {t u : Text} : ofText t = .string u ↔ t.isDigits = false ∧ t = u := by
  unfold ofText
  split <;> simp_all

/-- The value a literal says. A text of digits is told from an integer by its digits alone: a number may say either. -/
inductive Denotes : Literal → Value → Prop
  | null : Denotes .null .null
  | boolean (b : Bool) : Denotes (.boolean b) (.boolean b)
  | nonnegative (digits : Text) : Denotes (.number false digits) (.integer (Nat.ofDigitChars 10 digits 0))
  | negative (digits : Text) : Denotes (.number true digits) (.integer (-(Nat.ofDigitChars 10 digits 0)))
  | digits {t : Text} : t.isDigits = true → Denotes (.number false t) (.text t)
  | string {t : Text} : t.isDigits = false → Denotes (.string t) (.text t)

/-! ## Reading what was written -/

/-- what may follow a literal: nothing, or a comma -/
def Ends (rest : Text) : Prop := rest = [] ∨ ∃ r, rest = ',' :: r

theorem isMark_quote (standard : Bool) : isMark standard '\'' = true := rfl

theorem Ends.head {rest : Text} (h : Ends rest) {p : Char → Bool} (hp : p ',' = false) :
    ∀ c ∈ rest.head?, p c = false := by
  intro c hc
  rcases h with rfl | ⟨r, rfl⟩
  · cases hc
  · cases hc
    exact hp

/-- The text of a string comes back from its escaped form, whatever follows the closing quote but another quote. -/
theorem readBody_escaped (standard : Bool) (t : Text) {rest : Text} (hr : rest.head? ≠ some '\'') :
    readBody standard (Postgres.Session.escapeLiteral standard t ++ '\'' :: rest) = some (t, rest) := by
  unfold Postgres.Session.escapeLiteral
  induction t with
  | nil =>
    cases rest with
    | nil => rfl
    | cons d r =>
      have hd : d ≠ '\'' := by
        rintro rfl
        exact hr rfl
      simp [readBody, hd]
  | cons c t ih =>
    by_cases hc : isMark standard c = true
    · have e : Text.doubled (fun c => c == '\'' || (!standard && c == '\\')) (c :: t)
          = c :: c :: Text.doubled (fun c => c == '\'' || (!standard && c == '\\')) t := if_pos hc
      rw [e, List.cons_append, List.cons_append, readBody, if_pos ⟨hc, rfl⟩, ih]
      rfl
    · have e : Text.doubled (fun c => c == '\'' || (!standard && c == '\\')) (c :: t)
          = c :: Text.doubled (fun c => c == '\'' || (!standard && c == '\\')) t := if_neg hc
      have hq : c ≠ '\'' := by
        rintro rfl
        exact hc (isMark_quote standard)
      rw [e, List.cons_append]
      obtain ⟨d, r, hd⟩ : ∃ d r, Text.doubled (fun c => c == '\'' || (!standard && c == '\\')) t ++ '\'' :: rest
          = d :: r := List.exists_cons_of_ne_nil (by simp)
      rw [hd] at ih ⊢
      rw [readBody, if_neg (fun h => hc h.1), if_neg hq, if_neg hc, ih]
      rfl

theorem readNumber_digits (negative : Bool) {digits rest : Text} (hn : digits ≠ [])
    (hd : ∀ c ∈ digits, c.isDigit = true) (hr : ∀ c ∈ rest.head?, c.isDigit = false) :
    readNumber negative (digits ++ rest) = some (.number negative digits, rest) := by
  obtain ⟨h1, h2⟩ := Text.takeWhile_append_stop hd hr
  rw [readNumber, h1, h2, if_neg hn]

theorem readOne_word (standard : Bool) {word rest : Text} {l : Literal} (hn : word ≠ [])
    (ha : ∀ c ∈ word, c.isAlpha = true) (hw : readWord word = some (l, [])) (hr : Ends rest) :
    readOne standard (word ++ rest) = some (l, rest) := by
  obtain ⟨h1, h2⟩ := Text.takeWhile_append_stop ha (hr.head (by decide))
  have hnil : Ends [] := Or.inl rfl
  obtain ⟨h3, h4⟩ := Text.takeWhile_append_stop ha (hnil.head (by decide))
  rw [List.append_nil] at h3 h4
  have hw' : readWord (word ++ rest) = some (l, rest) := by
    simp only [readWord, h1, h2, h3, h4] at hw ⊢
    grind
  obtain ⟨c, r, rfl⟩ := List.exists_cons_of_ne_nil hn
  have hc : c.isAlpha = true := ha c List.mem_cons_self
  have hq : c ≠ '\'' := by rintro rfl; revert hc; decide
  have hm : c ≠ '-' := by rintro rfl; revert hc; decide
  rw [List.cons_append] at hw' ⊢
  rw [readOne, if_neg hq, if_neg hm, if_neg (Text.not_isDigit_of_isAlpha hc), hw']

theorem readOne_digits (standard : Bool) {digits rest : Text} (hn : digits ≠ [])
    (hd : ∀ c ∈ digits, c.isDigit = true) (hr : ∀ c ∈ rest.head?, c.isDigit = false) :
    readOne standard (digits ++ rest) = some (.number false digits, rest) := by
  have h := readNumber_digits false hn hd hr
  obtain ⟨c, r, rfl⟩ := List.exists_cons_of_ne_nil hn
  have hc : c.isDigit = true := hd c List.mem_cons_self
  have hq : c ≠ '\'' := by rintro rfl; revert hc; decide
  have hm : c ≠ '-' := by rintro rfl; revert hc; decide
  rw [List.cons_append] at h ⊢
  rw [readOne, if_neg hq, if_neg hm, if_pos hc, h]

/-- A text is read as the literal it is written as, if no digit and no quote follows. -/
theorem readOne_text (standard : Bool) (t : Text) {rest : Text} (hquote : rest.head? ≠ some '\'')
    (hdigit : ∀ c ∈ rest.head?, c.isDigit = false) :
    readOne standard ((Value.text t).literal standard ++ rest) = some (ofText t, rest) := by
  rw [Value.literal, ofText]
  by_cases hd : t.isDigits = true
  · rw [if_pos hd, if_pos hd]
    obtain ⟨hn, hc⟩ := Text.isDigits_iff.1 hd
    exact readOne_digits standard hn hc hdigit
  · rw [if_neg hd, if_neg hd, List.cons_append, readOne, if_pos rfl, List.append_assoc, List.singleton_append,
      readBody_escaped standard t hquote]
    rfl

/-- **A literal is read as its leaf.** Whatever follows it, if that is nothing or a comma. -/
theorem exists_readOne (standard : Bool) {leaf : Value} {rest : Text} (hf : ∀ x, leaf ≠ .float x)
    (he : ∀ sql, leaf ≠ .expression sql) (hl : ∀ vs, leaf ≠ .list vs) (hr : Ends rest) :
    ∃ l, readOne standard (leaf.literal standard ++ rest) = some (l, rest) ∧ Denotes l leaf := by
  cases leaf with
  | null =>
    refine ⟨.null, ?_, .null⟩
    rw [Value.literal, Text.lit_eq]
    exact readOne_word standard (by decide) (List.all_eq_true.1 (by decide)) (by simp [readWord, Text.lit_eq]) hr
  | boolean b =>
    refine ⟨.boolean b, ?_, .boolean b⟩
    cases b with
    | false =>
      rw [Value.literal, if_neg (by decide), Text.lit_eq]
      exact readOne_word standard (by decide) (List.all_eq_true.1 (by decide)) (by simp [readWord, Text.lit_eq]) hr
    | true =>
      rw [Value.literal, if_pos rfl, Text.lit_eq]
      exact readOne_word standard (by decide) (List.all_eq_true.1 (by decide)) (by simp [readWord, Text.lit_eq]) hr
  | integer n =>
    cases n with
    | ofNat n =>
      refine ⟨.number false (Text.ofNat n), ?_, ?_⟩
      · obtain ⟨hn, hd⟩ := Text.isDigits_iff.1 (Text.isDigits_ofNat n)
        exact readOne_digits standard hn hd (hr.head (by decide))
      · have h := Denotes.nonnegative (Text.ofNat n)
        rwa [Text.ofNat, Nat.ofDigitChars_ten_toDigits] at h
    | negSucc n =>
      refine ⟨.number true (Text.ofNat (n + 1)), ?_, ?_⟩
      · rw [Value.literal, Text.ofInt, List.cons_append, readOne, if_neg (by decide), if_pos rfl]
        obtain ⟨hn, hd⟩ := Text.isDigits_iff.1 (Text.isDigits_ofNat (n + 1))
        exact readNumber_digits true hn hd (hr.head (by decide))
      · have h := Denotes.negative (Text.ofNat (n + 1))
        rwa [Text.ofNat, Nat.ofDigitChars_ten_toDigits] at h
  | float x => exact absurd rfl (hf x)
  | text t =>
    have hquote : rest.head? ≠ some '\'' := by
      intro h
      have hstop := hr.head (p := (· == '\'')) (by decide) _ h
      cases hstop
    refine ⟨.ofText t, readOne_text standard t hquote (hr.head (by decide)), ?_⟩
    unfold ofText
    split
    · rename_i hd
      exact .digits hd
    · rename_i hd
      exact .string (Bool.eq_false_iff.2 hd)
  | list vs => exact absurd rfl (hl vs)
  | expression sql => exact absurd rfl (he sql)

/-- Literals with commas and blanks between them are read as their leaves. -/
theorem exists_readAll (standard : Bool) {leaves : List Value} (hn : leaves ≠ [])
    (hl : ∀ leaf ∈ leaves, ∀ rest, Ends rest →
      ∃ l, readOne standard (leaf.literal standard ++ rest) = some (l, rest) ∧ Denotes l leaf) :
    ∃ literals, readAll standard (Text.joined [',', ' '] (leaves.map (Value.literal standard))) = some literals ∧
      List.Forall₂ Denotes literals leaves := by
  induction leaves with
  | nil => exact absurd rfl hn
  | cons leaf leaves ih =>
    cases leaves with
    | nil =>
      obtain ⟨l, hr, hd⟩ := hl leaf List.mem_cons_self [] (Or.inl rfl)
      refine ⟨[l], ?_, .cons hd .nil⟩
      rw [List.append_nil] at hr
      rw [List.map_cons, List.map_nil, Text.joined_singleton, readAll]
      split <;> simp_all
    | cons next leaves =>
      obtain ⟨literals, hs, hds⟩ := ih (by simp) fun leaf hm => hl leaf (List.mem_cons_of_mem _ hm)
      obtain ⟨l, hr, hd⟩ := hl leaf List.mem_cons_self
        (',' :: ' ' :: Text.joined [',', ' '] ((next :: leaves).map (Value.literal standard))) (Or.inr ⟨_, rfl⟩)
      refine ⟨l :: literals, ?_, .cons hd hds⟩
      rw [List.map_cons, Text.joined_cons _ _ (by simp), List.append_assoc, readAll]
      simp only [List.cons_append, List.nil_append]
      split <;> simp_all

end Literal

/-! ## Quoted values -/

/-- no float and no expression anywhere inside -/
def Value.Exact (v : Value) : Prop :=
  ∀ leaf ∈ v.leaves, (∀ x, leaf ≠ .float x) ∧ ∀ sql, leaf ≠ .expression sql

/-- The answer to quoting a value is an error exactly when a text in it that is not made of digits holds NUL, and else
it is read back as one literal for each leaf. -/
def Value.ReadsBack (standard : Bool) (v : Value) (answer : Except Error Text) : Prop :=
  ((∃ e, answer = .error e) ↔ ∃ t, .text t ∈ v.leaves ∧ t.isDigits = false ∧ '\x00' ∈ t) ∧
  ∀ s, answer = .ok s → ∃ literals, Literal.readAll standard s = some literals ∧
    List.Forall₂ Literal.Denotes literals v.leaves

theorem Value.all_writable_eq_false {leaves : List Value} :
    leaves.all writable = false ↔ ∃ t, .text t ∈ leaves ∧ t.isDigits = false ∧ '\x00' ∈ t := by
  rw [List.all_eq_false]
  constructor
  · rintro ⟨leaf, hm, hw⟩
    cases leaf with
    | text t => exact ⟨t, hm, by simpa [writable] using hw⟩
    | _ => exact absurd rfl hw
  · rintro ⟨t, hm, hd, hn⟩
    exact ⟨.text t, hm, by simp [writable, hd, hn]⟩

theorem Value.Exact.exists_readAll {v : Value} (h : v.Exact) (standard : Bool) :
    ∃ literals, Literal.readAll standard (v.written standard) = some literals ∧
      List.Forall₂ Literal.Denotes literals v.leaves := by
  refine Literal.exists_readAll standard v.leaves_ne_nil fun leaf hm rest hr => ?_
  obtain ⟨hf, he⟩ := h leaf hm
  exact Literal.exists_readOne standard hf he (v.leaf_ne_list leaf hm) hr

/-- Whatever escapes like this gives answers that are read back. -/
theorem Connection.Escapes.readsBack {σ : Type} {conn : Connection σ} {standard : Bool} {ready : σ → Prop}
    (h : conn.Escapes standard ready) {v : Value} (hv : v.Exact) {state : σ} (hs : ready state) :
    v.ReadsBack standard (conn.quote v state).1 := by
  have hq := gives_quote h v
  unfold Value.written? at hq
  by_cases hw : v.leaves.all Value.writable = true
  · rw [if_pos hw] at hq
    obtain ⟨state', hq, -⟩ := Action.gives_some.1 hq state hs
    have hno : ¬ ∃ t, .text t ∈ v.leaves ∧ t.isDigits = false ∧ '\x00' ∈ t := by
      rw [← Value.all_writable_eq_false, hw]
      decide
    rw [hq]
    refine ⟨⟨?_, fun ht => absurd ht hno⟩, ?_⟩
    · rintro ⟨e, ⟨⟩⟩
    · rintro s ⟨⟩
      exact hv.exists_readAll standard
  · rw [if_neg hw] at hq
    obtain ⟨e, state', hq⟩ := Action.gives_none.1 hq state hs
    rw [hq]
    refine ⟨⟨fun _ => Value.all_writable_eq_false.1 (Bool.eq_false_iff.2 hw), fun _ => ⟨e, rfl⟩⟩, ?_⟩
    rintro s ⟨⟩

/-- **Quoted values are read back.** In the process, and on a server under either setting of its strings once a link can
be had: quoting fails for NUL in a text that needs quotes and for nothing else, and a reader of literals splits what was
quoted into exactly the leaves of the value. -/
theorem quote_reads_back (v : Value) (hv : v.Exact) :
    (∀ tablePrefix r, v.ReadsBack true ((Recorder.connection tablePrefix).quote v r).1) ∧
    ∀ (S : Type) [Postgres.Server S] (settings : Postgres.Settings) (session session' : Postgres.Session S)
      (link : Postgres.Link), Postgres.Session.theLink settings session = (.ok link, session') →
      v.ReadsBack link.standardStrings ((Postgres.Session.connection settings).quote v session).1 := by
  constructor
  · intro tablePrefix r
    exact (Recorder.escapes tablePrefix).readsBack hv trivial
  · intro S _ settings session session' link h
    exact (Postgres.Session.escapes settings link.standardStrings).readsBack hv ⟨link, session', h, rfl⟩

/-- Texts with quotes, commas and a backslash in nested lists, in the process and on a link where backslashes escape. -/
theorem quote_reads_back_nested :
    let v : Value := .list [.text ['i', '\'', ',', ' ', '\\'], .list [], .list [.text ['0', '7'], .integer (-7)]]
    let settings : Postgres.Settings := ⟨[], Postgres.Script.host, [], [], none, 5432, none, none, none, []⟩
    let session : Postgres.Session Postgres.Script := ⟨some ⟨false, .live⟩, ⟨5432, [], [], [], []⟩, []⟩
    v.Exact ∧ v.ReadsBack true ((Recorder.connection []).quote v .fresh).1 ∧
      v.ReadsBack false ((Postgres.Session.connection settings).quote v session).1 := by
  have hv :
      (Value.list [.text ['i', '\'', ',', ' ', '\\'], .list [], .list [.text ['0', '7'], .integer (-7)]]).Exact := by
    simp [Value.Exact, Value.leaves, Value.leavesOf]
  exact ⟨hv, (quote_reads_back _ hv).1 [] .fresh, (quote_reads_back _ hv).2 _ _ _ _ ⟨false, .live⟩ rfl⟩

end SqlAccess
