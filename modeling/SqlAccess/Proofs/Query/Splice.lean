/-
A query is compiled in one pass over its template, and the leftmost fault ends it.

The spans of a template's placeholders are found once, in the template alone: they stand in order and apart
(`placeholders_apart`). `replaced` puts a text in the place of each span and copies all else; replacing the last span
first, the spans in front keep their places. `Filled` quotes the values of spans one after the other, each in the state
that the spans in front of it have left, and `Refuses` is a span that is unbound or whose value cannot be quoted.
`compile_one_pass` says that compiling is replacing the spans by what they are filled with if all are filled, and the
refusal of the leftmost span that is not.
-/
import SqlAccess.Proofs.Query.Surroundings
import SqlAccess.Proofs.Template.Placeholder

namespace SqlAccess

namespace Template

/-! ## Spans of a template -/

/-- spans of a text, in order and apart -/
structure Apart (text : Text) (spans : List Placeholder) : Prop where
  ordered : spans.Pairwise fun p p' => p.stop ≤ p'.start
  inside : ∀ p ∈ spans, p.start ≤ p.stop ∧ p.stop ≤ text.length

theorem Apart.tail {text : Text} {p : Placeholder} {spans : List Placeholder} (h : Apart text (p :: spans)) :
    Apart text spans where
  ordered := (List.pairwise_cons.1 h.ordered).2
  inside := fun p' hp => h.inside p' (List.mem_cons_of_mem _ hp)

/-- The span of a placeholder is its colon and its name. -/
theorem extract_placeholder {template : Text} {p : Placeholder} (h : p ∈ placeholders template) :
    p.stop ≤ template.length ∧ template.extract p.start p.stop = ':' :: p.name := by
  obtain ⟨pre, post, htokens, hstart, hstop⟩ := mem_placeholders_iff.1 h
  have htext : template = pre.flatMap Token.text ++ (':' :: p.name ++ post.flatMap Token.text) := by
    conv_lhs => rw [← text_tokens template, htokens]
    simp [Token.text]
  have hspan : p.stop - p.start = (':' :: p.name).length := by
    simp only [List.length_cons]
    omega
  constructor
  · rw [htext, hstop, hstart]
    simp only [List.length_append, List.length_cons]
    omega
  · rw [List.extract_eq_take_drop, hspan, hstart]
    conv_lhs => rw [htext]
    rw [List.drop_left, List.take_left]

theorem placeholders_apart (template : Text) : Apart template (placeholders template) where
  ordered := pairwise_placeholdersFrom 0 _
  inside := by
    intro p hp
    obtain ⟨pre, post, -, -, hstop⟩ := mem_placeholders_iff.1 hp
    exact ⟨by omega, (extract_placeholder hp).1⟩

/-! ## Replacing spans -/

/-- The text with each span replaced by its filling, the last one first, so that those in front keep their places. -/
def replaced (text : Text) (fillings : List (Placeholder × Text)) : Text :=
  fillings.foldr (fun filling t => t.take filling.1.start ++ (filling.2 ++ t.drop filling.1.stop)) text

theorem replaced_cons (text : Text) (p : Placeholder) (filling : Text) (fillings : List (Placeholder × Text)) :
    replaced text ((p, filling) :: fillings) =
      (replaced text fillings).take p.start ++ (filling ++ (replaced text fillings).drop p.stop) := rfl

/-- What stands in front of the spans is copied. -/
theorem take_replaced {text : Text} {n : Nat} (hn : n ≤ text.length) {fillings : List (Placeholder × Text)}
    (h : ∀ filling ∈ fillings, n ≤ filling.1.start) :
    n ≤ (replaced text fillings).length ∧ (replaced text fillings).take n = text.take n := by
  induction fillings with
  | nil => exact ⟨hn, rfl⟩
  | cons filling fillings ih =>
    obtain ⟨p, t⟩ := filling
    have hp : n ≤ p.start := h _ List.mem_cons_self
    obtain ⟨hlength, htake⟩ := ih fun filling hf => h filling (List.mem_cons_of_mem _ hf)
    have hfront : n ≤ ((replaced text fillings).take p.start).length := by
      rw [List.length_take]
      omega
    constructor
    · rw [replaced_cons, List.length_append]
      omega
    · rw [replaced_cons, List.take_append_of_le_length hfront, List.take_take, Nat.min_eq_left hp, htake]

/-- the text from position `copied` on, `rest`, with the spans there replaced from left to right -/
def replacedFrom (copied : Nat) (rest : Text) : List (Placeholder × Text) → Text
  | [] => rest
  | (p, filling) :: fillings =>
    rest.take (p.start - copied) ++ (filling ++ replacedFrom p.stop (rest.drop (p.stop - copied)) fillings)

/-- From the left and from the right, the same text comes out. -/
theorem replacedFrom_eq {text : Text} {copied : Nat} (hcopied : copied ≤ text.length)
    {fillings : List (Placeholder × Text)} (hapart : Apart text (fillings.map Prod.fst))
    (hfrom : ∀ filling ∈ fillings, copied ≤ filling.1.start) :
    replacedFrom copied (text.drop copied) fillings = (replaced text fillings).drop copied := by
  induction fillings generalizing copied with
  | nil => rfl
  | cons filling fillings ih =>
    obtain ⟨p, t⟩ := filling
    obtain ⟨hspan, hinside⟩ := hapart.inside p List.mem_cons_self
    have hp : copied ≤ p.start := hfrom _ List.mem_cons_self
    have hnext : ∀ filling ∈ fillings, p.stop ≤ filling.1.start := by
      intro filling hf
      exact (List.pairwise_cons.1 hapart.ordered).1 _ (List.mem_map_of_mem hf)
    have hrest := ih hinside hapart.tail hnext
    obtain ⟨hlength, htake⟩ := take_replaced (by omega : p.start ≤ text.length)
      fun filling hf => Nat.le_trans hspan (hnext filling hf)
    have hfront : copied ≤ ((replaced text fillings).take p.start).length := by
      rw [List.length_take]
      omega
    calc replacedFrom copied (text.drop copied) ((p, t) :: fillings)
        = (text.drop copied).take (p.start - copied) ++
            (t ++ replacedFrom p.stop ((text.drop copied).drop (p.stop - copied)) fillings) := rfl
      _ = (text.take p.start).drop copied ++ (t ++ replacedFrom p.stop (text.drop p.stop) fillings) := by
          rw [List.drop_drop, List.drop_take, Nat.add_sub_cancel' (Nat.le_trans hp hspan)]
      _ = ((replaced text fillings).take p.start).drop copied ++ (t ++ (replaced text fillings).drop p.stop) := by
          rw [htake, hrest]
      _ = (replaced text ((p, t) :: fillings)).drop copied := by
          rw [replaced_cons, List.drop_append_of_le_length hfront]

end Template

namespace Query

open Template

variable {σ : Type}

/-! ## Filling spans -/

/-- Spans with what they are filled with: the quoted values of their names, one after the other. -/
inductive Filled (conn : Connection σ) (cells : Cells) (q : Query) : List Placeholder → σ → List Text → σ → Prop
  | nil (state : σ) : Filled conn cells q [] state [] state
  | cons {p : Placeholder} {spans : List Placeholder} {value : Value} {text : Text} {texts : List Text}
      {state middle state' : σ} : q.value? cells p.name = some value → conn.quote value state = (.ok text, middle) →
      Filled conn cells q spans middle texts state' → Filled conn cells q (p :: spans) state (text :: texts) state'

/-- A span that is not filled: its name is unbound, or quoting its value fails. -/
inductive Refuses (conn : Connection σ) (cells : Cells) (q : Query) (p : Placeholder) (state : σ) : Error → σ → Prop
  | unbound : q.value? cells p.name = none → Refuses conn cells q p state (.unboundParameter p.name) state
  | unquotable {value : Value} {e : Error} {state' : σ} : q.value? cells p.name = some value →
      conn.quote value state = (.error e, state') → Refuses conn cells q p state e state'

variable {conn : Connection σ} {cells : Cells} {q : Query} {copied : Nat} {rest : Text} {spans : List Placeholder}
  {state state' : σ}

theorem Filled.length_eq {texts : List Text} (h : q.Filled conn cells spans state texts state') :
    spans.length = texts.length := by
  induction h with
  | nil => rfl
  | cons _ _ _ ih => rw [List.length_cons, List.length_cons, ih]

/-- What stands at a span is asked for by the value of its name. -/
theorem splice_cons (conn : Connection σ) (cells : Cells) (q : Query) (copied : Nat) (rest : Text) (p : Placeholder)
    (spans : List Placeholder) : q.splice conn cells copied rest (p :: spans) =
      match q.value? cells p.name with
      | none => throw (.unboundParameter p.name)
      | some value => do
        let text ← conn.quote value
        let others ← q.splice conn cells p.stop (rest.drop (p.stop - copied)) spans
        return rest.take (p.start - copied) ++ (text ++ others) := by
  rw [splice, value?]
  cases q.lookup? p.name <;> rfl

/-- Spans that are all filled are replaced. -/
theorem splice_eq_ok_iff {sql : Text} : q.splice conn cells copied rest spans state = (.ok sql, state') ↔
    ∃ texts, q.Filled conn cells spans state texts state' ∧ sql = replacedFrom copied rest (spans.zip texts) := by
  induction spans generalizing copied rest state sql with
  | nil =>
    constructor
    · intro h
      cases h
      exact ⟨[], .nil _, rfl⟩
    · intro h
      obtain ⟨texts, hfilled, rfl⟩ := h
      cases hfilled
      rfl
  | cons p spans ih =>
    rw [splice_cons]
    constructor
    · intro h
      cases hvalue : q.value? cells p.name with
      | none =>
        rw [hvalue] at h
        cases h
      | some value =>
        rw [hvalue] at h
        obtain ⟨text, middle, hquote, h⟩ := Action.bind_eq_ok h
        obtain ⟨others, hothers, rfl⟩ := Action.map_eq_ok_iff.1 h
        obtain ⟨texts, hfilled, rfl⟩ := ih.1 hothers
        exact ⟨text :: texts, .cons hvalue hquote hfilled, rfl⟩
    · intro h
      obtain ⟨texts, hfilled, rfl⟩ := h
      cases hfilled with
      | cons hvalue hquote hfilled =>
        rw [hvalue]
        refine (Action.bind_of_ok hquote).trans ?_
        exact Action.map_eq_ok_iff.2 ⟨_, ih.2 ⟨_, hfilled, rfl⟩, rfl⟩

/-- The leftmost span that is not filled ends the pass. -/
theorem splice_eq_error_iff {e : Error} : q.splice conn cells copied rest spans state = (.error e, state') ↔
    ∃ front p back texts middle, spans = front ++ p :: back ∧ q.Filled conn cells front state texts middle ∧
      q.Refuses conn cells p middle e state' := by
  induction spans generalizing copied rest state with
  | nil =>
    constructor
    · intro h
      cases h
    · intro h
      obtain ⟨front, p, back, texts, middle, hspans, -⟩ := h
      simp at hspans
  | cons p spans ih =>
    rw [splice_cons]
    constructor
    · intro h
      cases hvalue : q.value? cells p.name with
      | none =>
        rw [hvalue] at h
        cases h
        exact ⟨[], p, spans, [], _, rfl, .nil _, .unbound hvalue⟩
      | some value =>
        rw [hvalue] at h
        rcases Action.bind_eq_error h with hquote | ⟨text, middle, hquote, h⟩
        · exact ⟨[], p, spans, [], state, rfl, .nil state, .unquotable hvalue hquote⟩
        · obtain ⟨front, p', back, texts, middle', rfl, hfilled, hrefuses⟩ := ih.1 (Action.map_eq_error_iff.1 h)
          exact ⟨p :: front, p', back, text :: texts, middle', rfl, .cons hvalue hquote hfilled, hrefuses⟩
    · intro h
      obtain ⟨front, p', back, texts, middle, hspans, hfilled, hrefuses⟩ := h
      cases hfilled with
      | nil =>
        obtain ⟨rfl, rfl⟩ := List.cons.inj hspans
        cases hrefuses with
        | unbound hvalue =>
          rw [hvalue]
          rfl
        | unquotable hvalue hquote =>
          rw [hvalue]
          exact Action.bind_of_error hquote
      | cons hvalue hquote hfilled =>
        obtain ⟨rfl, rfl⟩ := List.cons.inj hspans
        rw [hvalue]
        refine (Action.bind_of_ok hquote).trans ?_
        exact Action.map_eq_error_iff.2 (ih.2 ⟨_, _, _, _, _, rfl, hfilled, hrefuses⟩)

/-- Only the values of the spans' names are asked for. -/
theorem splice_congr {other : Query} {others : Cells}
    (h : ∀ p ∈ spans, other.value? others p.name = q.value? cells p.name) (copied : Nat) (rest : Text) :
    other.splice conn others copied rest spans = q.splice conn cells copied rest spans := by
  induction spans generalizing copied rest with
  | nil => rfl
  | cons p spans ih =>
    have hrest := ih fun p' hp => h p' (List.mem_cons_of_mem _ hp)
    rw [splice_cons, splice_cons, h p List.mem_cons_self]
    simp only [hrest]

/-- A name bound anew changes the value of no other name. -/
theorem value?_bind_of_ne {name other : Text} (h : other ≠ bareName name) (parameter : Parameter) :
    (q.bind name parameter).value? cells other = q.value? cells other := by
  have hne : (other == bareName name) = false := by simpa using h
  simp only [value?, lookup?, bind, List.lookup_cons, hne]

/-- **One pass, and the leftmost fault.** The spans of a template are its placeholders, colon and name, in order and
apart. If every one is filled, compiling gives the template with each span replaced by the quoted value of its name and
all else copied. Otherwise it fails at the leftmost span that is not filled, in the state that the spans in front of it
have left: the name is unbound, or its value cannot be quoted, and the error is that one. Names that are no
placeholder's do not matter. -/
theorem compile_one_pass (conn : Connection σ) (cells : Cells) (q : Query) (state state' : σ) :
    (Apart q.template (placeholders q.template) ∧
      ∀ p ∈ placeholders q.template, q.template.extract p.start p.stop = ':' :: p.name) ∧
    (∀ sql, q.compile conn cells state = (.ok sql, state') ↔
      ∃ texts, q.Filled conn cells (placeholders q.template) state texts state' ∧
        sql = replaced q.template ((placeholders q.template).zip texts)) ∧
    (∀ e, q.compile conn cells state = (.error e, state') ↔
      ∃ front p back texts middle, placeholders q.template = front ++ p :: back ∧
        q.Filled conn cells front state texts middle ∧ q.Refuses conn cells p middle e state') ∧
    ∀ (other : Query) (others : Cells), other.template = q.template →
      (∀ p ∈ placeholders q.template, other.value? others p.name = q.value? cells p.name) →
      other.compile conn others state = q.compile conn cells state := by
  have hapart := placeholders_apart q.template
  refine ⟨⟨hapart, fun p hp => (extract_placeholder hp).2⟩, fun sql => ?_, fun e => splice_eq_error_iff, ?_⟩
  · rw [compile, splice_eq_ok_iff]
    refine exists_congr fun texts => and_congr_right fun hfilled => ?_
    have hspans : ((placeholders q.template).zip texts).map Prod.fst = placeholders q.template :=
      List.map_fst_zip (Nat.le_of_eq hfilled.length_eq)
    have hreplaced := replacedFrom_eq (Nat.zero_le q.template.length) (by rwa [hspans])
      fun filling _ => Nat.zero_le filling.1.start
    rw [List.drop_zero, List.drop_zero] at hreplaced
    rw [hreplaced]
  · intro other others htemplate hvalues
    rw [compile, compile, htemplate, splice_congr hvalues]

/-- a name that begins like another, a value that looks like a placeholder, a list, and a colon in a string -/
def overlapping : Query :=
  ((of .select "SELECT :id, :id_2, ':id', :id".toList).bind ":id".toList (.value (.text ":id_2".toList))).bind
    "id_2".toList (.value (.list [.integer 1, .null]))

/-- The value that looks like a placeholder stays as it is, also beside a parameter that nothing asks for and that could
not be quoted. -/
theorem compile_one_pass_overlapping :
    placeholders overlapping.template = [⟨7, 10, "id".toList⟩, ⟨12, 17, "id_2".toList⟩, ⟨26, 29, "id".toList⟩] ∧
    overlapping.compile (Recorder.connection []) .empty .fresh =
      (.ok "SELECT ':id_2', 1, NULL, ':id', ':id_2'".toList, Recorder.fresh.connect) ∧
    (overlapping.bind ['i'] (.value (.text ['\x00']))).compile (Recorder.connection []) .empty .fresh =
      overlapping.compile (Recorder.connection []) .empty .fresh := by
  have hspans : placeholders overlapping.template =
      [⟨7, 10, "id".toList⟩, ⟨12, 17, "id_2".toList⟩, ⟨26, 29, "id".toList⟩] := by decide +kernel
  have hid : (Recorder.connection []).quote (.text ":id_2".toList) = fun r => (.ok "':id_2'".toList, r.connect) := by
    funext r
    rw [Connection.quote]
    rfl
  have hlist : (Recorder.connection []).quote (.list [.integer 1, .null]) = fun r => (.ok "1, NULL".toList, r) := by
    funext r
    simp only [Connection.quote, Connection.quoteAll, Text.lit_eq]
    rfl
  obtain ⟨-, hcompile, -, hunused⟩ :=
    compile_one_pass (Recorder.connection []) .empty overlapping .fresh Recorder.fresh.connect
  refine ⟨hspans, (hcompile _).2 ⟨["':id_2'".toList, "1, NULL".toList, "':id_2'".toList], ?_, ?_⟩, ?_⟩
  · rw [hspans]
    exact .cons rfl (congrFun hid _) (.cons rfl (congrFun hlist _) (.cons rfl (congrFun hid _) (.nil _)))
  · rw [hspans]
    decide +kernel
  · refine hunused _ _ rfl fun p hp => ?_
    rw [hspans] at hp
    refine value?_bind_of_ne ?_ _
    revert p
    decide

end Query

end SqlAccess
