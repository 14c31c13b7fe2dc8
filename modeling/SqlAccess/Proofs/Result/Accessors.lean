/-
The ways of reading a value of a row by the name of its column.

Each of them looks for the first column of that name, also where a row holds fewer or more values than it has names or
where a name stands twice. `find_pairs` finds the same value among the pairs of the row, which end where the names or the
values do. `accessors_agree` puts the ways side by side: they give one value, and they take the same columns for missing.
-/
import SqlAccess.Result.Row

namespace SqlAccess

variable {α : Type}

/-! ## Wording -/

/-- the answer is a decode error about the column that is worded so -/
def Refused (column wording : Text) (answer : Except Error α) : Prop :=
  ∃ cause, answer = .error (.decode column cause) ∧ cause.message = wording

theorem refused_decode {column wording : Text} {cause : Undecodable} :
    Refused column wording (.error (.decode column cause) : Except Error α) ↔ cause.message = wording := by
  constructor
  · rintro ⟨_, h, hwording⟩
    cases h
    exact hwording
  · exact fun h => ⟨cause, rfl, h⟩

theorem not_refused_ok {column wording : Text} {a : α} : ¬ Refused column wording (.ok a : Except Error α) := by
  rintro ⟨_, h, -⟩
  cases h

theorem unexpectedNull_message_ne : Undecodable.message .unexpectedNull ≠ "no such column" := by
  simp only [Undecodable.message, Text.lit_eq]
  decide

/-- What cannot be read begins with the text that was read, in quotes. -/
theorem unreadable_message_ne (value : Text) (fault : Unreadable) :
    Undecodable.message (.unreadable value fault) ≠ "no such column" := by
  intro h
  simp only [Undecodable.message, Text.lit_eq] at h
  exact absurd (List.cons.inj h).1 (by decide)

namespace Row

variable {row : Row} {column : Text}

/-! ## The first column of a name -/

theorem indexOf?_eq_none_iff : row.indexOf? column = none ↔ column ∉ row.columns := List.idxOf?_eq_none_iff

theorem get?_of_indexOf? {index : Nat} (h : row.indexOf? column = some index) : row.get? column = row.at? index := by
  rw [get?, h, Option.bind_some]

theorem mem_columns_of_get? {value : Text} (h : row.get? column = some value) : column ∈ row.columns := by
  apply Decidable.byContradiction
  intro hmem
  rw [get?, indexOf?_eq_none_iff.2 hmem] at h
  cases h

/-- Names and values paired as far as both go hold the value at the place of a name, if there is one. -/
theorem find_zip (columns : List Text) (values : List (Option Text)) (column : Text) :
    ((columns.zip values).find? fun pair => pair.1 = column).bind Prod.snd =
      (columns.idxOf? column).bind fun index => values[index]?.join := by
  induction columns generalizing values with
  | nil => rfl
  | cons name columns ih =>
    rw [List.idxOf?_cons]
    cases values with
    | nil => cases columns.idxOf? column <;> by_cases h : name = column <;> simp [h]
    | cons value values =>
      rw [List.zip_cons_cons]
      by_cases h : name = column
      · simp [h]
      · have hne : (name == column) = false := beq_eq_false_iff_ne.2 h
        rw [List.find?_cons_of_neg (by simpa using h), ih, hne]
        cases columns.idxOf? column <;> rfl

theorem find_pairs (row : Row) (column : Text) :
    (row.pairs.find? fun pair => pair.1 = column).bind Prod.snd = row.get? column :=
  find_zip row.columns row.values column

/-! ## A value that must be there -/

theorem require_of_not_mem (h : column ∉ row.columns) :
    row.require column = .error (.decode column .noSuchColumn) := by
  rw [require, indexOf?_eq_none_iff.2 h]

theorem require_of_mem (h : column ∈ row.columns) :
    row.require column = match row.get? column with
      | none => .error (.decode column .unexpectedNull)
      | some value => .ok value := by
  cases hindex : row.indexOf? column with
  | none => exact absurd h (indexOf?_eq_none_iff.1 hindex)
  | some index =>
    have hget := get?_of_indexOf? hindex
    cases hvalue : row.at? index with
    | none => simp only [require, hindex, hget, hvalue]
    | some value => simp only [require, hindex, hget, hvalue]

theorem require_eq_ok_iff {value : Text} : row.require column = .ok value ↔ row.get? column = some value := by
  by_cases hmem : column ∈ row.columns
  · rw [require_of_mem hmem]
    cases row.get? column <;> simp
  · rw [require_of_not_mem hmem]
    constructor
    · intro h
      cases h
    · intro h
      exact absurd (mem_columns_of_get? h) hmem

theorem require_refused_iff : Refused column "no such column" (row.require column) ↔ column ∉ row.columns := by
  by_cases hmem : column ∈ row.columns
  · rw [require_of_mem hmem]
    refine iff_of_false ?_ (not_not_intro hmem)
    cases row.get? column with
    | none => exact fun h => unexpectedNull_message_ne (refused_decode.1 h)
    | some value => exact not_refused_ok
  · rw [require_of_not_mem hmem, refused_decode]
    exact iff_of_true rfl hmem

/-! ## A value through a reader -/

variable (reader : Text → Except Unreadable α)

/-- what a reader makes of the text in a column -/
def parsed (column value : Text) : Except Error (Option α) :=
  ((reader value).map some).mapError fun fault => .decode column (.unreadable value fault)

theorem read_of_not_mem (h : column ∉ row.columns) :
    row.read reader column = .error (.decode column .noSuchColumn) := by
  rw [read, indexOf?_eq_none_iff.2 h]

theorem read_of_mem (h : column ∈ row.columns) :
    row.read reader column = match row.get? column with
      | none => .ok none
      | some value => parsed reader column value := by
  cases hindex : row.indexOf? column with
  | none => exact absurd h (indexOf?_eq_none_iff.1 hindex)
  | some index =>
    rw [read, hindex]
    cases row.get? column with
    | none => rfl
    | some value =>
      simp only [parsed]
      cases reader value <;> rfl

theorem read_of_get? {value : Text} (h : row.get? column = some value) :
    row.read reader column = parsed reader column value := by
  rw [read_of_mem reader (mem_columns_of_get? h), h]

theorem parsed_ne_none (column value : Text) : parsed reader column value ≠ .ok none := by
  unfold parsed
  cases reader value with
  | error fault => exact nofun
  | ok a => exact nofun

theorem not_refused_parsed (column value : Text) :
    ¬ Refused column "no such column" (parsed reader column value) := by
  unfold parsed
  cases reader value with
  | error fault => exact fun h => unreadable_message_ne value fault (refused_decode.1 h)
  | ok a => exact not_refused_ok

theorem read_eq_none_iff : row.read reader column = .ok none ↔ column ∈ row.columns ∧ row.get? column = none := by
  by_cases hmem : column ∈ row.columns
  · rw [read_of_mem reader hmem]
    cases row.get? column with
    | none => simp [hmem]
    | some value => simp [parsed_ne_none]
  · rw [read_of_not_mem reader hmem]
    simp [hmem]

theorem read_refused_iff : Refused column "no such column" (row.read reader column) ↔ column ∉ row.columns := by
  by_cases hmem : column ∈ row.columns
  · rw [read_of_mem reader hmem]
    refine iff_of_false ?_ (not_not_intro hmem)
    cases row.get? column with
    | none => exact not_refused_ok
    | some value => exact not_refused_parsed reader column value
  · rw [read_of_not_mem reader hmem, refused_decode]
    exact iff_of_true rfl hmem

/-! ## Agreement -/

/-- the ways of reading a column of a row give one value and miss the same columns -/
structure AccessorsAgree (row : Row) (column : Text) : Prop where
  /-- by name, the value of the first pair of that name, none without such a pair and for NULL -/
  got : row.get? column = (row.pairs.find? fun pair => pair.1 = column).bind Prod.snd
  /-- what must be there is given exactly where there is a value, and is that value -/
  required : ∀ value, row.require column = .ok value ↔ row.get? column = some value
  /-- it is missed as a column exactly where no column has the name -/
  requireRefused : Refused column "no such column" (row.require column) ↔ column ∉ row.columns
  /-- so is what a reader is asked for, whatever the reader -/
  readRefused : ∀ {α : Type} (reader : Text → Except Unreadable α),
    Refused column "no such column" (row.read reader column) ↔ column ∉ row.columns
  /-- through a reader there is none exactly where the column exists and has no value -/
  readNone : ∀ {α : Type} (reader : Text → Except Unreadable α),
    row.read reader column = .ok none ↔ column ∈ row.columns ∧ row.get? column = none
  /-- and else what the reader makes of exactly that value -/
  readParsed : ∀ {α : Type} (reader : Text → Except Unreadable α) (value : Text), row.get? column = some value →
    row.read reader column = parsed reader column value

/-- **The accessors of a row agree**, with as many values as names or not, and with names that stand twice. -/
theorem accessors_agree (row : Row) (column : Text) : AccessorsAgree row column where
  got := (find_pairs row column).symm
  required := fun _ => require_eq_ok_iff
  requireRefused := require_refused_iff
  readRefused := fun reader => read_refused_iff reader
  readNone := fun reader => read_eq_none_iff reader
  readParsed := fun reader _ => read_of_get? reader

/-- a row with a name that stands twice and fewer values than names -/
def ragged : Row := ⟨["id".toList, "name".toList, "id".toList], [some "yes".toList]⟩

/-- The first value counts where a name stands twice, and a column without a value is there. -/
theorem accessors_agree_ragged :
    ragged.require "id".toList = .ok "yes".toList ∧
    ragged.read Text.readBoolean "id".toList = parsed Text.readBoolean "id".toList "yes".toList ∧
    ragged.read Text.readBoolean "name".toList = .ok none ∧
    Refused "age".toList "no such column" (ragged.read Text.readBoolean "age".toList) := by
  have hid := accessors_agree ragged "id".toList
  refine ⟨(hid.required _).2 (by decide), hid.readParsed _ _ (by decide), ?_, ?_⟩
  · exact ((accessors_agree ragged "name".toList).readNone _).2 (by decide)
  · exact ((accessors_agree ragged "age".toList).readRefused _).2 (by decide)

end Row

end SqlAccess
