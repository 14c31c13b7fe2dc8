/-
The rows of an answer and the names they were sent under.

An answer may hold the results of several statements, each with its columns announced before its rows. `sentFrom` keeps
every row with the names announced last before it; gathering an answer keeps the rows in order, but one list of names for
all of them, the one announced last of all (`collect_eq_ok`). So a row keeps its names where they are that list, and
there alone: `rows_keep_names_iff`.
-/
import SqlAccess.Postgres.Session

namespace SqlAccess

namespace Postgres

/-- a row as it was sent: the names announced last before it, and its values -/
structure Sent where
  names : List Text
  values : List (Option Text)
  deriving DecidableEq, Repr

/-- a row that can be read by the names under which it was sent, and by no others -/
structure KeepsNames (row : Row) (sent : Sent) : Prop where
  width : row.columns.length = row.values.length
  pairs : row.pairs = sent.names.zip sent.values
  reads : ∀ name value, row.get? name = some value → (name, some value) ∈ sent.names.zip sent.values

namespace Message

/-- the rows behind columns announced as `names`, each as it was sent -/
def sentFrom (names : List Text) : List Message → List Sent
  | [] => []
  | .columns names :: r => sentFrom names r
  | .row values :: r => ⟨names, values⟩ :: sentFrom names r
  | .complete _ :: r => sentFrom names r
  | .refused _ _ :: r => sentFrom names r

/-- the names announced last, `names` if none are -/
def lastNames (names : List Text) : List Message → List Text
  | [] => names
  | .columns names :: r => lastNames names r
  | _ :: r => lastNames names r

/-- the count given last, `count` if none is -/
def lastCount (count : Nat) : List Message → Nat
  | [] => count
  | .complete n :: r => lastCount n r
  | _ :: r => lastCount count r

end Message

open Message

/-- Messages without a refusal whose rows are as wide as the columns announced for them are gathered behind what was
gathered before them: all their rows, in order, the names announced last and the count given last. -/
theorem foldlM_collectMessage (sql : Text) (set : RowSet) (count : Nat) {messages : List Message}
    (hrefused : ∀ code message, .refused code message ∉ messages)
    (hwidth : ∀ sent ∈ sentFrom set.columns messages, sent.values.length = sent.names.length) :
    messages.foldlM (Session.collectMessage sql) (set, count) =
      .ok (⟨lastNames set.columns messages, set.rows ++ (sentFrom set.columns messages).map Sent.values⟩,
        lastCount count messages) := by
  induction messages generalizing set count with
  | nil => simp [lastNames, sentFrom, lastCount, pure, Except.pure]
  | cons message messages ih =>
    have hrest : ∀ code message, Message.refused code message ∉ messages := fun code message hmem =>
      hrefused code message (List.mem_cons_of_mem _ hmem)
    rw [List.foldlM_cons]
    cases message with
    | columns names => exact ih { set with columns := names } count hrest hwidth
    | row values =>
      have hfits : values.length = set.columns.length := hwidth ⟨set.columns, values⟩ List.mem_cons_self
      have hnext := ih { set with rows := set.rows ++ [values] } count hrest fun sent hsent =>
        hwidth sent (List.mem_cons_of_mem _ hsent)
      rw [Session.collectMessage, if_pos hfits]
      rw [List.append_assoc] at hnext
      exact hnext
    | complete n => exact ih set n hrest hwidth
    | refused code message => exact absurd List.mem_cons_self (hrefused code message)

theorem collect_eq_ok (sql : Text) {messages : List Message}
    (hrefused : ∀ code message, .refused code message ∉ messages)
    (hwidth : ∀ sent ∈ sentFrom [] messages, sent.values.length = sent.names.length) :
    Session.collect sql messages =
      .ok (⟨lastNames [] messages, (sentFrom [] messages).map Sent.values⟩, lastCount 0 messages) :=
  foldlM_collectMessage sql RowSet.empty 0 hrefused hwidth

/-! ## One list of names for all rows -/

/-- What a row gives for a name stands beside it. -/
theorem get?_mem_pairs {row : Row} {name value : Text} (h : row.get? name = some value) :
    (name, some value) ∈ row.pairs := by
  obtain ⟨index, hindex, hvalue⟩ := Option.bind_eq_some_iff.1 h
  rw [Row.at?, Option.join_eq_some_iff] at hvalue
  have hname : row.columns[index]? = some name := by
    obtain ⟨hlt, hname, -⟩ := List.idxOf?_eq_some_iff.1 hindex
    rw [List.getElem?_eq_getElem hlt, hname]
  have hpair : row.pairs[index]? = some (name, some value) := by
    rw [Row.pairs, List.getElem?_zip_eq_some]
    exact ⟨hname, hvalue⟩
  exact List.mem_of_getElem? hpair

/-- A row that holds the values that were sent keeps its names when it stands under just these, and only then. -/
theorem keepsNames_iff {names : List Text} {sent : Sent} (hwidth : sent.values.length = sent.names.length) :
    KeepsNames ⟨names, sent.values⟩ sent ↔ sent.names = names := by
  constructor
  · intro h
    have hlength : names.length = sent.values.length := h.width
    calc sent.names = (sent.names.zip sent.values).map Prod.fst := (List.map_fst_zip (Nat.le_of_eq hwidth.symm)).symm
      _ = (names.zip sent.values).map Prod.fst := by rw [← h.pairs]; rfl
      _ = names := List.map_fst_zip (Nat.le_of_eq hlength)
  · intro h
    subst h
    exact ⟨hwidth.symm, rfl, fun name value hget => get?_mem_pairs hget⟩

/-- **Rows keep their own names where all names are those announced last, and only there.** An answer without a refusal
whose rows are as wide as announced is gathered into as many rows as were sent. Each of them pairs its values with the
names under which they were sent, and gives no value by another name, if and only if no row was sent under other names
than the ones announced last in the answer. -/
theorem rows_keep_names_iff (sql : Text) {messages : List Message}
    (hrefused : ∀ code message, .refused code message ∉ messages)
    (hwidth : ∀ sent ∈ sentFrom [] messages, sent.values.length = sent.names.length) :
    ∃ set count, Session.collect sql messages = .ok (set, count) ∧
      set.rows.length = (sentFrom [] messages).length ∧
      ((∀ (index : Nat) sent, (sentFrom [] messages)[index]? = some sent →
          ∃ row, set.row? index = some row ∧ KeepsNames row sent) ↔
        ∀ sent ∈ sentFrom [] messages, sent.names = lastNames [] messages) := by
  refine ⟨_, _, collect_eq_ok sql hrefused hwidth, List.length_map _, ?_⟩
  have hrow {index : Nat} {sent : Sent} (hsent : (sentFrom [] messages)[index]? = some sent) :
      RowSet.row? ⟨lastNames [] messages, (sentFrom [] messages).map Sent.values⟩ index =
        some ⟨lastNames [] messages, sent.values⟩ := by
    rw [RowSet.row?, List.getElem?_map, hsent]
    rfl
  constructor
  · intro h sent hmem
    obtain ⟨index, hsent⟩ := List.getElem?_of_mem hmem
    obtain ⟨row, hrow', hkeeps⟩ := h index sent hsent
    cases (hrow hsent).symm.trans hrow'
    exact (keepsNames_iff (hwidth sent hmem)).1 hkeeps
  · intro h index sent hsent
    have hmem : sent ∈ sentFrom [] messages := List.mem_of_getElem? hsent
    exact ⟨_, hrow hsent, (keepsNames_iff (hwidth sent hmem)).2 (h sent hmem)⟩

/-- two statements that give rows under the same two names -/
def sameNamesTwice : List Message :=
  [.columns ["id".toList, "name".toList], .row [some "1".toList, none], .complete 1,
    .columns ["id".toList, "name".toList], .row [some "2".toList, some "Ada".toList], .complete 1]

/-- Rows of two statements under the same names all keep them. -/
theorem rows_keep_names_sameTwice : ∃ set count, Session.collect [] sameNamesTwice = .ok (set, count) ∧
    set.rows.length = 2 ∧ ∀ (index : Nat) sent, (sentFrom [] sameNamesTwice)[index]? = some sent →
      ∃ row, set.row? index = some row ∧ KeepsNames row sent := by
  have hrefused : ∀ code message, Message.refused code message ∉ sameNamesTwice := by simp [sameNamesTwice]
  obtain ⟨set, count, hcollect, hrows, hkeep⟩ := rows_keep_names_iff [] hrefused (by decide)
  exact ⟨set, count, hcollect, hrows, hkeep.2 (by decide)⟩

/-- two statements that give rows under different names -/
def namesThenOthers : List Message :=
  [.columns ["a".toList], .row [some "1".toList], .complete 1,
    .columns ["b".toList], .row [some "2".toList], .complete 1]

/-- The row of the first statement stands under the names of the second, and gives its value by a name under which it
was not sent. -/
theorem earlier_row_under_later_names : ∃ set count row, Session.collect [] namesThenOthers = .ok (set, count) ∧
    (sentFrom [] namesThenOthers)[0]? = some ⟨["a".toList], [some "1".toList]⟩ ∧ set.row? 0 = some row ∧
    row.get? "b".toList = some "1".toList ∧ row.get? "a".toList = none ∧
    ¬ KeepsNames row ⟨["a".toList], [some "1".toList]⟩ := by
  refine ⟨_, _, _, rfl, rfl, rfl, by decide, by decide, fun h => ?_⟩
  exact absurd h.pairs (by decide)

end Postgres

end SqlAccess
