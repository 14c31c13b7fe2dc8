/-
All ways of reading rows in memory.

Rows in memory answer every index below their count and stay as they are, so that whatever was done with a cursor over
them, it is the new cursor over them but for its position (`run_rewind`). A reading that does not start from the position
gives the same each time, and all readings give the same rows: `reads_agree`.
-/
import SqlAccess.Proofs.Result.Operation

namespace SqlAccess

/-- the rows below the count, each under the names of the columns -/
def RowSet.toRows (set : RowSet) : List Row :=
  (set.rows.take (NativeResult.rowCount set).toNat).map fun values => ⟨set.columns, values⟩

theorem RowSet.length_toRows (set : RowSet) : set.toRows.length = (NativeResult.rowCount set).toNat := by
  have hcount : (NativeResult.rowCount set).toNat ≤ set.rows.length := by
    change (UInt64.ofNat set.rows.length).toNat ≤ _
    rw [UInt64.toNat_ofNat']
    exact Nat.mod_le _ _
  rw [toRows, List.length_map, List.length_take_of_le hcount]

theorem RowSet.row?_of_toRows {set : RowSet} {index : Nat} {row : Row} (h : set.toRows[index]? = some row) :
    index < (NativeResult.rowCount set).toNat ∧ set.row? index = some row := by
  have hbelow : index < (NativeResult.rowCount set).toNat := by
    rw [← set.length_toRows]
    exact (List.getElem?_eq_some_iff.1 h).1
  rw [toRows, List.getElem?_map, List.getElem?_take_of_lt hbelow] at h
  exact ⟨hbelow, h⟩

namespace Cursor

variable {α : Type}

/-! ## Reading changes the position alone -/

theorem get_rowSet (index : UInt64) (c : Cursor RowSet) : (c.get index).2 = c := by
  unfold get
  split <;> rfl

theorem step_rewind (c : Cursor RowSet) : c.step.2.rewind = c.rewind := by
  by_cases hvalid : c.position < c.total
  · rw [step_of_valid hvalid, current, get_rowSet]
    rfl
  · rw [step_of_past hvalid]

theorem turns_rewind (n : Nat) (c : Cursor RowSet) : (c.turns n).2.rewind = c.rewind := by
  induction n generalizing c with
  | zero => rfl
  | succ n ih => rw [turns_succ, ih, step_rewind]

theorem fetchAllAs_rewind (f : Row → Except Error α) (c : Cursor RowSet) : (c.fetchAllAs f).2.rewind = c.rewind := by
  rw [fetchAllAs_eq, turns_rewind]
  rfl

theorem perform_rewind (c : Cursor RowSet) (op : Operation) : (c.perform op).2.rewind = c.rewind := by
  cases op with
  | next => rfl
  | previous => rfl
  | rewind => rfl
  | seek index =>
    by_cases hbelow : index < c.total
    · rw [perform, seek_found hbelow]
      rfl
    · rw [perform, seek_refused hbelow]
  | current => exact congrArg rewind (get_rowSet c.position c)
  | get index => exact congrArg rewind (get_rowSet index c)
  | set index row => rfl
  | remove index => rfl
  | iterate n => exact turns_rewind n c.rows
  | fetchAll => exact fetchAllAs_rewind .ok c
  | fetchAllAs α f => exact fetchAllAs_rewind f c
  | pluck column => exact fetchAllAs_rewind _ c

theorem run_rewind (c : Cursor RowSet) (ops : List Operation) : (c.run ops).rewind = c.rewind := by
  induction ops generalizing c with
  | nil => rfl
  | cons op ops ih => rw [run_cons, ih, perform_rewind]

/-- What does not start from the position gives the same from every position. -/
theorem answer_of_rewind {c c' : Cursor RowSet} (h : c.rewind = c'.rewind) {op : Operation} (hop : op ≠ .current) :
    (c.perform op).1 = (c'.perform op).1 := by
  obtain ⟨hresult, htotal, -⟩ := Cursor.mk.inj h
  cases op with
  | next => rfl
  | previous => rfl
  | rewind => rfl
  | seek index =>
    simp only [perform, seek, htotal]
    split <;> rfl
  | current => exact absurd rfl hop
  | get index =>
    simp only [perform, get, htotal, hresult]
    split <;> rfl
  | set index row => rfl
  | remove index => rfl
  | iterate n => simp only [perform, rows, h]
  | fetchAll => simp only [perform, fetchAll, fetchAllAs, htotal, h]
  | fetchAllAs α f => simp only [perform, fetchAllAs, htotal, h]
  | pluck column => simp only [perform, pluck, fetchAllAs, htotal, h]

/-! ## Readings agree -/

theorem steady_rowSet (set : RowSet) : Steady set fun index => .ok (set.row? index.toNat) :=
  steady_of_unchanged fun _ => rfl

theorem toNat_ofNat_below {index : Nat} {count : UInt64} (h : index < count.toNat) :
    (UInt64.ofNat index).toNat = index := UInt64.toNat_ofNat_of_lt' (Nat.lt_trans h count.toNat_lt)

variable {c : Cursor RowSet}

/-- Behind an index below the count stands its row. -/
theorem get_of_toRows (hcount : c.total = NativeResult.rowCount c.result) {index : Nat} {row : Row}
    (h : c.result.toRows[index]? = some row) :
    UInt64.ofNat index < c.total ∧ (c.get (UInt64.ofNat index)).1 = .ok (some row) := by
  obtain ⟨hbelow, hrow⟩ := RowSet.row?_of_toRows h
  rw [← hcount] at hbelow
  have hindex := toNat_ofNat_below hbelow
  have hvalid : UInt64.ofNat index < c.total := UInt64.lt_iff_toNat_lt.2 (hindex.symm ▸ hbelow)
  refine ⟨hvalid, ?_⟩
  rw [get, if_pos hvalid]
  change Except.ok (c.result.row? (UInt64.ofNat index).toNat) = _
  rw [hindex, hrow]

/-- An iteration gives every row. -/
theorem turns_toRows (hcount : c.total = NativeResult.rowCount c.result) :
    (c.rows.turns c.total.toNat).1 = c.result.toRows.map fun row => some (.ok row) := by
  have hlength : c.result.toRows.length = c.total.toNat := hcount ▸ c.result.length_toRows
  have hitems := rows_turns_items (steady_rowSet c.result)
  apply List.ext_getElem?
  intro index
  by_cases hbelow : index < c.total.toNat
  · have hrow := List.getElem?_eq_getElem (hlength.symm ▸ hbelow : index < c.result.toRows.length)
    rw [rows_turns_item (steady_rowSet c.result) hbelow, List.getElem?_map, hrow, toNat_ofNat_below hbelow,
      (RowSet.row?_of_toRows hrow).2]
    rfl
  · rw [List.getElem?_eq_none (by simpa [hitems] using hbelow),
      List.getElem?_eq_none (by simpa [hlength] using hbelow)]

theorem fetchAllAs_toRows (hcount : c.total = NativeResult.rowCount c.result) (f : Row → Except Error α) :
    (c.fetchAllAs f).1 = c.result.toRows.mapM f := by
  rw [fetchAllAs_eq, turns_toRows hcount, gathered_rows]

/-- a cursor through which every way of reading gives the rows of `set` -/
structure ReadsAs (set : RowSet) (c : Cursor RowSet) : Prop where
  /-- there are as many rows as the cursor counts -/
  count : set.toRows.length = c.total.toNat
  /-- fetching all gives them -/
  fetched : c.fetchAll.1 = .ok set.toRows
  /-- reading at an index gives the row there -/
  got : ∀ index row, set.toRows[index]? = some row → (c.get (UInt64.ofNat index)).1 = .ok (some row)
  /-- so does moving to the index and reading at the position -/
  sought : ∀ index row, set.toRows[index]? = some row →
    (c.seek (UInt64.ofNat index)).1 = true ∧ (c.seek (UInt64.ofNat index)).2.current.1 = .ok (some row)
  /-- and an iteration, in the turn of that number -/
  iterated : ∀ index row, set.toRows[index]? = some row → (c.rows.turns index).2.step.1 = some (.ok row)
  /-- plucking a column gives its value in each of the rows -/
  plucked : ∀ column, (c.pluck column).1 = .ok (set.toRows.map fun row => row.get? column)
  /-- fetching all through `f` puts them through `f` in order, up to the first that fails -/
  mapped : ∀ {α : Type} (f : Row → Except Error α), (c.fetchAllAs f).1 = set.toRows.mapM f
  /-- what does not start from the position gives what it gives at first -/
  again : ∀ op, op ≠ .current → (c.perform op).1 = ((ofResult set).perform op).1

/-- **All ways of reading rows in memory agree**, whatever was done with the cursor before. -/
theorem reads_agree (set : RowSet) (ops : List Operation) : ReadsAs set ((ofResult set).run ops) := by
  have hrewind : ((ofResult set).run ops).rewind = (ofResult set).rewind := run_rewind (ofResult set) ops
  generalize (ofResult set).run ops = c at hrewind ⊢
  obtain ⟨hresult, htotal, -⟩ := Cursor.mk.inj hrewind
  obtain rfl : c.result = set := hresult
  have hcount : c.total = NativeResult.rowCount c.result := htotal
  constructor
  case count => exact hcount ▸ c.result.length_toRows
  case fetched =>
    rw [fetchAll, fetchAllAs_toRows hcount]
    exact (List.mapM_pure (f := id)).trans (congrArg Except.ok (List.map_id _))
  case got => exact fun index row hrow => (get_of_toRows hcount hrow).2
  case sought =>
    intro index row hrow
    have hthere := get_of_toRows (c := { c with position := UInt64.ofNat index }) hcount hrow
    rw [seek_found (c := c) hthere.1]
    exact ⟨rfl, hthere.2⟩
  case iterated =>
    intro index row hrow
    obtain ⟨hbelow, hat⟩ := RowSet.row?_of_toRows hrow
    rw [← hcount] at hbelow
    rw [((callExact (steady_rowSet c.result) index).below hbelow).1, toNat_ofNat_below hbelow, hat]
    rfl
  case plucked =>
    intro column
    rw [pluck, fetchAllAs_toRows hcount]
    exact List.mapM_pure
  case mapped => exact fun f => fetchAllAs_toRows hcount f
  case again => exact fun op hop => answer_of_rewind hrewind hop

end Cursor

end SqlAccess
