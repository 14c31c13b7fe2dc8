/-
The iteration over a result, turn by turn.

A turn below the count gives what the answer of the result for its position comes to (`item`) and moves one row on,
whatever the answer is; past the count it gives nothing and stays. So many turns are `turns`, and reading in bulk is
reading off their items: `gather_eq`. A result is steady when its answer for an index is the same whatever it was asked
before; over a steady result the items are the answers in order (`turns_items`), and `iteration_exact` says what every
call of an iteration gives and where fetching all rows ends.
-/
import SqlAccess.Result.Tampered

namespace SqlAccess

namespace Cursor

variable {ν α : Type}

/-! ## Turns -/

/-- what a turn gives for an answer: the row or the error, nothing for an absent row -/
def item : Except Error (Option Row) → Option (Except Error Row)
  | .ok none => none
  | .ok (some row) => some (.ok row)
  | .error e => some (.error e)

theorem item_injective {answer other : Except Error (Option Row)} (h : item answer = item other) : answer = other := by
  rcases answer with e | _ | row <;> rcases other with e' | _ | row' <;> cases h <;> rfl

section Turns

variable [NativeResult ν]

theorem get_total (index : UInt64) (c : Cursor ν) : (c.get index).2.total = c.total := by
  unfold get
  split <;> rfl

theorem get_position (index : UInt64) (c : Cursor ν) : (c.get index).2.position = c.position := by
  unfold get
  split <;> rfl

theorem step_of_valid {c : Cursor ν} (h : c.position < c.total) :
    c.step = (item c.current.1, c.current.2.next) := by
  have hvalid : c.valid = true := decide_eq_true h
  rw [step, if_pos hvalid]
  rcases c.current with ⟨e | _ | row, c'⟩ <;> rfl

theorem step_of_past {c : Cursor ν} (h : ¬ c.position < c.total) : c.step = (none, c) := by
  have hvalid : ¬ c.valid = true := by simpa [valid] using h
  rw [step, if_neg hvalid]

theorem step_total (c : Cursor ν) : c.step.2.total = c.total := by
  by_cases hvalid : c.position < c.total
  · rw [step_of_valid hvalid]
    exact get_total c.position c
  · rw [step_of_past hvalid]

/-- Below the count no step wraps. -/
theorem step_position {c : Cursor ν} (h : c.position < c.total) :
    c.step.2.position.toNat = c.position.toNat + 1 := by
  have hlt := UInt64.lt_iff_toNat_lt.1 h
  have hsize := c.total.toNat_lt
  rw [step_of_valid h]
  change ((c.get c.position).2.position + 1).toNat = _
  rw [get_position, UInt64.toNat_add, UInt64.toNat_one]
  omega

/-- an iteration over all rows, at its first turn; a loop over the cursor is the same iteration -/
def rows (c : Cursor ν) : Cursor ν := c.rewind

/-- so many turns: what each of them gives, and the cursor behind them -/
def turns : Nat → Cursor ν → List (Option (Except Error Row)) × Cursor ν
  | 0, c => ([], c)
  | n + 1, c =>
    let (given, c) := c.step
    let (others, c) := turns n c
    (given :: others, c)

theorem turns_zero (c : Cursor ν) : c.turns 0 = ([], c) := rfl

theorem turns_succ (n : Nat) (c : Cursor ν) :
    c.turns (n + 1) = (c.step.1 :: (c.step.2.turns n).1, (c.step.2.turns n).2) := rfl

theorem turns_total (n : Nat) (c : Cursor ν) : (c.turns n).2.total = c.total := by
  induction n generalizing c with
  | zero => rfl
  | succ n ih => rw [turns_succ, ih, step_total]

/-- An iteration moves on up to the count. -/
theorem turns_position (n : Nat) {c : Cursor ν} (h : c.position.toNat ≤ c.total.toNat) :
    (c.turns n).2.position.toNat = min (c.position.toNat + n) c.total.toNat := by
  induction n generalizing c with
  | zero => exact (Nat.min_eq_left h).symm
  | succ n ih =>
    rw [turns_succ]
    by_cases hvalid : c.position < c.total
    · have hlt := UInt64.lt_iff_toNat_lt.1 hvalid
      have hnext := step_position hvalid
      rw [ih (by rw [hnext, step_total]; exact hlt), hnext, step_total]
      omega
    -- the bound on the position is what makes the cursor stay at the count itself
    · have hpast : ¬ c.position.toNat < c.total.toNat := fun hlt => hvalid (UInt64.lt_iff_toNat_lt.2 hlt)
      rw [step_of_past hvalid, ih h]
      omega

/-- An iteration gives no more items than its hint allows. -/
theorem countP_turns_le (n : Nat) (c : Cursor ν) : (c.turns n).1.countP Option.isSome ≤ c.sizeHint.2 := by
  induction n generalizing c with
  | zero => exact Nat.zero_le _
  | succ n ih =>
    rw [turns_succ, List.countP_cons]
    by_cases hvalid : c.position < c.total
    · have hlt := UInt64.lt_iff_toNat_lt.1 hvalid
      have hothers := ih c.step.2
      rw [sizeHint, step_position hvalid, step_total] at hothers
      have hone : (if c.step.1.isSome = true then 1 else 0) ≤ 1 := by
        split <;> omega
      change _ ≤ c.total.toNat - c.position.toNat
      omega
    · rw [step_of_past hvalid]
      exact ih c

end Turns

/-! ## Bulk reads -/

/-- items through `f`, up to the first that is no row -/
def gathered (f : Row → Except Error α) : List (Option (Except Error Row)) → Except Error (List α)
  | [] => .ok []
  | none :: _ => .ok []
  | some (.error e) :: _ => .error e
  | some (.ok row) :: items => do
    let a ← f row
    let others ← gathered f items
    return a :: others

/-- how many items that takes -/
def taken (f : Row → Except Error α) : List (Option (Except Error Row)) → Nat
  | [] => 0
  | none :: _ => 1
  | some (.error _) :: _ => 1
  | some (.ok row) :: items =>
    match f row with
    | .error _ => 1
    | .ok _ => taken f items + 1

/-- **Reading in bulk is reading off the items of the iteration**, and ends behind the last item that it takes. -/
theorem gather_eq [NativeResult ν] (f : Row → Except Error α) (n : Nat) (c : Cursor ν) :
    c.gather f n = (gathered f (c.turns n).1, (c.turns (taken f (c.turns n).1)).2) := by
  induction n generalizing c with
  | zero => rfl
  | succ n ih =>
    rw [turns_succ, gather]
    rcases hstep : c.step with ⟨_ | e | row, c'⟩
    · simp only [gathered, taken, turns_succ, turns_zero, hstep]
    · simp only [gathered, taken, turns_succ, turns_zero, hstep]
    · cases hrow : f row with
      | error e =>
        simp only [gathered, taken, turns_succ, turns_zero, hstep, hrow]
        rfl
      | ok a =>
        simp only [gathered, taken, turns_succ, hstep, hrow, ih c']
        cases gathered f (c'.turns n).1 <;> rfl

/-- Where every item is a row, all rows go through `f` in order, up to the first that fails. -/
theorem gathered_rows (f : Row → Except Error α) (rows : List Row) :
    gathered f (rows.map fun row => some (.ok row)) = rows.mapM f := by
  induction rows with
  | nil => rfl
  | cons row rows ih => rw [List.map_cons, gathered, ih, List.mapM_cons]

/-- Reading in bulk fails at an item that is an error, or at a row on which `f` fails. -/
theorem gathered_eq_error {f : Row → Except Error α} {e : Error} {items : List (Option (Except Error Row))}
    (h : gathered f items = .error e) :
    some (.error e) ∈ items ∨ ∃ row, some (.ok row) ∈ items ∧ f row = .error e := by
  induction items with
  | nil => cases h
  | cons first items ih =>
    rcases first with _ | d | row
    · cases h
    · cases h
      exact Or.inl List.mem_cons_self
    · rw [gathered] at h
      cases hrow : f row with
      | error d =>
        rw [hrow] at h
        cases h
        exact Or.inr ⟨row, List.mem_cons_self, hrow⟩
      | ok a =>
        have hothers : gathered f items = .error e := by
          rw [hrow] at h
          cases hrest : gathered f items <;> rw [hrest] at h <;> cases h
          rfl
        rcases ih hothers with hitem | ⟨other, hitem, hfails⟩
        · exact Or.inl (List.mem_cons_of_mem _ hitem)
        · exact Or.inr ⟨other, List.mem_cons_of_mem _ hitem, hfails⟩

theorem gathered_append (rows : List Row) (items : List (Option (Except Error Row))) :
    gathered .ok (rows.map (fun row => some (.ok row)) ++ items) = (gathered .ok items).map (rows ++ ·) := by
  induction rows with
  | nil =>
    rw [List.map_nil, List.nil_append]
    cases gathered .ok items <;> rfl
  | cons row rows ih =>
    rw [List.map_cons, List.cons_append, gathered, ih]
    cases gathered .ok items <;> rfl

theorem taken_rows (rows : List Row) (items : List (Option (Except Error Row))) :
    taken .ok (rows.map (fun row => some (.ok row)) ++ items) = rows.length + taken .ok items := by
  induction rows with
  | nil => simp
  | cons row rows ih =>
    rw [List.map_cons, List.cons_append, taken, List.length_cons]
    change taken .ok _ + 1 = _
    omega

/-- Items are rows up to the first that is none. -/
theorem exists_rows (items : List (Option (Except Error Row))) :
    ∃ (rows : List Row) (others : List (Option (Except Error Row))),
      items = rows.map (fun row => some (.ok row)) ++ others ∧ ∀ row, others.head? ≠ some (some (.ok row)) := by
  induction items with
  | nil => exact ⟨[], [], rfl, by simp⟩
  | cons first items ih =>
    rcases first with _ | e | row
    · exact ⟨[], none :: items, rfl, by simp⟩
    · exact ⟨[], some (.error e) :: items, rfl, by simp⟩
    · obtain ⟨rows, others, rfl, hothers⟩ := ih
      exact ⟨row :: rows, others, rfl, hothers⟩

/-! ## Steady results -/

section Steady

variable [NativeResult ν]

/-- a result whose answer for an index is the same, whatever it was asked before -/
def Steady (result : ν) (answer : UInt64 → Except Error (Option Row)) : Prop :=
  ∀ (asked : List UInt64) (index : UInt64),
    (NativeResult.fetchRow index (asked.foldl (fun now other => (NativeResult.fetchRow other now).2) result)).1 =
      answer index

variable {answer : UInt64 → Except Error (Option Row)} {c : Cursor ν}

theorem Steady.fetchRow {result : ν} (h : Steady result answer) (index : UInt64) :
    Steady (NativeResult.fetchRow index result).2 answer := fun asked => h (index :: asked)

theorem step_steady (h : Steady c.result answer) (hvalid : c.position < c.total) :
    c.step.1 = item (answer c.position) := by
  rw [step_of_valid hvalid, current, get, if_pos hvalid]
  exact congrArg item (h [] c.position)

theorem Steady.step (h : Steady c.result answer) : Steady c.step.2.result answer := by
  by_cases hvalid : c.position < c.total
  · rw [step_of_valid hvalid, current, get, if_pos hvalid]
    exact h.fetchRow c.position
  · rw [step_of_past hvalid]
    exact h

theorem Steady.turns (h : Steady c.result answer) (n : Nat) : Steady (c.turns n).2.result answer := by
  induction n generalizing c with
  | zero => exact h
  | succ n ih => exact ih h.step

/-- Up to the count the items are the answers in order. -/
theorem turns_items (h : Steady c.result answer) {n : Nat} (hinside : c.position.toNat + n ≤ c.total.toNat) :
    (c.turns n).1 = (List.range' c.position.toNat n).map fun index => item (answer (UInt64.ofNat index)) := by
  induction n generalizing c with
  | zero => rfl
  | succ n ih =>
    have hvalid : c.position < c.total := UInt64.lt_iff_toNat_lt.2 (by omega)
    have hnext := step_position hvalid
    rw [turns_succ, step_steady h hvalid, ih h.step (by rw [hnext, step_total]; omega), hnext, List.range'_succ,
      List.map_cons, UInt64.ofNat_toNat]

theorem steady_of_unchanged {result : ν} (h : ∀ index, (NativeResult.fetchRow index result).2 = result) :
    Steady result fun index => (NativeResult.fetchRow index result).1 := by
  intro asked
  induction asked with
  | nil => exact fun index => rfl
  | cons other asked ih =>
    rw [List.foldl_cons, h other]
    exact ih

/-! ## What an iteration comes to -/

theorem rows_turns_position (n : Nat) (c : Cursor ν) :
    (c.rows.turns n).2.position.toNat = min n c.total.toNat := by
  have hposition := turns_position n (c := c.rows) (Nat.zero_le _)
  rwa [show c.rows.position.toNat = 0 from rfl, Nat.zero_add] at hposition

theorem rows_turns_items (h : Steady c.result answer) :
    (c.rows.turns c.total.toNat).1 = (List.range c.total.toNat).map fun index => item (answer (UInt64.ofNat index)) := by
  rw [List.range_eq_range']
  exact turns_items (c := c.rows) h (Nat.le_of_eq (Nat.zero_add c.total.toNat))

theorem rows_turns_item (h : Steady c.result answer) {index : Nat} (hindex : index < c.total.toNat) :
    (c.rows.turns c.total.toNat).1[index]? = some (item (answer (UInt64.ofNat index))) := by
  rw [rows_turns_items h, List.getElem?_map, List.getElem?_range hindex, Option.map_some]

theorem fetchAllAs_eq (f : Row → Except Error α) (c : Cursor ν) :
    c.fetchAllAs f = (gathered f (c.rows.turns c.total.toNat).1,
      (c.rows.turns (taken f (c.rows.turns c.total.toNat).1)).2) := gather_eq f c.total.toNat c.rows

/-- what a call of an iteration does that comes behind `index` others -/
structure CallExact (answer : UInt64 → Except Error (Option Row)) (count index : Nat) (c : Cursor ν) : Prop where
  /-- below the count it gives the row, the error or the absence at its index, and moves on in each case -/
  below : index < count → c.step.1 = item (answer (UInt64.ofNat index)) ∧ c.step.2.position.toNat = index + 1
  /-- from the count on it gives nothing and stays -/
  past : count ≤ index → c.step = (none, c)
  /-- the hint before it is what is left of the count -/
  hint : c.sizeHint = (0, count - c.position.toNat)
  /-- and however often the iteration is called, it gives no more items than that -/
  bound : ∀ more, (c.turns more).1.countP Option.isSome ≤ count - c.position.toNat

theorem callExact (h : Steady c.result answer) (index : Nat) :
    CallExact answer c.total.toNat index (c.rows.turns index).2 := by
  have hposition := rows_turns_position index c
  have htotal : (c.rows.turns index).2.total = c.total := turns_total index c.rows
  have hsteady : Steady (c.rows.turns index).2.result answer := Steady.turns (c := c.rows) h index
  refine ⟨fun hbelow => ?_, fun hpast => step_of_past fun hvalid => ?_, ?_, fun more => ?_⟩
  · have hat : (c.rows.turns index).2.position.toNat = index := by omega
    have hvalid : (c.rows.turns index).2.position < (c.rows.turns index).2.total := by
      rw [UInt64.lt_iff_toNat_lt, htotal, hat]
      exact hbelow
    have hindex : (c.rows.turns index).2.position = UInt64.ofNat index := by
      rw [← UInt64.ofNat_toNat (x := (c.rows.turns index).2.position), hat]
    exact ⟨by rw [step_steady hsteady hvalid, hindex], by rw [step_position hvalid, hat]⟩
  · rw [UInt64.lt_iff_toNat_lt, htotal] at hvalid
    omega
  · rw [sizeHint, htotal]
  · have hle := countP_turns_le more (c.rows.turns index).2
    rwa [sizeHint, htotal] at hle

/-- where fetching all rows ends behind the first rows: at the count, at an absent row, or at a row that fails -/
inductive Ends (answer : UInt64 → Except Error (Option Row)) (count : Nat) (rows : List Row) :
    Except Error (List Row) → Nat → Prop where
  | whole (hall : rows.length = count) : Ends answer count rows (.ok rows) count
  | absent (hbelow : rows.length < count) (hrow : answer (UInt64.ofNat rows.length) = .ok none) :
    Ends answer count rows (.ok rows) (rows.length + 1)
  | failed {e : Error} (hbelow : rows.length < count) (hrow : answer (UInt64.ofNat rows.length) = .error e) :
    Ends answer count rows (.error e) (rows.length + 1)

theorem fetchAll_ends (h : Steady c.result answer) : ∃ rows : List Row,
    (∀ index row, rows[index]? = some row → answer (UInt64.ofNat index) = .ok (some row)) ∧
      Ends answer c.total.toNat rows c.fetchAll.1 c.fetchAll.2.position.toNat := by
  obtain ⟨rows, others, hsplit, hothers⟩ := exists_rows (c.rows.turns c.total.toNat).1
  have hlength : rows.length + others.length = c.total.toNat := by
    have hitems := rows_turns_items h
    rw [hsplit] at hitems
    simpa using congrArg List.length hitems
  have hfetch : c.fetchAll = (gathered .ok (rows.map (fun row => some (.ok row)) ++ others),
      (c.rows.turns (rows.length + taken .ok others)).2) := by
    rw [fetchAll, fetchAllAs_eq, hsplit, taken_rows]
  have hnext {first : Option (Except Error Row)} {rest : List (Option (Except Error Row))}
      (hcons : others = first :: rest) : rows.length < c.total.toNat ∧
        item (answer (UInt64.ofNat rows.length)) = first := by
    have hbelow : rows.length < c.total.toNat := by
      rw [hcons, List.length_cons] at hlength
      omega
    refine ⟨hbelow, ?_⟩
    have hitem := rows_turns_item h hbelow
    rw [hsplit, hcons, List.getElem?_append_right (by simp)] at hitem
    simpa using hitem.symm
  refine ⟨rows, fun index row hrow => ?_, ?_⟩
  -- an item that is a row is the answer for its index
  · have hbelow : index < rows.length := (List.getElem?_eq_some_iff.1 hrow).1
    have hitem := rows_turns_item h (Nat.lt_of_lt_of_le hbelow (hlength ▸ Nat.le_add_right _ _))
    rw [hsplit, List.getElem?_append_left (by simpa using hbelow), List.getElem?_map, hrow] at hitem
    exact item_injective (Option.some.inj hitem).symm
  -- what stands behind the rows decides where fetching ends; another row cannot stand there
  · rw [hfetch, rows_turns_position, gathered_append]
    rcases others with _ | ⟨_ | e | row, rest⟩
    · have hall : rows.length = c.total.toNat := hlength
      have hwhole : Ends answer c.total.toNat rows (.ok rows) c.total.toNat := .whole hall
      simpa [gathered, taken, Except.map, hall] using hwhole
    · obtain ⟨hbelow, hitem⟩ := hnext rfl
      have habsent : answer (UInt64.ofNat rows.length) = .ok none := item_injective hitem
      simpa [gathered, taken, Except.map, Nat.min_eq_left hbelow] using Ends.absent hbelow habsent
    · obtain ⟨hbelow, hitem⟩ := hnext rfl
      have hfailed : answer (UInt64.ofNat rows.length) = .error e := item_injective hitem
      simpa [gathered, taken, Except.map, Nat.min_eq_left hbelow] using Ends.failed hbelow hfailed
    · exact absurd rfl (hothers row)

/-- **Every call of an iteration over a steady result is exact**, from any position of the cursor and past errors and
absent rows. Fetching all rows gives the rows of the first indices up to the count or to the first index that is no row,
fails where that index does, and ends just behind the last index asked. -/
theorem iteration_exact (c : Cursor ν) (h : Steady c.result answer) :
    (∀ index, CallExact answer c.total.toNat index (c.rows.turns index).2) ∧
    ∃ rows : List Row, (∀ index row, rows[index]? = some row → answer (UInt64.ofNat index) = .ok (some row)) ∧
      Ends answer c.total.toNat rows c.fetchAll.1 c.fetchAll.2.position.toNat :=
  ⟨callExact h, fetchAll_ends h⟩

end Steady

/-- four rows counted as six, of which the second fails and the third is missing -/
def faulty : Tampered :=
  ⟨⟨["a".toList], [[some "1".toList], [some "2".toList], [some "3".toList], [none, some "4".toList]]⟩, some 6, [1], [2],
    0⟩

/-- From a position before the first row the iteration comes past the error and the missing row to the last row, and to
nothing where the count is too large; fetching all rows ends at the error. -/
theorem iteration_exact_faulty :
    (Steady faulty fun index => (NativeResult.fetchRow index faulty).1) ∧
    ((ofResult faulty).previous.rows.turns 1).2.step.1 =
      some (.error (.query none "fetch failed" ("row " ++ Text.ofNat 1))) ∧
    ((ofResult faulty).previous.rows.turns 2).2.step.1 = none ∧
    ((ofResult faulty).previous.rows.turns 3).2.step.1 = some (.ok ⟨["a".toList], [none, some "4".toList]⟩) ∧
    ((ofResult faulty).previous.rows.turns 4).2.step.1 = none ∧
    ((ofResult faulty).previous.rows.turns 6).2.step = (none, ((ofResult faulty).previous.rows.turns 6).2) ∧
    ∃ rows : List Row, Ends (fun index => (NativeResult.fetchRow index faulty).1) 6 rows
      (ofResult faulty).previous.fetchAll.1 2 := by
  have hsteady : Steady faulty fun index => (NativeResult.fetchRow index faulty).1 := by
    refine steady_of_unchanged fun index => ?_
    simp only [NativeResult.fetchRow]
    split
    · rfl
    split <;> rfl
  obtain ⟨hcalls, rows, -, hends⟩ := iteration_exact (ofResult faulty).previous hsteady
  refine ⟨hsteady, ((hcalls 1).below (by decide)).1, ((hcalls 2).below (by decide)).1, ((hcalls 3).below (by decide)).1,
    ((hcalls 4).below (by decide)).1, (hcalls 6).past (by decide), rows, hends⟩

end Cursor

end SqlAccess
