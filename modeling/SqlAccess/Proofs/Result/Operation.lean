/-
What can be done with a cursor, and what its result is asked meanwhile.

Operations are performed one after the other (`perform`, `run`); each gives an answer and leaves a cursor. A result is
traced when it keeps a record of all that is asked of it; nobody notices the trace (`perform_untraced`). What an operation
asks for are rows below the count (`Asks`), and so does a run of operations; only the end of the cursor releases the
result. `run_inside` puts together what holds behind any run.
-/
import SqlAccess.Proofs.Result.Iteration

namespace SqlAccess

namespace Cursor

variable {ν α : Type}

/-! ## Operations -/

/-- what can be done with a cursor; `iterate` goes through all rows, by the iterator or by a loop over the cursor, and is
left after so many turns -/
inductive Operation : Type 1 where
  | next
  | previous
  | rewind
  | seek (index : UInt64)
  | current
  | get (index : UInt64)
  | set (index : UInt64) (row : Row)
  | remove (index : UInt64)
  | iterate (turns : Nat)
  | fetchAll
  | fetchAllAs (α : Type) (f : Row → Except Error α)
  | pluck (column : Text)

namespace Operation

def Answer : Operation → Type
  | next => Unit
  | previous => Unit
  | rewind => Unit
  | seek _ => Bool
  | current => Except Error (Option Row)
  | get _ => Except Error (Option Row)
  | set _ _ => Except Error Unit
  | remove _ => Except Error Unit
  | iterate _ => List (Option (Except Error Row))
  | fetchAll => Except Error (List Row)
  | fetchAllAs α _ => Except Error (List α)
  | pluck _ => Except Error (List (Option Text))

/-- reading a single row, and writing one, which is refused -/
def isStill : Operation → Bool
  | current => true
  | get _ => true
  | set _ _ => true
  | remove _ => true
  | _ => false

end Operation

theorem seek_found {c : Cursor ν} {index : UInt64} (h : index < c.total) :
    c.seek index = (true, { c with position := index }) := if_pos h

theorem seek_refused {c : Cursor ν} {index : UInt64} (h : ¬ index < c.total) : c.seek index = (false, c) := if_neg h

theorem next_previous (c : Cursor ν) : c.previous.next = c := by
  simp [previous, next]

section Perform

variable [NativeResult ν]

/-- the answer of an operation, and the cursor behind it -/
def perform (c : Cursor ν) : (op : Operation) → op.Answer × Cursor ν
  | .next => ((), c.next)
  | .previous => ((), c.previous)
  | .rewind => ((), c.rewind)
  | .seek index => c.seek index
  | .current => c.current
  | .get index => c.get index
  | .set index row => (c.set index row, c)
  | .remove index => (c.remove index, c)
  | .iterate n => c.rows.turns n
  | .fetchAll => c.fetchAll
  | .fetchAllAs _ f => c.fetchAllAs f
  | .pluck column => c.pluck column

def run (c : Cursor ν) (ops : List Operation) : Cursor ν := ops.foldl (fun now op => (now.perform op).2) c

theorem run_cons (c : Cursor ν) (op : Operation) (ops : List Operation) :
    c.run (op :: ops) = (c.perform op).2.run ops := rfl

theorem run_append (c : Cursor ν) (ops more : List Operation) : c.run (ops ++ more) = (c.run ops).run more :=
  List.foldl_append

theorem perform_still (c : Cursor ν) {op : Operation} (h : op.isStill = true) :
    (c.perform op).2.position = c.position := by
  cases op with
  | current => exact get_position c.position c
  | get index => exact get_position index c
  | set index row => rfl
  | remove index => rfl
  | _ => cases h

/-- As many steps on as there were steps back lead back, also from below the first row. -/
theorem run_back_and_on (times : Nat) (c : Cursor ν) :
    c.run (List.replicate times .previous ++ List.replicate times .next) = c := by
  induction times generalizing c with
  | zero => rfl
  | succ times ih =>
    -- the first step back and the last step on enclose what the induction is about
    rw [List.replicate_succ, List.replicate_succ', List.cons_append, run_cons, ← List.append_assoc, run_append]
    change (c.previous.run _).next = c
    rw [ih, next_previous]

end Perform

/-! ## A trace of what is asked -/

/-- what the owner of a result asks of it -/
inductive Request where
  | fetch (index : UInt64)
  | release
  deriving DecidableEq

/-- a result and what was asked of it, in order -/
structure Traced (ν : Type) where
  result : ν
  requests : List Request

instance [NativeResult ν] : NativeResult (Traced ν) where
  rowCount t := NativeResult.rowCount t.result
  fetchRow index t :=
    let (answer, result) := NativeResult.fetchRow index t.result
    (answer, ⟨result, t.requests ++ [.fetch index]⟩)
  release t := ⟨NativeResult.release t.result, t.requests ++ [.release]⟩

/-- the same cursor without the trace -/
def untraced (c : Cursor (Traced ν)) : Cursor ν := ⟨c.result.result, c.total, c.position⟩

/-- `c'` is what came of `c` by moving and by asking for rows below the count -/
structure Asks (c c' : Cursor (Traced ν)) : Prop where
  total : c'.total = c.total
  requests : ∃ indices : List UInt64, c'.result.requests = c.result.requests ++ indices.map .fetch ∧
    ∀ index ∈ indices, index < c.total

theorem Asks.of_move {c c' : Cursor (Traced ν)} (hresult : c'.result = c.result) (htotal : c'.total = c.total) :
    Asks c c' where
  total := htotal
  requests := ⟨[], by simp [hresult], by simp⟩

theorem Asks.refl (c : Cursor (Traced ν)) : Asks c c := .of_move rfl rfl

theorem Asks.trans {c c' c'' : Cursor (Traced ν)} (h : Asks c c') (h' : Asks c' c'') : Asks c c'' where
  total := h'.total.trans h.total
  requests := by
    obtain ⟨indices, hindices, hbelow⟩ := h.requests
    obtain ⟨others, hothers, hbelow'⟩ := h'.requests
    refine ⟨indices ++ others, by rw [hothers, hindices, List.map_append, List.append_assoc], ?_⟩
    intro index hmem
    rcases List.mem_append.1 hmem with hmem | hmem
    · exact hbelow index hmem
    · exact h.total ▸ hbelow' index hmem

section Trace

variable [NativeResult ν]

/-! ### Nobody notices the trace -/

theorem get_untraced (index : UInt64) (c : Cursor (Traced ν)) :
    c.untraced.get index = ((c.get index).1, (c.get index).2.untraced) := by
  unfold get
  by_cases hbelow : index < c.total
  · rw [if_pos hbelow, if_pos (show index < c.untraced.total from hbelow)]
    rfl
  · rw [if_neg hbelow, if_neg (show ¬ index < c.untraced.total from hbelow)]

theorem step_untraced (c : Cursor (Traced ν)) : c.untraced.step = (c.step.1, c.step.2.untraced) := by
  by_cases hvalid : c.position < c.total
  · have hcurrent : c.untraced.current = (c.current.1, c.current.2.untraced) := get_untraced c.position c
    rw [step_of_valid hvalid, step_of_valid (show c.untraced.position < c.untraced.total from hvalid), hcurrent]
    rfl
  · rw [step_of_past hvalid, step_of_past (show ¬ c.untraced.position < c.untraced.total from hvalid)]

theorem turns_untraced (n : Nat) (c : Cursor (Traced ν)) :
    c.untraced.turns n = ((c.turns n).1, (c.turns n).2.untraced) := by
  induction n generalizing c with
  | zero => rfl
  | succ n ih => rw [turns_succ, turns_succ, step_untraced, ih]

theorem fetchAllAs_untraced (f : Row → Except Error α) (c : Cursor (Traced ν)) :
    c.untraced.fetchAllAs f = ((c.fetchAllAs f).1, (c.fetchAllAs f).2.untraced) := by
  have hrows (n : Nat) : c.untraced.rows.turns n = ((c.rows.turns n).1, (c.rows.turns n).2.untraced) :=
    turns_untraced n c.rows
  rw [fetchAllAs_eq, fetchAllAs_eq, show c.untraced.total = c.total from rfl, hrows, hrows]

theorem perform_untraced (c : Cursor (Traced ν)) (op : Operation) :
    c.untraced.perform op = ((c.perform op).1, (c.perform op).2.untraced) := by
  cases op with
  | next => rfl
  | previous => rfl
  | rewind => rfl
  | seek index =>
    by_cases hbelow : index < c.total
    · rw [perform, perform, seek_found hbelow, seek_found (show index < c.untraced.total from hbelow)]
      rfl
    · rw [perform, perform, seek_refused hbelow, seek_refused (show ¬ index < c.untraced.total from hbelow)]
      rfl
  | current => exact get_untraced c.position c
  | get index => exact get_untraced index c
  | set index row => rfl
  | remove index => rfl
  | iterate n => exact turns_untraced n c.rows
  | fetchAll => exact fetchAllAs_untraced .ok c
  | fetchAllAs α f => exact fetchAllAs_untraced f c
  | pluck column => exact fetchAllAs_untraced _ c

theorem run_untraced (c : Cursor (Traced ν)) (ops : List Operation) : (c.run ops).untraced = c.untraced.run ops := by
  induction ops generalizing c with
  | nil => rfl
  | cons op ops ih => rw [run_cons, run_cons, ih, perform_untraced]

/-! ### Only rows below the count are asked for -/

theorem asks_get (index : UInt64) (c : Cursor (Traced ν)) : Asks c (c.get index).2 := by
  by_cases hbelow : index < c.total
  · rw [get, if_pos hbelow]
    exact ⟨rfl, [index], rfl, by simpa using hbelow⟩
  · rw [get, if_neg hbelow]
    exact Asks.refl c

theorem asks_step (c : Cursor (Traced ν)) : Asks c c.step.2 := by
  by_cases hvalid : c.position < c.total
  · rw [step_of_valid hvalid]
    exact (asks_get c.position c).trans (.of_move rfl rfl)
  · rw [step_of_past hvalid]
    exact Asks.refl c

theorem asks_turns (n : Nat) (c : Cursor (Traced ν)) : Asks c (c.turns n).2 := by
  induction n generalizing c with
  | zero => exact Asks.refl c
  | succ n ih => exact (asks_step c).trans (ih c.step.2)

theorem asks_rows (n : Nat) (c : Cursor (Traced ν)) : Asks c (c.rows.turns n).2 :=
  (Asks.of_move rfl rfl : Asks c c.rows).trans (asks_turns n c.rows)

theorem asks_fetchAllAs (f : Row → Except Error α) (c : Cursor (Traced ν)) : Asks c (c.fetchAllAs f).2 := by
  rw [fetchAllAs_eq]
  exact asks_rows _ c

theorem asks_perform (c : Cursor (Traced ν)) (op : Operation) : Asks c (c.perform op).2 := by
  cases op with
  | next => exact .of_move rfl rfl
  | previous => exact .of_move rfl rfl
  | rewind => exact .of_move rfl rfl
  | seek index =>
    by_cases hbelow : index < c.total
    · rw [perform, seek_found hbelow]
      exact .of_move rfl rfl
    · rw [perform, seek_refused hbelow]
      exact Asks.refl c
  | current => exact asks_get c.position c
  | get index => exact asks_get index c
  | set index row => exact Asks.refl c
  | remove index => exact Asks.refl c
  | iterate n => exact asks_rows n c
  | fetchAll => exact asks_fetchAllAs .ok c
  | fetchAllAs α f => exact asks_fetchAllAs f c
  | pluck column => exact asks_fetchAllAs _ c

theorem asks_run (c : Cursor (Traced ν)) (ops : List Operation) : Asks c (c.run ops) := by
  induction ops generalizing c with
  | nil => exact Asks.refl c
  | cons op ops ih => exact (asks_perform c op).trans (ih (c.perform op).2)

/-! ## What a run comes to -/

/-- what holds of a cursor that was made on `result` -/
structure Inside (result : ν) (c : Cursor (Traced ν)) : Prop where
  /-- its count is the one read when it was made -/
  count : c.total = NativeResult.rowCount result
  /-- its result was asked for rows below the count, and for nothing else -/
  asked : ∀ request ∈ c.result.requests, ∃ index, request = .fetch index ∧ index < NativeResult.rowCount result
  /-- its end releases the result, once -/
  released : c.close.requests = c.result.requests ++ [.release]
  /-- reading single rows, and writing in vain, does not move it -/
  still : ∀ op : Operation, op.isStill = true → (c.perform op).2.position = c.position
  /-- it moves to any index below the count -/
  found : ∀ index, index < NativeResult.rowCount result → c.seek index = (true, { c with position := index })
  /-- and to no other -/
  refused : ∀ index, ¬ index < NativeResult.rowCount result → c.seek index = (false, c)
  /-- steps back and as many steps on lead back -/
  restored : ∀ times, c.run (List.replicate times .previous ++ List.replicate times .next) = c

/-- **A run stays inside its result.** Behind any operations on a new cursor over any result: the count is the one read
at first, the result was asked for rows below it and never released, and moving is as it should be. The trace from which
this is read changes neither the cursor nor any answer. -/
theorem run_inside (result : ν) (ops : List Operation) :
    Inside result ((ofResult (⟨result, []⟩ : Traced ν)).run ops) ∧
    ((ofResult (⟨result, []⟩ : Traced ν)).run ops).untraced = (ofResult result).run ops ∧
    ∀ op, (((ofResult (⟨result, []⟩ : Traced ν)).run ops).perform op).1 = (((ofResult result).run ops).perform op).1 := by
  have huntraced : ((ofResult (⟨result, []⟩ : Traced ν)).run ops).untraced = (ofResult result).run ops :=
    run_untraced _ ops
  have hasks := asks_run (ofResult (⟨result, []⟩ : Traced ν)) ops
  have hcount : ((ofResult (⟨result, []⟩ : Traced ν)).run ops).total = NativeResult.rowCount result := hasks.total
  refine ⟨?_, huntraced, fun op => by rw [← huntraced, perform_untraced]⟩
  constructor
  case count => exact hcount
  case asked =>
    intro request hmem
    obtain ⟨indices, hindices, hbelow⟩ := hasks.requests
    rw [hindices] at hmem
    obtain ⟨index, hindex, rfl⟩ := List.mem_map.1 (by simpa [ofResult] using hmem)
    exact ⟨index, rfl, hbelow index hindex⟩
  case released => rfl
  case still => exact fun op hop => perform_still _ hop
  case found => exact fun index hindex => seek_found (hcount ▸ hindex)
  case refused => exact fun index hindex => seek_refused (hcount ▸ hindex)
  case restored => exact fun times => run_back_and_on times _

end Trace

end Cursor

end SqlAccess
