/-
Finite maps from texts, kept as lists in key order.

`lookup_put` says that the newest entry of a key is the one found and that other keys are untouched; `lookup_erase` that
an erased key is gone and nothing else.
-/
import SqlAccess.Text

namespace SqlAccess

/-- entries by key, in the order of the keys -/
abbrev Table (α : Type) : Type := List (Text × α)

namespace Table

variable {α : Type}

/-- an entry put in key order, in place of one with the same key -/
def put (key : Text) (value : α) : Table α → Table α
  | [] => [(key, value)]
  | (k, v) :: r =>
    if key = k then (key, value) :: r
    else if key < k then (key, value) :: (k, v) :: r
    else (k, v) :: put key value r

def erase (table : Table α) (key : Text) : Table α := table.filter (·.1 != key)

def keys (table : Table α) : List Text := table.map Prod.fst

/-- entries put one after the other, so that the last of a key stays -/
def ofList (entries : List (Text × α)) : Table α := entries.foldl (fun table (k, v) => put k v table) []

theorem lookup_cons (key other : Text) (value : α) (table : Table α) :
    List.lookup other ((key, value) :: table) = if other = key then some value else List.lookup other table := by
  by_cases h : other = key
  · simp [h]
  · simp [List.lookup_cons, h, beq_eq_false_iff_ne.mpr h]

theorem lookup_put (key other : Text) (value : α) (table : Table α) :
    List.lookup other (put key value table) = if other = key then some value else List.lookup other table := by
  induction table with
  | nil => simp [put, lookup_cons]
  | cons e r ih =>
    obtain ⟨k, v⟩ := e
    simp only [put]
    split
    · rename_i h
      by_cases ho : other = key <;> simp [lookup_cons, ← h, ho]
    · split
      · simp [lookup_cons]
      · rename_i hk _
        by_cases ho : other = k
        · simp [ho, Ne.symm hk]
        · simp [lookup_cons, ho, ih]

theorem lookup_erase (key other : Text) (table : Table α) :
    List.lookup other (erase table key) = if other = key then none else List.lookup other table := by
  induction table with
  | nil => simp [erase]
  | cons e r ih =>
    obtain ⟨k, v⟩ := e
    simp only [erase, List.filter_cons] at ih ⊢
    by_cases hk : k = key
    · subst hk
      rw [if_neg (by simp), ih, lookup_cons]
      by_cases ho : other = k <;> simp [ho]
    · by_cases ho : other = k
      · simp [hk, ho]
      · simp [hk, ho, lookup_cons, ih]

end Table

end SqlAccess
