/-
The first fault of a condition list.

The beginning of a list is viable when entries can be written behind it that make the whole a forest written down. A list
is read entry by entry: `Standing` is how many groups are open and whether the entry before opened one, and reading stops
at an entry that cannot stand there (`Standing.next?`). Just what can be read to its end is viable, for a predicate and a
marker for each open group complete it (`viable_iff`). The check of the groups goes through the same standings, so its
error is about the first entry that nothing behind it can make good, or counts the groups left open:
`checkGroups_first_fault`.
-/
import Mathlib.Data.Nat.Find
import SqlAccess.Proofs.Condition.Tree

namespace SqlAccess

namespace Condition

def opens : Condition → Bool
  | .opening _ => true
  | .closing => false
  | .predicate _ _ _ _ => false

def closes : Condition → Bool
  | .opening _ => false
  | .closing => true
  | .predicate _ _ _ _ => false

/-! ## Reading entry by entry -/

/-- how many groups are open, and whether the entry before opened the innermost of them -/
structure Standing where
  depth : Nat
  justOpened : Bool

namespace Standing

def start : Standing := ⟨0, false⟩

/-- behind one more entry; a marker may close only an open group that is not empty -/
def next? (s : Standing) : Condition → Option Standing
  | .opening _ => some ⟨s.depth + 1, true⟩
  | .predicate _ _ _ _ => some ⟨s.depth, false⟩
  | .closing => if s.depth = 0 ∨ s.justOpened = true then none else some ⟨s.depth - 1, false⟩

/-- behind entries each of which may stand where it stands -/
def behind? (s : Standing) (conditions : List Condition) : Option Standing := conditions.foldlM next? s

variable {s s' : Standing} {c : Condition} {conditions : List Condition}

theorem behind?_cons (s : Standing) (c : Condition) (conditions : List Condition) :
    s.behind? (c :: conditions) = (s.next? c).bind fun s' => s'.behind? conditions := rfl

theorem behind?_concat (s : Standing) (conditions : List Condition) (c : Condition) :
    s.behind? (conditions ++ [c]) = (s.behind? conditions).bind fun s' => s'.next? c := by
  rw [behind?, List.foldlM_append]
  simp only [List.foldlM_cons, List.foldlM_nil, bind_pure]
  rfl

/-- what an entry does that may stand where it stands -/
theorem next?_eq_some (h : s.next? c = some s') :
    (∃ logic, c = .opening logic ∧ s' = ⟨s.depth + 1, true⟩) ∨
    (∃ logic column operator value, c = .predicate logic column operator value ∧ s' = ⟨s.depth, false⟩) ∨
    (c = .closing ∧ s.depth ≠ 0 ∧ s.justOpened = false ∧ s' = ⟨s.depth - 1, false⟩) := by
  cases c with
  | opening logic => exact Or.inl ⟨logic, rfl, (Option.some.inj h).symm⟩
  | predicate logic column operator value =>
    exact Or.inr (Or.inl ⟨logic, column, operator, value, rfl, (Option.some.inj h).symm⟩)
  | closing =>
    rw [next?] at h
    split at h
    case isTrue => cases h
    case isFalse hfine =>
      rw [not_or, Bool.not_eq_true] at hfine
      exact Or.inr (Or.inr ⟨rfl, hfine.1, hfine.2, (Option.some.inj h).symm⟩)

/-- Only a closing marker cannot stand somewhere: where no group is open, or the innermost one is empty. -/
theorem next?_eq_none (h : s.next? c = none) : c = .closing ∧ (s.depth = 0 ∨ s.justOpened = true) := by
  cases c with
  | opening logic => cases h
  | predicate logic column operator value => cases h
  | closing =>
    rw [next?] at h
    split at h
    case isTrue hfault => exact ⟨rfl, hfault⟩
    case isFalse => cases h

theorem depth_next (h : s.next? c = some s') :
    s'.depth + (if closes c then 1 else 0) = s.depth + (if opens c then 1 else 0) := by
  rcases next?_eq_some h with ⟨logic, rfl, rfl⟩ | ⟨logic, column, operator, value, rfl, rfl⟩ | ⟨rfl, hdepth, -, rfl⟩
  · rfl
  · rfl
  · exact Nat.sub_add_cancel (Nat.pos_of_ne_zero hdepth)

/-- The open groups are those that were opened and not closed. -/
theorem depth_behind (h : s.behind? conditions = some s') :
    s'.depth + conditions.countP closes = s.depth + conditions.countP opens := by
  induction conditions generalizing s with
  | nil =>
    cases h
    rfl
  | cons c conditions ih =>
    rw [behind?_cons] at h
    obtain ⟨middle, hnext, hrest⟩ := Option.bind_eq_some_iff.1 h
    have hfirst := depth_next hnext
    have hothers := ih hrest
    rw [List.countP_cons, List.countP_cons]
    omega

/-- A group has just been opened only by the last entry. -/
theorem justOpened_behind (h : start.behind? conditions = some s) (hopened : s.justOpened = true) :
    ∃ before logic, conditions = before ++ [.opening logic] := by
  rcases List.eq_nil_or_concat conditions with rfl | ⟨before, c, rfl⟩
  · cases h
    cases hopened
  · rw [List.concat_eq_append] at h ⊢
    rw [behind?_concat] at h
    obtain ⟨middle, -, hnext⟩ := Option.bind_eq_some_iff.1 h
    rcases next?_eq_some hnext with ⟨logic, rfl, -⟩ | ⟨_, _, _, _, -, rfl⟩ | ⟨-, -, -, rfl⟩
    · exact ⟨before, logic, rfl⟩
    · cases hopened
    · cases hopened

end Standing

open Standing

variable {s s' : Standing} {c : Condition} {conditions : List Condition}

/-! ## The check stands where the reading stands -/

theorem checkGroupsFrom_next (h : s.next? c = some s') (index : Nat) (rest : List Condition) :
    checkGroupsFrom index s.depth s.justOpened (c :: rest) =
      checkGroupsFrom (index + 1) s'.depth s'.justOpened rest := by
  rcases next?_eq_some h with ⟨logic, rfl, rfl⟩ | ⟨logic, column, operator, value, rfl, rfl⟩ |
    ⟨rfl, hdepth, hopened, rfl⟩
  · rfl
  · rfl
  · rw [checkGroupsFrom, if_neg hdepth, hopened, if_neg Bool.false_ne_true]

/-- Behind entries that may stand the check goes on from their standing. -/
theorem checkGroupsFrom_behind (h : s.behind? conditions = some s') (index : Nat) (rest : List Condition) :
    checkGroupsFrom index s.depth s.justOpened (conditions ++ rest) =
      checkGroupsFrom (index + conditions.length) s'.depth s'.justOpened rest := by
  induction conditions generalizing s index with
  | nil =>
    cases h
    rfl
  | cons c conditions ih =>
    rw [behind?_cons] at h
    obtain ⟨middle, hnext, hrest⟩ := Option.bind_eq_some_iff.1 h
    rw [List.cons_append, checkGroupsFrom_next hnext, ih hrest, List.length_cons, Nat.add_assoc, Nat.add_comm 1]

theorem checkGroups_behind (h : start.behind? conditions = some s) (rest : List Condition) :
    checkGroups (conditions ++ rest) = checkGroupsFrom conditions.length s.depth s.justOpened rest := by
  have hcheck := checkGroupsFrom_behind h 0 rest
  rwa [Nat.zero_add] at hcheck

/-- What is checked without a fault can be read to its end, and any beginning of it too. -/
theorem exists_behind {rest : List Condition} {index : Nat}
    (h : checkGroupsFrom index s.depth s.justOpened (conditions ++ rest) = .ok ()) :
    ∃ s', s.behind? conditions = some s' := by
  induction conditions generalizing s index with
  | nil => exact ⟨s, rfl⟩
  | cons c conditions ih =>
    cases hnext : s.next? c with
    | none =>
      obtain ⟨rfl, hfault⟩ := next?_eq_none hnext
      rw [List.cons_append, checkGroupsFrom] at h
      split at h
      case isTrue => cases h
      case isFalse hdepth =>
        rw [if_pos (hfault.resolve_left hdepth)] at h
        cases h
    | some middle =>
      rw [List.cons_append, checkGroupsFrom_next hnext] at h
      obtain ⟨s', hrest⟩ := ih h
      exact ⟨s', by rw [behind?_cons, hnext, Option.bind_some, hrest]⟩

/-- As many closing markers as there are groups open pass the check. -/
theorem checkGroupsFrom_closings (index depth : Nat) :
    checkGroupsFrom index depth false (List.replicate depth .closing) = .ok () := by
  induction depth generalizing index with
  | zero => rfl
  | succ depth ih =>
    rw [List.replicate_succ, checkGroupsFrom, if_neg (Nat.succ_ne_zero depth), if_neg Bool.false_ne_true]
    exact ih (index + 1)

/-! ## Viable beginnings -/

/-- Entries can be written behind these that make the whole a forest written down. -/
def Viable (conditions : List Condition) : Prop := ∃ rest forest, Tree.entriesAll forest = conditions ++ rest

/-- Just what can be read to its end is viable. -/
theorem viable_iff : Viable conditions ↔ ∃ s, start.behind? conditions = some s := by
  constructor
  · rintro ⟨rest, forest, hforest⟩
    have hcheck : checkGroups (conditions ++ rest) = .ok () := hforest ▸ checkGroups_entriesAll forest
    exact exists_behind (s := start) hcheck
  · rintro ⟨s, hs⟩
    -- a predicate fills the innermost group if it is empty, and then all groups can be closed
    refine ⟨.predicate .and (.expression []) [] .null :: List.replicate s.depth .closing, checkGroups_eq_ok_iff.1 ?_⟩
    rw [checkGroups_behind hs]
    exact checkGroupsFrom_closings _ s.depth

theorem Viable.take (h : Viable conditions) (length : Nat) : Viable (conditions.take length) := by
  obtain ⟨rest, forest, hforest⟩ := h
  refine ⟨conditions.drop length ++ rest, forest, ?_⟩
  rw [← List.append_assoc, List.take_append_drop, hforest]

/-- the place of the last entry of the shortest beginning that is not viable -/
structure FirstFault (conditions : List Condition) (index : Nat) : Prop where
  viable : ∀ length ≤ index, Viable (conditions.take length)
  stuck : ¬ Viable (conditions.take (index + 1))

theorem exists_firstFault (h : ∃ length, ¬ Viable (conditions.take length)) : ∃ index, FirstFault conditions index := by
  classical
  have hstuck := Nat.find_spec h
  have hnil : Viable (conditions.take 0) := viable_iff.2 ⟨start, rfl⟩
  obtain ⟨index, hindex⟩ : ∃ index, Nat.find h = index + 1 :=
    Nat.exists_eq_succ_of_ne_zero fun hzero => hstuck (hzero ▸ hnil)
  rw [hindex] at hstuck
  refine ⟨index, fun length hle => ?_, hstuck⟩
  exact Decidable.not_not.1 (Nat.find_min h (by omega))

/-- At the first fault stands a closing marker: no group is open before it, or the entry before opens one. -/
theorem FirstFault.closing {index : Nat} (h : FirstFault conditions index) :
    ∃ s rest, conditions = conditions.take index ++ .closing :: rest ∧ (conditions.take index).length = index ∧
      start.behind? (conditions.take index) = some s ∧ (s.depth = 0 ∨ s.justOpened = true) := by
  obtain ⟨s, hs⟩ := viable_iff.1 (h.viable index (Nat.le_refl index))
  have hinside : index < conditions.length := by
    by_contra hpast
    apply h.stuck
    rw [List.take_of_length_le (by omega), ← List.take_of_length_le (Nat.le_of_not_lt hpast)]
    exact h.viable index (Nat.le_refl index)
  have hsplit : conditions = conditions.take index ++ conditions[index] :: conditions.drop (index + 1) := by
    rw [← List.drop_eq_getElem_cons hinside, List.take_append_drop]
  have hnext : s.next? conditions[index] = none := by
    cases hnext : s.next? conditions[index] with
    | none => rfl
    | some s' =>
      refine absurd (viable_iff.2 ⟨s', ?_⟩) h.stuck
      rw [List.take_succ_eq_append_getElem hinside, behind?_concat, hs, Option.bind_some, hnext]
  obtain ⟨hclosing, hfault⟩ := next?_eq_none hnext
  rw [hclosing] at hsplit
  exact ⟨s, _, hsplit, List.length_take_of_le (Nat.le_of_lt hinside), hs, hfault⟩

/-- **The check accepts forests and points at the first fault.** It accepts just the lists that are a forest written
down. Where some beginning of the list is not viable, the error is about the last entry of the shortest one, a closing
marker: it closes nothing, all groups before it being closed, or it closes the group that the entry before it opens.
Where all beginnings are viable and the list is no forest, the error counts the groups that were opened and not closed. -/
theorem checkGroups_first_fault (conditions : List Condition) :
    (checkGroups conditions = .ok () ↔ ∃ forest, Tree.entriesAll forest = conditions) ∧
    ((∃ length, ¬ Viable (conditions.take length)) →
      ∃ index, FirstFault conditions index ∧ conditions[index]? = some .closing ∧
        ((checkGroups conditions = .error (.unmatchedClose index) ∧
            ∃ forest, Tree.entriesAll forest = conditions.take index) ∨
          (checkGroups conditions = .error (.emptyGroup (index - 1)) ∧
            ∃ logic, conditions[index - 1]? = some (.opening logic)))) ∧
    ((∀ length, Viable (conditions.take length)) → (¬ ∃ forest, Tree.entriesAll forest = conditions) →
      ∃ count, checkGroups conditions = .error (.groupsLeftOpen count) ∧ 0 < count ∧
        conditions.countP opens = conditions.countP closes + count) := by
  refine ⟨checkGroups_eq_ok_iff, fun hstuck => ?_, fun hviable hforest => ?_⟩
  · obtain ⟨index, hfirst⟩ := exists_firstFault hstuck
    obtain ⟨s, rest, hsplit, hlength, hs, hfault⟩ := hfirst.closing
    have hclosing : conditions[index]? = some .closing := by
      rw [hsplit, List.getElem?_append_right (Nat.le_of_eq hlength), hlength, Nat.sub_self, List.getElem?_cons_zero]
    have hcheck : checkGroups conditions = checkGroupsFrom index s.depth s.justOpened (.closing :: rest) := by
      have h := checkGroups_behind hs (.closing :: rest)
      rwa [← hsplit, hlength] at h
    refine ⟨index, hfirst, hclosing, ?_⟩
    by_cases hdepth : s.depth = 0
    · refine Or.inl ⟨?_, checkGroups_eq_ok_iff.1 ?_⟩
      · rw [hcheck, checkGroupsFrom, if_pos hdepth]
      · have hbefore := checkGroups_behind hs []
        rw [List.append_nil, checkGroupsFrom, if_pos hdepth] at hbefore
        exact hbefore
    · have hopened := hfault.resolve_left hdepth
      refine Or.inr ⟨?_, ?_⟩
      · rw [hcheck, checkGroupsFrom, if_neg hdepth, if_pos hopened]
      · obtain ⟨before, logic, hbefore⟩ := justOpened_behind hs hopened
        have hindex : index = before.length + 1 := by
          rw [← hlength, hbefore, List.length_append, List.length_singleton]
        refine ⟨logic, ?_⟩
        rw [hsplit, hbefore, hindex]
        simp
  · obtain ⟨s, hs⟩ := viable_iff.1 (List.take_length (l := conditions) ▸ hviable conditions.length)
    have hcheck := checkGroups_behind hs []
    rw [List.append_nil, checkGroupsFrom] at hcheck
    by_cases hdepth : s.depth = 0
    · rw [if_pos hdepth] at hcheck
      exact absurd (checkGroups_eq_ok_iff.1 hcheck) hforest
    · rw [if_neg hdepth] at hcheck
      refine ⟨s.depth, hcheck, Nat.pos_of_ne_zero hdepth, ?_⟩
      have hcount := depth_behind hs
      rw [start, Nat.zero_add] at hcount
      omega

/-- a group that is opened and closed at once inside another one, and a marker too many at the end -/
def emptyInside : List Condition :=
  [.opening .and, .predicate .and (.name "a".toList none) "=".toList (.integer 1), .opening .or, .closing, .closing,
    .closing]

/-- Of two faults the first is pointed at, and without the second group and what follows one group is left open. -/
theorem checkGroups_first_fault_emptyInside :
    (∃ length, ¬ Viable (emptyInside.take length)) ∧ FirstFault emptyInside 3 ∧
    checkGroups emptyInside = .error (.emptyGroup 2) ∧
    (∀ length, Viable ((emptyInside.take 2).take length)) ∧
    ∃ count, checkGroups (emptyInside.take 2) = .error (.groupsLeftOpen count) ∧ 0 < count := by
  have hstuck : ∃ length, ¬ Viable (emptyInside.take length) := by
    refine ⟨4, fun h => ?_⟩
    obtain ⟨s, hs⟩ := viable_iff.1 h
    cases hs
  have hcheck : checkGroups emptyInside = .error (.emptyGroup 2) := rfl
  have hviable : ∀ length, Viable ((emptyInside.take 2).take length) := (viable_iff.2 ⟨⟨1, false⟩, rfl⟩ : Viable _).take
  have hnot : ¬ ∃ forest, Tree.entriesAll forest = emptyInside.take 2 := by
    intro h
    cases checkGroups_eq_ok_iff.2 h
  obtain ⟨count, hopen, hpos, -⟩ := (checkGroups_first_fault (emptyInside.take 2)).2.2 hviable hnot
  obtain ⟨index, hfirst, -, ⟨hunmatched, -⟩ | ⟨hempty, -⟩⟩ := (checkGroups_first_fault emptyInside).2.1 hstuck
  · rw [hcheck] at hunmatched
    cases hunmatched
  · rw [hcheck] at hempty
    obtain rfl : index = 3 := by
      have hindex : 2 = index - 1 := Invalid.emptyGroup.inj (Except.error.inj hempty)
      omega
    exact ⟨hstuck, hfirst, hcheck, hviable, count, hopen, hpos⟩

end Condition

end SqlAccess
