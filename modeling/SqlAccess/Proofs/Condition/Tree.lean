/-
Condition lists as trees.

A condition list writes a forest down: a predicate is an entry, a group is an opening marker, the trees inside and a
closing marker (`Tree.entriesAll`). A group holds at least one tree. `checkGroups_eq_ok_iff`: the check of the groups
accepts exactly the lists that are a forest written down. One way it goes tree by tree, for a tree leaves the check
where it was (`checkGroupsFrom_tree`); the other way the list is cut at the marker that closes the innermost open group
(`exists_forest`).
-/
import SqlAccess.Condition

namespace SqlAccess

structure Predicate where
  column : Identifier
  operator : Text
  value : Value

/-- a leaf, or a group of at least one tree; either with the logic that joins it to the tree before it -/
inductive Tree (α : Type) where
  | leaf (logic : Logic) (content : α)
  | group (logic : Logic) (first : Tree α) (others : List (Tree α))

namespace Tree

variable {α : Type}

def logic : Tree α → Logic
  | .leaf logic _ => logic
  | .group logic _ _ => logic

mutual

def leaves : Tree α → List α
  | .leaf _ content => [content]
  | .group _ first others => leaves first ++ leavesAll others

def leavesAll : List (Tree α) → List α
  | [] => []
  | t :: ts => leaves t ++ leavesAll ts

end

mutual

/-- a tree written down as entries of a condition list -/
def entries : Tree Predicate → List Condition
  | .leaf logic p => [.predicate logic p.column p.operator p.value]
  | .group logic first others => .opening logic :: (entries first ++ entriesAll others ++ [.closing])

def entriesAll : List (Tree Predicate) → List Condition
  | [] => []
  | t :: ts => entries t ++ entriesAll ts

end

end Tree

/-- what an entry compares, if it is a predicate -/
def Condition.predicate? : Condition → Option Predicate
  | .predicate _ column operator value => some ⟨column, operator, value⟩
  | .opening _ => none
  | .closing => none

namespace Tree

mutual

/-- The predicates among the entries of a tree are its leaves, in order. -/
theorem filterMap_entries : ∀ t : Tree Predicate, t.entries.filterMap Condition.predicate? = t.leaves
  | .leaf logic p => rfl
  | .group logic first others => by
    simp [entries, leaves, List.filterMap_cons, Condition.predicate?, filterMap_entries first,
      filterMap_entriesAll others]

theorem filterMap_entriesAll : ∀ ts : List (Tree Predicate),
    (entriesAll ts).filterMap Condition.predicate? = leavesAll ts
  | [] => rfl
  | t :: ts => by simp [entriesAll, leavesAll, filterMap_entries t, filterMap_entriesAll ts]

end

theorem leaves_ne_nil : ∀ t : Tree α, t.leaves ≠ []
  | .leaf _ _ => by simp [leaves]
  | .group _ first _ => by simp [leaves, leaves_ne_nil first]

end Tree

namespace Condition

/-! ## Forests pass the check -/

mutual

/-- A tree leaves the check where it was, behind an entry that opens nothing. -/
theorem checkGroupsFrom_tree : ∀ (t : Tree Predicate) (index depth : Nat) (justOpened : Bool) (rest : List Condition),
    checkGroupsFrom index depth justOpened (t.entries ++ rest) =
      checkGroupsFrom (index + t.entries.length) depth false rest
  | .leaf logic p, index, depth, justOpened, rest => rfl
  | .group logic first others, index, depth, justOpened, rest => by
    rw [Tree.entries, List.cons_append, checkGroupsFrom, List.append_assoc, List.append_assoc,
      checkGroupsFrom_tree first, checkGroupsFrom_trees others, List.singleton_append, checkGroupsFrom]
    have hindex : index + 1 + first.entries.length + (Tree.entriesAll others).length + 1 =
        index + (Condition.opening logic :: (first.entries ++ Tree.entriesAll others ++ [.closing])).length := by
      simp only [List.length_cons, List.length_append, List.length_nil]
      omega
    simp [hindex]

/-- Behind a tree a forest leaves the check where it was. -/
theorem checkGroupsFrom_trees : ∀ (ts : List (Tree Predicate)) (index depth : Nat) (rest : List Condition),
    checkGroupsFrom index depth false (Tree.entriesAll ts ++ rest) =
      checkGroupsFrom (index + (Tree.entriesAll ts).length) depth false rest
  | [], index, depth, rest => rfl
  | t :: ts, index, depth, rest => by
    rw [Tree.entriesAll, List.append_assoc, checkGroupsFrom_tree t, checkGroupsFrom_trees ts, List.length_append,
      Nat.add_assoc]

end

theorem checkGroups_entriesAll (forest : List (Tree Predicate)) : checkGroups (Tree.entriesAll forest) = .ok () := by
  have h := checkGroupsFrom_trees forest 0 0 []
  rw [List.append_nil] at h
  rw [checkGroups, h]
  rfl

/-! ## What passes the check is a forest -/

/-- With no group open the list is this forest; else it is the forest up to the marker that closes the innermost open
group, and the rest behind that is checked with one group less. -/
def Splits (depth : Nat) (conditions : List Condition) (forest : List (Tree Predicate)) : Prop :=
  (depth = 0 ∧ conditions = Tree.entriesAll forest) ∨
    ∃ outer next rest, depth = outer + 1 ∧ conditions = Tree.entriesAll forest ++ .closing :: rest ∧
      checkGroupsFrom next outer false rest = .ok ()

/-- A tree in front of a list is a tree in front of its forest. -/
theorem Splits.cons {depth : Nat} {conditions : List Condition} {forest : List (Tree Predicate)}
    (h : Splits depth conditions forest) (t : Tree Predicate) :
    Splits depth (t.entries ++ conditions) (t :: forest) := by
  rcases h with ⟨hdepth, rfl⟩ | ⟨outer, next, rest, hdepth, rfl, hcheck⟩
  · exact Or.inl ⟨hdepth, rfl⟩
  · exact Or.inr ⟨outer, next, rest, hdepth, by simp [Tree.entriesAll], hcheck⟩

/-- A checked list is a forest up to the end or up to the marker that closes the innermost open group. Just inside a
group the forest is not empty. -/
theorem exists_forest (conditions : List Condition) (index depth : Nat) (justOpened : Bool)
    (hopen : justOpened = true → 0 < depth) (h : checkGroupsFrom index depth justOpened conditions = .ok ()) :
    ∃ forest, (justOpened = true → forest ≠ []) ∧ Splits depth conditions forest := by
  induction hlength : conditions.length using Nat.strongRecOn
    generalizing conditions index depth justOpened with
  | _ n ih =>
    subst hlength
    cases conditions with
    | nil =>
      rw [checkGroupsFrom] at h
      split at h
      case isFalse => cases h
      case isTrue hdepth =>
      refine ⟨[], fun hj => ?_, Or.inl ⟨hdepth, rfl⟩⟩
      have := hopen hj
      omega
    | cons c r =>
      cases c with
      | predicate logic column operator value =>
        obtain ⟨forest, -, hrest⟩ := ih r.length (by simp) r (index + 1) depth false nofun h rfl
        exact ⟨_, fun _ => List.cons_ne_nil _ _, hrest.cons (.leaf logic ⟨column, operator, value⟩)⟩
      | closing =>
        rw [checkGroupsFrom] at h
        split at h
        · cases h
        split at h
        · cases h
        · rename_i hdepth hj
          obtain ⟨outer, rfl⟩ := Nat.exists_eq_succ_of_ne_zero hdepth
          exact ⟨[], fun e => absurd e hj, Or.inr ⟨outer, index + 1, r, rfl, rfl, h⟩⟩
      | opening logic =>
        -- the rest is the inside of the new group, then what stands behind the marker that closes it
        obtain ⟨inside, hinside, ⟨hdepth, -⟩ | ⟨outer, next, rest, hdepth, rfl, hcheck⟩⟩ :=
          ih r.length (by simp) r (index + 1) (depth + 1) true (fun _ => Nat.succ_pos depth) h rfl
        · exact absurd hdepth (Nat.succ_ne_zero depth)
        obtain ⟨first, others, rfl⟩ := List.exists_cons_of_ne_nil (hinside rfl)
        obtain rfl : depth = outer := Nat.succ.inj hdepth
        obtain ⟨forest, -, hrest⟩ := ih rest.length (by simp; omega) rest next depth false nofun hcheck rfl
        have hgroup : .opening logic :: (Tree.entriesAll (first :: others) ++ .closing :: rest) =
            Tree.entries (.group logic first others) ++ rest := by
          simp [Tree.entriesAll, Tree.entries]
        rw [hgroup]
        exact ⟨_, fun _ => List.cons_ne_nil _ _, hrest.cons (.group logic first others)⟩

/-- **The check accepts the lists that are a forest written down.** -/
theorem checkGroups_eq_ok_iff {conditions : List Condition} :
    checkGroups conditions = .ok () ↔ ∃ forest, Tree.entriesAll forest = conditions := by
  constructor
  · intro h
    obtain ⟨forest, -, ⟨-, rfl⟩ | ⟨outer, next, rest, hdepth, -⟩⟩ := exists_forest conditions 0 0 false nofun h
    · exact ⟨forest, rfl⟩
    · exact absurd hdepth (Nat.succ_ne_zero outer).symm
  · rintro ⟨forest, rfl⟩
    exact checkGroups_entriesAll forest

end Condition

end SqlAccess
