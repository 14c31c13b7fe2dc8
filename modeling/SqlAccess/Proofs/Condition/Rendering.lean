/-
Condition lists as the text of their trees.

The text of a forest is said by recursion on its trees (`Tree.textAll`): trees stand side by side with the logic of the
right one between them, the first of a list or group shows none, and a group stands in parentheses. Entries are written
one by one, each knowing only whether its keyword is due; what they write of a tree is that tree's text
(`compileEntries_tree`), so a forest written down compiles to its text (`compileConditions_entriesAll`).
-/
import SqlAccess.Proofs.Action
import SqlAccess.Proofs.Condition.Tree

namespace SqlAccess

/-! ## Texts of trees -/

/-- the logic between two trees -/
def Logic.joint : Logic → Text
  | .and => " AND "
  | .or => " OR "

namespace Tree

mutual

/-- a tree of texts as text, a group in parentheses -/
def text : Tree Text → Text
  | .leaf _ t => t
  | .group _ first others => '(' :: (text first ++ textBehind others ++ [')'])

/-- trees that stand behind another, each behind its logic -/
def textBehind : List (Tree Text) → Text
  | [] => []
  | t :: ts => t.logic.joint ++ text t ++ textBehind ts

end

/-- a forest of texts as text; the first tree shows no logic -/
def textAll : List (Tree Text) → Text
  | [] => []
  | t :: ts => text t ++ textBehind ts

variable {σ α β γ : Type}

mutual

/-- the tree with the answers of an action in the place of its leaves, asked for from left to right -/
def traverse (f : α → Action σ β) : Tree α → Action σ (Tree β)
  | .leaf logic a => do
    let b ← f a
    return .leaf logic b
  | .group logic first others => do
    let first ← traverse f first
    let others ← traverseAll f others
    return .group logic first others

/-- the forest with the answers of an action in the place of its leaves, asked for from left to right -/
def traverseAll (f : α → Action σ β) : List (Tree α) → Action σ (List (Tree β))
  | [] => pure []
  | t :: ts => do
    let first ← traverse f t
    let others ← traverseAll f ts
    return first :: others

end

/-- The logic in front of a tree stays. -/
theorem traverse_logic (f : α → Action σ β) (t : Tree α) (g : Logic → Tree β → Action σ γ) :
    (traverse f t >>= fun t' => g t'.logic t') = traverse f t >>= fun t' => g t.logic t' := by
  cases t with
  | leaf logic a => simp [traverse, Tree.logic]
  | group logic first others => simp [traverse, Tree.logic]

mutual

/-- What is asked of the leaves is asked of them one after the other, in order. -/
theorem leaves_traverse (f : α → Action σ β) : ∀ t : Tree α,
    (do let t' ← traverse f t; return t'.leaves) = t.leaves.mapM f
  | .leaf logic a => by simp [traverse, leaves]
  | .group logic first others => by
    rw [leaves, List.mapM_append, ← leaves_traverse f first, ← leaves_traverseAll f others]
    simp [traverse, leaves]

theorem leaves_traverseAll (f : α → Action σ β) : ∀ ts : List (Tree α),
    (do let ts' ← traverseAll f ts; return leavesAll ts') = (leavesAll ts).mapM f
  | [] => by simp [traverseAll, leavesAll]
  | t :: ts => by
    rw [leavesAll, List.mapM_append, ← leaves_traverse f t, ← leaves_traverseAll f ts]
    simp [traverseAll, leavesAll]

end

/-- A forest fails as its leaves do. -/
theorem traverseAll_eq_error_iff {f : α → Action σ β} {ts : List (Tree α)} {state state' : σ} {e : Error} :
    traverseAll f ts state = (.error e, state') ↔ (leavesAll ts).mapM f state = (.error e, state') := by
  rw [← leaves_traverseAll, Action.map_eq_error_iff]

theorem mapM_of_traverseAll {f : α → Action σ β} {ts : List (Tree α)} {ts' : List (Tree β)} {state state' : σ}
    (h : traverseAll f ts state = (.ok ts', state')) : (leavesAll ts).mapM f state = (.ok (leavesAll ts'), state') := by
  rw [← leaves_traverseAll, Action.bind_of_ok h, Action.pure_run]

end Tree

namespace Connection

variable {σ : Type}

/-! ## Entries written tree by tree -/

theorem logicText_due (logic : Logic) : logicText true logic = logic.joint := by
  cases logic <;> simp [logicText, Logic.joint, Logic.keyword, Text.lit_eq]

def predicateText (conn : Connection σ) (p : Predicate) : Action σ Text :=
  conn.compilePredicate p.column p.operator p.value

mutual

/-- The entries of a tree are written as its text, with the keyword in front where it is due, and one is due behind
it. -/
theorem compileEntries_tree (conn : Connection σ) : ∀ (t : Tree Predicate) (due : Bool) (rest : List Condition),
    conn.compileEntries due (t.entries ++ rest) = do
      let t' ← t.traverse conn.predicateText
      let others ← conn.compileEntries true rest
      return logicText due t.logic ++ t'.text ++ others
  | .leaf logic p, due, rest => by
    simp [Tree.entries, Tree.traverse, Tree.text, Tree.logic, compileEntries, predicateText]
  | .group logic first others, due, rest => by
    rw [Tree.entries, List.cons_append, List.append_assoc, List.append_assoc, compileEntries,
      compileEntries_tree conn first, compileEntries_trees conn others]
    simp [Tree.traverse, Tree.text, Tree.logic, compileEntries, logicText]

/-- Behind another tree the entries of a forest are written as the trees' texts, each behind its logic. -/
theorem compileEntries_trees (conn : Connection σ) : ∀ (ts : List (Tree Predicate)) (rest : List Condition),
    conn.compileEntries true (Tree.entriesAll ts ++ rest) = do
      let ts' ← Tree.traverseAll conn.predicateText ts
      let others ← conn.compileEntries true rest
      return Tree.textBehind ts' ++ others
  | [], rest => by simp [Tree.entriesAll, Tree.traverseAll, Tree.textBehind]
  | t :: ts, rest => by
    rw [Tree.entriesAll, List.append_assoc, compileEntries_tree conn t, compileEntries_trees conn ts]
    simp only [Tree.traverseAll, Tree.textBehind, bind_assoc, pure_bind, logicText_due]
    have hlogic := Tree.traverse_logic conn.predicateText t fun logic t' => (do
      let ts' ← Tree.traverseAll conn.predicateText ts
      let others ← conn.compileEntries true rest
      return logic.joint ++ t'.text ++ Tree.textBehind ts' ++ others : Action σ Text)
    rw [hlogic]
    simp

end

/-- **A forest written down compiles to its text.** -/
theorem compileConditions_entriesAll (conn : Connection σ) (forest : List (Tree Predicate)) :
    conn.compileConditions (Tree.entriesAll forest) = do
      let texts ← Tree.traverseAll conn.predicateText forest
      return Tree.textAll texts := by
  rw [compileConditions, Condition.checkGroups_entriesAll]
  cases forest with
  | nil => rfl
  | cons t ts =>
    have htree := compileEntries_tree conn t false (Tree.entriesAll ts)
    have htrees := compileEntries_trees conn ts []
    rw [List.append_nil] at htrees
    simp [Tree.entriesAll, htree, htrees, Tree.traverseAll, Tree.textAll, logicText, compileEntries]

end Connection

end SqlAccess
