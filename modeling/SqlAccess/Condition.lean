/-
Condition lists: predicates with explicit markers where a group opens and closes.

`checkGroups` accepts the lists in which every group closes, none closes early and none is empty, and points at the first
fault. `Connection.compileConditions` checks first and then writes entry by entry; the keyword of an entry is left out at
the start of the list and of a group.
-/
import SqlAccess.Connection

namespace SqlAccess

/-- how an entry joins the entry before it -/
inductive Logic where
  | and
  | or
  deriving DecidableEq, Repr

def Logic.keyword : Logic → Text
  | .and => "AND"
  | .or => "OR"

/-- one entry of a condition list -/
inductive Condition where
  | opening (logic : Logic)
  | closing
  | predicate (logic : Logic) (column : Identifier) (operator : Text) (value : Value)

namespace Condition

/-- the logic of an entry; a closing marker has none -/
def logic? : Condition → Option Logic
  | .opening logic => some logic
  | .closing => none
  | .predicate logic _ _ _ => some logic

/-- equality of entries, values compared as numbers where they are floats -/
def same : Condition → Condition → Bool
  | .opening a, .opening b => a == b
  | .closing, .closing => true
  | .predicate la ca oa va, .predicate lb cb ob vb => la == lb && ca == cb && oa == ob && va.same vb
  | _, _ => false

/-! ## Groups -/

/-- The check from position `index` on, with `depth` groups open; `justOpened` tells whether the entry before opened one. -/
def checkGroupsFrom (index depth : Nat) (justOpened : Bool) : List Condition → Except Invalid Unit
  | [] => if depth = 0 then .ok () else .error (.groupsLeftOpen depth)
  | .opening _ :: r => checkGroupsFrom (index + 1) (depth + 1) true r
  | .predicate _ _ _ _ :: r => checkGroupsFrom (index + 1) depth false r
  | .closing :: r =>
    if depth = 0 then .error (.unmatchedClose index)
    else if justOpened then .error (.emptyGroup (index - 1))
    else checkGroupsFrom (index + 1) (depth - 1) false r

/-- every group closes, none closes early, none is empty; else the first fault -/
def checkGroups (conditions : List Condition) : Except Invalid Unit := checkGroupsFrom 0 0 false conditions

def sameAll : List Condition → List Condition → Bool
  | [], [] => true
  | a :: as, b :: bs => a.same b && sameAll as bs
  | _, _ => false

end Condition

/-! ## Writing -/

/-- An operator without blanks around it and in upper case; against NULL, `=` is `IS` and `!=` and `<>` are `IS NOT`. -/
def normalOperator (operator : Text) (value : Value) : Text :=
  let operator := operator.trim.upper
  if value.isNull then
    if operator = ['='] then "IS"
    else if operator = ['!', '='] ∨ operator = ['<', '>'] then "IS NOT"
    else operator
  else operator

namespace Connection

variable {σ : Type}

/-- The right-hand side of a predicate. A range has exactly two bounds; a set is an expression or stands in parentheses. -/
def compileOperand (conn : Connection σ) (column operator : Text) (value : Value) : Action σ Text :=
  if operator = "BETWEEN" ∨ operator = "NOT BETWEEN" then
    match value with
    | .list [low, high] => do
      let low ← conn.quote low
      let high ← conn.quote high
      return low ++ " AND " ++ high
    | _ => throw (.validation (.boundsNeeded operator column))
  else if operator = "IN" ∨ operator = "NOT IN" then
    match value with
    | .expression sql => pure sql
    | value => do
      let items ← conn.quote value
      return '(' :: (items ++ [')'])
  else conn.quote value

/-- one predicate: column, operator, value -/
def compilePredicate (conn : Connection σ) (column : Identifier) (operator : Text) (value : Value) :
    Action σ Text := do
  let column ← conn.quoteColumn column
  let operand ← conn.compileOperand column (normalOperator operator value) value
  return column ++ ' ' :: (normalOperator operator value ++ ' ' :: operand)

/-- the keyword before an entry, where one is due -/
def logicText (due : Bool) (logic : Logic) : Text := if due then ' ' :: (logic.keyword ++ [' ']) else []

/-- the entries of a checked list; `due` tells whether the next entry shows its keyword -/
def compileEntries (conn : Connection σ) (due : Bool) : List Condition → Action σ Text
  | [] => pure []
  | .opening logic :: r => do
    let others ← conn.compileEntries false r
    return logicText due logic ++ '(' :: others
  | .closing :: r => do
    let others ← conn.compileEntries true r
    return ')' :: others
  | .predicate logic column operator value :: r => do
    let entry ← conn.compilePredicate column operator value
    let others ← conn.compileEntries true r
    return logicText due logic ++ entry ++ others

/-- a condition list without its clause keyword; nothing is quoted before the groups are found in order -/
def compileConditions (conn : Connection σ) (conditions : List Condition) : Action σ Text :=
  match Condition.checkGroups conditions with
  | .error e => throw (.validation e)
  | .ok () => conn.compileEntries false conditions

/-- ` KEYWORD conditions`, or nothing for an empty list -/
def compileFilter (conn : Connection σ) (keyword : Text) (conditions : List Condition) : Action σ Text :=
  if conditions.isEmpty then pure []
  else do
    let text ← conn.compileConditions conditions
    return ' ' :: (keyword ++ ' ' :: text)

end Connection

end SqlAccess
