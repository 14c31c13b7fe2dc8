/-
TOML documents as trees while they are read, and the values they end up as.

A table remembers how it came to be, because that decides what may still be added: `[header]` tables are `explicit`, tables
passed through by a header are `implied` until their own header comes, tables made by dotted keys are `dotted` and stay
open to dotted keys only. Arrays of tables take further tables at their end. Everything behind an equals sign is closed.
-/
import SqlAccess.Table
import SqlAccess.Toml.Moment
import SqlAccess.Toml.Number

namespace SqlAccess

namespace Toml

/-- a value; a number stays as it is written -/
inductive Value where
  | string (t : Text)
  | boolean (b : Bool)
  | number (n : Number)
  | moment (m : Moment)
  | array (items : List Value)
  | table (entries : List (Text × Value))

/-- how a table came to be -/
inductive Origin where
  | explicit
  | implied
  | dotted
  deriving DecidableEq, Repr

inductive Node where
  | value (v : Value)
  | table (origin : Origin) (entries : List (Text × Node))
  | tables (items : List (List (Text × Node)))

abbrev Entries := List (Text × Node)

/-! ## Adding to a document -/

/-- A change at the end of a path, making the tables on the way; along a dotted key explicit tables are closed. -/
def under (dotted : Bool) (change : Origin → Entries → Option Entries) :
    List Text → Origin → Entries → Option Entries
  | [], origin, entries => change origin entries
  | key :: path, _, entries =>
    match List.lookup key entries with
    | none =>
      let origin := if dotted then Origin.dotted else .implied
      (under dotted change path origin []).map fun sub => Table.put key (.table origin sub) entries
    | some (.table origin sub) =>
      if dotted && origin == .explicit then none
      else (under dotted change path origin sub).map fun sub => Table.put key (.table origin sub) entries
    | some (.tables items) =>
      (under dotted change path .explicit (items.getLast?.getD [])).map fun sub =>
        Table.put key (.tables (items.dropLast ++ [sub])) entries
    | some (.value _) => none

/-- A value at the end of a dotted key. The table it goes into was made by dotted keys, or is the current one. -/
def assign (path : List Text) (key : Text) (v : Value) : Entries → Option Entries :=
  under true
    (fun origin entries =>
      if (origin == .dotted) == path.isEmpty then none
      else if (List.lookup key entries).isSome then none
      else some (Table.put key (.value v) entries))
    path .explicit

/-- the table of a `[header]`, which may not have been defined before -/
def define (path : List Text) (key : Text) : Entries → Option Entries :=
  under false
    (fun _ entries =>
      match List.lookup key entries with
      | none => some (Table.put key (.table .explicit []) entries)
      | some (.table .implied sub) => some (Table.put key (.table .explicit sub) entries)
      | some _ => none)
    path .explicit

/-- one more table of a `[[header]]` -/
def defineNext (path : List Text) (key : Text) : Entries → Option Entries :=
  under false
    (fun _ entries =>
      match List.lookup key entries with
      | none => some (Table.put key (.tables [[]]) entries)
      | some (.tables items) => some (Table.put key (.tables (items ++ [[]])) entries)
      | some _ => none)
    path .explicit

def assignIn (header path : List Text) (key : Text) (v : Value) : Entries → Option Entries :=
  under false (fun _ entries => assign path key v entries) header .explicit

/-! ## The finished document -/

mutual

def Value.isReadable : Value → Bool
  | .number n => n.isReadable
  | .array items => allReadable items
  | .table entries => entriesReadable entries
  | _ => true

def allReadable : List Value → Bool
  | [] => true
  | v :: r => v.isReadable && allReadable r

def entriesReadable : List (Text × Value) → Bool
  | [] => true
  | (_, v) :: r => v.isReadable && entriesReadable r

end

mutual

def Node.finish : Node → Value
  | .value v => v
  | .table _ entries => .table (finishEntries entries)
  | .tables items => .array (finishTables items)

def finishEntries : List (Text × Node) → List (Text × Value)
  | [] => []
  | (key, node) :: r => (key, node.finish) :: finishEntries r

def finishTables : List (List (Text × Node)) → List Value
  | [] => []
  | entries :: r => .table (finishEntries entries) :: finishTables r

end

end Toml

end SqlAccess
