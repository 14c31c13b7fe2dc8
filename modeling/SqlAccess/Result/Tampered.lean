/-
Rows in memory that misbehave on purpose: a count of their own, rows that cannot be fetched, rows that are not there. How
often they have been released is counted.
-/
import SqlAccess.Result.Cursor

namespace SqlAccess

/-- rows with faults; a row that is both failing and missing fails -/
structure Tampered where
  set : RowSet
  count : Option UInt64
  failing : List UInt64
  missing : List UInt64
  releases : Nat
  deriving Repr

namespace Tampered

instance : NativeResult Tampered where
  rowCount t := t.count.getD (NativeResult.rowCount t.set)
  fetchRow index t :=
    if index ∈ t.failing then (.error (.query none "fetch failed" ("row " ++ Text.ofNat index.toNat)), t)
    else if index ∈ t.missing then (.ok none, t)
    else (.ok (t.set.row? index.toNat), t)
  release t := { t with set := NativeResult.release t.set, releases := t.releases + 1 }

end Tampered

end SqlAccess
