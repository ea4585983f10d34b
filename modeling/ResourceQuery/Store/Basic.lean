import ResourceQuery.Sql.Statement
import ResourceQuery.Store.Row

/-!
# Store — Basic

A store is asked for rows, with the columns they have, and for their number.  `Answers` is a store
that answers the same whatever it is asked, and `Change` what it answers differently from some time
on.
-/

namespace ResourceQuery

/-- A store: how it answers for rows and for their number. -/
structure Store where
  rows : Statement → List Projected → Except DataError (List Row)
  count : Statement → Except DataError UInt64

/-- What a store answers whatever it is asked. -/
structure Answers where
  rows : List Row := []
  total : UInt64 := 0
  rowsFault : Option DataError := none
  countFault : Option DataError := none

/-- The store of some answers. -/
def Answers.store (a : Answers) : Store where
  rows _ _ := match a.rowsFault with
    | some e => .error e
    | none => .ok a.rows
  count _ := match a.countFault with
    | some e => .error e
    | none => .ok a.total

/-- What a store answers differently from now on. -/
structure Change where
  rows : Option (List Row) := none
  total : Option UInt64 := none
  rowsFault : Option (Option DataError) := none
  countFault : Option (Option DataError) := none

/-- The answers after a change. -/
def Answers.after (a : Answers) (c : Change) : Answers :=
  { rows := c.rows.getD a.rows
    total := c.total.getD a.total
    rowsFault := c.rowsFault.getD a.rowsFault
    countFault := c.countFault.getD a.countFault }

end ResourceQuery
