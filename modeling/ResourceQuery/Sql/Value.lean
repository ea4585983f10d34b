import ResourceQuery.Number.Double
import ResourceQuery.Time.Instant

/-!
# Sql — Value

The values a statement binds.  They travel beside the statement's text and never inside it.
-/

namespace ResourceQuery

/-- A bound value. -/
inductive SqlValue where
  | text (s : String)
  /-- An integer of any size; one that is bound for a request has at most 64 bits, with its sign. -/
  | int (n : Int)
  | float (d : Double)
  | bool (b : Bool)
  | timestamp (t : Instant)
  deriving DecidableEq, Repr

end ResourceQuery
