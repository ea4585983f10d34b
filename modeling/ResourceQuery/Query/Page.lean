import ResourceQuery.Json.Value
import ResourceQuery.Store.Row

/-!
# Query — Page

A page of rows, and where it stands among all rows that the same conditions select.
-/

namespace ResourceQuery

/-- Where a page stands. -/
structure Pagination where
  page : UInt32
  limit : UInt32
  total : UInt64
  deriving DecidableEq, Repr

namespace Pagination

/-- The number of pages, the last one perhaps not full; a size of none counts as one. -/
def totalPages (p : Pagination) : Nat :=
  let size := max 1 p.limit.toNat
  (p.total.toNat + (size - 1)) / size

/-- The document of a pagination. -/
def toJson (p : Pagination) : Json :=
  .obj [("page", .int p.page.toNat), ("limit", .int p.limit.toNat), ("total", .int p.total.toNat),
    ("totalPages", .int p.totalPages)]

end Pagination

/-- A page of results. -/
structure ResultPage where
  items : List Row
  pagination : Pagination
  deriving Repr

/-- The document of a page. -/
def ResultPage.toJson (p : ResultPage) : Json :=
  .obj [("items", .arr (p.items.map .obj)), ("pagination", p.pagination.toJson)]

end ResourceQuery
