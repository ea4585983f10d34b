import ResourceQuery.Json.Value
import ResourceQuery.Number.Style
import ResourceQuery.Schema.Column
import ResourceQuery.Sql.Value
import ResourceQuery.Text.Numeral
import ResourceQuery.Time.Reading

/-!
# Store — Cell

Cells of SQLite.  A cell has a storage class whatever the type of its column, so reading takes the
class the type calls for and else another one that can stand in for it.

* `Stored.ofValue` is how a bound value is stored.
* `Stored.read?` is what a column of a type makes of a stored value.
* `Cell.toJson` is how the cell is returned.
-/

namespace ResourceQuery

/-- A value as it is stored, by storage class. -/
inductive Stored where
  | null
  | text (s : String)
  /-- An integer of any size; a database stores those of at most 64 bits, with their sign. -/
  | integer (n : Int)
  | real (d : Double)
  | blob
  deriving DecidableEq, Repr

/-- A value as it is read. -/
inductive Cell where
  | null
  | text (s : String)
  /-- An integer of any size; one that is read from a store has at most 64 bits, with its sign. -/
  | int (n : Int)
  | float (d : Double)
  | bool (b : Bool)
  | timestamp (t : Instant)
  deriving DecidableEq, Repr

/-- The document of a cell; a double that is not finite has none. -/
def Cell.toJson : Cell → Json
  | null => .null
  | text s => .str s
  | int n => .int n
  | float d => if d.isFinite then .double d else .null
  | bool b => .bool b
  | timestamp t => .str t.zuluText

namespace Stored

/-- How a bound value is stored: a NaN is no value, a boolean a number and an instant its text. -/
def ofValue : SqlValue → Stored
  | .text s => text s
  | .int n => integer n
  | .float d => if d.isNaN then null else real d
  | .bool b => integer (if b then 1 else 0)
  | .timestamp t => text t.text

/-- As text; numbers are written out. -/
def asText? : Stored → Option Cell
  | null => some .null
  | text s => some (.text s)
  | integer n => some (.text (toString n))
  | real d => some (.text (Style.plain.text d))
  | blob => none

/-- As a number of either kind. -/
def asNumber? : Stored → Option Cell
  | null => some .null
  | integer n => some (.int n)
  | real d => some (.float d)
  | _ => none

/-- As a boolean: any integer but 0 is true. -/
def asBoolean? : Stored → Option Cell
  | null => some .null
  | integer n => some (.bool (n != 0))
  | _ => none

/-- As an instant: seconds since 1970 or a date and time; other text stays text. -/
def asTimestamp? : Stored → Option Cell
  | null => some .null
  | integer n => (Instant.ofSeconds? n).map .timestamp
  | text s =>
      match Time.ofCellText? s with
      | some t => some (.timestamp t)
      | none => some (.text s)
  | _ => none

/-- What a column of a type makes of a stored value. -/
def read? (v : Stored) : ColumnType → Option Cell
  | .text => v.asText?
  | .integer => v.asNumber?
  | .real => v.asNumber?
  | .boolean => v.asBoolean?
  | .timestamp => v.asTimestamp?

end Stored
end ResourceQuery
