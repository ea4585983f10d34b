import ResourceQuery.Filter.Grammar
import ResourceQuery.Query.Error
import ResourceQuery.Schema.AllowList
import ResourceQuery.Schema.Table
import ResourceQuery.Sql.Predicate
import ResourceQuery.Text.Substring
import ResourceQuery.Time.Reading
import ResourceQuery.Time.Span

/-!
# Query — Compile

Conditions of a filter as predicates on a table's columns.  A field is resolved through the
allow-list first and the table second, so that a caller cannot tell a hidden field from an absent
one.

A condition may come to nothing: an empty list given to an operator on one value, or an empty set.
An operator on one value takes the first element of a longer list.
-/

namespace ResourceQuery

/-- The column behind a field a caller names. -/
def resolve (t : Table) (a : AllowList) (field : String) : Except QueryError Column :=
  if !a.contains field then .error (.fieldNotAllowed field)
  else match t.column? field with
    | some c => .ok c
    | none => .error (.fieldNotFound field)

namespace Condition

/-- A value as bound for a column: text columns take the text the value was read from, boolean
columns also 0 and 1, timestamp columns a date, an RFC 3339 text or seconds since 1970. -/
def bind? : ColumnType → Scalar → Option SqlValue
  | .text, x => x.text?.map .text
  | .integer, .int n _ => some (.int n)
  | .integer, .float d _ => some (.float d)
  | .real, .int n _ => some (.int n)
  | .real, .float d _ => some (.float d)
  | .boolean, .bool b _ => some (.bool b)
  | .boolean, .int n _ =>
      if n = 0 then some (.bool false) else if n = 1 then some (.bool true) else none
  | .timestamp, .str s => (Time.ofRequestText? s).map .timestamp
  | .timestamp, .int n _ => (Instant.ofSeconds? n).map .timestamp
  | _, _ => none

/-- A value as bound for a column. -/
def bind (type : ColumnType) (x : Scalar) : Except ValueFault SqlValue :=
  match bind? type x with
  | some v => .ok v
  | none => .error (.mismatch type x)

/-- An instant as bound for a column: numeric columns hold seconds since 1970. -/
def bindInstant (type : ColumnType) (t : Instant) : Except ValueFault SqlValue :=
  match type with
  | .timestamp => .ok (.timestamp t)
  | .integer => .ok (.int t.seconds)
  | .real => .ok (.float (Double.ofInt t.seconds))
  | .text => .ok (.text t.text)
  | .boolean => .error .noDates

/-- A comparison with a value. -/
def compare (col : Column) (c : Comparison) (x : Scalar) : Except ValueFault Predicate :=
  match x with
  | .null =>
      match c with
      | .eq => .ok (.isNull col false)
      | .ne => .ok (.isNull col true)
      | _ => .error .unordered
  | x => do return .compare col c (← bind col.type x)

/-- The text contains, or does not contain, that of a value. -/
def contains (col : Column) (negated : Bool) (x : Scalar) : Except ValueFault Predicate :=
  match x.text? with
  | some s => .ok (.like col (Text.containsPattern s) negated)
  | none => .error .noText

/-- An element of a set as bound for a column. -/
def bindElement (type : ColumnType) : Scalar → Except ValueFault SqlValue
  | .null => .error .nullInSet
  | x => bind type x

/-- The elements of a set. -/
def elements : Value → List Scalar
  | .list xs => xs
  | .scalar .null => []
  | .scalar x => [x]

/-- The column's value is, or is not, among those of a set. -/
def member (col : Column) (negated : Bool) (xs : List Scalar) : Except ValueFault Predicate := do
  return .inList col (← xs.mapM (bindElement col.type)) negated

/-- The column's value lies between two numbers. -/
def between (col : Column) (v : Value) : Except ValueFault Predicate :=
  if col.type = .text ∨ col.type = .boolean then .error (.noRange col.type)
  else match v with
    | .list [low, high] =>
        if !low.isNumeric || !high.isNumeric then .error (.notNumeric low high)
        else do return .between col (← bind col.type low) (← bind col.type high)
    | _ => .error (.notTwo v)

/-- The column's date lies in a relative range. -/
def relative (clock : Clock) (col : Column) (v : Value) : Except ValueFault Predicate :=
  match v.first? with
  | some (.str expr) =>
      match (clock.range? expr).bind fun r => r.instants? clock.zone with
      | some (low, high) =>
          do return .between col (← bindInstant col.type low) (← bindInstant col.type high)
      | none => .error (.notRelative expr)
  | some x => .error (.notRelative x.shown)
  | none => .error (.notRelative "")

/-- The predicate of an operation on a column, if it comes to one. -/
def predicate (clock : Clock) (col : Column) (op : Operator) (v : Value) :
    Except ValueFault (Option Predicate) :=
  match op with
  | .compare c =>
      match v.first? with
      | some x => (compare col c x).map some
      | none => .ok none
  | .contains negated =>
      match v.first? with
      | some x => (contains col negated x).map some
      | none => .ok none
  | .member negated =>
      match elements v with
      | [] => .ok none
      | xs => (member col negated xs).map some
  | .empty negated => .ok (some (.isNull col negated))
  | .between => (between col v).map some
  | .relative => (relative clock col v).map some

/-- The predicate of a condition, if it comes to one. -/
def compile (clock : Clock) (t : Table) (a : AllowList) (c : Condition) :
    Except QueryError (Option Predicate) :=
  match resolve t a c.field with
  | .error e => .error e
  | .ok col => (predicate clock col c.operator c.value).mapError (.invalidValue c.field c.operator)

end Condition

/-- The columns callers may touch, in the order of the allow-list. -/
def visibleColumns (t : Table) (a : AllowList) : List Projected :=
  a.names.filterMap fun field => (t.column? field).map fun c => ⟨field, c⟩

/-- The predicate that some visible column contains a term; none if no column is visible. -/
def search? (t : Table) (a : AllowList) (term : String) : Option Predicate :=
  match visibleColumns t a with
  | [] => none
  | cs => some (.any (cs.map fun c => .like c.column (Text.containsPattern term) false))

end ResourceQuery
