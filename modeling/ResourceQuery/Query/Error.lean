import ResourceQuery.Filter.Violation
import ResourceQuery.Schema.Column
import ResourceQuery.Store.Error

/-!
# Query — Error

Why a list request fails.  `QueryError.category` tells whose fault it is: every category but
`store` is the client's, and such an error is found before the store is asked anything.
`QueryError.field?` is the field of the request an error is about, if it is about exactly one.
-/

namespace ResourceQuery

/-- Why a value does not suit its operator or column. -/
inductive ValueFault where
  | unordered
  | noText
  | nullInSet
  | noRange (type : ColumnType)
  | notTwo (v : Value)
  | notNumeric (low high : Scalar)
  /-- What was given for a relative date, as messages show it. -/
  | notRelative (shown : String)
  | mismatch (type : ColumnType) (x : Scalar)
  | noDates
  deriving DecidableEq, Repr

/-- The wording of a fault. -/
def ValueFault.message : ValueFault → String
  | unordered => "null cannot be ordered"
  | noText => "expected a search string"
  | nullInSet => "null is not allowed in a set"
  | noRange type => type.name ++ " columns have no numeric range"
  | notTwo v => "expected exactly two numeric values, got " ++ v.shown
  | notNumeric low high =>
      "range bounds must be numeric, got [" ++ low.shown ++ ", " ++ high.shown ++ "]"
  | notRelative shown => "cannot parse relative date '" ++ shown ++ "'"
  | mismatch type x =>
      "expected " ++ type.name ++ " value, got " ++ x.kind ++ " '" ++ x.shown ++ "'"
  | noDates => "boolean columns cannot hold dates"

/-- Why an option of a request is refused. -/
inductive OptionFault where
  | searchLength (low high : Nat)
  /-- What was given for a boolean, as messages show it. -/
  | notBoolean (shown : String)
  deriving DecidableEq, Repr

/-- The option a fault is about. -/
def OptionFault.option : OptionFault → String
  | searchLength _ _ => "search"
  | notBoolean _ => "includeDeleted"

/-- The wording of a fault. -/
def OptionFault.message : OptionFault → String
  | searchLength low high =>
      "length must be between " ++ toString low ++ " and " ++ toString high ++ " characters"
  | notBoolean shown => "expected a boolean, got " ++ shown

/-- Why a list request fails. -/
inductive QueryError where
  | invalidFilter (vs : List Violation)
  | invalidOption (fault : OptionFault)
  | fieldNotAllowed (field : String)
  | fieldNotFound (field : String)
  | invalidValue (field : String) (op : Operator) (fault : ValueFault)
  | noValidFields
  | invalidSortField (field : String)
  | store (e : DataError)
  deriving DecidableEq, Repr

/-- The broad classes of errors. -/
inductive Category where
  | grammar
  | access
  | value
  | projection
  | sort
  | store
  deriving DecidableEq, Repr

/-- The request is at fault. -/
def Category.isClient (c : Category) : Bool :=
  c != .store

namespace QueryError

/-- The wording of an error. -/
def message : QueryError → String
  | invalidFilter vs => "Invalid filter: " ++ String.intercalate "; " (vs.map Violation.message)
  | invalidOption fault => "Invalid query option " ++ fault.option ++ ": " ++ fault.message
  | fieldNotAllowed field => "Invalid filter field: " ++ field
  | fieldNotFound field => "Field does not exist: " ++ field
  | invalidValue field op fault =>
      "Invalid value for " ++ field ++ " (" ++ op.name ++ "): " ++ fault.message
  | noValidFields => "No valid fields specified"
  | invalidSortField field => "Invalid sort field: " ++ field
  | store e => e.message

/-- The class of an error. -/
def category : QueryError → Category
  | invalidFilter _ => .grammar
  | invalidOption _ => .grammar
  | fieldNotAllowed _ => .access
  | fieldNotFound _ => .access
  | invalidValue _ _ _ => .value
  | noValidFields => .projection
  | invalidSortField _ => .sort
  | store _ => .store

/-- The field an error is about, if it is about exactly one. -/
def field? : QueryError → Option String
  | invalidFilter [v] => if v.field.isEmpty then none else some v.field
  | fieldNotAllowed field => some field
  | fieldNotFound field => some field
  | invalidValue field _ _ => some field
  | invalidSortField field => some field
  | _ => none

end QueryError

/-- Why no answer is planned: the request is at fault, or the limits are. -/
inductive Refusal where
  /-- The least page size exceeds the greatest. -/
  | invertedBounds (low high : UInt32)
  | query (e : QueryError)
  deriving DecidableEq, Repr

end ResourceQuery
