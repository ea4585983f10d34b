import ResourceQuery.Filter.Value
import ResourceQuery.Store.Error

/-!
# Filter — Violation

What can be wrong with the shape of a filter, each fault with the field it is about.
-/

namespace ResourceQuery

/-- A fault in the shape of a filter. -/
inductive Complaint where
  /-- The text is longer than this many bytes. -/
  | oversizedText (limit : Nat)
  | malformedText
  | notAnObject
  | tooManyOperations (count limit : Nat)
  | invalidName
  | noOperators
  | unknownOperator (name : String)
  | unsupported (op : Operator) (reason : Unsupported)
  | longArray (op : Operator) (limit : Nat)
  | longString (op : Operator) (limit : Nat)
  deriving DecidableEq, Repr

/-- The wording of a fault. -/
def Complaint.message : Complaint → String
  | oversizedText limit =>
      "filter JSON exceeds maximum size of " ++ toString limit ++ " bytes"
  | malformedText => "filter is not valid JSON: " ++ elided
  | notAnObject => "filter must be an object of field -> \x7b operator: value \x7d"
  | tooManyOperations count limit =>
      "too many filter operations: " ++ toString count ++ " (max " ++ toString limit ++ ")"
  | invalidName => "invalid field name"
  | noOperators => "expected an object of operators"
  | unknownOperator name => "unknown operator '" ++ name ++ "'"
  | unsupported op reason => op.name ++ ": " ++ reason.message
  | longArray op limit => op.name ++ ": array exceeds " ++ toString limit ++ " elements"
  | longString op limit => op.name ++ ": string exceeds " ++ toString limit ++ " characters"

/-- A fault and the field it is about; the empty name stands for no field. -/
structure Violation where
  field : String
  complaint : Complaint
  deriving DecidableEq, Repr

namespace Violation

/-- A fault about no field. -/
def general (c : Complaint) : Violation := ⟨"", c⟩

/-- The wording of a violation. -/
def message (v : Violation) : String :=
  if v.field.isEmpty then v.complaint.message else v.field ++ ": " ++ v.complaint.message

end Violation
end ResourceQuery
