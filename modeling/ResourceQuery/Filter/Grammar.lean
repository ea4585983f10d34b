import ResourceQuery.Config.Limits
import ResourceQuery.Filter.Violation
import ResourceQuery.Json.Parser
import ResourceQuery.Text.Identifier

/-!
# Filter — Grammar

A filter is an object of fields, each an object of operators with their values:
`{"age": {"gte": 18, "lt": 65}}`.

`findings` reads the operations in the order of the document, and finds a condition or a violation
for each; a field whose name or form is wrong gives one violation for all of its operations.
`validate` accepts a filter without any violation.
-/

namespace ResourceQuery

/-- An operation of a filter, with its value read. -/
structure Condition where
  field : String
  operator : Operator
  value : Value
  deriving DecidableEq, Repr

namespace Filter

/-- A single value against the limits. -/
def checkScalar (l : Limits) (op : Operator) : Scalar → Except Complaint Unit
  | .str s => if l.maxStringLength < s.length then .error (.longString op l.maxStringLength) else .ok ()
  | _ => .ok ()

/-- A value against the limits. -/
def checkValue (l : Limits) (op : Operator) : Value → Except Complaint Unit
  | .scalar x => checkScalar l op x
  | .list xs =>
      if l.maxArrayLength < xs.length then .error (.longArray op l.maxArrayLength)
      else xs.forM (checkScalar l op)

/-- The operator and value of one operation. -/
def readOperation (l : Limits) (name : String) (j : Json) : Except Complaint (Operator × Value) :=
  match Operator.ofName? name with
  | none => .error (.unknownOperator name)
  | some op =>
      match Value.ofJson op j with
      | .error u => .error (.unsupported op u)
      | .ok v =>
          match checkValue l op v with
          | .error c => .error c
          | .ok () => .ok (op, v)

/-- What an operation comes to. -/
abbrev Finding := Except Violation Condition

/-- The finding of one operation on a field. -/
def operationFinding (l : Limits) (field : String) (o : String × Json) : Finding :=
  match readOperation l o.1 o.2 with
  | .error c => .error ⟨field, c⟩
  | .ok (op, v) => .ok ⟨field, op, v⟩

/-- The findings of one field. -/
def fieldFindings (l : Limits) (m : String × Json) : List Finding :=
  if !Text.isIdentifier m.1 then [.error ⟨m.1, .invalidName⟩]
  else match m.2 with
    | .obj ops => ops.map (operationFinding l m.1)
    | _ => [.error ⟨m.1, .noOperators⟩]

/-- The findings of a filter, in the order of the document. -/
def findings (l : Limits) (fields : List (String × Json)) : List Finding :=
  fields.flatMap (fieldFindings l)

/-- The operations of a field; a field of another form counts as one. -/
def operationCount : Json → Nat
  | .obj ops => ops.length
  | _ => 1

/-- The operations of a filter. -/
def operations (fields : List (String × Json)) : Nat :=
  fields.foldr (fun m n => operationCount m.2 + n) 0

/-- The violations among some findings. -/
def violations (fs : List Finding) : List Violation :=
  fs.filterMap fun f => match f with
    | .error v => some v
    | .ok _ => none

/-- The conditions among some findings. -/
def conditions (fs : List Finding) : List Condition :=
  fs.filterMap fun f => match f with
    | .error _ => none
    | .ok c => some c

/-- The conditions of a filter, or all that is wrong with it.  Operations are counted before any of
them is read. -/
def validate (l : Limits) : Json → Except (List Violation) (List Condition)
  | .obj fields =>
      if l.maxFilterOperations < operations fields then
        .error [.general (.tooManyOperations (operations fields) l.maxFilterOperations)]
      else
        let fs := findings l fields
        if (violations fs).isEmpty then .ok (conditions fs) else .error (violations fs)
  | _ => .error [.general .notAnObject]

/-- The document of a filter given as text. -/
def parse (l : Limits) (s : String) : Except (List Violation) Json :=
  if l.maxFilterBytes < s.utf8ByteSize then
    .error [.general (.oversizedText l.maxFilterBytes)]
  else match Json.parse? s with
    | some j => .ok j
    | none => .error [.general .malformedText]

end Filter
end ResourceQuery
