import ResourceQuery.Sql.Predicate

/-!
# Filter — Operator

The operators of a filter and their names.  Four operators have two names, of which `name` is the
one messages use.
-/

namespace ResourceQuery

/-- How many values an operator takes. -/
inductive Arity where
  /-- Exactly one. -/
  | one
  /-- Any number. -/
  | many
  /-- A lower and an upper bound. -/
  | range
  /-- The value is passed over. -/
  | ignored
  deriving DecidableEq, Repr

/-- An operator of a filter. -/
inductive Operator where
  | compare (c : Comparison)
  /-- The text contains a given one, or does not. -/
  | contains (negated : Bool)
  /-- The value is among given ones, or is not. -/
  | member (negated : Bool)
  /-- There is no value, or there is one. -/
  | empty (negated : Bool)
  | between
  /-- The date lies in a relative range such as `last 7 days`. -/
  | relative
  deriving DecidableEq, Repr

namespace Operator

/-- The name of an operator in messages. -/
def name : Operator → String
  | compare c => c.name
  | contains false => "matches"
  | contains true => "notMatches"
  | member false => "in"
  | member true => "notIn"
  | empty false => "isEmpty"
  | empty true => "isNotEmpty"
  | between => "isBetween"
  | relative => "isRelativeToToday"

/-- The operator of a name in a request. -/
def ofName? : String → Option Operator
  | "eq" => some (compare .eq)
  | "ne" => some (compare .ne)
  | "gt" => some (compare .gt)
  | "lt" => some (compare .lt)
  | "gte" => some (compare .gte)
  | "lte" => some (compare .lte)
  | "iLike" => some (contains false)
  | "matches" => some (contains false)
  | "notILike" => some (contains true)
  | "notMatches" => some (contains true)
  | "inArray" => some (member false)
  | "in" => some (member false)
  | "notInArray" => some (member true)
  | "notIn" => some (member true)
  | "isEmpty" => some (empty false)
  | "isNotEmpty" => some (empty true)
  | "isBetween" => some between
  | "isRelativeToToday" => some relative
  | _ => none

/-- An operator is read back from its name. -/
theorem ofName?_name : ∀ op : Operator, ofName? op.name = some op
  | compare .eq | compare .ne | compare .gt | compare .lt | compare .gte | compare .lte => rfl
  | contains false | contains true | member false | member true => rfl
  | empty false | empty true | between | relative => rfl

/-- How many values an operator takes. -/
def arity : Operator → Arity
  | compare _ => .one
  | contains _ => .one
  | member _ => .many
  | empty _ => .ignored
  | between => .range
  | relative => .one

/-- A comma-joined text is a list to the operators that take more than one value. -/
def splits (op : Operator) : Bool :=
  op.arity == .many || op.arity == .range

end Operator
end ResourceQuery
