import ResourceQuery.Filter.Operator
import ResourceQuery.Json.Printer
import ResourceQuery.Text.Blank
import ResourceQuery.Text.Fold
import ResourceQuery.Text.Numeral

/-!
# Filter — Value

Values as a request carries them.  A query string has nothing but text, so text that looks like a
boolean or a number is one, whatever carried it; the text it was read from is kept beside it, since
a text column compares with `007` and not with 7.

* `Scalar.ofText` reads one text.
* `Value.ofJson` reads a document for an operator: an array becomes a list, and so does a
  comma-joined text if the operator takes more than one value.
-/

namespace ResourceQuery

/-- A single value. -/
inductive Scalar where
  | null
  | str (s : String)
  /-- An integer of any size; one that is read has at most 64 bits, with its sign. -/
  | int (n : Int) (raw : String)
  | float (d : Double) (raw : String)
  | bool (b : Bool) (raw : String)
  deriving DecidableEq, Repr

/-- The value of a filter operation. -/
inductive Value where
  | scalar (x : Scalar)
  | list (xs : List Scalar)
  deriving DecidableEq, Repr

/-- Documents that are no filter value. -/
inductive Unsupported where
  | nestedArray
  | object
  deriving DecidableEq, Repr

/-- The wording of a refusal. -/
def Unsupported.message : Unsupported → String
  | nestedArray => "nested arrays are not allowed"
  | object => "objects are not allowed"

namespace Scalar

/-- A decimal numeral: an optional minus, digits, and decimals after a point if there is one.  The
number is `±c / 10ᵏ`. -/
def decimal? (cs : List Char) : Option (Bool × Nat × Nat) :=
  let (negative, ds) := match cs with
    | '-' :: ds => (true, ds)
    | ds => (false, ds)
  let whole := ds.takeWhile Char.isDigit
  match ds.dropWhile Char.isDigit with
  | [] => (Text.nat? whole).map fun n => (negative, n, 0)
  | '.' :: fs =>
      if whole.isEmpty || fs.isEmpty || !fs.all Char.isDigit then none
      else some (negative, Text.natOfDigits (whole ++ fs), fs.length)
  | _ => none

/-- The integer of 64 bits that `cs` writes, without a plus. -/
def integer? (cs : List Char) : Option Int :=
  match decimal? cs with
  | some (negative, n, 0) =>
      let i : Int := if negative then -(n : Int) else n
      if Text.fitsSigned i then some i else none
  | _ => none

/-- The finite double that `cs` writes as a decimal numeral. -/
def double? (cs : List Char) : Option Double :=
  match decimal? cs with
  | some (negative, c, k) =>
      let d := Double.ofDecimal negative c k
      if d.isFinite then some d else none
  | none => none

/-- The value of a text: a boolean, an integer, a double, or else the text itself. -/
def ofText (s : String) : Scalar :=
  let cs := s.toList
  if Text.sameAscii cs "true".toList then .bool true s
  else if Text.sameAscii cs "false".toList then .bool false s
  else match integer? cs with
    | some n => .int n s
    | none =>
        match double? cs with
        | some d => .float d s
        | none => .str s

/-- The value of a document that is no array or object. -/
def ofJson : Json → Except Unsupported Scalar
  | .null => .ok .null
  | .bool b => .ok (.bool b (if b then "true" else "false"))
  | .int n =>
      .ok (if Text.fitsSigned n then .int n (Json.intText n)
        else .float (Double.ofInt n) (Json.intText n))
  | .double d => .ok (.float d (Style.json.text d))
  | .str s => .ok (ofText s)
  | .arr _ => .error .nestedArray
  | .obj _ => .error .object

/-- The text a value was read from. -/
def text? : Scalar → Option String
  | null => none
  | str s => some s
  | int _ raw => some raw
  | float _ raw => some raw
  | bool _ raw => some raw

/-- Integers and doubles. -/
def isNumeric : Scalar → Bool
  | int _ _ => true
  | float _ _ => true
  | _ => false

/-- What kind of value this is, in messages. -/
def kind : Scalar → String
  | null => "null"
  | str _ => "string"
  | int _ _ => "integer"
  | float _ _ => "number"
  | bool _ _ => "boolean"

/-- A value in messages. -/
def shown (x : Scalar) : String :=
  x.text?.getD "null"

end Scalar

namespace Value

/-- The values of a comma-joined text. -/
def ofItems (s : String) : List Scalar :=
  (Text.items s).map Scalar.ofText

/-- The value of a document, for an operator. -/
def ofJson (op : Operator) : Json → Except Unsupported Value
  | .arr js => (js.mapM Scalar.ofJson).map list
  | .str s =>
      if op.splits && s.toList.contains ',' then .ok (list (ofItems s))
      else .ok (scalar (Scalar.ofText s))
  | j => (Scalar.ofJson j).map scalar

/-- The text of a single value that has one. -/
def text? : Value → Option String
  | scalar x => x.text?
  | list _ => none

/-- A single integer or double. -/
def isNumeric : Value → Bool
  | scalar x => x.isNumeric
  | list _ => false

/-- What kind of value this is, in messages. -/
def kind : Value → String
  | scalar x => x.kind
  | list _ => "array"

/-- A value in messages: the elements of a list stand between brackets, commas between. -/
def shown : Value → String
  | scalar x => x.shown
  | list xs => "[" ++ String.intercalate "," (xs.map Scalar.shown) ++ "]"

/-- A single value, or the first of a list. -/
def first? : Value → Option Scalar
  | scalar x => some x
  | list xs => xs.head?

end Value
end ResourceQuery
