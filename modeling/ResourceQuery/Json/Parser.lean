import ResourceQuery.Json.Skip

/-!
# Json — Parser

Reading strict JSON: no comments, no trailing commas, and at most 127 arrays and objects inside one
another.

A document is read for a `Shape`: all of it, or as records of which only some members are known.
Members that nobody asks for are passed over, for which they only have to be JSON by their signs.
`documentOf?` keeps every member it reads as written; `parse?` reads all of a document and merges
repeated keys.
-/

namespace ResourceQuery.Json

/-- What is looked for in a document.  A document of another form is read whole. -/
inductive Shape where
  /-- All of it. -/
  | whole
  /-- An array of elements of one shape. -/
  | items (element : Shape)
  /-- An object with known keys, the values of each of a shape of its own.  Its other members are
  either read whole or passed over. -/
  | record (known : List (String × Shape)) (others : Bool)

namespace Shape

/-- A record of some keys, nothing else of which is looked for. -/
def fields (names : List String) : Shape :=
  .record (names.map fun n => (n, .whole)) false

/-- What is looked for in an element of an array. -/
def element : Shape → Shape
  | items s => s
  | _ => whole

/-- What is looked for in a member of an object; `none` where it is passed over. -/
def member? (key : String) : Shape → Option Shape
  | record known others =>
      match known.lookup key with
      | some s => some s
      | none => if others then some whole else none
  | _ => some whole

end Shape

/-- How many arrays and objects a document may have inside one another. -/
def maxDepth : Nat := 127

mutual

/-- The document `cs` starts with, at most `depth` levels deep, and what follows it.  The first
argument bounds the length of the search and is never short of the text's length. -/
def value? : Nat → Nat → Shape → List Char → Option (Json × List Char)
  | 0, _, _, _ => none
  | fuel + 1, depth, shape, cs =>
      match skipSpace cs with
      | [] => none
      | '"' :: rest => (quoted? ('"' :: rest)).map fun (s, r) => (.str s, r)
      | '[' :: rest =>
          match depth with
          | 0 => none
          | depth + 1 =>
              match skipSpace rest with
              | ']' :: r => some (.arr [], r)
              | r => (items? fuel depth shape.element r).map fun (js, r) => (.arr js, r)
      | '{' :: rest =>
          match depth with
          | 0 => none
          | depth + 1 =>
              match skipSpace rest with
              | '}' :: r => some (.obj [], r)
              | r => (members? fuel depth shape r).map fun (ms, r) => (.obj ms, r)
      | r => (literal? r).or (number? r)

/-- The elements of an array up to and including its bracket. -/
def items? : Nat → Nat → Shape → List Char → Option (List Json × List Char)
  | 0, _, _, _ => none
  | fuel + 1, depth, shape, cs =>
      match value? fuel depth shape cs with
      | none => none
      | some (j, r) =>
          match skipSpace r with
          | ',' :: r => (items? fuel depth shape r).map fun (js, r) => (j :: js, r)
          | ']' :: r => some ([j], r)
          | _ => none

/-- The members of an object up to and including its brace. -/
def members? : Nat → Nat → Shape → List Char → Option (List (String × Json) × List Char)
  | 0, _, _, _ => none
  | fuel + 1, depth, shape, cs =>
      match member? fuel depth shape cs with
      | none => none
      | some (m, r) =>
          match skipSpace r with
          | ',' :: r => (members? fuel depth shape r).map fun (ms, r) => (m.toList ++ ms, r)
          | '}' :: r => some (m.toList, r)
          | _ => none

/-- A member of an object, unless it is passed over, and what follows it. -/
def member? : Nat → Nat → Shape → List Char → Option (Option (String × Json) × List Char)
  | 0, _, _, _ => none
  | fuel + 1, depth, shape, cs =>
      match quoted? (skipSpace cs) with
      | none => none
      | some (k, r) =>
          match skipSpace r, shape.member? k with
          | ':' :: r, some s => (value? fuel depth s r).map fun (j, r) => (some (k, j), r)
          | ':' :: r, none => (skip? r).map fun r => (none, r)
          | _, _ => none

end

/-- The document a text holds, every member that is looked for as written. -/
def documentOf? (shape : Shape) (s : String) : Option Json :=
  let cs := s.toList
  match value? (3 * cs.length + 3) maxDepth shape cs with
  | some (j, r) => if (skipSpace r).isEmpty then some j else none
  | none => none

/-- The document a text holds, repeated keys merged. -/
def parse? (s : String) : Option Json :=
  (documentOf? .whole s).map merged

end ResourceQuery.Json
