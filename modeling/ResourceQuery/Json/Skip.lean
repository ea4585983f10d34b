import ResourceQuery.Json.Number
import ResourceQuery.Json.Token

/-!
# Json — Skip

Passing over a document.  What it holds is not looked at: a number may be of any size, an escape may
stand for half a character, and arrays and objects may be inside one another as deep as they like.
Only the signs have to be those of strict JSON.

`skipFrom?` keeps the arrays and objects that are still open, the innermost first.
-/

namespace ResourceQuery.Json

/-- What follows the closing quote of a string whose opening quote has been read. -/
def skipString? : List Char → Option (List Char)
  | [] => none
  | '"' :: rest => some rest
  | '\\' :: 'u' :: a :: b :: c :: d :: rest =>
      match hex4? a b c d with
      | none => none
      | some _ => skipString? rest
  | '\\' :: c :: rest =>
      match shortEscape? c with
      | none => none
      | some _ => skipString? rest
  | c :: rest => if c = '\\' ∨ c.toNat < 0x20 then none else skipString? rest
termination_by structural cs => cs

/-- What follows a string, a number or a word. -/
def skipLeaf? : List Char → Option (List Char)
  | '"' :: rest => skipString? rest
  | cs => ((literal? cs).map Prod.snd).or ((numeral? cs).map Prod.snd)

/-- What is open: an array or an object. -/
inductive Enclosure where
  | array
  | object
  deriving DecidableEq, Repr

namespace Enclosure

/-- The bracket that closes it. -/
def closing : Enclosure → Char
  | array => ']'
  | object => '}'

/-- What stands before a value in it: nothing, or a key and a colon. -/
def lead? : Enclosure → List Char → Option (List Char)
  | array, cs => some cs
  | object, cs =>
      match skipSpace cs with
      | '"' :: rest =>
          match (skipString? rest).map skipSpace with
          | some (':' :: r) => some r
          | _ => none
      | _ => none

end Enclosure

/-- What has to follow. -/
inductive Awaited where
  /-- A value. -/
  | value
  /-- The first value in what has been opened, or its end. -/
  | entry
  /-- A comma and another value, or the end; nothing if nothing is open. -/
  | rest
  deriving DecidableEq, Repr

/-- What follows the outermost document, `opened` being open.  The first argument bounds the number
of steps and is never short of twice the text's length. -/
def skipFrom? : Nat → List Enclosure → Awaited → List Char → Option (List Char)
  | 0, _, _, _ => none
  | fuel + 1, opened, .value, cs =>
      match skipSpace cs with
      | '[' :: r => skipFrom? fuel (.array :: opened) .entry r
      | '{' :: r => skipFrom? fuel (.object :: opened) .entry r
      | r =>
          match skipLeaf? r with
          | none => none
          | some r => skipFrom? fuel opened .rest r
  | _ + 1, [], _, cs => some cs
  | fuel + 1, e :: opened, awaited, cs =>
      match skipSpace cs with
      | [] => none
      | c :: r =>
          if c = e.closing then skipFrom? fuel opened .rest r
          else
            match (if awaited = .entry then some (c :: r) else if c = ',' then some r else none) with
            | none => none
            | some r =>
                match e.lead? r with
                | none => none
                | some r => skipFrom? fuel (e :: opened) .value r

/-- What follows the document `cs` starts with. -/
def skip? (cs : List Char) : Option (List Char) :=
  skipFrom? (2 * cs.length + 2) [] .value cs

end ResourceQuery.Json
