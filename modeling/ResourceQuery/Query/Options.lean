import ResourceQuery.Config.Limits
import ResourceQuery.Filter.Grammar
import ResourceQuery.Json.Record
import ResourceQuery.Number.Power
import ResourceQuery.Query.Error
import ResourceQuery.Text.Identifier

/-!
# Query — Options

A list request as it comes in (`ListRequest`) and as it is carried out (`QueryOptions`).  A query
string carries everything as text, so numbers, booleans and filters may come as text too.

`ListRequest.normalize` falls back to the first page and the default size where the page or the size
is no positive number, and refuses a malformed sort key, a search term of a wrong length, a filter
text that does not parse and an unclear boolean, in this order.
-/

namespace ResourceQuery

/-- The direction of a sort. -/
inductive SortDirection where
  | asc
  | desc
  deriving DecidableEq, Repr

/-- The keyword of a direction. -/
def SortDirection.keyword : SortDirection → String
  | asc => "ASC"
  | desc => "DESC"

/-- A field to sort by. -/
structure SortKey where
  field : String
  direction : SortDirection
  deriving DecidableEq, Repr

/-- The sort key a text writes: an identifier, after a hyphen for the descending order. -/
def SortKey.parse? (limit : Nat) (s : String) : Option SortKey :=
  let key : SortKey := match s.toList with
    | '-' :: cs => ⟨String.ofList cs, .desc⟩
    | _ => ⟨s, .asc⟩
  if limit < s.utf8ByteSize || !Text.isIdentifier key.field then none else some key

/-- A list request as it comes in. -/
structure ListRequest where
  page : Option Json := none
  limit : Option Json := none
  sort : Option String := none
  search : Option String := none
  fields : Option (List String) := none
  /-- An object, or its text. -/
  filter : Option Json := none
  includeDeleted : Option Json := none
  deriving Repr

/-- A list request as it is carried out. -/
structure QueryOptions where
  page : UInt32 := 1
  limit : UInt32 := 20
  sort : Option SortKey := none
  search : Option String := none
  /-- The fields asked for; all visible ones if there is no list. -/
  fields : Option (List String) := none
  filter : Option Json := none
  excludeDeleted : Bool := true
  deriving Repr

/-- A text, or an array of texts. -/
def textsOfJson? : Json → Option (List String)
  | .str s => some [s]
  | j => Json.strings? j

namespace ListRequest

/-- The fields of a request, in the order of a record. -/
def keys : List String :=
  ["page", "limit", "sort", "search", "fields", "filter", "includeDeleted"]

/-- The request a document holds. -/
def ofJson? (j : Json) : Option ListRequest := do
  match ← j.record? keys 0 with
  | [page, limit, sort, search, fields, filter, includeDeleted] =>
      return {
        page := ← Json.optional some page
        limit := ← Json.optional some limit
        sort := ← Json.optional Json.string? sort
        search := ← Json.optional Json.string? search
        fields := ← Json.optional textsOfJson? fields
        filter := ← Json.optional some filter
        includeDeleted := ← Json.optional some includeDeleted }
  | _ => none

/-- The largest page number and size. -/
def maxWord : Nat := wordCount - 1

/-- A positive number given as one or as text; a larger one than any page counts as the largest. -/
def positive? (j : Json) : Option UInt32 :=
  let n? : Option Int := match j with
    | .int n => some n
    | .str s =>
        match Value.ofItems s with
        | [.int n _] => some n
        | _ => none
    | _ => none
  match n? with
  | some n => if 0 < n then some (UInt32.ofNat (min n.toNat maxWord)) else none
  | none => none

/-- The page asked for. -/
def pageNumber (r : ListRequest) : UInt32 :=
  (r.page.bind positive?).getD 1

/-- The size of a page: the one asked for, moved within the bounds, or else the default one. -/
def pageSize (l : Limits) (r : ListRequest) : Except Refusal UInt32 :=
  match r.limit.bind positive? with
  | none => .ok l.defaultLimit
  | some n =>
      match l.clamp? n with
      | some m => .ok m
      | none => .error (.invertedBounds l.minLimit l.maxLimit)

/-- A text without the white space at its ends, if anything is left of it. -/
def trimmed? (s : Option String) : Option String :=
  match s.map Text.trim with
  | some t => if t.isEmpty then none else some t
  | none => none

/-- The sort key asked for. -/
def sortKey (l : Limits) (r : ListRequest) : Except QueryError (Option SortKey) :=
  match trimmed? r.sort with
  | none => .ok none
  | some s =>
      match SortKey.parse? l.maxSortLength s with
      | some key => .ok (some key)
      | none => .error (.invalidSortField s)

/-- The term to search for. -/
def searchTerm (l : Limits) (r : ListRequest) : Except QueryError (Option String) :=
  match trimmed? r.search with
  | none => .ok none
  | some s =>
      if s.length < l.minSearchLength || l.maxSearchLength < s.length then
        .error (.invalidOption (.searchLength l.minSearchLength l.maxSearchLength))
      else .ok (some s)

/-- The fields asked for, if there are any. -/
def fieldNames (r : ListRequest) : Option (List String) :=
  match r.fields.map fun fs => fs.flatMap Text.items with
  | some [] => none
  | fs => fs

/-- The filter asked for. -/
def filterDocument (l : Limits) (r : ListRequest) : Except QueryError (Option Json) :=
  match r.filter with
  | none => .ok none
  | some .null => .ok none
  | some (.str s) =>
      if (Text.trim s).isEmpty then .ok none
      else ((Filter.parse l s).map some).mapError .invalidFilter
  | some j => .ok (some j)

/-- A boolean given as one or as text, `0` and `1` included. -/
def boolean : Json → Except QueryError Bool
  | .null => .ok false
  | .bool b => .ok b
  | .str s =>
      match Scalar.ofText (Text.trim s) with
      | .bool b _ => .ok b
      | .int n _ =>
          if n = 0 then .ok false
          else if n = 1 then .ok true
          else .error (.invalidOption (.notBoolean ("'" ++ s ++ "'")))
      | _ => .error (.invalidOption (.notBoolean ("'" ++ s ++ "'")))
  | j => .error (.invalidOption (.notBoolean j.compact))

/-- Deleted rows are left out. -/
def excludes (r : ListRequest) : Except QueryError Bool :=
  match r.includeDeleted with
  | none => .ok true
  | some j => (boolean j).map not

/-- The request as it is carried out. -/
def normalize (l : Limits) (r : ListRequest) : Except Refusal QueryOptions := do
  let limit ← r.pageSize l
  let sort ← (r.sortKey l).mapError .query
  let search ← (r.searchTerm l).mapError .query
  let filter ← (r.filterDocument l).mapError .query
  let excludeDeleted ← r.excludes.mapError .query
  return { page := r.pageNumber, limit, sort, search, fields := r.fieldNames, filter,
           excludeDeleted }

end ListRequest
end ResourceQuery
