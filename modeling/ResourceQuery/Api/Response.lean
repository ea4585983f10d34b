import ResourceQuery.Event
import ResourceQuery.Json.Value
import ResourceQuery.Query.Error

/-!
# Api — Response

Errors as a client is told them: a status and a body with a kind, a code and a message.  An error
that is the client's keeps its words and its field; of a failure of the store a client learns
nothing but that there was one, and its words go into an event.
-/

namespace ResourceQuery

/-- An error as a client is told it. -/
inductive ApiError where
  | badRequest (code message : String) (field : Option String)
  | notFound (code message : String)
  | internal (message : String)
  deriving DecidableEq, Repr

namespace ApiError

/-- The status of the answer. -/
def status : ApiError → Nat
  | badRequest _ _ _ => 400
  | notFound _ _ => 404
  | internal _ => 500

/-- The status with its reason. -/
def statusLine : ApiError → String
  | badRequest _ _ _ => "400 Bad Request"
  | notFound _ _ => "404 Not Found"
  | internal _ => "500 Internal Server Error"

/-- The message of the answer. -/
def message : ApiError → String
  | badRequest _ m _ => m
  | notFound _ m => m
  | internal m => m

/-- A body without a field. -/
def plainBody (kind code message : String) : List (String × Json) :=
  [("error", .str kind), ("code", .str code), ("message", .str message)]

/-- The body of the answer. -/
def body : ApiError → Json
  | badRequest code m field =>
      .obj (plainBody "bad_request" code m ++ (field.map fun f => ("field", Json.str f)).toList)
  | notFound code m => .obj (plainBody "not_found" code m)
  | internal m => .obj (plainBody "internal_error" "INTERNAL" m)

/-- A client's error under a code. -/
def ofClient (code : String) (e : QueryError) : ApiError :=
  .badRequest code e.message e.field?

/-- An error of a list request as a client is told it. -/
def ofQueryError (e : QueryError) : ApiError :=
  match e with
  | .invalidFilter _ => ofClient "INVALID_FILTER" e
  | .invalidOption _ => ofClient "INVALID_QUERY_OPTION" e
  | .fieldNotAllowed _ => ofClient "INVALID_FILTER_FIELD" e
  | .fieldNotFound _ => ofClient "FIELD_NOT_FOUND" e
  | .invalidValue _ _ _ => ofClient "INVALID_FILTER_VALUE" e
  | .noValidFields => ofClient "NO_VALID_FIELDS" e
  | .invalidSortField _ => ofClient "INVALID_SORT_FIELD" e
  | .store _ => .internal "Database operation failed"

end ApiError

/-- What is reported of an error of a list request: the failures of the store. -/
def QueryError.events : QueryError → List Event
  | store e =>
      [⟨.error, "Query execution failed", [("error", e.message), ("backend", e.backendName)]⟩]
  | _ => []

end ResourceQuery
