/-!
# Text — Identifier

Bare identifiers: an ASCII letter or underscore, then ASCII letters, digits and underscores.
Field names, sort keys and configured names are identifiers before they come near a query.
-/

namespace ResourceQuery.Text

/-- What an identifier may start with. -/
def isIdentifierStart (c : Char) : Bool :=
  ('a' ≤ c && c ≤ 'z') || ('A' ≤ c && c ≤ 'Z') || c == '_'

/-- What an identifier may go on with. -/
def isIdentifierRest (c : Char) : Bool :=
  isIdentifierStart c || ('0' ≤ c && c ≤ '9')

/-- Identifiers, as characters. -/
def isIdentifierChars : List Char → Bool
  | [] => false
  | c :: cs => isIdentifierStart c && cs.all isIdentifierRest

/-- `s` is a bare identifier. -/
def isIdentifier (s : String) : Bool :=
  isIdentifierChars s.toList

end ResourceQuery.Text
