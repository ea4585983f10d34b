import ResourceQuery.Text.Fold
import ResourceQuery.Url.Host

/-!
# Url — Basic

URLs and their parts.  A URL is a scheme and a colon, and then, in most cases, two slashes and an
authority: a user with a password before an `@`, a host, and a port after a colon.  The path follows
up to a question mark, the query up to a `#`, and what comes after that is not kept.

A few schemes, those of the web, always have an authority with a host, however many slashes there
are, and take a backslash for a slash.  Files have a host at most.

`Url.parse?` reads all of that.  The parts are as written, still encoded; only the path has its `.`
and `..` resolved.
-/

namespace ResourceQuery

/-- A URL. -/
structure Url where
  scheme : List Char
  username : List Char := []
  password : List Char := []
  host : List Char := []
  port : Option Nat := none
  path : List Char
  query : List Char := []
  deriving DecidableEq, Repr

namespace Url

/-- What a scheme makes of what follows it. -/
inductive Kind where
  /-- An authority after two slashes. -/
  | plain
  /-- An authority always. -/
  | web
  /-- A host after two slashes. -/
  | file
  deriving DecidableEq, Repr

/-- The schemes of the web. -/
def webSchemes : List String :=
  ["http", "https", "ws", "wss", "ftp"]

/-- The kind of a scheme in small letters. -/
def Kind.ofScheme (scheme : List Char) : Kind :=
  if scheme = "file".toList then file
  else if webSchemes.any fun w => w.toList == scheme then web
  else plain

/-- A slash. -/
def Kind.isSlash (k : Kind) (c : Char) : Bool :=
  c == '/' || (k != .plain && c == '\\')

/-- What may follow the first letter of a scheme. -/
def isSchemeChar (c : Char) : Bool :=
  c.isAlphanum || c == '+' || c == '-' || c == '.'

/-- A letter, and what may follow it in a scheme. -/
def isScheme : List Char → Bool
  | [] => false
  | c :: cs => c.isAlpha && cs.all isSchemeChar

/-! ## Paths -/

/-- How many points a segment of nothing else has, plain or encoded. -/
def countPoints? : List Char → Option Nat
  | [] => some 0
  | '.' :: cs => (countPoints? cs).map (· + 1)
  | '%' :: '2' :: c :: cs =>
      if c = 'e' ∨ c = 'E' then (countPoints? cs).map (· + 1) else none
  | _ => none

/-- The segments of a path, the last one first, after another one. -/
def addSegment (done : List (List Char)) (segment : List Char) : List (List Char) :=
  match countPoints? segment with
  | some 1 => done
  | some 2 => done.tail
  | _ => segment :: done

/-- A path from the root on with its `.` and `..` resolved; the first slash may be left out. -/
def resolvePath (k : Kind) : List Char → List Char
  | [] => []
  | c :: cs =>
      let cs := if k.isSlash c then cs else c :: cs
      let segments := Text.segments '/' (cs.map fun c => if k.isSlash c then '/' else c)
      (segments.foldl addSegment []).reverse.flatMap fun s => '/' :: s

/-! ## Authorities -/

/-- A port, and what follows it; no digits are no port. -/
def port? (cs : List Char) : Option (Option Nat × List Char) :=
  let digits := cs.takeWhile Char.isDigit
  let rest := cs.dropWhile Char.isDigit
  if digits.isEmpty then some (none, rest)
  else if Text.natOfDigits digits < 65536 then some (some (Text.natOfDigits digits), rest)
  else none

/-- The port after a host, and what follows it. -/
def afterHost? : List Char → Option (Option Nat × List Char)
  | ':' :: cs => port? cs
  | cs => some (none, cs)

/-- A host and a port.  The host may be empty only where a name need not be that of a domain and no
colon follows.  A backslash after the port belongs to the path, which `rest` goes on with. -/
def hostAndPort? (k : Kind) (u : Url) (cs rest : List Char) : Option Url := do
  let (host, cs) := cutHost false cs
  if host.isEmpty && (k != .plain || !cs.isEmpty) then none
  else if !isHost (k != .plain) host then none
  else
    let (port, cs) ← afterHost? cs
    if cs.isEmpty || cs.head? == some '\\' then
      return { u with host, port, path := resolvePath k (cs ++ rest) }
    else none

/-- An authority and a path; `more` tells whether a query or a fragment follows.  With a user there
has to be a host, and where an `@` stands alone nothing may follow. -/
def authority? (k : Kind) (u : Url) (more : Bool) (cs : List Char) : Option Url :=
  let authority := cs.takeWhile fun c => !k.isSlash c
  let rest := cs.dropWhile fun c => !k.isSlash c
  match Text.cutLast '@' authority with
  | (none, host) => hostAndPort? k u host rest
  | (some [], host) =>
      if host.isEmpty && (more || !rest.isEmpty) then none else hostAndPort? k u host rest
  | (some user, host) =>
      let (username, password) := Text.cutFirst ':' user
      let password := password.getD []
      if host.isEmpty && !(username.isEmpty && password.isEmpty) then none
      else hostAndPort? k { u with username, password } host rest

/-- The letter of a drive. -/
def isDrive : List Char → Bool
  | [c, d] => c.isAlpha && (d == ':' || d == '|')
  | _ => false

/-- The host of a file, if two slashes come first, and its path. -/
def file? (u : Url) (cs : List Char) : Option Url :=
  match cs with
  | a :: b :: rest =>
      if Kind.file.isSlash a && Kind.file.isSlash b then
        let host := rest.takeWhile fun c => !Kind.file.isSlash c
        let path := rest.dropWhile fun c => !Kind.file.isSlash c
        if host.isEmpty || isDrive host then some { u with path := resolvePath .file rest }
        else if isHost true host then some { u with host, path := resolvePath .file path }
        else none
      else some { u with path := resolvePath .file cs }
  | _ => some { u with path := resolvePath .file cs }

/-- What follows a scheme, up to the query. -/
def afterScheme? (k : Kind) (u : Url) (more : Bool) (cs : List Char) : Option Url :=
  match k with
  | .file => file? u cs
  | .web => authority? k u more (cs.dropWhile k.isSlash)
  | .plain =>
      match cs with
      | '/' :: '/' :: rest => authority? k u more rest
      | '/' :: rest => some { u with path := resolvePath k ('/' :: rest) }
      | _ => some { u with path := cs }

/-! ## Reading -/

/-- A text without the white space and control characters at its ends, and without any tabs and line
ends. -/
def trimmed (s : String) : List Char :=
  let front := s.toList.dropWhile fun c => c.toNat ≤ 0x20
  let both := (front.reverse.dropWhile fun c => c.toNat ≤ 0x20).reverse
  both.filter fun c => c != '\t' && c != '\n' && c != '\r'

/-- The URL a text writes. -/
def parse? (s : String) : Option Url :=
  match Text.cutFirst ':' (trimmed s) with
  | (scheme, some rest) =>
      let scheme' := scheme.map Text.lowerAscii
      let (rest, fragment) := Text.cutFirst '#' rest
      let (rest, query) := Text.cutFirst '?' rest
      if isScheme scheme then
        afterScheme? (.ofScheme scheme') { scheme := scheme', path := [], query := query.getD [] }
          (query.isSome || fragment.isSome) rest
      else none
  | (_, none) => none

end Url
end ResourceQuery
