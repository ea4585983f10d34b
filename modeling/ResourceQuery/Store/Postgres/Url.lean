import ResourceQuery.Number.Power
import ResourceQuery.Url.Basic

/-!
# Store — Postgres — Url

The URL of a PostgreSQL database.  Any scheme will do.  User, password and path are percent-encoded
text, and so is a host that stands for the path of a socket.  Some settings of the query have to be
of a certain form, wherever they are given, and the others may be anything.
-/

namespace ResourceQuery

/-- What a URL of PostgreSQL asks for, as far as a connection depends on it. -/
structure PostgresUrl where
  /-- The server is asked for through a socket in the file system. -/
  socket : Bool
  /-- The server's machine, empty for this one. -/
  host : String
  deriving DecidableEq, Repr

namespace PostgresUrl

/-- The ways of encrypting a connection. -/
def encryptions : List String :=
  ["disable", "allow", "prefer", "require", "verify-ca", "verify-full"]

/-- A number below `bound`, with a plus sign in front or not. -/
def isBelow (bound : Nat) (value : String) : Bool :=
  let cs := match value.toList with
    | '+' :: cs => cs
    | cs => cs
  match Text.nat? cs with
  | some n => n < bound
  | none => false

/-- A setting of the query is of the form it has to be. -/
def isSetting (key value : String) : Bool :=
  match key with
  | "sslmode" | "ssl-mode" => encryptions.any fun e => Text.sameAscii e.toList value.toList
  | "statement-cache-capacity" => isBelow longCount value
  | "port" => isBelow 65536 value
  | "hostaddr" => Url.isIpv4 value.toList || Url.isIpv6 value.toList
  | _ => true

/-- A percent-encoded text. -/
def isEncoded (cs : List Char) : Bool :=
  (Text.percentDecode? (String.ofList cs)).isSome

/-- A host that stands for the path of a socket. -/
def isSocket (host : List Char) : Bool :=
  (Text.percentBytes (Text.utf8 (String.ofList host))).head? == some (Text.byte '/')

/-- The hosts that the query of a URL names. -/
def namedHosts (settings : List (String × String)) : List String :=
  (settings.filter fun s => s.1 == "host" || s.1 == "hostaddr").map Prod.snd

/-- What a URL asks for: the host that is named last, or a socket wherever one is named. -/
def ofUrl? (u : Url) : Option PostgresUrl :=
  let settings := Text.formPairs u.query
  let named := namedHosts settings
  let sockets := named.filter fun h => h.toList.head? == some '/'
  let hosts := named.filter fun h => h.toList.head? != some '/'
  if [u.username, u.password, u.path].all isEncoded &&
      (!isSocket u.host || isEncoded u.host) && settings.all fun s => isSetting s.1 s.2 then
    some {
      socket := isSocket u.host || !sockets.isEmpty
      host := hosts.getLast?.getD (String.ofList u.host) }
  else none

/-- The URL a text writes. -/
def parse? (url : String) : Option PostgresUrl :=
  (Url.parse? url).bind ofUrl?

/-- The names and addresses of this machine. -/
def isHere (u : PostgresUrl) : Bool :=
  !u.socket && (u.host.isEmpty || Text.sameAscii u.host.toList "localhost".toList ||
    "127.".toList.isPrefixOf u.host.toList || u.host == "::1" || u.host == "[::1]")

end PostgresUrl
end ResourceQuery
