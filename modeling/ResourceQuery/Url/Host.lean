import ResourceQuery.Text.Percent
import ResourceQuery.Url.Address

/-!
# Url — Host

The host of a URL: an address of version 6 in brackets, or a name.  Which signs a name may have
depends on the scheme.  For most schemes it stays as it is written.  For a few, those of the web and
of files, it is the name of a domain: it is percent-decoded first, may have fewer signs, and may be
an address of version 4.
-/

namespace ResourceQuery.Url

/-- What may not stand in a name. -/
def isForbidden (c : Char) : Bool :=
  c.toNat == 0 || [' ', '\t', '\n', '\r', '#', '/', ':', '<', '>', '?', '@', '[', '\\', ']', '^',
    '|'].contains c

/-- What may not stand in the name of a domain. -/
def isForbiddenInDomain (c : Char) : Bool :=
  isForbidden c || c.toNat < 0x20 || c.toNat == 0x7F || c == '%'

/-- The name of a domain, or an address of version 4. -/
def isDomain (cs : List Char) : Bool :=
  match Text.percentDecode? (String.ofList cs) with
  | none => false
  | some s =>
      !s.isEmpty && s.toList.all (fun c => !isForbiddenInDomain c) &&
        (!endsInNumber s.toList || isLooseIpv4 s.toList)

/-- A host; `domain` tells whether a name has to be that of a domain. -/
def isHost (domain : Bool) (cs : List Char) : Bool :=
  match cs with
  | '[' :: rest => rest.getLast? == some ']' && isIpv6 rest.dropLast
  | _ => if domain then isDomain cs else cs.all fun c => !isForbidden c

/-- The host a text starts with, up to a colon that is not in brackets, and what follows it. -/
def cutHost (inBrackets : Bool) : List Char → List Char × List Char
  | [] => ([], [])
  | c :: cs =>
      if c = ':' ∧ !inBrackets then ([], c :: cs)
      else
        let (host, rest) := cutHost (c == '[' || (inBrackets && c != ']')) cs
        (c :: host, rest)

end ResourceQuery.Url
