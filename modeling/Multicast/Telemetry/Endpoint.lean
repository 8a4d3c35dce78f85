/-!
Addresses to which spans can be sent. An address names a host, perhaps after a scheme, and with a
scheme perhaps a path and a query too; an address that begins with `unix:` names a local socket.
-/

namespace Multicast.Endpoint

def maxLength : Nat := 65534

def maxScheme : Nat := 64

/-- The most colons that a host and its port hold. -/
def maxColons : Nat := 8

def isSchemeChar (c : Char) : Bool := c.isAlphanum || "+-.~".toList.contains c

/-- Whether the character may stand between a scheme and a path, escapes aside. -/
def isHostChar (c : Char) : Bool := c.isAlphanum || "!$&'()*+,-.:;=@[]_~".toList.contains c

def endsHost (c : Char) : Bool := c == '/' || c == '?' || c == '#'

def isPathChar (c : Char) : Bool :=
  c.isAlphanum || "!$%&'()*+,-./:;=@[\\]^_|~\"\x7b\x7d".toList.contains c || decide (0x7f ≤ c.toNat)

def isQueryChar (c : Char) : Bool := isPathChar c && c != '"' || "?\x60".toList.contains c

/-- What has been seen of a host. -/
structure HostScan where
  colons : Nat := 0
  opened : Bool := false
  closed : Bool := false
  /-- An escape that may not be part of a host. -/
  escaped : Bool := false
  /-- The last character ended the name of a user. -/
  afterUser : Bool := false
  deriving DecidableEq, Repr

namespace HostScan

/-- Goes on with one character, if it may stand there. What looks like the port of a user or of an
address in brackets does not count. -/
def step (s : HostScan) (c : Char) : Option HostScan :=
  let s := { s with afterUser := false }
  if c = ':' then if s.colons < maxColons then some { s with colons := s.colons + 1 } else none
  else if c = '[' then if s.escaped || s.opened then none else some { s with opened := true }
  else if c = ']' then
    if !s.opened || s.closed then none
    else some { s with closed := true, colons := 0, escaped := false }
  else if c = '@' then some { s with colons := 0, escaped := false, afterUser := true }
  else if c = '%' then some { s with escaped := true }
  else if isHostChar c then some s
  else none

def isWell (s : HostScan) : Bool :=
  s.opened == s.closed && decide (s.colons ≤ 1) && !s.afterUser && !s.escaped

end HostScan

/-- Whether the characters form a host, perhaps with a user and a port. -/
def isHost (cs : List Char) : Bool := ((cs.foldlM HostScan.step {}).map (·.isWell)).getD false

/-- Whether the characters form a path, perhaps with a query; nothing is asked of what follows a
number sign. -/
def isPath (cs : List Char) : Bool :=
  let path := cs.takeWhile fun c => c != '?' && c != '#'
  let query :=
    match cs.dropWhile fun c => c != '?' && c != '#' with
    | '?' :: rest => rest.takeWhile (· != '#')
    | _ => []
  path.all isPathChar && query.all isQueryChar

/-- The scheme and what follows its two slashes, if there is a scheme. -/
def scheme? (cs : List Char) : Option (List Char × List Char) :=
  match cs.dropWhile isSchemeChar with
  | ':' :: '/' :: '/' :: rest => some (cs.takeWhile isSchemeChar, rest)
  | _ => none

/-- Whether spans can be sent to the address. -/
def isValid (address : String) : Bool :=
  let cs := address.toList
  if "unix:".toList.isPrefixOf cs then true
  else if address.isEmpty || decide (maxLength < address.utf8ByteSize) then false
  else if cs = ['*'] then true
  else if cs.head? = some '/' then isPath cs
  else
    match scheme? cs with
    | none => cs.all (fun c => !endsHost c) && isHost cs
    | some (scheme, rest) =>
      let host := rest.takeWhile fun c => !endsHost c
      decide (scheme.length ≤ maxScheme) && !host.isEmpty && isHost host &&
        isPath (rest.dropWhile fun c => !endsHost c)

end Multicast.Endpoint
