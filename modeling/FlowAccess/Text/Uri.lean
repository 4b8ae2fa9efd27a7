/-!
# Addresses of nodes

An address is a scheme, the authority that names a node, a path, a query and a fragment. The
authority ends at the first slash, question mark or number sign; it may hold user information
before an at sign and a host in brackets.
-/

namespace FlowAccess.Text.Uri

/-- What follows the scheme of an HTTP address. -/
def afterScheme? (address : String) : Option (List Char) :=
  let cs := address.toList
  let plain := "http://".toList
  let secured := "https://".toList
  if plain.isPrefixOf cs then some (cs.drop plain.length)
  else if secured.isPrefixOf cs then some (cs.drop secured.length)
  else none

/-! ## Authorities -/

/-- What counts of the part of an authority that has been read. -/
structure Authority where
  /-- The colons since the last at sign or closing bracket. -/
  colons : Nat := 0
  /-- Whether a percent sign has been read since. -/
  hasPercent : Bool := false
  opened : Bool := false
  closed : Bool := false
  deriving DecidableEq

/-- Whether a character may stand in an authority with no further meaning. -/
def isAuthorityChar (c : Char) : Bool :=
  c.isAlphanum || "!$&'()*+,-.;=_~".toList.contains c

namespace Authority

/-- Reads one more character. Brackets come once, and no percent sign before them. -/
def push (a : Authority) (c : Char) : Option Authority :=
  if c = ':' then if a.colons < 8 then some { a with colons := a.colons + 1 } else none
  else if c = '[' then if a.hasPercent || a.opened then none else some { a with opened := true }
  else if c = ']' then
    if a.opened && !a.closed then some { a with colons := 0, hasPercent := false, closed := true }
    else none
  else if c = '@' then some { a with colons := 0, hasPercent := false }
  else if c = '%' then some { a with hasPercent := true }
  else if isAuthorityChar c then some a
  else none

/-- Whether the authority may end: a host has at most one port and no percent sign. -/
def isComplete (a : Authority) : Bool := a.opened = a.closed && a.colons ≤ 1 && !a.hasPercent

end Authority

/-- Whether a text names a node. -/
def isAuthority (cs : List Char) : Bool :=
  match cs.getLast? with
  | none => false
  | some last => last ≠ '@' && (cs.foldlM Authority.push {}).any Authority.isComplete

/-! ## What follows the authority -/

/-- Whether a character ends an authority. -/
def isDelimiter (c : Char) : Bool := c = '/' || c = '?' || c = '#'

/-- Whether a character is printed in ASCII and is not blank. -/
def isVisible (c : Char) : Bool := 0x20 < c.toNat && c.toNat < 0x7F

/-- Whether a character may stand in a path as it is. -/
def isPathChar (c : Char) : Bool := isVisible c && c ≠ '<' && c ≠ '>' && c ≠ '\x60'

/-- Whether a character may stand in a query as it is. -/
def isQueryChar (c : Char) : Bool := isVisible c && c ≠ '"' && c ≠ '<' && c ≠ '>'

/-- Whether a text is a path, and a query after a question mark, up to a fragment. -/
def isPathAndQuery (cs : List Char) : Bool :=
  let isEnd (c : Char) : Bool := c = '?' || c = '#'
  (cs.takeWhile (!isEnd ·)).all isPathChar &&
    match cs.dropWhile (!isEnd ·) with
    | '?' :: query => (query.takeWhile (· ≠ '#')).all isQueryChar
    | _ => true

/-- The longest address in bytes. -/
def longest : Nat := 65534

/-- Whether an address with an HTTP scheme can be connected to. -/
def isWellFormed (address : String) : Bool :=
  address.utf8ByteSize ≤ longest &&
    match afterScheme? address with
    | none => false
    | some cs =>
      isAuthority (cs.takeWhile (!isDelimiter ·)) && isPathAndQuery (cs.dropWhile (!isDelimiter ·))

end FlowAccess.Text.Uri
