import Reckoner.Text.Hex
import Reckoner.Text.Utf8

/-!
# Addresses of an orchestrator

An address is an `http` URL with a host. A request to it asks for its target: the path without dot
segments and the query, both with characters escaped that may not stand in them. What follows a
`#` is not sent.
-/

namespace Reckoner.Rpc

/-- The bytes of a character, each as a percent sign and two capital digits. -/
def percentEncode (c : Char) : List Char :=
  (Text.toBytes c.toString).flatMap fun byte =>
    ['%', (Text.hexDigit (byte.toNat / 16)).toUpper, (Text.hexDigit (byte.toNat % 16)).toUpper]

/-- Whether a character of a path is escaped. -/
def isEscapedInPath (c : Char) : Bool :=
  c.toNat ≤ 0x20 || 0x7f ≤ c.toNat || ['"', '#', '<', '>', '?', '^', '`', '\x7b', '\x7d'].contains c

/-- Whether a character of a query is escaped. -/
def isEscapedInQuery (c : Char) : Bool :=
  c.toNat ≤ 0x20 || 0x7f ≤ c.toNat || ['"', '#', '<', '>', '\''].contains c

/-- The text with some of its characters escaped. -/
def escape (isEscaped : Char → Bool) (text : List Char) : List Char :=
  text.flatMap fun c => if isEscaped c then percentEncode c else [c]

/-- Whether a character separates the segments of a path. -/
def isSeparator (c : Char) : Bool := c == '/' || c == '\\'

/-- The segments of a path; `current` is the front of the first one, reversed. -/
def segments (current : List Char) : List Char → List (List Char)
  | [] => [current.reverse]
  | c :: rest =>
    if isSeparator c then current.reverse :: segments [] rest else segments (c :: current) rest

/-- Whether a segment stands for the directory itself. -/
def isSingleDot (segment : List Char) : Bool :=
  ["%2e", "."].contains (String.ofList (segment.map Char.toLower))

/-- Whether a segment stands for the directory above. -/
def isDoubleDot (segment : List Char) : Bool :=
  ["..", ".%2e", "%2e.", "%2e%2e"].contains (String.ofList (segment.map Char.toLower))

/-- Resolves dot segments; `above` are the segments in front, the last one first. A dot segment at
the end leaves an empty segment. -/
def resolve (above : List (List Char)) : List (List Char) → List (List Char)
  | [] => above.reverse
  | segment :: rest =>
    let atEnd : List (List Char) := if rest.isEmpty then [[]] else []
    if isDoubleDot segment then resolve (atEnd ++ above.drop 1) rest
    else if isSingleDot segment then resolve (atEnd ++ above) rest
    else resolve (segment :: above) rest

/-- A path, resolved and escaped. -/
def normalPath (path : List Char) : List Char :=
  (resolve [] (segments [] (path.drop 1))).flatMap fun segment =>
    '/' :: escape isEscapedInPath segment

/-- Whether a character may not stand in a host. -/
def isForbiddenInHost (c : Char) : Bool :=
  c.toNat ≤ 0x20 || c.toNat = 0x7f ||
    ['#', '%', '/', ':', '<', '>', '?', '@', '[', '\\', ']', '^', '|'].contains c

/-- Where a request goes, and what it asks for there. -/
structure Location where
  host : String
  port : Nat
  /-- The path and the query. -/
  target : String
deriving DecidableEq, Repr

/-- The host and the port in a text; the port may be missing. -/
def hostAndPort? (text : List Char) : Option (List Char × Nat) :=
  let host := text.takeWhile (· != ':')
  let digits := (text.dropWhile (· != ':')).drop 1
  let port := digits.foldl (fun n c => 10 * n + (c.toNat - 48)) 0
  if !host.isEmpty && !host.any isForbiddenInHost && digits.all Char.isDigit && port < 65536 then
    some (host, if digits.isEmpty then 80 else port)
  else none

/-- The location of an address, if that is an `http` URL with a host. -/
def locate? (address : String) : Option Location := do
  let isEdge (c : Char) : Bool := c.toNat ≤ 0x20
  let trimmed := ((address.toList.dropWhile isEdge).reverse.dropWhile isEdge).reverse
  let text := trimmed.filter fun c => !(['\t', '\n', '\r'].contains c)
  if String.ofList ((text.take 5).map Char.toLower) ≠ "http:" then none
  let marks := (text.drop 5).takeWhile isSeparator
  if marks.length < 2 then none
  let rest := (text.drop 5).dropWhile isSeparator
  let endsAuthority (c : Char) : Bool := isSeparator c || c == '?' || c == '#'
  let authority := rest.takeWhile (!endsAuthority ·)
  let (host, port) ← hostAndPort? (authority.reverse.takeWhile (· != '@')).reverse
  let sent := (rest.dropWhile (!endsAuthority ·)).takeWhile (· != '#')
  let path := sent.takeWhile (· != '?')
  let query := sent.dropWhile (· != '?')
  return {
    host := String.ofList host
    port
    target := String.ofList (normalPath path ++ escape isEscapedInQuery query) }

/-- The target of a request to an address. -/
def target? (address : String) : Option String := (locate? address).map (·.target)

example : target? "http://host:80/a/../b c/?x y#z" = some "/b%20c/?x%20y" := by decide +kernel

end Reckoner.Rpc
