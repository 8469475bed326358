/-!
# Media types

A media type is a type and a subtype, joined by a slash, and parameters behind semicolons. Case
does not matter. A subtype may end in a suffix behind a plus. Whoever sends JSON says so by the
subtype or by the suffix.
-/

namespace Reckoner.Http

/-- Whether a character may stand in a name. -/
def isNameChar (c : Char) : Bool :=
  c.isAlphanum || "!#$%&'*+-.^_`|~".toList.contains c

/-- Whether a character may stand in a quoted value. -/
def isQuotedChar (c : Char) : Bool := 31 < c.toNat && c.toNat != 127

/-! ## Parameters -/

/-- What has been read last within parameters. -/
inductive ParameterPlace where
  /-- A semicolon, or a blank behind one. -/
  | semicolon
  | name
  | equals
  | value
  | openQuote
  | quoted
  /-- The closing quote, or a blank behind it. -/
  | closeQuote
deriving DecidableEq, Repr

namespace ParameterPlace

/-- The place behind a character, if the character may stand there. -/
def step? (place : ParameterPlace) (c : Char) : Option ParameterPlace :=
  match place with
  | semicolon => if c = ' ' then some semicolon else if isNameChar c then some name else none
  | name => if c = '=' then some equals else if isNameChar c then some name else none
  | equals => if c = '"' then some openQuote else if isNameChar c then some value else none
  | value => if c = ';' then some semicolon else if isNameChar c then some value else none
  | openQuote => if isQuotedChar c then some quoted else none
  | quoted => if c = '"' then some closeQuote else if isQuotedChar c then some quoted else none
  | closeQuote =>
    if c = ';' then some semicolon else if c = ' ' then some closeQuote else none

/-- Whether parameters may end here. -/
def isEnd : ParameterPlace → Bool
  | semicolon | equals | value | closeQuote => true
  | _ => false

end ParameterPlace

/-- Whether what stands behind the first semicolon is parameters. -/
def areParameters (text : List Char) : Bool :=
  (text.foldlM ParameterPlace.step? .semicolon).any (·.isEnd)

/-! ## Types -/

/-- A type and a subtype in small letters. -/
structure MediaType where
  type : List Char
  /-- The subtype without its suffix. -/
  subtype : List Char
  /-- What stands behind the last plus, unless the subtype begins with that. -/
  suffix : Option (List Char)
deriving DecidableEq, Repr

namespace MediaType

/-- Splits a suffix off a subtype. -/
def splitSuffix (subtype : List Char) : List Char × Option (List Char) :=
  let reversed := subtype.reverse
  let front := (reversed.dropWhile (· != '+')).drop 1
  if front.isEmpty then (subtype, none)
  else (front.reverse, some (reversed.takeWhile (· != '+')).reverse)

/-- The media type that a text denotes. -/
def ofText? (text : String) : Option MediaType :=
  let chars := text.toList.map Char.toLower
  let type := chars.takeWhile isNameChar
  match type, chars.dropWhile isNameChar with
  | _ :: _, '/' :: rest =>
    let whole := rest.takeWhile isNameChar
    let (subtype, suffix) := splitSuffix whole
    match whole, rest.dropWhile isNameChar with
    | _, [] => some ⟨type, subtype, suffix⟩
    | _ :: _, ';' :: parameters =>
      if areParameters parameters then some ⟨type, subtype, suffix⟩ else none
    | _, _ => none
  | _, _ => none

/-- Whether a media type is one of JSON. -/
def isJson (m : MediaType) : Bool :=
  m.type == "application".toList &&
    (m.subtype == "json".toList || m.suffix == some "json".toList)

end MediaType

/-- Whether a text denotes a media type of JSON. -/
def isJsonType (text : String) : Bool := (MediaType.ofText? text).any (·.isJson)

example : isJsonType "Application/Problem+JSON; charset=\"utf-8\"" = true := by decide +kernel

example : isJsonType "application/json ;charset=utf-8" = false := by decide +kernel

end Reckoner.Http
