import Reckoner.Number.Layout
import Reckoner.Text.Hex

/-!
# JSON values and their text

A value as it is sent and listed. The members of an object keep their order; `sortKeys` puts them
into the order of their names, at every depth. `compact` writes a value without any blanks,
`pretty` over several lines with two blanks per level.
-/

namespace Reckoner.Json

/-- A JSON value. -/
inductive Value where
  | null
  | boolean (b : Bool)
  | integer (n : Int)
  /-- A number that need not be whole; one that is not finite is written as null. -/
  | number (x : Binary64)
  | text (s : String)
  | array (elements : List Value)
  | object (members : List (String × Value))

namespace Value

/-- A natural number. -/
def natural (n : Nat) : Value := integer n

/-- A value that may be missing. -/
def ofOption {α : Type} (f : α → Value) : Option α → Value
  | some a => f a
  | none => null

mutual

/-- The value with the members of all objects in the order of their names. -/
def sortKeys : Value → Value
  | array elements => array (sortElements elements)
  | object members => object ((sortMembers members).mergeSort fun a b => decide (a.1 ≤ b.1))
  | value => value

/-- Sorts inside every element. -/
def sortElements : List Value → List Value
  | [] => []
  | value :: rest => sortKeys value :: sortElements rest

/-- Sorts inside every member. -/
def sortMembers : List (String × Value) → List (String × Value)
  | [] => []
  | (name, value) :: rest => (name, sortKeys value) :: sortMembers rest

end

/-- A character within quotes: quotes, backslashes and control characters are escaped. -/
def escapeChar (c : Char) : List Char :=
  if c == '"' then ['\\', '"']
  else if c == '\\' then ['\\', '\\']
  else if c == '\n' then ['\\', 'n']
  else if c == '\r' then ['\\', 'r']
  else if c == '\t' then ['\\', 't']
  else if c.toNat = 8 then ['\\', 'b']
  else if c.toNat = 12 then ['\\', 'f']
  else if c.toNat < 32 then
    ['\\', 'u', '0', '0', Text.hexDigit (c.toNat / 16), Text.hexDigit (c.toNat % 16)]
  else [c]

/-- A text in quotes. -/
def quote (text : String) : String :=
  String.ofList ('"' :: text.toList.flatMap escapeChar ++ ['"'])

mutual

/-- The text of a value without blanks. -/
def compact : Value → String
  | null => "null"
  | boolean b => if b then "true" else "false"
  | integer n => toString n
  | number x => NumberLayout.json.render x
  | text s => quote s
  | array elements => "[" ++ ",".intercalate (compactElements elements) ++ "]"
  | object members => "\x7b" ++ ",".intercalate (compactMembers members) ++ "\x7d"

/-- The texts of elements. -/
def compactElements : List Value → List String
  | [] => []
  | value :: rest => compact value :: compactElements rest

/-- The texts of members. -/
def compactMembers : List (String × Value) → List String
  | [] => []
  | (name, value) :: rest => (quote name ++ ":" ++ compact value) :: compactMembers rest

end

/-- A line break and the indentation of a level. -/
def newLine (level : Nat) : String := "\n" ++ String.ofList (List.replicate (2 * level) ' ')

mutual

/-- The text of a value that stands on a level. -/
def prettyFrom (level : Nat) : Value → String
  | null => "null"
  | boolean b => if b then "true" else "false"
  | integer n => toString n
  | number x => NumberLayout.json.render x
  | text s => quote s
  | array [] => "[]"
  | array (value :: rest) =>
    "[" ++ newLine (level + 1) ++ prettyFrom (level + 1) value ++
      prettyElements (level + 1) rest ++ newLine level ++ "]"
  | object [] => "\x7b\x7d"
  | object ((name, value) :: rest) =>
    "\x7b" ++ newLine (level + 1) ++ quote name ++ ": " ++ prettyFrom (level + 1) value ++
      prettyMembers (level + 1) rest ++ newLine level ++ "\x7d"

/-- The elements behind the first one, each with the comma in front of it. -/
def prettyElements (level : Nat) : List Value → String
  | [] => ""
  | value :: rest =>
    "," ++ newLine level ++ prettyFrom level value ++ prettyElements level rest

/-- The members behind the first one, each with the comma in front of it. -/
def prettyMembers (level : Nat) : List (String × Value) → String
  | [] => ""
  | (name, value) :: rest =>
    "," ++ newLine level ++ quote name ++ ": " ++ prettyFrom level value ++
      prettyMembers level rest

end

/-- The text of a value over several lines. -/
def pretty (value : Value) : String := value.prettyFrom 0

end Value

end Reckoner.Json
