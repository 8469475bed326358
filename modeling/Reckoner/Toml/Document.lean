import Reckoner.Toml.Quoted
import Reckoner.Toml.Scalar

/-!
# TOML documents

A document is read into sections: the keys in front of the first header, and those behind each
header. The sections are then put together from the first to the last. Arrays and inline tables are
nested to a limited depth. A document with an error anywhere has no contents at all.
-/

namespace Reckoner.Toml

/-- The most that values can be nested, and the most parts that a key can have, plus one. -/
def nestingLimit : Nat := 80

/-- Skips blanks. -/
def skipBlanks (text : List Char) : List Char := text.dropWhile fun c => c == ' ' || c == '\t'

/-- Skips blanks, line breaks and comments. -/
def skipLines (inComment : Bool) : List Char → List Char
  | [] => []
  | '\n' :: rest => skipLines false rest
  | '\r' :: '\n' :: rest => skipLines false rest
  | c :: rest =>
    if inComment then if isPrintable c then skipLines true rest else c :: rest
    else if c == ' ' || c == '\t' then skipLines false rest
    else if c == '#' then skipLines true rest
    else c :: rest

/-- What follows the end of a line, in front of which only a comment may stand. -/
def endLine? (text : List Char) : Option (List Char) :=
  let rest :=
    match skipBlanks text with
    | '#' :: comment => comment.dropWhile isPrintable
    | rest => rest
  match rest with
  | [] => some []
  | '\n' :: behind => some behind
  | '\r' :: '\n' :: behind => some behind
  | _ => none

/-- Reads the parts of a key, at most `fuel` of them. -/
def readKeyParts? : Nat → List Char → Option (List String × List Char)
  | 0, _ => none
  | fuel + 1, text => do
    let (part, rest) ← readKeyPart? (skipBlanks text)
    match skipBlanks rest with
    | '.' :: rest => do
      let (parts, rest) ← readKeyParts? fuel rest
      return (part :: parts, rest)
    | rest => some ([part], rest)

/-- A key: the tables on its way, and its last part. -/
structure Key where
  path : List String
  name : String

/-- Reads a key with the blanks around it. -/
def readKey? (text : List Char) : Option (Key × List Char) := do
  let (parts, rest) ← readKeyParts? (nestingLimit - 1) text
  let name ← parts.getLast?
  return (⟨parts.dropLast, name⟩, rest)

mutual

/-- Reads a value; `depth` is how much deeper values may be nested. -/
def readValue? : Nat → Nat → List Char → Option (Item × List Char)
  | 0, _, _ => none
  | fuel + 1, depth, text =>
    match text with
    | '[' :: rest => do
      if depth = 0 then none
      let (elements, rest) ← readElements? fuel (depth - 1) rest
      return (.array elements, rest)
    | '\x7b' :: rest => do
      if depth = 0 then none
      match skipBlanks rest with
      | '\x7d' :: rest => return (.table .inline [], rest)
      | rest => do
        let (members, rest) ← readPairs? fuel (depth - 1) [] rest
        return (.table .inline members, rest)
    | '"' :: _ | '\'' :: _ => (readString? text).map fun (s, rest) => (.text s, rest)
    | _ => readScalar? text

/-- Reads the elements of an array up to its closing bracket; a comma may stand behind the last. -/
def readElements? : Nat → Nat → List Char → Option (List Item × List Char)
  | 0, _, _ => none
  | fuel + 1, depth, text =>
    match skipLines false text with
    | ']' :: rest => some ([], rest)
    | text => do
      let (element, rest) ← readValue? fuel depth text
      match skipLines false rest with
      | ',' :: rest => do
        let (elements, rest) ← readElements? fuel depth rest
        return (element :: elements, rest)
      | ']' :: rest => some ([element], rest)
      | _ => none

/-- Reads the keys of an inline table up to its closing brace, behind those that are known. -/
def readPairs? : Nat → Nat → Members → List Char → Option (Members × List Char)
  | 0, _, _, _ => none
  | fuel + 1, depth, members, text => do
    let (key, rest) ← readKey? text
    match rest with
    | '=' :: rest => do
      let (value, rest) ← readValue? fuel depth (skipBlanks rest)
      let members ← members.insert key.path key.name value
      match skipBlanks rest with
      | ',' :: rest => readPairs? fuel depth members rest
      | '\x7d' :: rest => some (members, rest)
      | _ => none
    | _ => none

end

/-- The line that begins a section. -/
inductive Header where
  /-- The keys in front of all headers. -/
  | root
  | table (key : Key)
  | repeated (key : Key)

/-- Reads a key with its value, to the end of the line. -/
def readPair? (text : List Char) : Option ((Key × Item) × List Char) := do
  let (key, rest) ← readKey? text
  match rest with
  | '=' :: rest => do
    let (value, rest) ← readValue? (2 * text.length + 2) (nestingLimit - 1) (skipBlanks rest)
    return ((key, value), ← endLine? rest)
  | _ => none

/-- Reads a header behind its first bracket, to the end of the line. -/
def readHeader? : List Char → Option (Header × List Char)
  | '[' :: rest => do
    let (key, rest) ← readKey? rest
    match rest with
    | ']' :: ']' :: rest => return (.repeated key, ← endLine? rest)
    | _ => none
  | rest => do
    let (key, rest) ← readKey? rest
    match rest with
    | ']' :: rest => return (.table key, ← endLine? rest)
    | _ => none

/-- A header and the keys behind it. -/
structure Section where
  header : Header
  pairs : List (Key × Item)

/-- Reads the sections from within one; every round takes a character. -/
def readSections? : Nat → Section → List Char → Option (List Section)
  | 0, _, _ => none
  | fuel + 1, current, text =>
    match skipLines false text with
    | [] => some [current]
    | '[' :: rest => do
      let (header, rest) ← readHeader? rest
      return current :: (← readSections? fuel ⟨header, []⟩ rest)
    | text => do
      let (pair, rest) ← readPair? text
      readSections? fuel ⟨current.header, current.pairs ++ [pair]⟩ rest

/-- Puts keys with their values into a table. -/
def fill (pairs : List (Key × Item)) (members : Members) : Option Members :=
  pairs.foldlM (fun members (key, value) => members.insert key.path key.name value) members

/-- Puts a section into a document. -/
def Section.addTo (s : Section) (document : Members) : Option Members :=
  match s.header with
  | .root => fill s.pairs document
  | .table key => document.define key.path key.name (fill s.pairs)
  | .repeated key => document.append key.path key.name (fill s.pairs)

/-- The contents of a document, if it has no error. A byte order mark may stand at its start. -/
def read? (text : String) : Option Members := do
  let text :=
    match text.toList with
    | '\uFEFF' :: rest => rest
    | text => text
  let sections ← readSections? (text.length + 1) ⟨.root, []⟩ text
  sections.foldlM (fun document s => s.addTo document) []

end Reckoner.Toml
