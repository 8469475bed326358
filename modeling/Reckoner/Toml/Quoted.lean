import Reckoner.Text.Hex

/-!
# Strings of a TOML document

A string stands in quotes, where a backslash escapes, or in apostrophes, where nothing does; three
quotes or apostrophes make it run over several lines. Up to two of them may stand in front of the
three that close it.
-/

namespace Reckoner.Toml

/-- Whether a character may stand in a comment. -/
def isPrintable (c : Char) : Bool := c == '\t' || (0x20 ≤ c.toNat && c.toNat != 0x7f)

/-- The character with a code point given in hexadecimal digits. -/
def scalar? (digits : List Char) : Option Char := do
  let n ← Text.hexNumber? digits
  if n.isValidChar then some (Char.ofNat n) else none

/-- The character behind a backslash and a letter. -/
def escaped? (c : Char) : Option Char :=
  match c with
  | 'b' => some '\x08'
  | 't' => some '\t'
  | 'n' => some '\n'
  | 'f' => some '\x0c'
  | 'r' => some '\r'
  | '"' => some '"'
  | '\\' => some '\\'
  | _ => none

/-- Puts a character in front of a string that has been read. -/
def consRead (c : Option Char) (read : Option (List Char × List Char)) :
    Option (List Char × List Char) := do
  let c ← c
  let (text, rest) ← read
  return (c :: text, rest)

/-- Reads a string behind its opening quote. -/
def readQuoted? : List Char → Option (List Char × List Char)
  | [] => none
  | '"' :: rest => some ([], rest)
  | '\\' :: 'u' :: a :: b :: c :: d :: rest => consRead (scalar? [a, b, c, d]) (readQuoted? rest)
  | '\\' :: 'U' :: a :: b :: c :: d :: e :: f :: g :: h :: rest =>
    consRead (scalar? [a, b, c, d, e, f, g, h]) (readQuoted? rest)
  | '\\' :: c :: rest => consRead (escaped? c) (readQuoted? rest)
  | c :: rest => if isPrintable c then consRead (some c) (readQuoted? rest) else none

/-- Reads a string behind its opening apostrophe. -/
def readLiteral? : List Char → Option (List Char × List Char)
  | [] => none
  | '\'' :: rest => some ([], rest)
  | c :: rest => if isPrintable c then consRead (some c) (readLiteral? rest) else none

/-- The line break at the front of a string over several lines is no part of it. -/
def dropLineBreak : List Char → List Char
  | '\n' :: rest => rest
  | '\r' :: '\n' :: rest => rest
  | text => text

/-- Where the reader of a string over several lines is. -/
inductive Place where
  /-- Behind so many closing marks. -/
  | text (marks : Nat)
  /-- Between a backslash and the line break that it hides. -/
  | beforeBreak
  /-- Behind a hidden line break, whose following blanks are hidden too. -/
  | afterBreak

/-- The end of a string over several lines: three marks close it, and those in front of them belong
to it. -/
def closeBlock (mark : Char) (marks : Nat) (rest : List Char) :
    Option (List Char × List Char) :=
  if 3 ≤ marks then some (List.replicate (marks - 3) mark, rest) else none

/-- Reads a string over several lines behind its opening marks. -/
def readBlock? (mark : Char) (escapes : Bool) : Place → List Char → Option (List Char × List Char)
  | .text marks, [] => closeBlock mark marks []
  | _, [] => none
  | .beforeBreak, '\n' :: rest => readBlock? mark escapes .afterBreak rest
  | .beforeBreak, '\r' :: '\n' :: rest => readBlock? mark escapes .afterBreak rest
  | .beforeBreak, c :: rest =>
    if c == ' ' || c == '\t' then readBlock? mark escapes .beforeBreak rest else none
  | .afterBreak, '\r' :: '\n' :: rest => readBlock? mark escapes .afterBreak rest
  | place, c :: rest =>
    let marks :=
      match place with
      | .text marks => marks
      | _ => 0
    let hidden :=
      match place with
      | .afterBreak => c == ' ' || c == '\t' || c == '\n'
      | _ => false
    let held := List.replicate marks mark
    let go (read : Option (List Char × List Char)) : Option (List Char × List Char) :=
      read.map fun (text, left) => (held ++ text, left)
    if hidden then readBlock? mark escapes .afterBreak rest
    else if marks = 5 then closeBlock mark marks (c :: rest)
    else if c == mark then readBlock? mark escapes (.text (marks + 1)) rest
    else if 3 ≤ marks then closeBlock mark marks (c :: rest)
    else if c == '\n' then go (consRead (some '\n') (readBlock? mark escapes (.text 0) rest))
    else if c == '\r' then
      match rest with
      | '\n' :: behind => go (consRead (some '\n') (readBlock? mark escapes (.text 0) behind))
      | _ => none
    else if escapes && c == '\\' then
      match rest with
      | 'u' :: p :: q :: r :: s :: behind =>
        go (consRead (scalar? [p, q, r, s]) (readBlock? mark escapes (.text 0) behind))
      | 'U' :: p :: q :: r :: s :: t :: u :: v :: w :: behind =>
        go (consRead (scalar? [p, q, r, s, t, u, v, w])
          (readBlock? mark escapes (.text 0) behind))
      | '\n' :: behind => go (readBlock? mark escapes .afterBreak behind)
      | '\r' :: '\n' :: behind => go (readBlock? mark escapes .afterBreak behind)
      | d :: behind =>
        if d == ' ' || d == '\t' then go (readBlock? mark escapes .beforeBreak behind)
        else go (consRead (escaped? d) (readBlock? mark escapes (.text 0) behind))
      | [] => none
    else if isPrintable c then
      go (consRead (some c) (readBlock? mark escapes (.text 0) rest))
    else none

/-- Reads a string of any of the four kinds. -/
def readString? : List Char → Option (String × List Char)
  | '"' :: '"' :: '"' :: rest => ofRead (readBlock? '"' true (.text 0) (dropLineBreak rest))
  | '\'' :: '\'' :: '\'' :: rest => ofRead (readBlock? '\'' false (.text 0) (dropLineBreak rest))
  | '"' :: rest => ofRead (readQuoted? rest)
  | '\'' :: rest => ofRead (readLiteral? rest)
  | _ => none
where
  /-- Makes a text of the characters that have been read. -/
  ofRead (read : Option (List Char × List Char)) : Option (String × List Char) :=
    read.map fun (text, rest) => (String.ofList text, rest)

/-- Whether a character may stand in a key without quotes. -/
def isBare (c : Char) : Bool := c.isAlphanum || c == '-' || c == '_'

/-- Reads one part of a key. -/
def readKeyPart? : List Char → Option (String × List Char)
  | '"' :: rest => readString?.ofRead (readQuoted? rest)
  | '\'' :: rest => readString?.ofRead (readLiteral? rest)
  | text =>
    let name := text.takeWhile isBare
    if name.isEmpty then none else some (String.ofList name, text.dropWhile isBare)

end Reckoner.Toml
