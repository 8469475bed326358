/-!
# Tables of a TOML document

A document is a tree of tables. How a table came into being decides what may still be put into it:
a table with a header of its own is defined once, one that is only implied by longer headers can
still get a header, one that is implied by dotted keys can be filled by dotted keys alone, and an
inline table is complete. Every way of putting something in answers nothing where the place is
taken.
-/

namespace Reckoner.Toml

/-- How a table came into being. -/
inductive Origin where
  /-- By a header. -/
  | header
  /-- By the header of a table inside it. -/
  | implied
  /-- By a dotted key. -/
  | dotted
  /-- As a value. -/
  | inline
deriving DecidableEq, Repr

/-- A part of a document. -/
inductive Item where
  | text (s : String)
  | integer (n : Int)
  /-- A number that is no integer; nothing asks for its value. -/
  | number
  | boolean (b : Bool)
  /-- A date, a time, or both; nothing asks for its value. -/
  | moment
  | array (elements : List Item)
  | table (origin : Origin) (members : List (String × Item))
  /-- The tables under a repeated header. -/
  | tables (elements : List (List (String × Item)))

/-- The contents of a table, by key. -/
abbrev Members : Type := List (String × Item)

namespace Members

/-- The item under a key. -/
def get? (members : Members) (key : String) : Option Item :=
  (members.find? (·.1 == key)).map (·.2)

/-- The members with an item under a key. -/
def put (members : Members) (key : String) (item : Item) : Members :=
  if members.any (·.1 == key) then
    members.map fun member => if member.1 = key then (key, item) else member
  else members ++ [(key, item)]

/-- Changes the table at the end of a path from a table of a given origin. Tables on the way that do
not exist are made; under a repeated header the path goes on in the last table. A dotted key does
not lead through a table that has a header. -/
def alter (dotted : Bool) (change : Origin → Members → Option Members) :
    List String → Origin → Members → Option Members
  | [], origin, members => change origin members
  | key :: path, _, members =>
    match members.get? key with
    | none => do
      let origin : Origin := if dotted then .dotted else .implied
      let inner ← alter dotted change path origin []
      return members.put key (.table origin inner)
    | some (.table origin inner) =>
      if origin = .inline ∨ (dotted ∧ origin = .header) then none
      else do
        let inner ← alter dotted change path origin inner
        return members.put key (.table origin inner)
    | some (.tables elements) =>
      match elements.getLast? with
      | none => none
      | some last => do
        let last ← alter dotted change path .header last
        return members.put key (.tables (elements.dropLast ++ [last]))
    | some _ => none

/-- Puts an item at the end of a dotted key. All tables on its way but the first must have been made
by dotted keys. -/
def insert (members : Members) (path : List String) (key : String) (item : Item) :
    Option Members :=
  members.alter true (fun origin inner =>
    if (!path.isEmpty && origin != .dotted) || (inner.get? key).isSome then none
    else some (inner.put key item)) path .header

/-- Gives a table a header, and fills it. -/
def define (members : Members) (path : List String) (key : String)
    (fill : Members → Option Members) : Option Members :=
  members.alter false (fun _ parent => do
    let before ←
      match parent.get? key with
      | none => some []
      | some (.table .implied inner) => some inner
      | some _ => none
    return parent.put key (.table .header (← fill before))) path .header

/-- Adds a table under a repeated header, and fills it. -/
def append (members : Members) (path : List String) (key : String)
    (fill : Members → Option Members) : Option Members :=
  members.alter false (fun _ parent => do
    let before ←
      match parent.get? key with
      | none => some []
      | some (.tables elements) => some elements
      | some _ => none
    return parent.put key (.tables (before ++ [← fill []]))) path .header

end Members

end Reckoner.Toml
