import Reckoner.Proofs.Formula.Spelling
import Reckoner.Proofs.Formula.Tree

/-!
# The grammar of formulas

A sum is made of products, a product of signed factors, a factor of powers, and a power of atoms;
all of them group to the left. A minus may stand before a power. A derivation says how a formula is
made. It has a text, the tokens of that text, and a tree of operations.
-/

namespace Reckoner.Formula

/-- The kinds of formulas, by what may stand in them outside all parentheses. -/
inductive Grade where
  | sum
  | product
  | signed
  | power
  | atom

/-- How a formula of a grade is made. -/
inductive Derivation : Grade → Type where
  | product (inner : Derivation .product) : Derivation .sum
  | add (left : Derivation .sum) (right : Derivation .product) : Derivation .sum
  | subtract (left : Derivation .sum) (right : Derivation .product) : Derivation .sum
  | signed (inner : Derivation .signed) : Derivation .product
  | multiply (left : Derivation .product) (right : Derivation .signed) : Derivation .product
  | divide (left : Derivation .product) (right : Derivation .signed) : Derivation .product
  | power (inner : Derivation .power) : Derivation .signed
  | negate (inner : Derivation .power) : Derivation .signed
  | atom (inner : Derivation .atom) : Derivation .power
  | raise (left : Derivation .power) (right : Derivation .atom) : Derivation .power
  | number (numeral : Numeral) : Derivation .atom
  | group (inner : Derivation .sum) : Derivation .atom

namespace Derivation

/-- The formula as it is written, without blanks. -/
def text {grade : Grade} : Derivation grade → List Char
  | product inner | signed inner | power inner | atom inner => inner.text
  | add left right => left.text ++ '+' :: right.text
  | subtract left right => left.text ++ '-' :: right.text
  | multiply left right => left.text ++ '*' :: right.text
  | divide left right => left.text ++ '/' :: right.text
  | raise left right => left.text ++ '^' :: right.text
  | negate inner => '-' :: inner.text
  | number numeral => numeral.text
  | group inner => '(' :: inner.text ++ [')']

/-- The tokens of the formula. -/
def tokens {grade : Grade} : Derivation grade → List Token
  | product inner | signed inner | power inner | atom inner => inner.tokens
  | add left right => left.tokens ++ .operator '+' :: right.tokens
  | subtract left right => left.tokens ++ .operator '-' :: right.tokens
  | multiply left right => left.tokens ++ .operator '*' :: right.tokens
  | divide left right => left.tokens ++ .operator '/' :: right.tokens
  | raise left right => left.tokens ++ .operator '^' :: right.tokens
  | negate inner => .operator '-' :: inner.tokens
  | number numeral => [.number (String.ofList numeral.text)]
  | group inner => .leftParenthesis :: inner.tokens ++ [.rightParenthesis]

/-- The operations of the formula and what they are applied to. -/
def tree {grade : Grade} : Derivation grade → Tree
  | product inner | signed inner | power inner | atom inner | group inner => inner.tree
  | add left right => .binary .add rfl left.tree right.tree
  | subtract left right => .binary .subtract rfl left.tree right.tree
  | multiply left right => .binary .multiply rfl left.tree right.tree
  | divide left right => .binary .divide rfl left.tree right.tree
  | raise left right => .binary .power rfl left.tree right.tree
  | negate inner => .negate inner.tree
  | number numeral => .literal numeral

/-- The text of a formula spells its tokens. -/
theorem spells {grade : Grade} (d : Derivation grade) : Spells d.text d.tokens := by
  induction d with
  | product inner ih | signed inner ih | power inner ih | atom inner ih => exact ih
  | add left right ihl ihr | subtract left right ihl ihr | multiply left right ihl ihr
  | divide left right ihl ihr | raise left right ihl ihr => exact ihl.binary rfl ihr
  | negate inner ih => exact ih.negate
  | number numeral => exact numeral.spells
  | group inner ih => exact ih.group

end Derivation

end Reckoner.Formula
