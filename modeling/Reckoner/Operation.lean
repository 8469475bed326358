/-!
# The six operations

An operation is stored and sent as its symbol; `~` stands for the unary minus. Reading a symbol
is the exact inverse of writing it: each symbol is read back as its operation (`ofSymbol?_symbol`),
and no other text is (`symbol_of_ofSymbol?`).
-/

namespace Reckoner

/-- One arithmetic operation of a task. -/
inductive Operation where
  | add
  | subtract
  | multiply
  | divide
  | power
  | negate
deriving DecidableEq, Inhabited, Repr

namespace Operation

/-- All operations, in the order in which they are listed to a reader. -/
def all : List Operation := [add, subtract, multiply, divide, power, negate]

/-- The text that names the operation in the store, on the wire and in every listing. -/
def symbol : Operation → String
  | add => "+"
  | subtract => "-"
  | multiply => "*"
  | divide => "/"
  | power => "^"
  | negate => "~"

/-- The operation with exactly this symbol. -/
def ofSymbol? (text : String) : Option Operation := all.find? (·.symbol == text)

/-- How many operands the operation takes. -/
def arity : Operation → Nat
  | negate => 1
  | _ => 2

/-- What is said of a text that is no symbol. -/
def unknownMessage (text : String) : String := s!"unknown operation: '{text}'"

/-- Every symbol is read back as its operation. -/
@[simp] theorem ofSymbol?_symbol (op : Operation) : ofSymbol? op.symbol = some op := by
  cases op <;> decide

/-- Only an operation's own symbol is read as that operation. -/
theorem symbol_of_ofSymbol? {text : String} {op : Operation} (h : ofSymbol? text = some op) :
    op.symbol = text := by
  simpa using List.find?_some h

end Operation

end Reckoner
