import Reckoner.Proofs.Formula.Acceptance
import Reckoner.Proofs.Formula.Arrangement
import Reckoner.Proofs.Formula.Assembly

/-!
# Formulas composed of formulas

Whatever is compiled alone is compiled to the same nodes in parentheses, wherever these stand, also
if it is no formula of the grammar. The tokens in the parentheses do not see what waits below the
opening one, the items do not see what lies below on the stack of operands, and the nodes are moved
behind those before them. So the graph of a formula composed of formulas in parentheses is composed
of their graphs.
-/

namespace Reckoner

/-! ## Graphs composed of graphs -/

/-- The node with every dependency so much further on. -/
def Node.shift (offset : Nat) (node : Node) : Node :=
  { node with dependencies := node.dependencies.map (Option.map (offset + ·)) }

@[simp] theorem Node.shift_zero (node : Node) : node.shift 0 = node := by
  obtain ⟨operation, args, ⟨left, right⟩⟩ := node
  simp [Node.shift, Operands.map]

@[simp] theorem Node.map_shift_zero (nodes : List Node) : nodes.map (Node.shift 0) = nodes := by
  rw [show Node.shift 0 = id from funext Node.shift_zero, List.map_id]

/-- A graph followed by the unary minus of its root. -/
def TaskGraph.negated (graph : TaskGraph) : TaskGraph :=
  ⟨graph.nodes ++ [⟨.negate, ⟨none, none⟩, ⟨some graph.root, none⟩⟩]⟩

/-- One graph, then the other moved behind it, then an operation on the two roots. -/
def TaskGraph.join (op : Operation) (left right : TaskGraph) : TaskGraph :=
  ⟨left.nodes ++ right.nodes.map (Node.shift left.size) ++
    [⟨op, ⟨none, none⟩, ⟨some left.root, some (left.size + right.root)⟩⟩]⟩

namespace Formula

/-! ## Tokens in parentheses -/

/-- A stack yields to the same operations if something waits below an open parenthesis under it. -/
theorem Yields.append_parenthesis {strength : Nat} {stack : List Pending}
    (h : Yields strength stack) (below : List Pending) :
    Yields strength (stack ++ .parenthesis :: below) := by
  match stack, h with
  | [], _ => trivial
  | .parenthesis :: _, _ => trivial
  | .operation top :: _, h => exact h

/-- A token that needs no open parenthesis from below one does not see what waits there. -/
theorem Advances.append_parenthesis {previous : Option Token} {stack left : List Pending}
    {token : Token} {items : List Item} (h : Advances previous stack token items left)
    (below : List Pending) :
    Advances previous (stack ++ .parenthesis :: below) token items
      (left ++ .parenthesis :: below) := by
  cases h with
  | literal _ h => exact .literal _ h
  | opening => exact .opening _
  | closing waiting =>
    rw [List.append_assoc]
    exact .closing waiting _
  | operator waiting stack hop hwaiting hstack =>
    rw [List.append_assoc]
    exact .operator waiting _ hop hwaiting (hstack.append_parenthesis below)

/-- Of the token before it, one only sees whether an operand may begin. -/
theorem Advances.congr {previous other : Option Token} {stack left : List Pending} {token : Token}
    {items : List Item} (h : Advances previous stack token items left)
    (hother : opensOperand other = opensOperand previous) :
    Advances other stack token items left := by
  cases h with
  | literal _ h => exact .literal _ h
  | opening => exact .opening _
  | closing waiting => exact .closing waiting _
  | @operator c op waiting stack hop hwaiting hstack =>
    have hop' : operationOf other c = .ok op := by
      rw [← hop, operationOf, operationOf, hother]
    exact .operator waiting stack hop' hwaiting hstack

namespace Writes

variable {previous : Option Token} {stack left : List Pending} {tokens : List Token}
  {items : List Item}

/-- Tokens that close only what they open do not see what waits below an open parenthesis. -/
theorem append_parenthesis (h : Writes previous stack tokens items left) (below : List Pending) :
    Writes previous (stack ++ .parenthesis :: below) tokens items
      (left ++ .parenthesis :: below) := by
  induction h with
  | nil previous stack => exact .nil previous _
  | cons head _ ih => exact .cons (head.append_parenthesis below) ih

/-- Of the token before them, the tokens only see whether an operand may begin. -/
theorem congr {other : Option Token} (h : Writes previous stack tokens items left)
    (hother : opensOperand other = opensOperand previous) :
    Writes other stack tokens items left := by
  cases h with
  | nil => exact .nil other _
  | cons head rest => exact .cons (head.congr hother) rest

/-- What is written first stands in front of what the tokens behind write. -/
theorem arrange_append (h : Writes previous stack tokens items left) (more : List Token) :
    ∃ last, arrange previous stack (tokens ++ more) = (items ++ ·) <$> arrange last left more := by
  induction h with
  | nil previous stack => exact ⟨previous, by simp⟩
  | @cons previous stack middle left token tokens items rest head _ ih =>
    obtain ⟨last, hlast⟩ := ih
    refine ⟨last, ?_⟩
    rw [List.cons_append, arrange_cons (advance_eq_ok_iff.mpr head), hlast]
    simp [Functor.map_map]

end Writes

/-- Whatever can be arranged alone arranges the same items in parentheses. -/
theorem Arranges.enclosed (strength : Nat) {tokens : List Token} {items : List Item}
    (h : arrange none [] tokens = .ok items) :
    Arranges strength (.leftParenthesis :: tokens ++ [.rightParenthesis]) items := by
  obtain ⟨front, waiting, hwrites, rfl⟩ := arrange_eq_ok_iff.mp h
  refine ⟨front ++ waiting.map .operation, [], .rightParenthesis, rfl, by simp, by simp,
    fun previous stack rest _ _ => ?_⟩
  have hinside : Writes (some .leftParenthesis) (.parenthesis :: stack) tokens front
      (waiting.map .operation ++ .parenthesis :: stack) :=
    (hwrites.append_parenthesis stack).congr rfl
  have hopen : advance previous stack .leftParenthesis = .ok ([], .parenthesis :: stack) := rfl
  obtain ⟨last, hlast⟩ := hinside.arrange_append (.rightParenthesis :: rest)
  have hclose : advance last (waiting.map .operation ++ .parenthesis :: stack) .rightParenthesis =
      .ok (waiting.map .operation, stack) := close_append waiting stack
  simp only [List.cons_append, List.append_assoc, List.nil_append]
  rw [arrange_cons hopen, hlast, arrange_cons hclose]
  simp [Functor.map_map]

/-! ## Items behind others -/

/-- The operand with a result so much further on. -/
def Operand.shift (offset : Nat) : Operand → Operand
  | literal value => literal value
  | result position => result (offset + position)

@[simp] theorem Operand.value?_shift (offset : Nat) (operand : Operand) :
    (operand.shift offset).value? = operand.value? := by
  cases operand <;> rfl

@[simp] theorem Operand.position?_shift (offset : Nat) (operand : Operand) :
    (operand.shift offset).position? = operand.position?.map (offset + ·) := by
  cases operand <;> rfl

/-- An operation that finds its operands takes the same ones, moved on, from a higher stack. -/
theorem take_shift {op : Operation} {stack left : List Operand} {node : Node}
    (h : take op stack = .ok (node, left)) (offset : Nat) (below : List Operand) :
    take op (stack.map (Operand.shift offset) ++ below) =
      .ok (node.shift offset, left.map (Operand.shift offset) ++ below) := by
  obtain ⟨operand, rfl, rfl, rfl⟩ | ⟨first, second, hslots, rfl, rfl⟩ := take_cases h
  · simp [take, Operand.negated, Node.shift, Operands.map]
  · have harity : op.arity = 2 := by rw [← op.length_slots, hslots]; rfl
    have htake := Tree.take_binary harity (second.shift offset) (first.shift offset)
      (left.map (Operand.shift offset) ++ below)
    rw [List.map_cons, List.map_cons, List.cons_append, List.cons_append, htake]
    simp [Operand.binary, Node.shift, Operands.map]

/-- Behind other nodes and on other operands the same nodes are assembled, moved on; in the end the
result of the last one lies on these operands. -/
theorem Assembles.assemble_append {position : Nat} {stack : List Operand} {items : List Item}
    {nodes : List Node} (h : Assembles position stack items nodes) (offset : Nat)
    (below : List Operand) (rest : List Item) :
    assemble (offset + position) (stack.map (Operand.shift offset) ++ below) (items ++ rest) =
      (nodes.map (Node.shift offset) ++ ·) <$>
        assemble (offset + (position + nodes.length))
          (.result (offset + (position + nodes.length - 1)) :: below) rest := by
  induction h with
  | done root => simp [Operand.shift]
  | literal hread _ ih =>
    rw [List.cons_append, assemble, hread]
    exact ih
  | @operation position stack left items nodes op node _ htake _ ih =>
    have hnext : position + 1 + nodes.length = position + (nodes.length + 1) := by omega
    rw [List.map_cons, List.cons_append, Operand.shift, ← Nat.add_assoc, hnext] at ih
    rw [List.cons_append, assemble_operation (take_shift htake offset below), ih]
    simp [Functor.map_map]

/-- Behind other nodes and on other operands a postfix form adds the nodes of its graph, moved on,
and the result of its root. -/
theorem assemble_append_of_graphOfPostfix {items : List Item} {graph : TaskGraph}
    (h : graphOfPostfix items = .ok graph) (offset : Nat) (below : List Operand)
    (rest : List Item) :
    assemble offset below (items ++ rest) =
      (graph.nodes.map (Node.shift offset) ++ ·) <$>
        assemble (offset + graph.size) (.result (offset + graph.root) :: below) rest := by
  have hall := (assembles_of_graphOfPostfix h).assemble_append offset below rest
  simpa [TaskGraph.root, TaskGraph.size] using hall

/-- A unary minus behind a postfix form is a node behind its graph. -/
theorem graphOfPostfix_negate {items : List Item} {graph : TaskGraph}
    (h : graphOfPostfix items = .ok graph) :
    graphOfPostfix (items ++ [.operation .negate]) = .ok graph.negated := by
  have htake : take .negate [.result (0 + graph.root)] =
      .ok (⟨.negate, ⟨none, none⟩, ⟨some (0 + graph.root), none⟩⟩, []) := rfl
  rw [graphOfPostfix_eq_ok_iff, assemble_append_of_graphOfPostfix h, assemble_operation htake]
  simp [assemble, checkRoot, TaskGraph.negated]

/-- A binary operation behind two postfix forms joins their graphs. -/
theorem graphOfPostfix_binary {op : Operation} (hop : op.arity = 2) {ls rs : List Item}
    {left right : TaskGraph} (hleft : graphOfPostfix ls = .ok left)
    (hright : graphOfPostfix rs = .ok right) :
    graphOfPostfix (ls ++ rs ++ [.operation op]) = .ok (left.join op right) := by
  have htake := Tree.take_binary hop (.result (left.size + right.root)) (.result left.root) []
  rw [graphOfPostfix_eq_ok_iff, List.append_assoc, assemble_append_of_graphOfPostfix hleft,
    Nat.zero_add, Nat.zero_add, assemble_append_of_graphOfPostfix hright,
    assemble_operation htake]
  simp [assemble, checkRoot, TaskGraph.join, Operand.binary, Operand.value?, Operand.position?]

/-! ## Formulas in parentheses -/

/-- A text without its blanks. -/
def unblanked (input : String) : List Char := input.toList.filter fun c => !Text.isBlank c

@[simp] theorem unblanked_append (s t : String) :
    unblanked (s ++ t) = unblanked s ++ unblanked t := by
  simp [unblanked]

/-- A postfix form with a graph has an item. -/
theorem ne_nil_of_graphOfPostfix {items : List Item} {graph : TaskGraph}
    (h : graphOfPostfix items = .ok graph) : items ≠ [] := by
  rintro rfl
  cases assembles_of_graphOfPostfix h

/-- A text that spells tokens with a postfix form is compiled to the graph of that form. -/
theorem compile_of_arranges {input : String} {text : List Char} {tokens : List Token}
    {items : List Item} {strength : Nat} {graph : TaskGraph} (hinput : unblanked input = text)
    (hspells : Spells text tokens) (harranges : Arranges strength tokens items)
    (hone : items.length ≠ 1) (hgraph : graphOfPostfix items = .ok graph) :
    compile input = .ok graph := by
  have htokens : tokenize input = tokens := hspells.tokenize hinput
  exact compile_eq_ok_iff.mpr ⟨items, htokens ▸ harranges.toPostfix hone, hgraph⟩

/-- The symbol of a binary operation is the one character that stands for it. -/
theorem exists_symbol {op : Operation} (h : op.arity = 2) :
    ∃ c, unblanked op.symbol = [c] ∧ isOperator c = true ∧ binaryOperation? c = some op := by
  cases op with
  | add => exact ⟨'+', by decide⟩
  | subtract => exact ⟨'-', by decide⟩
  | multiply => exact ⟨'*', by decide⟩
  | divide => exact ⟨'/', by decide⟩
  | power => exact ⟨'^', by decide⟩
  | negate => exact absurd h (by decide)

/-- In parentheses a formula spells its own tokens in parentheses. -/
theorem spells_enclosed (input : String) :
    Spells ('(' :: unblanked input ++ [')'])
      (.leftParenthesis :: tokenize input ++ [.rightParenthesis]) := .enclosed _

/-- **Compilation is compositional over parentheses.** Let `s` and `t` be compiled to `g` and `h`,
be they formulas of the grammar or not. Then `(s)` is compiled to `g`, `-(s)` to `g` followed by a
unary minus of its root, and `(s)op(t)`, for every binary operation, to `g`, then `h` with every
dependency moved by the length of `g`, then the operation on the two roots. -/
theorem compile_parentheses {s t : String} {g h : TaskGraph} (hs : compile s = .ok g)
    (ht : compile t = .ok h) :
    compile ("(" ++ s ++ ")") = .ok g ∧
    compile ("-(" ++ s ++ ")") = .ok g.negated ∧
    ∀ op : Operation, op.arity = 2 →
      compile ("(" ++ s ++ ")" ++ op.symbol ++ "(" ++ t ++ ")") = .ok (g.join op h) := by
  obtain ⟨ls, hls, hg⟩ := compile_eq_ok_iff.mp hs
  obtain ⟨rs, hrs, hh⟩ := compile_eq_ok_iff.mp ht
  obtain ⟨hlarrange, hlone⟩ := toPostfix_eq_ok_iff.mp hls
  obtain ⟨hrarrange, -⟩ := toPostfix_eq_ok_iff.mp hrs
  have hlne := ne_nil_of_graphOfPostfix hg
  have hleft : unblanked "(" = ['('] := by decide
  have hminus : unblanked "-(" = ['-', '('] := by decide
  have hright : unblanked ")" = [')'] := by decide
  refine ⟨?_, ?_, fun op hop => ?_⟩
  · exact compile_of_arranges (by simp [hleft, hright]) (spells_enclosed s)
      (.enclosed 4 hlarrange) hlone hg
  · have hnegated := (Arranges.enclosed 4 hlarrange).negate (by decide)
    exact compile_of_arranges (by simp [hminus, hright]) (spells_enclosed s).negate hnegated
      (by simp [hlne]) (graphOfPostfix_negate hg)
  · obtain ⟨c, hsymbol, hc, hbinary⟩ := exists_symbol hop
    have hjoined := Arranges.binary hbinary rfl (.enclosed (precedence op) hlarrange)
      (.enclosed (precedence op + 1) hrarrange) (Nat.lt_succ_self _)
    have hone : (ls ++ rs ++ [Item.operation op]).length ≠ 1 := by
      have hpositive := List.length_pos_iff.mpr hlne
      simp only [List.length_append, List.length_singleton]
      omega
    exact compile_of_arranges (by simp [hleft, hright, hsymbol])
      ((spells_enclosed s).binary hc (spells_enclosed t)) hjoined hone
      (graphOfPostfix_binary hop hg hh)

/-- The postfix form `2(3)+` and the formula `-1` compose, although the first is no formula of the
grammar. -/
theorem compile_parentheses_sample :
    compile "2(3)+" = .ok ⟨[⟨.add, ⟨some ⟨0x4000000000000000⟩, some ⟨0x4008000000000000⟩⟩,
      ⟨none, none⟩⟩]⟩ ∧
    compile "-1" = .ok ⟨[⟨.negate, ⟨some ⟨0x3ff0000000000000⟩, none⟩, ⟨none, none⟩⟩]⟩ ∧
    compile "(2(3)+)^(-1)" = .ok ⟨[
      ⟨.add, ⟨some ⟨0x4000000000000000⟩, some ⟨0x4008000000000000⟩⟩, ⟨none, none⟩⟩,
      ⟨.negate, ⟨some ⟨0x3ff0000000000000⟩, none⟩, ⟨none, none⟩⟩,
      ⟨.power, ⟨none, none⟩, ⟨some 0, some 1⟩⟩]⟩ := by
  have hs : compile "2(3)+" = .ok ⟨[⟨.add, ⟨some ⟨0x4000000000000000⟩, some ⟨0x4008000000000000⟩⟩,
      ⟨none, none⟩⟩]⟩ := by decide +kernel
  have ht : compile "-1" = .ok ⟨[⟨.negate, ⟨some ⟨0x3ff0000000000000⟩, none⟩, ⟨none, none⟩⟩]⟩ := by
    decide +kernel
  have hpower := (compile_parentheses hs ht).2.2 .power rfl
  exact ⟨hs, ht, hpower⟩

end Formula

end Reckoner
