import Mathlib.Data.List.Forall2
import Reckoner.Calculation
import Reckoner.Proofs.Formula.Assembly

/-!
# Executing a graph and its postfix form

An interpretation says what an operation makes of the values in its slots, or how it fails. A graph
is executed node by node, each dependency filled from the results computed so far; a postfix form is
executed on a stack of values. When a graph comes of a postfix form, the operands on the stack of
the assembly stand for the values on the stack of the execution, so both come to the same, and no
result is read before it has been computed.
-/

namespace Reckoner

/-- What an operation makes of the values in its slots, or how it fails. -/
abbrev Interpretation (ε : Type) : Type :=
  Operation → Operands (Option Binary64) → Except ε Binary64

/-- Why an execution ends without a value. -/
inductive Stop (ε : Type) where
  /-- An operation fails. -/
  | failed (error : ε)
  /-- A value is needed that is not there. -/
  | missing

/-- The operations as they are computed with an arithmetic. -/
def Interpretation.calculation (arith : Arithmetic) : Interpretation ComputeError :=
  fun op operands => calculate arith op.symbol operands

variable {ε : Type} (interpret : Interpretation ε)

/-! ## Executing a graph -/

/-- The value of a slot: the result at the position of its dependency, or else its literal. -/
def Node.fetch (results : List Binary64) (node : Node) (slot : Slot) :
    Except (Stop ε) (Option Binary64) :=
  match node.dependencies.get slot with
  | none => .ok (node.args.get slot)
  | some j =>
    match results[j]? with
    | some value => .ok (some value)
    | none => .error .missing

/-- The value of a node, computed from the results so far. -/
def Node.execute (results : List Binary64) (node : Node) : Except (Stop ε) Binary64 := do
  let left ← node.fetch results .left
  let right ← node.fetch results .right
  (interpret node.operation ⟨left, right⟩).mapError .failed

/-- The results so far and those of the nodes behind them, in order. The first operation that fails
ends the execution. -/
def executeNodes (results : List Binary64) : List Node → Except (Stop ε) (List Binary64)
  | [] => .ok results
  | node :: rest => do
    let value ← node.execute interpret results
    executeNodes (results ++ [value]) rest

/-- The result at a position. -/
def resultAt (position : Nat) (results : List Binary64) : Except (Stop ε) Binary64 :=
  match results[position]? with
  | some value => .ok value
  | none => .error .missing

/-- The result of the root. -/
def TaskGraph.execute (graph : TaskGraph) : Except (Stop ε) Binary64 := do
  let results ← executeNodes interpret [] graph.nodes
  resultAt graph.root results

namespace Formula

/-! ## Executing a postfix form -/

/-- Replaces the operands of an operation on the stack, the right one on top, by its value. -/
def applyTo (op : Operation) (stack : List Binary64) : Except (Stop ε) (List Binary64) :=
  match op, stack with
  | .negate, operand :: below => do
    let value ← (interpret .negate ⟨some operand, none⟩).mapError .failed
    return value :: below
  | .negate, [] => .error .missing
  | op, right :: left :: below => do
    let value ← (interpret op ⟨some left, some right⟩).mapError .failed
    return value :: below
  | _, _ => .error .missing

/-- The value that a postfix form leaves alone on the stack. -/
def executePostfix (stack : List Binary64) : List Item → Except (Stop ε) Binary64
  | [] =>
    match stack with
    | [value] => .ok value
    | _ => .error .missing
  | .literal text :: rest =>
    match Binary64.ofText? text with
    | some value => executePostfix (value :: stack) rest
    | none => .error .missing
  | .operation op :: rest => do
    let left ← applyTo interpret op stack
    executePostfix left rest

/-! ## Both come to the same -/

/-- The value that an operand stands for, given the results so far. -/
def Operand.valueIn (results : List Binary64) : Operand → Option Binary64
  | literal value => some value
  | result j => results[j]?

/-- The operands stand for the values. -/
def Stands (results : List Binary64) : List Operand → List Binary64 → Prop :=
  List.Forall₂ fun operand value => operand.valueIn results = some value

/-- An operand stands for the same value when there are more results. -/
theorem Stands.mono {results : List Binary64} {stack : List Operand} {values : List Binary64}
    (h : Stands results stack values) (more : List Binary64) :
    Stands (results ++ more) stack values := by
  refine h.imp fun operand value hvalue => ?_
  cases operand with
  | literal x => exact hvalue
  | result j =>
    have hlt : j < results.length := (List.getElem?_eq_some_iff.mp hvalue).1
    exact (List.getElem?_append_left hlt).trans hvalue

/-- A slot filled with an operand is fetched as the value it stands for. -/
theorem fetch_of_valueIn {results : List Binary64} {node : Node} {slot : Slot}
    {operand : Operand} {value : Binary64} (hargs : node.args.get slot = operand.value?)
    (hdependencies : node.dependencies.get slot = operand.position?)
    (hvalue : operand.valueIn results = some value) :
    node.fetch results slot = (.ok (some value) : Except (Stop ε) _) := by
  cases operand with
  | literal x =>
    obtain rfl : x = value := Option.some.inj hvalue
    simp [Node.fetch, hargs, hdependencies, Operand.value?, Operand.position?]
  | result j =>
    have hresult : results[j]? = some value := hvalue
    simp [Node.fetch, hdependencies, Operand.position?, hresult]

/-- One operation: the node takes its operands from the results as the operation does from the
stack. -/
theorem execute_of_take {op : Operation} {stack left : List Operand} {node : Node}
    (h : take op stack = .ok (node, left)) {results values : List Binary64}
    (hvalues : Stands results stack values) :
    ∃ below, Stands results left below ∧ ∃ operands,
      node.execute interpret results = (interpret op operands).mapError .failed ∧
      applyTo interpret op values =
        (· :: below) <$> (interpret op operands).mapError .failed := by
  obtain ⟨operand, rfl, rfl, rfl⟩ | ⟨first, second, hslots, rfl, rfl⟩ := take_cases h
  · obtain ⟨value, below, hoperand, hbelow, rfl⟩ := List.forall₂_cons_left_iff.mp hvalues
    refine ⟨below, hbelow, ⟨some value, none⟩, ?_, rfl⟩
    have hleft := @fetch_of_valueIn ε results operand.negated .left operand value rfl rfl hoperand
    rw [Node.execute, hleft]
    rfl
  · obtain ⟨right, others, hright, hothers, rfl⟩ := List.forall₂_cons_left_iff.mp hvalues
    obtain ⟨left, below, hleft, hbelow, rfl⟩ := List.forall₂_cons_left_iff.mp hothers
    refine ⟨below, hbelow, ⟨some left, some right⟩, ?_, ?_⟩
    · have hleft := @fetch_of_valueIn ε results (Operand.binary op first second) .left first left
        rfl rfl hleft
      have hright := @fetch_of_valueIn ε results (Operand.binary op first second) .right second
        right rfl rfl hright
      rw [Node.execute, hleft, hright]
      rfl
    · cases op <;> first | rfl | cases hslots

/-- All operations: the last result is the value that the items leave on the stack, and nothing is
missing. -/
theorem Assembles.execute_eq {position : Nat} {stack : List Operand} {items : List Item}
    {nodes : List Node} (h : Assembles position stack items nodes)
    {results values : List Binary64} (hresults : results.length = position)
    (hvalues : Stands results stack values) :
    executePostfix interpret values items ≠ .error .missing ∧
      (executeNodes interpret results nodes >>= resultAt (position + nodes.length - 1)) =
        executePostfix interpret values items := by
  induction h generalizing results values with
  | done root =>
    obtain ⟨value, below, hvalue, hbelow, rfl⟩ := List.forall₂_cons_left_iff.mp hvalues
    obtain rfl := List.forall₂_nil_left_iff.mp hbelow
    have hresult : results[root]? = some value := hvalue
    refine ⟨nofun, ?_⟩
    change resultAt root results = .ok value
    rw [resultAt, hresult]
  | @literal position stack items nodes text value hread rest ih =>
    have hstack : Stands results (.literal value :: stack) (value :: values) := .cons rfl hvalues
    rw [executePostfix, hread]
    exact ih hresults hstack
  | @operation position stack left items nodes op node hearlier htake rest ih =>
    obtain ⟨below, hbelow, operands, hnode, happly⟩ := execute_of_take interpret htake hvalues
    rw [executePostfix, happly, executeNodes, hnode]
    cases hvalue : interpret op operands with
    | error e => exact ⟨nofun, rfl⟩
    | ok value =>
      have hlength : (results ++ [value]).length = position + 1 := by simp [hresults]
      have hstack : Stands (results ++ [value]) (.result position :: left) (value :: below) := by
        refine .cons ?_ (hbelow.mono [value])
        rw [← hresults]
        exact List.getElem?_concat_length
      have hlast : position + (nodes.length + 1) - 1 = position + 1 + nodes.length - 1 := by omega
      rw [List.length_cons, hlast]
      exact ih hlength hstack

/-- A graph that comes of a postfix form executes to what the form executes to on a stack, however
the operations are interpreted, and reads no result before it has been computed. -/
theorem execute_eq_executePostfix {items : List Item} {graph : TaskGraph}
    (h : graphOfPostfix items = .ok graph) :
    graph.execute interpret ≠ .error .missing ∧
      graph.execute interpret = executePostfix interpret [] items := by
  have hassembles := assembles_of_graphOfPostfix h
  obtain ⟨hmissing, heq⟩ := @Assembles.execute_eq ε interpret 0 [] items graph.nodes hassembles
    [] [] rfl .nil
  have hroot : 0 + graph.nodes.length - 1 = graph.root := by
    rw [Nat.zero_add]
    rfl
  rw [hroot] at heq
  rw [TaskGraph.execute, heq]
  exact ⟨hmissing, rfl⟩

/-- The postfix form of `1/(-0)`. -/
def postfixQuotient : List Item :=
  [.literal "1", .literal "0", .operation .negate, .operation .divide]

/-- The graph of `postfixQuotient`. -/
def graphQuotient : TaskGraph where
  nodes := [
    ⟨.negate, ⟨some ⟨0⟩, none⟩, ⟨none, none⟩⟩,
    ⟨.divide, ⟨some ⟨0x3ff0000000000000⟩, none⟩, ⟨none, some 0⟩⟩]

/-- The division, whose divisor is the result of the other node, fails in both executions. -/
theorem execute_quotient :
    graphOfPostfix postfixQuotient = .ok graphQuotient ∧
      graphQuotient.execute (.calculation .ieee) = .error (.failed .divisionByZero) ∧
      executePostfix (.calculation .ieee) [] postfixQuotient =
        .error (.failed .divisionByZero) := by
  have hgraph : graphOfPostfix postfixQuotient = .ok graphQuotient := by decide +kernel
  have hfails : graphQuotient.execute (.calculation .ieee) =
      .error (.failed .divisionByZero) := rfl
  obtain ⟨-, heq⟩ := execute_eq_executePostfix (.calculation .ieee) hgraph
  exact ⟨hgraph, hfails, heq.symm.trans hfails⟩

end Formula

end Reckoner
