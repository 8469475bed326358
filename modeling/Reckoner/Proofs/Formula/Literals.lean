import Reckoner.Proofs.Formula.Magnitude
import Reckoner.Proofs.Formula.Reading
import Reckoner.Proofs.Formula.Rearrangement

/-!
# The literals of a formula and those of its graph

A character without a meaning and a number that is badly written become literals that are not read,
so a formula with one of them has no graph, whatever stands around it. In a formula that has one,
every operand is a numeral, and the literals of the graph, read from its root, are the numbers of
the numerals in their order: arranging the tokens moves operations only, and assembling them moves
nothing.
-/

namespace Reckoner.Formula

/-! ## Characters without a meaning -/

/-- A character that has no meaning in a formula. -/
def IsForeign (c : Char) : Prop :=
  Text.isBlank c = false ∧ c.isDigit = false ∧ c ≠ '.' ∧ isOperator c = false ∧ c ≠ '(' ∧ c ≠ ')'

/-- Putting a character in front of a number leaves the unknown tokens. -/
theorem unknown_mem_consNumeral {c d : Char} {tokens : List Token}
    (h : .unknown c ∈ tokens) : .unknown c ∈ Token.consNumeral d tokens := by
  unfold Token.consNumeral
  split
  · rcases List.mem_cons.mp h with heq | hrest
    · cases heq
    · exact List.mem_cons_of_mem _ hrest
  · exact List.mem_cons_of_mem _ h

/-- A character without a meaning stands for itself and belongs to no number. -/
theorem IsForeign.ofChar_eq {c : Char} (h : IsForeign c) (previous : Option Char) :
    isNumeral previous c = false ∧ Token.ofChar c = .unknown c := by
  obtain ⟨-, hdigit, hpoint, hoperator, hleft, hright⟩ := h
  have hplus : c ≠ '+' := by
    rintro rfl
    cases hoperator
  constructor
  · simp [isNumeral, hdigit, hpoint, hplus]
  · simp [Token.ofChar, hleft, hright, hoperator]

/-- Wherever it stands, a character without a meaning becomes an unknown token. -/
theorem IsForeign.unknown_mem_scan {c : Char} (h : IsForeign c) {text : List Char}
    (hmem : c ∈ text) (previous : Option Char) : .unknown c ∈ scan previous text := by
  induction text generalizing previous with
  | nil => cases hmem
  | cons d rest ih =>
    rw [scan]
    rcases List.mem_cons.mp hmem with rfl | hrest
    · obtain ⟨hnumeral, htoken⟩ := h.ofChar_eq previous
      rw [hnumeral, htoken]
      exact List.mem_cons_self ..
    · split_ifs
      · exact unknown_mem_consNumeral (ih hrest _)
      · exact List.mem_cons_of_mem _ (ih hrest _)

/-- A formula with a character without a meaning has an unknown token. -/
theorem IsForeign.unknown_mem_tokenize {c : Char} (h : IsForeign c) {input : String}
    (hmem : c ∈ input.toList) : .unknown c ∈ tokenize input := by
  refine h.unknown_mem_scan (List.mem_filter.mpr ⟨hmem, ?_⟩) none
  rw [h.1]
  rfl

/-! ## Numbers among the tokens -/

/-- The text of a number. -/
def Token.number? : Token → Option String
  | number text => some text
  | _ => none

/-- Whether a token is an operator. -/
def Token.isOperation : Token → Bool
  | operator _ => true
  | _ => false

/-- The number of operators. -/
def operatorCount (tokens : List Token) : Nat := tokens.countP Token.isOperation

/-- Every operator that is known has one operation. -/
theorem length_operationsOf {tokens : List Token}
    (h : ∀ c, .operator c ∈ tokens → isOperator c = true) (previous : Option Token) :
    (operationsOf previous tokens).length = operatorCount tokens := by
  induction tokens generalizing previous with
  | nil => rfl
  | cons token rest ih =>
    have hrest := ih (fun c hc => h c (List.mem_cons_of_mem _ hc)) (some token)
    rw [operationsOf, List.length_append, hrest, operatorCount, operatorCount, List.countP_cons,
      Nat.add_comm]
    congr 1
    cases token with
    | number text | unknown c | leftParenthesis | rightParenthesis => rfl
    | operator c =>
      obtain ⟨op, hop⟩ := exists_operationOf (h c (List.mem_cons_self ..)) previous
      rw [Token.operation?_operator hop]
      rfl

/-- Operands that are all numerals are the numbers among the tokens. -/
theorem exists_numerals {tokens : List Token}
    (h : ∀ token ∈ tokens, token.isLiteral = true →
      ∃ n : Numeral, token = .number (String.ofList n.text)) :
    ∃ numerals : List Numeral,
      tokens.filterMap Token.number? = numerals.map (fun n => String.ofList n.text) ∧
      operandTexts tokens = numerals.map fun n => String.ofList n.text := by
  induction tokens with
  | nil => exact ⟨[], rfl, rfl⟩
  | cons token rest ih =>
    obtain ⟨numerals, hnumbers, htexts⟩ := ih fun other hother =>
      h other (List.mem_cons_of_mem _ hother)
    by_cases hliteral : token.isLiteral = true
    · obtain ⟨n, rfl⟩ := h token (List.mem_cons_self ..) hliteral
      refine ⟨n :: numerals, ?_, ?_⟩
      · rw [List.filterMap_cons, hnumbers]
        rfl
      · rw [operandTexts_cons hliteral, htexts]
        rfl
    · have hnone : token.number? = none := by
        cases token <;> first | rfl | exact absurd rfl hliteral
      refine ⟨numerals, ?_, ?_⟩
      · rw [List.filterMap_cons, hnone, hnumbers]
      · rw [operandTexts_cons_of_not (Bool.eq_false_iff.mpr hliteral), htexts]

/-- In a formula that has a graph every operand is a numeral. -/
theorem numeral_of_compile {input : String} {graph : TaskGraph} (h : compile input = .ok graph)
    {token : Token} (htoken : token ∈ tokenize input) (hliteral : token.isLiteral = true) :
    ∃ n : Numeral, token = .number (String.ofList n.text) := by
  have haccepted := (compile_isOk_iff input).mp ⟨graph, h⟩
  obtain ⟨value, hread⟩ := Option.isSome_iff_exists.mp (haccepted.numbers token htoken hliteral)
  obtain ⟨n, hn, -⟩ := exists_numeral_of_mem_tokenize htoken hliteral hread
  exact ⟨n, hn⟩

/-! ## Literals that are read back -/

/-- The numbers among symbols that have been read are those of the literals. -/
theorem values_of_reads {symbols : List Symbol} {items : List Item}
    (h : symbols.map some = items.map Item.symbol?) :
    (symbols.filterMap Symbol.value?).map some = (literalTexts items).map Binary64.ofText? := by
  induction items generalizing symbols with
  | nil =>
    obtain rfl := List.map_eq_nil_iff.mp h
    rfl
  | cons item items ih =>
    cases symbols with
    | nil => cases h
    | cons symbol symbols =>
      obtain ⟨hsymbol, hrest⟩ := List.cons.inj h
      cases item with
      | literal text =>
        obtain ⟨x, hx, rfl⟩ := Option.map_eq_some_iff.mp hsymbol.symm
        rw [literalTexts_literal, List.map_cons, hx, ← ih hrest]
        rfl
      | operation op =>
        obtain rfl : symbol = .operation op := Option.some.inj hsymbol
        rw [literalTexts_operation, ← ih hrest]
        rfl

/-- The literals of a graph, read from its root, are the numbers of the operands. -/
theorem literals_of_compile {input : String} {graph : TaskGraph}
    (h : compile input = .ok graph) :
    graph.literals.map some = (operandTexts (tokenize input)).map Binary64.ofText? := by
  obtain ⟨front, waiting, hwrites, hgraph⟩ := exists_writes_of_compile h
  rw [TaskGraph.literals, values_of_reads (represents_of_graphOfPostfix hgraph).reads,
    literalTexts_append, literalTexts_map_operation, List.append_nil, hwrites.literalTexts_eq]

/-- The nodes of a graph are those of the operators, up to order. -/
theorem operations_of_compile {input : String} {graph : TaskGraph}
    (h : compile input = .ok graph) :
    (graph.nodes.map Node.operation).Perm (operationsOf none (tokenize input)) := by
  obtain ⟨front, waiting, hwrites, hgraph⟩ := exists_writes_of_compile h
  rw [(assembles_of_graphOfPostfix hgraph).operations_eq]
  exact hwrites.operations_perm_all

/-- The graph keeps what the formula says. -/
structure Keeps (input : String) (graph : TaskGraph) : Prop where
  /-- Every token is known. -/
  known : ∀ c, .unknown c ∉ tokenize input
  /-- Every operator has one node. -/
  size_eq : graph.size = operatorCount (tokenize input)
  /-- The nodes are those of the operations that the operators stand for. -/
  operations : (graph.nodes.map Node.operation).Perm (operationsOf none (tokenize input))
  /-- The numbers are numerals, and their values in their order are the literals of the graph. -/
  literals : ∃ numerals : List Numeral,
    (tokenize input).filterMap Token.number? = numerals.map (fun n => String.ofList n.text) ∧
      graph.literals = numerals.map Numeral.value

/-- The graph of a formula keeps what the formula says. -/
theorem keeps_of_compile {input : String} {graph : TaskGraph} (h : compile input = .ok graph) :
    Keeps input graph := by
  have hoperations := operations_of_compile h
  obtain ⟨numerals, hnumbers, htexts⟩ := exists_numerals fun _ htoken hliteral =>
    numeral_of_compile h htoken hliteral
  refine ⟨fun c hc => ?_, ?_, hoperations, numerals, hnumbers, ?_⟩
  · obtain ⟨n, hn⟩ := numeral_of_compile h hc rfl
    cases hn
  · have hlength := hoperations.length_eq
    rwa [List.length_map, length_operationsOf fun c hc => isOperator_of_mem_tokenize hc]
      at hlength
  · have hvalues := literals_of_compile h
    have hread : (Binary64.ofText? ∘ fun n : Numeral => String.ofList n.text) =
        some ∘ Numeral.value := by
      funext n
      rw [Function.comp_apply, n.ofText?_text, Function.comp_apply]
    rw [htexts, List.map_map, hread, ← List.map_map] at hvalues
    exact List.map_injective_iff.mpr (Option.some_injective _) hvalues

/-- A character of the formula has no meaning, or one of its numbers is no numeral. -/
def Garbled (input : String) : Prop :=
  (∃ c ∈ input.toList, IsForeign c) ∨
    ∃ text, .number text ∈ tokenize input ∧ ∀ n : Numeral, text ≠ String.ofList n.text

/-- A garbled formula is refused, whatever stands around its fault. -/
theorem Garbled.exists_error {input : String} (h : Garbled input) :
    ∃ e, compile input = .error e := by
  cases hcompile : compile input with
  | error e => exact ⟨e, rfl⟩
  | ok graph =>
    obtain ⟨c, hc, hforeign⟩ | ⟨text, htext, hnone⟩ := h
    · obtain ⟨n, hn⟩ := numeral_of_compile hcompile (hforeign.unknown_mem_tokenize hc) rfl
      cases hn
    · obtain ⟨n, hn⟩ := numeral_of_compile hcompile htext rfl
      exact absurd (Token.number.inj hn) (hnone n)

/-- The graph of a formula keeps what the formula says, and a garbled formula has none. -/
theorem keeps_unless_garbled (input : String) :
    (∀ graph, compile input = .ok graph → Keeps input graph) ∧
      (Garbled input → ∃ e, compile input = .error e) := by
  constructor
  · intro graph hgraph
    exact keeps_of_compile hgraph
  · intro hgarbled
    exact hgarbled.exists_error

/-- The graph of `2+3*4`. -/
def graphAdjacent : TaskGraph where
  nodes := [
    ⟨.multiply, ⟨some ⟨0x4008000000000000⟩, some ⟨0x4010000000000000⟩⟩, ⟨none, none⟩⟩,
    ⟨.add, ⟨some ⟨0x4000000000000000⟩, none⟩, ⟨none, some 0⟩⟩]

/-- Operands that stand side by side keep their order, so `2(3.)+4*` is compiled as `2+3*4`; with a
character that has no meaning it is refused. -/
theorem keeps_adjacent :
    (compile "2(3.)+4*" = .ok graphAdjacent ∧ Keeps "2(3.)+4*" graphAdjacent) ∧
      Garbled "2(3,)+4*" ∧ ∃ e, compile "2(3,)+4*" = .error e := by
  have hgraph : compile "2(3.)+4*" = .ok graphAdjacent := by decide +kernel
  have hgarbled : Garbled "2(3,)+4*" := by
    refine Or.inl ⟨',', ?_, ?_⟩
    · decide
    · unfold IsForeign
      decide
  have hkeeps := (keeps_unless_garbled "2(3.)+4*").1 graphAdjacent hgraph
  have herror := (keeps_unless_garbled "2(3,)+4*").2 hgarbled
  exact ⟨⟨hgraph, hkeeps⟩, hgarbled, herror⟩

end Reckoner.Formula
