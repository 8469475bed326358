import Mathlib.Data.List.Induction
import Reckoner.Proofs.Formula.Waiting

/-!
# Which formulas are compiled

A formula has a graph exactly when its parentheses match, its operands are numbers, it has an
operation, its operands are one more than its binary operations, and behind every beginning of it
the operands outnumber the binary operations that no longer wait. Neither condition asks whether
operands and operators alternate.
-/

namespace Reckoner.Formula

/-! ## The operators of a formula -/

/-- Putting a character in front of a number changes no operator. -/
theorem operator_mem_consNumeral {o c : Char} {tokens : List Token}
    (h : .operator o ∈ Token.consNumeral c tokens) : .operator o ∈ tokens := by
  match tokens with
  | [] => simp [Token.consNumeral] at h
  | .number text :: rest => simpa [Token.consNumeral] using h
  | .operator d :: rest => simpa [Token.consNumeral] using h
  | .leftParenthesis :: rest => simpa [Token.consNumeral] using h
  | .rightParenthesis :: rest => simpa [Token.consNumeral] using h
  | .unknown d :: rest => simpa [Token.consNumeral] using h

/-- Every operator read is one of the five characters. -/
theorem isOperator_of_mem_scan {o : Char} {previous : Option Char} {text : List Char}
    (h : .operator o ∈ scan previous text) : isOperator o = true := by
  induction text generalizing previous with
  | nil => cases h
  | cons c rest ih =>
    rw [scan] at h
    split_ifs at h with hnumeral
    · exact ih (operator_mem_consNumeral h)
    · rcases List.mem_cons.mp h with heq | hmem
      · unfold Token.ofChar at heq
        split_ifs at heq with hleft hright hoperator
        cases heq
        exact hoperator
      · exact ih hmem

/-- Every operator of a formula is one of the five characters. -/
theorem isOperator_of_mem_tokenize {o : Char} {input : String}
    (h : .operator o ∈ tokenize input) : isOperator o = true := isOperator_of_mem_scan h

/-- Each of the five characters stands for an operation wherever it is. -/
theorem exists_operationOf {c : Char} (h : isOperator c = true) (previous : Option Token) :
    ∃ op, operationOf previous c = .ok op := by
  unfold operationOf
  split_ifs
  · exact ⟨.negate, rfl⟩
  · simp only [isOperator, Bool.or_eq_true, beq_iff_eq] at h
    rcases h with (((rfl | rfl) | rfl) | rfl) | rfl <;> exact ⟨_, rfl⟩

/-! ## Running over the tokens -/

/-- Behind `depth` open parentheses, none is closed that has not been opened. -/
def Closes (depth : Nat) (tokens : List Token) : Prop :=
  ∀ front, front <+: tokens →
    front.count .rightParenthesis ≤ depth + front.count .leftParenthesis

/-- A token can be read if it is no unknown operator and closes no more than is open. -/
theorem exists_advances {previous : Option Token} {stack : List Pending} {token : Token}
    (hoperator : ∀ c, token = .operator c → isOperator c = true)
    (hclosed : token = .rightParenthesis → 0 < stack.count .parenthesis) :
    ∃ items left, Advances previous stack token items left := by
  cases token with
  | number text => exact ⟨_, _, .literal stack rfl⟩
  | unknown c => exact ⟨_, _, .literal stack rfl⟩
  | leftParenthesis => exact ⟨_, _, .opening stack⟩
  | rightParenthesis =>
    obtain ⟨waiting, rfl | ⟨below, rfl⟩⟩ := exists_layer stack
    · simp at hclosed
    · exact ⟨_, _, .closing waiting below⟩
  | operator c =>
    obtain ⟨op, hop⟩ := exists_operationOf (hoperator c rfl) previous
    obtain ⟨waiting, below, rfl, hwaiting, hbelow⟩ := exists_release op stack
    exact ⟨_, _, .operator waiting below hop hwaiting hbelow⟩

/-- The end of the formula is accepted exactly when only operations wait. -/
theorem drain_eq_ok_iff {stack : List Pending} {items : List Item} :
    drain stack = .ok items ↔
      ∃ waiting : List Operation, stack = waiting.map .operation ∧
        items = waiting.map .operation := by
  constructor
  · intro h
    obtain ⟨waiting, rfl | ⟨below, rfl⟩⟩ := exists_layer stack
    · exact ⟨waiting, rfl, (Except.ok.inj ((drain_map waiting).symm.trans h)).symm⟩
    · exact absurd ((drain_append waiting below).symm.trans h) (by simp)
  · rintro ⟨waiting, rfl, rfl⟩
    exact drain_map waiting

/-- A list of tokens is arranged exactly when it can be read to its end and leaves only
operations, which are then written behind the rest. -/
theorem arrange_eq_ok_iff {previous : Option Token} {stack : List Pending} {tokens : List Token}
    {items : List Item} :
    arrange previous stack tokens = .ok items ↔
      ∃ front, ∃ waiting : List Operation,
        Writes previous stack tokens front (waiting.map .operation) ∧
          items = front ++ waiting.map .operation := by
  induction tokens generalizing previous stack items with
  | nil =>
    rw [arrange, drain_eq_ok_iff]
    constructor
    · rintro ⟨waiting, rfl, rfl⟩
      exact ⟨[], waiting, .nil .., rfl⟩
    · rintro ⟨front, waiting, hwrites, rfl⟩
      cases hwrites
      exact ⟨waiting, rfl, rfl⟩
  | cons token tokens ih =>
    constructor
    · intro h
      cases hhead : advance previous stack token with
      | error e =>
        simp only [arrange, hhead] at h
        cases h
      | ok written =>
        obtain ⟨head, middle⟩ := written
        rw [arrange_cons hhead] at h
        cases hrest : arrange (some token) middle tokens with
        | error e => simp [hrest] at h
        | ok rest =>
          obtain ⟨front, waiting, hwrites, rfl⟩ := ih.mp hrest
          rw [hrest] at h
          refine ⟨head ++ front, waiting, .cons (advance_eq_ok_iff.mp hhead) hwrites, ?_⟩
          rw [List.append_assoc]
          exact (Except.ok.inj h).symm
    · rintro ⟨_, waiting, hwrites, rfl⟩
      cases hwrites with
      | cons head rest =>
        rw [arrange_cons (advance_eq_ok_iff.mpr head), ih.mpr ⟨_, waiting, rest, rfl⟩,
          List.append_assoc]
        rfl

namespace Writes

variable {previous : Option Token} {stack left : List Pending} {tokens : List Token}
  {items : List Item}

/-- Reading two lists of tokens in turn is reading one, then the other. -/
theorem of_append {more : List Token} (h : Writes previous stack (tokens ++ more) items left) :
    ∃ middle front back, Writes previous stack tokens front middle ∧
      Writes (tokens.getLast?.or previous) middle more back left ∧ items = front ++ back := by
  induction tokens generalizing previous stack items with
  | nil => exact ⟨stack, [], items, .nil .., h, rfl⟩
  | cons token tokens ih =>
    cases h with
    | cons head rest =>
      obtain ⟨middle, front, back, hfront, hback, rfl⟩ := ih rest
      refine ⟨middle, _, back, .cons head hfront, ?_, by rw [List.append_assoc]⟩
      have hlast : (token :: tokens).getLast?.or previous = tokens.getLast?.or (some token) := by
        cases tokens <;> simp [List.getLast?_cons]
      rwa [hlast]

/-- Reading one more token is reading the others, then that one. -/
theorem of_concat {token : Token} (h : Writes previous stack (tokens ++ [token]) items left) :
    ∃ middle front back, Writes previous stack tokens front middle ∧
      Advances (tokens.getLast?.or previous) middle token back left ∧ items = front ++ back := by
  obtain ⟨middle, front, _, hfront, hback, rfl⟩ := h.of_append
  cases hback with
  | @cons _ _ _ _ _ _ back _ head rest =>
    cases rest
    exact ⟨middle, front, back, hfront, head, by rw [List.append_nil]⟩

/-- Tokens can be read if their operators are known and they close no more than is open. -/
theorem exists_of_closes (hoperators : ∀ c, .operator c ∈ tokens → isOperator c = true)
    (hcloses : Closes (stack.count .parenthesis) tokens) :
    ∃ items left, Writes previous stack tokens items left := by
  induction tokens generalizing previous stack with
  | nil => exact ⟨[], stack, .nil ..⟩
  | cons token tokens ih =>
    have hone := hcloses [token] (by simp)
    obtain ⟨items, middle, hhead⟩ := @exists_advances previous stack token
      (fun c hc => hoperators c (by simp [hc]))
      (fun hright => by subst hright; simpa using hone)
    have hcount := hhead.count_parenthesis
    have hrest : Closes (middle.count .parenthesis) tokens := by
      intro front hfront
      have hcons := hcloses (token :: front) ((List.prefix_cons_inj _).mpr hfront)
      simp only [List.count_cons, List.count_nil] at hcount hcons
      omega
    obtain ⟨more, left, hmore⟩ :=
      ih (fun c hc => hoperators c (List.mem_cons_of_mem _ hc)) hrest
    exact ⟨items ++ more, left, .cons hhead hmore⟩

end Writes

/-! ## Acceptance -/

/-- What it takes for a list of tokens to have a graph. -/
structure Accepted (tokens : List Token) : Prop where
  /-- No parenthesis is closed before it is opened. -/
  closes : Closes 0 tokens
  /-- Every parenthesis is closed. -/
  balanced : tokens.count .rightParenthesis = tokens.count .leftParenthesis
  /-- Every operand is a number. -/
  numbers : ∀ token ∈ tokens, token.isLiteral = true →
    (Binary64.ofText? token.text).isSome = true
  /-- There is an operation. -/
  operation : operationsOf none tokens ≠ []
  /-- The operands are one more than the binary operations. -/
  operands : operandCount tokens = binaryCount (operationsOf none tokens) + 1
  /-- As soon as an operation no longer waits, the operands so far outnumber the binary operations
  that no longer wait. -/
  covered : ∀ front, front <+: tokens → released none front ≠ [] →
    binaryCount (released none front) < operandCount front

/-- Only operations are left of a stack without parentheses. -/
theorem exists_eq_map_operation {stack : List Pending} (h : stack.count .parenthesis = 0) :
    ∃ waiting : List Operation, stack = waiting.map .operation := by
  obtain ⟨waiting, rfl | ⟨below, rfl⟩⟩ := exists_layer stack
  · exact ⟨waiting, rfl⟩
  · simp at h

/-- Every item is a literal or an operation. -/
theorem length_eq_literalCount_add (items : List Item) :
    items.length = literalCount items + (operations items).length := by
  induction items with
  | nil => rfl
  | cons item items ih =>
    cases item <;>
      simp only [List.length_cons, literalCount_literal, operations_literal,
        literalCount_operation, operations_operation] <;> omega

/-- What the tokens from the start have written consists of the operations that no longer wait. -/
theorem Writes.operations_perm_released {tokens : List Token} {items : List Item}
    {left : List Pending} (h : Writes none [] tokens items left) :
    (operations items).Perm (released none tokens) := h.released_perm trivial

/-- The written form is covered if the operands outnumber the operations that no longer wait. -/
theorem Writes.covered {tokens : List Token} {items : List Item} {left : List Pending}
    (h : Writes none [] tokens items left)
    (hcovered : ∀ front, front <+: tokens → released none front ≠ [] →
      binaryCount (released none front) < operandCount front) :
    Covered 0 items := by
  induction tokens using List.reverseRecOn generalizing items left with
  | nil =>
    cases h
    intro front hfront hne
    simp [List.prefix_nil.mp hfront] at hne
  | append_singleton tokens token ih =>
    obtain ⟨middle, front, back, hfront, hback, rfl⟩ := h.of_concat
    have hstart := ih hfront fun part hpart => hcovered part (hpart.trans (List.prefix_append ..))
    have hlast := hcovered (tokens ++ [token]) (List.prefix_refl _)
    have hperm := h.operations_perm_released
    have hnil : operations (front ++ back) ≠ [] → released none (tokens ++ [token]) ≠ [] :=
      fun hne hreleased => hne (hperm.trans (.of_eq hreleased)).eq_nil
    rw [← binaryCount_perm hperm, ← h.literalCount_eq] at hlast
    cases hback with
    | literal stack hliteral => exact hstart.append_literal token.text
    | opening => simpa using hstart
    | closing waiting | operator waiting =>
      refine hstart.append_operations fun hne => ?_
      simp only [operations_append, operations_map_operation, literalCount_append,
        literalCount_map_operation, Nat.add_zero] at hlast hnil
      rw [Nat.zero_add]
      exact hlast (hnil hne)

/-- At the end of the tokens everything is written, and no operation is lost. -/
theorem Writes.operations_perm_all {tokens : List Token} {front : List Item}
    {waiting : List Operation} (h : Writes none [] tokens front (waiting.map .operation)) :
    (operations (front ++ waiting.map .operation)).Perm (operationsOf none tokens) := by
  simpa using h.operations_perm

/-- At the end of the tokens every operand is written. -/
theorem Writes.literalCount_all {tokens : List Token} {front : List Item}
    {waiting : List Operation} (h : Writes none [] tokens front (waiting.map .operation)) :
    literalCount (front ++ waiting.map .operation) = operandCount tokens := by
  simpa using h.literalCount_eq

/-- At the end of the tokens the literals written are the texts of the operands. -/
theorem Writes.literal_mem_all {tokens : List Token} {front : List Item}
    {waiting : List Operation} (h : Writes none [] tokens front (waiting.map .operation))
    (text : String) :
    .literal text ∈ front ++ waiting.map .operation ↔
      ∃ token ∈ tokens, token.isLiteral = true ∧ token.text = text := by
  simpa using h.literal_mem_iff text

/-- What is read to its end and has a graph is accepted. -/
theorem Writes.accepted {tokens : List Token} {front : List Item} {waiting : List Operation}
    (h : Writes none [] tokens front (waiting.map .operation)) {graph : TaskGraph}
    (hgraph : graphOfPostfix (front ++ waiting.map .operation) = .ok graph) :
    Accepted tokens := by
  obtain ⟨hnumbers, hoperation, hcovered, hcount⟩ := (graphOfPostfix_isOk_iff _).mp ⟨graph, hgraph⟩
  refine ⟨fun part hpart => ?_, ?_, fun token htoken hliteral => ?_, fun hnil => ?_, ?_,
    fun part hpart hne => ?_⟩
  · obtain ⟨more, rfl⟩ := hpart
    obtain ⟨middle, _, _, hpart, -⟩ := h.of_append
    have hcount := hpart.count_parenthesis
    rw [List.count_nil] at hcount
    omega
  · have hcount := h.count_parenthesis
    rw [List.count_nil, count_parenthesis_map] at hcount
    omega
  · exact hnumbers _ ((h.literal_mem_all _).mpr ⟨token, htoken, hliteral, rfl⟩)
  · exact hoperation (h.operations_perm_all.trans (.of_eq hnil)).eq_nil
  · rw [← h.literalCount_all, hcount, binaryCount_perm h.operations_perm_all]
  · obtain ⟨more, rfl⟩ := hpart
    obtain ⟨middle, start, rest, hpart, -, rfl⟩ := h.of_append
    have hperm := hpart.operations_perm_released
    have hstart := hcovered start ⟨rest ++ waiting.map .operation, by rw [List.append_assoc]⟩
      fun hnil => hne (hperm.symm.trans (.of_eq hnil)).eq_nil
    rwa [Nat.zero_add, binaryCount_perm hperm, hpart.literalCount_eq] at hstart

/-- What is accepted and read to its end has a graph. -/
theorem Accepted.graphOfPostfix_isOk {tokens : List Token} (h : Accepted tokens)
    {front : List Item} {waiting : List Operation}
    (hwrites : Writes none [] tokens front (waiting.map .operation)) :
    ∃ graph, graphOfPostfix (front ++ waiting.map .operation) = .ok graph := by
  have hperm := hwrites.operations_perm_all
  have hcount : literalCount (front ++ waiting.map .operation) =
      binaryCount (operations (front ++ waiting.map .operation)) + 1 := by
    rw [hwrites.literalCount_all, binaryCount_perm hperm, h.operands]
  refine (graphOfPostfix_isOk_iff _).mpr ⟨fun text htext => ?_, fun hnil => ?_, ?_, hcount⟩
  · obtain ⟨token, htoken, hliteral, rfl⟩ := (hwrites.literal_mem_all text).mp htext
    exact h.numbers token htoken hliteral
  · exact h.operation (hperm.symm.trans (.of_eq hnil)).eq_nil
  · refine (hwrites.covered h.covered).append_operations fun _ => ?_
    simp only [operations_append, operations_map_operation, literalCount_append,
      literalCount_map_operation] at hcount
    omega

/-- A postfix form is found when the tokens can be arranged and write more than one item. -/
theorem toPostfix_eq_ok_iff {tokens : List Token} {items : List Item} :
    toPostfix tokens = .ok items ↔ arrange none [] tokens = .ok items ∧ items.length ≠ 1 := by
  unfold toPostfix
  cases arrange none [] tokens with
  | error e => exact ⟨nofun, nofun⟩
  | ok written =>
    change (if written.length = 1 then _ else _) = _ ↔ _
    rw [Except.ok.injEq]
    split_ifs with hone
    · simp only [false_iff, not_and, not_not]
      rintro rfl
      exact hone
    · simp only [Except.ok.injEq, iff_self_and]
      rintro rfl
      exact hone

/-- The graph of a formula comes of what its tokens write, followed by what is left waiting. -/
theorem exists_writes_of_compile {input : String} {graph : TaskGraph}
    (h : compile input = .ok graph) :
    ∃ front, ∃ waiting : List Operation,
      Writes none [] (tokenize input) front (waiting.map .operation) ∧
        graphOfPostfix (front ++ waiting.map .operation) = .ok graph := by
  obtain ⟨items, hitems, hgraph⟩ := compile_eq_ok_iff.mp h
  obtain ⟨harrange, -⟩ := toPostfix_eq_ok_iff.mp hitems
  obtain ⟨front, waiting, hwrites, rfl⟩ := arrange_eq_ok_iff.mp harrange
  exact ⟨front, waiting, hwrites, hgraph⟩

/-- A formula has a graph exactly when its tokens are accepted. -/
theorem compile_isOk_iff (input : String) :
    (∃ graph, compile input = .ok graph) ↔ Accepted (tokenize input) := by
  generalize htokens : tokenize input = tokens
  have hoperators : ∀ c, .operator c ∈ tokens → isOperator c = true := fun c hc =>
    isOperator_of_mem_tokenize (htokens ▸ hc : _ ∈ tokenize input)
  constructor
  · rintro ⟨graph, hcompile⟩
    obtain ⟨front, waiting, hwrites, hgraph⟩ := exists_writes_of_compile hcompile
    rw [htokens] at hwrites
    exact hwrites.accepted hgraph
  · intro h
    obtain ⟨front, left, hwrites⟩ := @Writes.exists_of_closes none [] tokens hoperators h.closes
    have hcount := hwrites.count_parenthesis
    have hbalanced := h.balanced
    rw [List.count_nil] at hcount
    obtain ⟨waiting, rfl⟩ := @exists_eq_map_operation left (by omega)
    obtain ⟨graph, hgraph⟩ := h.graphOfPostfix_isOk hwrites
    obtain ⟨-, hoperation, -, hliterals⟩ := (graphOfPostfix_isOk_iff _).mp ⟨graph, hgraph⟩
    have hlength := length_eq_literalCount_add (front ++ waiting.map .operation)
    have hpositive := List.length_pos_iff.mpr hoperation
    have harranged := toPostfix_eq_ok_iff.mpr
      ⟨arrange_eq_ok_iff.mpr ⟨front, waiting, hwrites, rfl⟩, by omega⟩
    refine ⟨graph, ?_⟩
    rw [compile, htokens, harranged]
    exact hgraph

end Reckoner.Formula
