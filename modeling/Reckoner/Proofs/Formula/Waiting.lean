import Reckoner.Proofs.Formula.Pending
import Reckoner.Proofs.Formula.Supply

/-!
# Which operations still wait

Whether an operation waits can be told from the tokens behind it alone, without a stack: its group
has not been closed, and outside further parentheses no operation has come that binds at most as
strongly. What a beginning of a formula has written is, up to order, its operations that no longer
wait, and its literals.
-/

namespace Reckoner.Formula

/-! ## Waiting, told from the tokens -/

/-- The operation of a token behind another. -/
def Token.operation? (previous : Option Token) : Token → Option Operation
  | operator c => (operationOf previous c).toOption
  | _ => none

/-- Whether an operation still waits when the tokens have been read that begin `depth` parentheses
below its own group. -/
def waits (op : Operation) : Nat → Option Token → List Token → Bool
  | _, _, [] => true
  | depth, previous, token :: rest =>
    match token with
    | .leftParenthesis => waits op (depth + 1) (some token) rest
    | .rightParenthesis => depth != 0 && waits op (depth - 1) (some token) rest
    | _ =>
      (depth != 0 || (token.operation? previous).all (precedence op < precedence ·)) &&
        waits op depth (some token) rest

/-- The operations among the tokens that no longer wait behind the last one. -/
def released (previous : Option Token) : List Token → List Operation
  | [] => []
  | token :: rest =>
    ((token.operation? previous).filter fun op => !waits op 0 (some token) rest).toList ++
      released (some token) rest

/-- The operations among the tokens that still wait behind the last one. -/
def waitingOf (previous : Option Token) : List Token → List Operation
  | [] => []
  | token :: rest =>
    ((token.operation? previous).filter fun op => waits op 0 (some token) rest).toList ++
      waitingOf (some token) rest

/-- The operations of the tokens, in their order. -/
def operationsOf (previous : Option Token) : List Token → List Operation
  | [] => []
  | token :: rest => (token.operation? previous).toList ++ operationsOf (some token) rest

/-- The number of operands among the tokens. -/
def operandCount (tokens : List Token) : Nat := tokens.countP Token.isLiteral

/-- An operation waits or no longer waits. -/
theorem released_append_waitingOf_perm (previous : Option Token) (tokens : List Token) :
    (released previous tokens ++ waitingOf previous tokens).Perm
      (operationsOf previous tokens) := by
  induction tokens generalizing previous with
  | nil => rfl
  | cons token rest ih =>
    have hrest := ih (some token)
    simp only [released, waitingOf, operationsOf]
    cases hop : token.operation? previous with
    | none => simpa using hrest
    | some op =>
      by_cases hwaits : waits op 0 (some token) rest = true
      · simp only [Option.filter_some, hwaits, Bool.not_true, Bool.false_eq_true, if_false,
          if_true, Option.toList_none, Option.toList_some, List.nil_append, List.singleton_append]
        exact List.perm_middle.trans (hrest.cons op)
      · simp only [Option.filter_some, hwaits, Bool.not_false, Bool.false_eq_true, if_false,
          if_true, Option.toList_none, Option.toList_some, List.nil_append, List.cons_append]
        exact hrest.cons op

/-- The operations on a stack that no longer wait behind the tokens; the top of the stack lies
`depth` parentheses above the tokens. -/
def releasedFrom (depth : Nat) (previous : Option Token) (tokens : List Token) :
    List Pending → List Operation
  | [] => []
  | .parenthesis :: below => releasedFrom (depth + 1) previous tokens below
  | .operation op :: below =>
    if waits op depth previous tokens then releasedFrom depth previous tokens below
    else op :: releasedFrom depth previous tokens below

/-- Behind no token everything waits. -/
@[simp] theorem releasedFrom_nil (depth : Nat) (previous : Option Token) (stack : List Pending) :
    releasedFrom depth previous [] stack = [] := by
  induction stack generalizing depth with
  | nil => rfl
  | cons pending below ih => cases pending <;> simp [releasedFrom, waits, ih]

/-- What is released from a stack depends on which operations wait, layer by layer. -/
theorem releasedFrom_congr {depth depth' : Nat} {previous previous' : Option Token}
    {tokens tokens' : List Token}
    (h : ∀ op k, waits op (depth + k) previous tokens = waits op (depth' + k) previous' tokens')
    (stack : List Pending) :
    releasedFrom depth previous tokens stack = releasedFrom depth' previous' tokens' stack := by
  induction stack generalizing depth depth' with
  | nil => rfl
  | cons pending below ih =>
    cases pending with
    | parenthesis =>
      refine ih fun op k => ?_
      rw [Nat.add_assoc, Nat.add_assoc]
      exact h op (1 + k)
    | operation op =>
      have hop := h op 0
      simp only [Nat.add_zero] at hop
      simp only [releasedFrom, hop, ih h]

/-- A layer that is released as a whole comes before what is released below. -/
theorem releasedFrom_append {depth : Nat} {previous : Option Token} {tokens : List Token}
    {waiting : List Operation} (h : ∀ op ∈ waiting, waits op depth previous tokens = false)
    (below : List Pending) :
    releasedFrom depth previous tokens (waiting.map .operation ++ below) =
      waiting ++ releasedFrom depth previous tokens below := by
  induction waiting with
  | nil => rfl
  | cons op waiting ih =>
    have hop := h op (List.mem_cons_self ..)
    have hrest := ih fun other hother => h other (List.mem_cons_of_mem _ hother)
    simp [releasedFrom, hop, hrest]

/-! ## The stack and the operations that wait -/

/-- In every layer the operations bind the more strongly the higher they lie. -/
def Layered : List Pending → Prop
  | [] => True
  | .parenthesis :: below => Layered below
  | .operation op :: below => Yields (precedence op) below ∧ Layered below

/-- What lies under a released layer is still layered. -/
theorem Layered.of_append {waiting : List Operation} {below : List Pending}
    (h : Layered (waiting.map .operation ++ below)) : Layered below := by
  induction waiting with
  | nil => exact h
  | cons op waiting ih => exact ih h.2

/-- The operation of something pending. -/
def Pending.operation? : Pending → Option Operation
  | parenthesis => none
  | operation op => some op

/-- The operations on a stack, the top one first. -/
def pendingOperations (stack : List Pending) : List Operation := stack.filterMap Pending.operation?

@[simp] theorem pendingOperations_nil : pendingOperations [] = [] := rfl

@[simp] theorem pendingOperations_append (upper lower : List Pending) :
    pendingOperations (upper ++ lower) = pendingOperations upper ++ pendingOperations lower := by
  simp [pendingOperations]

@[simp] theorem pendingOperations_map (ops : List Operation) :
    pendingOperations (ops.map .operation) = ops := by
  simp [pendingOperations, List.filterMap_map, Function.comp_def, Pending.operation?]

@[simp] theorem pendingOperations_parenthesis (below : List Pending) :
    pendingOperations (.parenthesis :: below) = pendingOperations below := rfl

@[simp] theorem pendingOperations_operation (op : Operation) (below : List Pending) :
    pendingOperations (.operation op :: below) = op :: pendingOperations below := rfl

@[simp] theorem count_parenthesis_map (ops : List Operation) :
    (ops.map Pending.operation).count .parenthesis = 0 := by
  simp [List.count_eq_zero]

/-- An operand has no operation. -/
theorem Token.operation?_of_isLiteral {token : Token} (h : token.isLiteral = true)
    (previous : Option Token) : token.operation? previous = none := by
  cases token <;> first | rfl | exact absurd h Bool.false_ne_true

/-- An operator that is understood has its operation. -/
theorem Token.operation?_operator {previous : Option Token} {c : Char} {op : Operation}
    (h : operationOf previous c = .ok op) : (operator c).operation? previous = some op := by
  simp [operation?, h, Except.toOption]

/-- One token: what it writes and what it leaves pending was pending or is its own operation. -/
theorem Advances.operations_perm {previous : Option Token} {stack left : List Pending}
    {token : Token} {items : List Item} (h : Advances previous stack token items left) :
    (operations items ++ pendingOperations left).Perm
      (pendingOperations stack ++ (token.operation? previous).toList) := by
  cases h with
  | literal stack h => simp [Token.operation?_of_isLiteral h]
  | opening => simp [Token.operation?]
  | closing waiting => simp [Token.operation?]
  | @operator c op waiting below hop =>
    have hmiddle : (waiting ++ op :: pendingOperations below).Perm
        ((waiting ++ pendingOperations below) ++ [op]) :=
      List.perm_middle.trans (List.perm_append_singleton ..).symm
    simpa [Token.operation?_operator hop] using hmiddle

/-- One token: the open parentheses on the stack are counted. -/
theorem Advances.count_parenthesis {previous : Option Token} {stack left : List Pending}
    {token : Token} {items : List Item} (h : Advances previous stack token items left) :
    left.count .parenthesis + [token].count .rightParenthesis =
      stack.count .parenthesis + [token].count .leftParenthesis := by
  cases h with
  | literal stack h => cases token <;> first | rfl | exact absurd h Bool.false_ne_true
  | opening => simp
  | closing waiting => simp
  | operator waiting => simp

/-- Reading a token keeps the stack layered. -/
theorem Advances.layered {previous : Option Token} {stack left : List Pending} {token : Token}
    {items : List Item} (h : Advances previous stack token items left) (hstack : Layered stack) :
    Layered left := by
  cases h with
  | literal => exact hstack
  | opening => exact hstack
  | closing waiting => exact (hstack.of_append : Layered (.parenthesis :: left))
  | operator waiting below _ _ hbelow => exact ⟨hbelow, hstack.of_append⟩

/-- An operation to which the stack yields releases nothing from it. -/
theorem releasedFrom_yields {previous : Option Token} {token : Token} {op : Operation}
    (hop : token.operation? previous = some op) (rest : List Token) {stack : List Pending}
    (hlayered : Layered stack) (hyields : Yields (precedence op) stack) :
    releasedFrom 0 previous (token :: rest) stack = releasedFrom 0 (some token) rest stack := by
  obtain ⟨c, rfl⟩ : ∃ c, token = .operator c := by
    cases token <;> first | exact ⟨_, rfl⟩ | cases hop
  induction stack with
  | nil => rfl
  | cons pending below ih =>
    cases pending with
    | parenthesis =>
      refine releasedFrom_congr (fun other k => ?_) below
      have hdepth : (0 + 1 + k != 0) = true := by simp
      simp [waits, hdepth]
    | operation top =>
      have htop : precedence top < precedence op := hyields
      have hbelow := ih hlayered.2 (hlayered.1.mono (Nat.le_of_lt htop))
      simp [releasedFrom, waits, hop, htop, hbelow]

/-- One token: what it writes, and what is released later from the stack that it leaves, are what
is released from the stack before it and what becomes of its own operation. -/
theorem Advances.released_perm {previous : Option Token} {stack left : List Pending}
    {token : Token} {items : List Item} (h : Advances previous stack token items left)
    (hstack : Layered stack) (rest : List Token) :
    (operations items ++ releasedFrom 0 (some token) rest left).Perm
      (releasedFrom 0 previous (token :: rest) stack ++
        ((token.operation? previous).filter fun op => !waits op 0 (some token) rest).toList) := by
  cases h with
  | literal stack h =>
    have hsame : releasedFrom 0 previous (token :: rest) stack =
        releasedFrom 0 (some token) rest stack := by
      refine releasedFrom_congr (fun op k => ?_) stack
      cases token <;> first | exact absurd h Bool.false_ne_true | simp [waits, Token.operation?]
    simp [Token.operation?_of_isLiteral h, hsame]
  | opening =>
    have hsame : releasedFrom 0 previous (.leftParenthesis :: rest) stack =
        releasedFrom 1 (some .leftParenthesis) rest stack :=
      releasedFrom_congr (fun op k => by simp [waits, Nat.add_comm]) stack
    simp [releasedFrom, hsame, Token.operation?]
  | closing waiting =>
    have hsame : releasedFrom 1 previous (.rightParenthesis :: rest) left =
        releasedFrom 0 (some .rightParenthesis) rest left :=
      releasedFrom_congr (fun op k => by simp [waits, Nat.add_comm 1 k]) left
    have hlayer := @releasedFrom_append 0 previous (.rightParenthesis :: rest) waiting
      (fun op _ => by simp [waits]) (.parenthesis :: left)
    rw [hlayer, operations_map_operation]
    simp [releasedFrom, hsame, Token.operation?]
  | @operator c op waiting below hop hwaiting hbelow =>
    have htoken := Token.operation?_operator hop
    have hlayer := @releasedFrom_append 0 previous (.operator c :: rest) waiting
      (fun top htop => by simp [waits, htoken, Nat.not_lt.mpr (hwaiting top htop)]) below
    rw [hlayer, releasedFrom_yields htoken rest hstack.of_append hbelow, htoken,
      operations_map_operation]
    by_cases hwaits : waits op 0 (some (.operator c)) rest = true
    · simp [releasedFrom, hwaits, Option.filter_some]
    · simp only [releasedFrom, hwaits, Option.filter_some, Bool.false_eq_true, if_false,
        Bool.not_false, if_true, Option.toList_some]
      exact List.perm_middle.trans (List.perm_append_singleton ..).symm

/-! ## Beginnings of a formula -/

/-- What the tokens behind `previous` write, and the stack that they leave. -/
inductive Writes : Option Token → List Pending → List Token → List Item → List Pending → Prop
  | nil (previous : Option Token) (stack : List Pending) : Writes previous stack [] [] stack
  | cons {previous : Option Token} {stack middle left : List Pending} {token : Token}
    {tokens : List Token} {items more : List Item}
    (head : Advances previous stack token items middle)
    (rest : Writes (some token) middle tokens more left) :
    Writes previous stack (token :: tokens) (items ++ more) left

namespace Writes

variable {previous : Option Token} {stack left : List Pending} {tokens : List Token}
  {items : List Item}

/-- The operations written are those that no longer wait, of the stack and of the tokens. -/
theorem released_perm (h : Writes previous stack tokens items left) (hstack : Layered stack) :
    (operations items).Perm (releasedFrom 0 previous tokens stack ++ released previous tokens) := by
  induction h with
  | nil => simp [released]
  | @cons previous stack middle left token tokens items more head rest ih =>
    have hrest := (ih (head.layered hstack)).append_left (operations items)
    have hhead := (head.released_perm hstack tokens).append_right (released (some token) tokens)
    rw [← List.append_assoc] at hrest
    simpa only [operations_append, released, List.append_assoc] using hrest.trans hhead

/-- The written and the pending operations are those of the stack and of the tokens. -/
theorem operations_perm (h : Writes previous stack tokens items left) :
    (operations items ++ pendingOperations left).Perm
      (pendingOperations stack ++ operationsOf previous tokens) := by
  induction h with
  | nil => simp [operationsOf]
  | @cons previous stack middle left token tokens items more head rest ih =>
    have hrest := ih.append_left (operations items)
    have hhead := head.operations_perm.append_right (operationsOf (some token) tokens)
    rw [← List.append_assoc (operations items) (pendingOperations middle)] at hrest
    simpa only [operations_append, operationsOf, List.append_assoc] using hrest.trans hhead

/-- Every parenthesis is on the stack or has been closed. -/
theorem count_parenthesis (h : Writes previous stack tokens items left) :
    left.count .parenthesis + tokens.count .rightParenthesis =
      stack.count .parenthesis + tokens.count .leftParenthesis := by
  induction h with
  | nil => rfl
  | cons head rest ih =>
    have hhead := head.count_parenthesis
    simp only [List.count_cons, List.count_nil] at hhead ⊢
    omega

/-- The literals written are the texts of the operands. -/
theorem literal_mem_iff (h : Writes previous stack tokens items left) (text : String) :
    .literal text ∈ items ↔ ∃ token ∈ tokens, token.isLiteral = true ∧ token.text = text := by
  induction h with
  | nil => simp
  | cons head rest ih =>
    rw [List.mem_append, ih]
    cases head with
    | @literal token stack h => simp [h, eq_comm (a := text)]
    | opening => simp [Token.isLiteral]
    | closing waiting => simp [Token.isLiteral]
    | operator waiting => simp [Token.isLiteral]

/-- Every operand is written as a literal. -/
theorem literalCount_eq (h : Writes previous stack tokens items left) :
    literalCount items = operandCount tokens := by
  induction h with
  | nil => rfl
  | cons head rest ih =>
    rw [literalCount_append, ih]
    cases head with
    | literal stack h => simp [operandCount, h, literalCount, Item.isLiteral, Nat.add_comm]
    | opening => simp [operandCount, Token.isLiteral, literalCount]
    | closing waiting => simp [operandCount, Token.isLiteral]
    | operator waiting => simp [operandCount, Token.isLiteral]

end Writes

end Reckoner.Formula
