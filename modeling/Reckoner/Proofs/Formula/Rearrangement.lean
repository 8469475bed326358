import Reckoner.Proofs.Formula.Alternation

/-!
# What becomes of the tokens of a formula

A formula whose parentheses match is written in postfix form: its operands as literals in their
order, and each operator once as the operation that it stands for at its place. If they do not
match, the error tells in which way: a parenthesis is closed before it is opened, or else one is
never closed.
-/

namespace Reckoner.Formula

/-! ## Tokens and items -/

/-- The item that a token behind `previous` becomes. A minus that opens an operand is the unary one,
and a parenthesis becomes nothing. -/
def Token.item? (previous : Option Token) : Token → Option Item
  | number text => some (.literal text)
  | unknown c => some (.literal (String.singleton c))
  | operator c =>
    if c = '-' ∧ opensOperand previous = true then some (.operation .negate)
    else (binaryOperation? c).map .operation
  | leftParenthesis => none
  | rightParenthesis => none

/-- The items that the tokens behind `previous` become, in the order of the tokens. -/
def itemsOf (previous : Option Token) : List Token → List Item
  | [] => []
  | token :: rest => (token.item? previous).toList ++ itemsOf (some token) rest

/-- The number of tokens that are no parentheses. -/
def itemCount (tokens : List Token) : Nat := tokens.countP (!·.isParenthesis)

/-- The texts of the operands, in their order. -/
def operandTexts (tokens : List Token) : List String :=
  (tokens.filter Token.isLiteral).map Token.text

/-- The text of a literal. -/
def Item.text? : Item → Option String
  | .literal text => some text
  | .operation _ => none

/-- The texts of the literals, in their order. -/
def literalTexts (items : List Item) : List String := items.filterMap Item.text?

@[simp] theorem literalTexts_append (xs ys : List Item) :
    literalTexts (xs ++ ys) = literalTexts xs ++ literalTexts ys := by simp [literalTexts]

@[simp] theorem literalTexts_literal (text : String) (items : List Item) :
    literalTexts (.literal text :: items) = text :: literalTexts items := rfl

@[simp] theorem literalTexts_operation (op : Operation) (items : List Item) :
    literalTexts (.operation op :: items) = literalTexts items := rfl

@[simp] theorem literalTexts_map_operation (ops : List Operation) :
    literalTexts (ops.map .operation) = [] := by
  induction ops with
  | nil => rfl
  | cons op ops ih => exact ih

/-- An operand comes first among the operands. -/
theorem operandTexts_cons {token : Token} (h : token.isLiteral = true) (rest : List Token) :
    operandTexts (token :: rest) = token.text :: operandTexts rest := by
  simp [operandTexts, h]

/-- Any other token is left out. -/
theorem operandTexts_cons_of_not {token : Token} (h : token.isLiteral = false)
    (rest : List Token) : operandTexts (token :: rest) = operandTexts rest := by
  simp [operandTexts, h]

/-- An operator that is understood becomes its operation. -/
theorem Token.item?_operator {previous : Option Token} {c : Char} {op : Operation}
    (h : operationOf previous c = .ok op) :
    (operator c).item? previous = some (.operation op) := by
  unfold operationOf at h
  rw [item?]
  by_cases hminus : c = '-' ∧ opensOperand previous = true
  · rw [if_pos hminus]
    have hguard : (c == '-' && opensOperand previous) = true := by simpa using hminus
    rw [if_pos hguard] at h
    cases h
    rfl
  · rw [if_neg hminus]
    have hguard : ¬(c == '-' && opensOperand previous) = true := by simpa using hminus
    rw [if_neg hguard] at h
    cases hbinary : binaryOperation? c with
    | none => simp [hbinary] at h
    | some other =>
      rw [hbinary] at h
      cases h
      rfl

/-- The operands of a list of tokens are the literals among its items, in the same order. -/
theorem literalTexts_itemsOf (previous : Option Token) (tokens : List Token) :
    literalTexts (itemsOf previous tokens) = operandTexts tokens := by
  induction tokens generalizing previous with
  | nil => rfl
  | cons token rest ih =>
    rw [itemsOf, literalTexts_append, ih]
    cases token with
    | number text | unknown c | leftParenthesis | rightParenthesis => rfl
    | operator c =>
      rw [operandTexts_cons_of_not rfl, Token.item?]
      split_ifs
      · rfl
      · cases binaryOperation? c <;> rfl

/-- The operations of a list of tokens are those among its items, in the same order. -/
theorem operations_itemsOf {tokens : List Token}
    (h : ∀ c, .operator c ∈ tokens → isOperator c = true) (previous : Option Token) :
    operations (itemsOf previous tokens) = operationsOf previous tokens := by
  induction tokens generalizing previous with
  | nil => rfl
  | cons token rest ih =>
    rw [itemsOf, operationsOf, operations_append, ih fun c hc => h c (List.mem_cons_of_mem _ hc)]
    congr 1
    cases token with
    | number text | unknown c | leftParenthesis | rightParenthesis => rfl
    | operator c =>
      obtain ⟨op, hop⟩ := exists_operationOf (h c (List.mem_cons_self ..)) previous
      rw [Token.item?_operator hop, Token.operation?_operator hop]
      rfl

/-- Every token that is no parenthesis becomes one item. -/
theorem length_itemsOf {tokens : List Token}
    (h : ∀ c, .operator c ∈ tokens → isOperator c = true) (previous : Option Token) :
    (itemsOf previous tokens).length = itemCount tokens := by
  induction tokens generalizing previous with
  | nil => rfl
  | cons token rest ih =>
    have hrest := ih (fun c hc => h c (List.mem_cons_of_mem _ hc)) (some token)
    rw [itemsOf, List.length_append, hrest, itemCount, itemCount, List.countP_cons, Nat.add_comm]
    congr 1
    cases token with
    | number text | unknown c | leftParenthesis | rightParenthesis => rfl
    | operator c =>
      obtain ⟨op, hop⟩ := exists_operationOf (h c (List.mem_cons_self ..)) previous
      rw [Token.item?_operator hop]
      rfl

/-- Up to order, items are literals and operations. -/
theorem perm_literals_operations (items : List Item) :
    items.Perm ((literalTexts items).map .literal ++ (operations items).map .operation) := by
  induction items with
  | nil => exact .refl _
  | cons item items ih =>
    cases item with
    | literal text => exact ih.cons _
    | operation op => exact (ih.cons _).trans List.perm_middle.symm

/-- Items with the same literals and the same operations are the same up to order. -/
theorem perm_of_operations_perm {xs ys : List Item} (hliterals : literalTexts xs = literalTexts ys)
    (hoperations : (operations xs).Perm (operations ys)) : xs.Perm ys := by
  have hmiddle := (hoperations.map Item.operation).append_left
    ((literalTexts xs).map Item.literal)
  refine (perm_literals_operations xs).trans (hmiddle.trans ?_)
  rw [hliterals]
  exact (perm_literals_operations ys).symm

/-! ## Written items -/

/-- The literals are written in the order of the operands. -/
theorem Writes.literalTexts_eq {previous : Option Token} {stack left : List Pending}
    {tokens : List Token} {items : List Item} (h : Writes previous stack tokens items left) :
    literalTexts items = operandTexts tokens := by
  induction h with
  | nil => rfl
  | @cons previous stack middle left token tokens items more head rest ih =>
    rw [literalTexts_append, ih]
    cases head with
    | literal stack hliteral => exact (operandTexts_cons hliteral tokens).symm
    | opening => rfl
    | closing waiting => rw [literalTexts_map_operation, operandTexts_cons_of_not rfl]; rfl
    | operator waiting => rw [literalTexts_map_operation, operandTexts_cons_of_not rfl]; rfl

/-- What the tokens write is followed by what is drained from the stack. -/
theorem Writes.arrange_eq {previous : Option Token} {stack left : List Pending}
    {tokens : List Token} {items : List Item} (h : Writes previous stack tokens items left) :
    arrange previous stack tokens = (items ++ ·) <$> drain left := by
  induction h with
  | nil previous stack =>
    rw [arrange]
    cases drain stack <;> rfl
  | cons head rest ih =>
    rw [arrange_cons (advance_eq_ok_iff.mpr head), ih]
    simp [Functor.map_map, List.append_assoc]

/-! ## Parentheses that do not match -/

/-- Some parenthesis is closed before it is opened. -/
def Unopened (tokens : List Token) : Prop :=
  ∃ front, front <+: tokens ∧ front.count .leftParenthesis < front.count .rightParenthesis

/-- More parentheses are opened than closed. -/
def Unclosed (tokens : List Token) : Prop :=
  tokens.count .rightParenthesis < tokens.count .leftParenthesis

/-- If none is closed before it is opened, every beginning closes at most what it opens. -/
theorem closes_iff_not_unopened (tokens : List Token) : Closes 0 tokens ↔ ¬Unopened tokens := by
  constructor
  · rintro h ⟨front, hfront, hlt⟩
    have hle := h front hfront
    omega
  · intro h front hfront
    by_contra hlt
    exact h ⟨front, hfront, by omega⟩

/-- If also no more are opened than closed, the parentheses match. -/
theorem matched_iff_not_unclosed (tokens : List Token) :
    Matched 0 tokens ↔ ¬Unopened tokens ∧ ¬Unclosed tokens := by
  rw [← closes_iff_not_unopened]
  constructor
  · rintro ⟨hcloses, hbalanced⟩
    refine ⟨hcloses, fun hunclosed => ?_⟩
    unfold Unclosed at hunclosed
    omega
  · rintro ⟨hcloses, hunclosed⟩
    have hall := hcloses tokens (List.prefix_refl _)
    unfold Unclosed at hunclosed
    exact ⟨hcloses, by omega⟩

/-- A parenthesis that is closed without having been opened is refused. -/
theorem arrange_of_not_closes {previous : Option Token} {stack : List Pending}
    {tokens : List Token} (hoperators : ∀ c, .operator c ∈ tokens → isOperator c = true)
    (h : ¬Closes (stack.count .parenthesis) tokens) :
    arrange previous stack tokens = .error .unopenedParenthesis := by
  induction tokens generalizing previous stack with
  | nil => exact absurd (fun front hfront => by simp [List.prefix_nil.mp hfront]) h
  | cons token rest ih =>
    rw [closes_cons, not_and_or] at h
    by_cases hone : [token].count .rightParenthesis ≤
        stack.count .parenthesis + [token].count .leftParenthesis
    · -- The first token is read, and what is open behind it is not enough for the others.
      obtain ⟨items, middle, hhead⟩ := @exists_advances previous stack token
        (fun c hc => hoperators c (by simp [hc]))
        (fun hright => by subst hright; simpa using hone)
      have hcount := hhead.count_parenthesis
      have hrest : ¬Closes (middle.count .parenthesis) rest := by
        rw [show middle.count .parenthesis = stack.count .parenthesis +
          [token].count .leftParenthesis - [token].count .rightParenthesis by omega]
        exact h.resolve_left (not_not.mpr hone)
      rw [arrange_cons (advance_eq_ok_iff.mpr hhead),
        ih (fun c hc => hoperators c (List.mem_cons_of_mem _ hc)) hrest]
      rfl
    · -- The first token is the parenthesis in question.
      have hright : token = .rightParenthesis := by
        by_contra hne
        have hzero : [token].count .rightParenthesis = 0 :=
          List.count_eq_zero.mpr fun hmem => hne (List.mem_singleton.mp hmem).symm
        omega
      subst hright
      have hcount : [Token.rightParenthesis].count .rightParenthesis = 1 := rfl
      obtain ⟨waiting, rfl⟩ := @exists_eq_map_operation stack (by omega)
      have hclose : advance previous (waiting.map .operation) .rightParenthesis =
          .error .unopenedParenthesis := close_map waiting
      rw [arrange, hclose]
      rfl

/-- A parenthesis that is still open at the end is refused. -/
theorem Writes.arrange_of_unclosed {tokens : List Token} {items : List Item}
    {left : List Pending} (h : Writes none [] tokens items left) (hunclosed : Unclosed tokens) :
    arrange none [] tokens = .error .unclosedParenthesis := by
  have hcount := h.count_parenthesis
  unfold Unclosed at hunclosed
  rw [List.count_nil] at hcount
  obtain ⟨waiting, rfl | ⟨below, rfl⟩⟩ := exists_layer left
  · rw [count_parenthesis_map] at hcount
    omega
  · rw [h.arrange_eq, drain_append]
    rfl

/-- Matching parentheses leave nothing pending but operations, so everything is written. -/
theorem Writes.arrange_of_matched {tokens : List Token} {items : List Item}
    {left : List Pending} (h : Writes none [] tokens items left) (hmatched : Matched 0 tokens) :
    ∃ waiting : List Operation, left = waiting.map .operation ∧
      arrange none [] tokens = .ok (items ++ waiting.map .operation) := by
  have hcount := h.count_parenthesis
  have hbalanced := hmatched.balanced
  rw [List.count_nil] at hcount
  obtain ⟨waiting, rfl⟩ := @exists_eq_map_operation left (by omega)
  refine ⟨waiting, rfl, ?_⟩
  rw [h.arrange_eq, drain_map]
  rfl

/-! ## The postfix form of any tokens -/

variable {tokens : List Token}

/-- Tokens in which a parenthesis is closed before it is opened have no postfix form. -/
theorem toPostfix_of_unopened (hoperators : ∀ c, .operator c ∈ tokens → isOperator c = true)
    (h : Unopened tokens) : toPostfix tokens = .error .unopenedParenthesis := by
  have hcloses : ¬Closes 0 tokens := fun hcloses => (closes_iff_not_unopened tokens).mp hcloses h
  rw [toPostfix, @arrange_of_not_closes none [] tokens hoperators hcloses]
  rfl

/-- Tokens in which a parenthesis is never closed have no postfix form. -/
theorem toPostfix_of_unclosed (hoperators : ∀ c, .operator c ∈ tokens → isOperator c = true)
    (hunopened : ¬Unopened tokens) (h : Unclosed tokens) :
    toPostfix tokens = .error .unclosedParenthesis := by
  obtain ⟨items, left, hwrites⟩ := @Writes.exists_of_closes none [] tokens hoperators
    ((closes_iff_not_unopened tokens).mpr hunopened)
  rw [toPostfix, hwrites.arrange_of_unclosed h]
  rfl

/-- Tokens whose parentheses match are arranged, and none of the others is lost or added. -/
theorem exists_arrange_of_matched (hoperators : ∀ c, .operator c ∈ tokens → isOperator c = true)
    (h : Matched 0 tokens) :
    ∃ items, arrange none [] tokens = .ok items ∧ items.Perm (itemsOf none tokens) ∧
      literalTexts items = operandTexts tokens := by
  obtain ⟨front, left, hwrites⟩ := @Writes.exists_of_closes none [] tokens hoperators h.closes
  obtain ⟨waiting, rfl, harrange⟩ := hwrites.arrange_of_matched h
  have hliterals : literalTexts (front ++ waiting.map .operation) = operandTexts tokens := by
    simp [hwrites.literalTexts_eq]
  refine ⟨_, harrange, perm_of_operations_perm ?_ ?_, hliterals⟩
  · rw [hliterals, literalTexts_itemsOf]
  · rw [operations_itemsOf hoperators]
    exact hwrites.operations_perm_all

/-- The postfix form of arranged items is refused exactly if there is a single one. -/
theorem toPostfix_of_arrange {items : List Item} (h : arrange none [] tokens = .ok items) :
    toPostfix tokens = if items.length = 1 then .error .tooFewOperands else .ok items := by
  rw [toPostfix, h]
  rfl

/-- The tokens of a text have no postfix form if a parenthesis is closed before it is opened, or
else if one is never closed, or else if there is one token besides the parentheses. Any other tokens
have one: each token besides the parentheses occurs in it once, the operands in their order. -/
theorem toPostfix_tokenize (input : String) :
    (toPostfix (tokenize input) = .error .unopenedParenthesis ↔ Unopened (tokenize input)) ∧
    (toPostfix (tokenize input) = .error .unclosedParenthesis ↔
      ¬Unopened (tokenize input) ∧ Unclosed (tokenize input)) ∧
    (toPostfix (tokenize input) = .error .tooFewOperands ↔
      ¬Unopened (tokenize input) ∧ ¬Unclosed (tokenize input) ∧
        itemCount (tokenize input) = 1) ∧
    ((∃ items, toPostfix (tokenize input) = .ok items ∧
        items.length = itemCount (tokenize input) ∧
        items.Perm (itemsOf none (tokenize input)) ∧
        literalTexts items = operandTexts (tokenize input)) ↔
      ¬Unopened (tokenize input) ∧ ¬Unclosed (tokenize input) ∧
        itemCount (tokenize input) ≠ 1) := by
  have hoperators : ∀ c, .operator c ∈ tokenize input → isOperator c = true :=
    fun c hc => isOperator_of_mem_tokenize hc
  by_cases hunopened : Unopened (tokenize input)
  · simp [toPostfix_of_unopened hoperators hunopened, hunopened]
  by_cases hunclosed : Unclosed (tokenize input)
  · simp [toPostfix_of_unclosed hoperators hunopened hunclosed, hunopened, hunclosed]
  obtain ⟨items, harrange, hperm, hliterals⟩ := exists_arrange_of_matched hoperators
    ((matched_iff_not_unclosed _).mpr ⟨hunopened, hunclosed⟩)
  have hlength : items.length = itemCount (tokenize input) :=
    hperm.length_eq.trans (length_itemsOf hoperators none)
  rw [toPostfix_of_arrange harrange, hlength]
  by_cases hone : itemCount (tokenize input) = 1
  · simp [hunopened, hunclosed, hone]
  · simp [hunopened, hunclosed, hone, hlength, hperm, hliterals]

end Reckoner.Formula
