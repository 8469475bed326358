import Reckoner.Proofs.Formula.Alternation

/-!
# A minus behind a power

A unary minus binds more weakly than a power and as strongly as another unary minus, so it releases
either of them before its own operand is there. In an infix formula that is the only way in which an
operation is released too early. The operation then takes what is already there, and the formula is
compiled whenever a binary operation that still waits has left an operand to be taken.
-/

namespace Reckoner.Formula

/-! ## Operands and operations in step -/

/-- How many operands are ahead of the binary operations behind a token. -/
def ahead (previous : Option Token) : Nat := if opensOperand previous then 0 else 1

/-- Where an operand may begin none is ahead. -/
theorem ahead_of_opens {previous : Option Token} (h : opensOperand previous = true) :
    ahead previous = 0 := if_pos h

/-- Behind an operand one is ahead. -/
theorem ahead_of_not_opens {previous : Option Token} (h : opensOperand previous = false) :
    ahead previous = 1 := if_neg (Bool.eq_false_iff.mp h)

/-- Where an operand may begin a minus is the unary one. -/
theorem operationOf_minus {previous : Option Token} (h : opensOperand previous = true) :
    operationOf previous '-' = .ok .negate := by
  simp only [operationOf, h]
  rfl

/-- Behind an operand every operator is binary. -/
theorem exists_operationOf_binary {previous : Option Token} {c : Char}
    (h : opensOperand previous = false) (hc : isOperator c = true) :
    ∃ op, operationOf previous c = .ok op ∧ op.arity = 2 := by
  simp only [operationOf, h]
  simp only [isOperator, Bool.or_eq_true, beq_iff_eq] at hc
  rcases hc with (((rfl | rfl) | rfl) | rfl) | rfl <;> exact ⟨_, rfl, rfl⟩

/-- A token that fits keeps the operands and the binary operations in step. -/
theorem fits_count {previous : Option Token} {token : Token} (h : fits previous token = true)
    (hoperator : ∀ c, token = .operator c → isOperator c = true) :
    operandCount [token] + ahead previous =
      binaryCount (token.operation? previous).toList + ahead (some token) := by
  cases token with
  | number text | unknown c | leftParenthesis =>
    rw [ahead_of_opens h]
    rfl
  | rightParenthesis =>
    rw [ahead_of_not_opens (by simpa only [fits, Bool.not_eq_true'] using h)]
    rfl
  | operator c =>
    cases hprevious : opensOperand previous with
    | true =>
      have hc : c = '-' := by simpa [fits, hprevious] using h
      subst hc
      rw [Token.operation?_operator (operationOf_minus hprevious), ahead_of_opens hprevious]
      rfl
    | false =>
      obtain ⟨op, hop, harity⟩ := exists_operationOf_binary hprevious (hoperator c rfl)
      have hbinary := binaryCount_cons op []
      rw [binaryCount_nil, harity] at hbinary
      rw [Token.operation?_operator hop, ahead_of_not_opens hprevious, Option.toList_some,
        Nat.add_right_cancel hbinary]
      rfl

/-- Where every token fits, the operands and the binary operations stay in step. -/
theorem follows_count {previous : Option Token} {tokens : List Token}
    (h : follows previous tokens = true)
    (hoperators : ∀ c, .operator c ∈ tokens → isOperator c = true) :
    operandCount tokens + ahead previous =
      binaryCount (operationsOf previous tokens) + ahead (tokens.getLast?.or previous) := by
  induction tokens generalizing previous with
  | nil => simp [operandCount, operationsOf]
  | cons token rest ih =>
    rw [follows, Bool.and_eq_true] at h
    have hhead := fits_count h.1 fun c hc => hoperators c (by simp [hc])
    have hrest := ih h.2 fun c hc => hoperators c (List.mem_cons_of_mem _ hc)
    have hcount : operandCount (token :: rest) = operandCount [token] + operandCount rest := by
      simp only [operandCount, ← List.countP_append, List.singleton_append]
    rw [getLast?_cons_or, operationsOf, binaryCount_append, hcount]
    omega

/-! ## Early release -/

/-- Whether the operator behind these tokens is a power or a unary minus, which a unary minus
directly behind it releases. -/
def ReleasedByMinus (before : List Token) (c : Char) : Prop :=
  operationOf before.getLast? c = .ok .power ∨ operationOf before.getLast? c = .ok .negate

/-- Somewhere a unary minus stands directly behind a power or another unary minus. -/
def MisplacedMinus (tokens : List Token) : Prop :=
  ∃ before c after, tokens = before ++ .operator c :: .operator '-' :: after ∧
    ReleasedByMinus before c

/-- Wherever a unary minus stands directly behind a power or another unary minus, a binary operation
waits whose operand the released one can take. -/
def Borrows (tokens : List Token) : Prop :=
  ∀ before c after, tokens = before ++ .operator c :: .operator '-' :: after →
    ReleasedByMinus before c →
      ∃ op ∈ waitingOf none (before ++ [.operator c, .operator '-']), op.arity = 2

/-- What holds of the misplaced minuses of a formula holds of those of its beginnings. -/
theorem Borrows.of_append {tokens more : List Token} (h : Borrows (tokens ++ more)) :
    Borrows tokens := by
  rintro before c after rfl hreleased
  exact h before c (after ++ more) (by simp) hreleased

/-- Behind an operand no other one begins. -/
theorem Token.opensOperand_of_isLiteral {token : Token} (h : token.isLiteral = true) :
    opensOperand (some token) = false := by
  cases token <;> first | rfl | cases h

/-- Behind an opening parenthesis it lies on top of the stack. -/
theorem Writes.exists_parenthesis {tokens : List Token} {items : List Item} {left : List Pending}
    (h : Writes none [] (tokens ++ [.leftParenthesis]) items left) :
    ∃ below, left = .parenthesis :: below := by
  obtain ⟨middle, front, back, -, hlast, -⟩ := h.of_concat
  cases hlast with
  | literal stack hliteral => cases hliteral
  | opening => exact ⟨middle, rfl⟩

/-- Behind an operator its operation lies on top of the stack. -/
theorem Writes.exists_operation {tokens : List Token} {c : Char} {items : List Item}
    {left : List Pending} (h : Writes none [] (tokens ++ [.operator c]) items left) :
    ∃ op below, operationOf tokens.getLast? c = .ok op ∧ left = .operation op :: below := by
  obtain ⟨middle, front, back, -, hlast, -⟩ := h.of_concat
  rw [Option.or_none] at hlast
  cases hlast with
  | literal stack hliteral => cases hliteral
  | operator waiting below hop => exact ⟨_, below, hop, rfl⟩

/-- What a stack yields to releases nothing from it. -/
theorem eq_nil_of_yields {op : Operation} {waiting : List Operation} {stack below : List Pending}
    (hstack : Yields (precedence op) stack) (heq : stack = waiting.map .operation ++ below)
    (hwaiting : ∀ top ∈ waiting, precedence op ≤ precedence top) : waiting = [] := by
  cases waiting with
  | nil => rfl
  | cons top waiting =>
    subst heq
    have hlt : precedence top < precedence op := hstack
    exact absurd (hwaiting top (List.mem_cons_self ..)) (Nat.not_le.mpr hlt)

/-- The pending operations are those among the tokens that still wait. -/
theorem Writes.pending_perm {tokens : List Token} {items : List Item} {left : List Pending}
    (h : Writes none [] tokens items left) :
    (pendingOperations left).Perm (waitingOf none tokens) := by
  have hall : (operations items ++ pendingOperations left).Perm (operationsOf none tokens) := by
    simpa using h.operations_perm
  have hsplit := (h.operations_perm_released.append_right (waitingOf none tokens)).trans
    (released_append_waitingOf_perm none tokens)
  exact (List.perm_append_left_iff _).mp (hall.trans hsplit.symm)

/-- A unary minus releases nothing, unless it is misplaced. -/
theorem Writes.yields_to_minus {tokens : List Token} {items : List Item} {left : List Pending}
    (h : Writes none [] tokens items left) (hopens : opensOperand tokens.getLast? = true) :
    Yields (precedence .negate) left ∨
      ∃ before c, tokens = before ++ [.operator c] ∧ ReleasedByMinus before c := by
  cases tokens using List.reverseRecOn with
  | nil =>
    cases h
    exact Or.inl trivial
  | append_singleton before last =>
    rw [List.getLast?_concat] at hopens
    cases last with
    | number text | unknown c | rightParenthesis => cases hopens
    | leftParenthesis =>
      obtain ⟨below, rfl⟩ := h.exists_parenthesis
      exact Or.inl trivial
    | operator c =>
      obtain ⟨op, below, hop, rfl⟩ := h.exists_operation
      cases op with
      | add | subtract | multiply | divide => exact Or.inl (by decide : _ < _)
      | power => exact Or.inr ⟨before, c, rfl, Or.inl hop⟩
      | negate => exact Or.inr ⟨before, c, rfl, Or.inr hop⟩

/-- Where an operand may begin, nothing has been released or a binary operation waits, provided that
every misplaced minus leaves one waiting. -/
theorem Writes.eq_nil_or_waits {tokens : List Token} {items : List Item} {left : List Pending}
    (h : Writes none [] tokens items left) (hfollows : follows none tokens = true)
    (hopens : opensOperand tokens.getLast? = true)
    (hoperators : ∀ c, .operator c ∈ tokens → isOperator c = true) (hborrows : Borrows tokens) :
    operations items = [] ∨ ∃ op ∈ pendingOperations left, op.arity = 2 := by
  induction tokens using List.reverseRecOn generalizing items left with
  | nil =>
    cases h
    exact Or.inl rfl
  | append_singleton tokens token ih =>
    obtain ⟨middle, front, back, hfront, hlast, rfl⟩ := h.of_concat
    rw [follows_append, Bool.and_eq_true, Option.or_none] at hfollows
    rw [Option.or_none] at hlast
    have hbefore := fun hbegins => ih hfront hfollows.1 hbegins
      (fun c hc => hoperators c (List.mem_append_left _ hc)) hborrows.of_append
    have hfits : fits tokens.getLast? token = true := by
      simpa only [follows, Bool.and_true] using hfollows.2
    rw [List.getLast?_concat] at hopens
    cases hlast with
    | literal stack hliteral =>
      rw [Token.opensOperand_of_isLiteral hliteral] at hopens
      cases hopens
    | closing waiting => cases hopens
    | opening =>
      rw [List.append_nil]
      exact hbefore hfits
    | @operator c op waiting below hop hwaiting hbelow =>
      cases hbegins : opensOperand tokens.getLast? with
      | false =>
        obtain ⟨other, hother, harity⟩ :=
          exists_operationOf_binary hbegins (hoperators c (by simp))
        have hsame : op = other := Except.ok.inj (hop.symm.trans hother)
        exact Or.inr ⟨op, List.mem_cons_self .., hsame ▸ harity⟩
      | true =>
        have hc : c = '-' := by simpa [fits, hbegins] using hfits
        subst hc
        have hnegate : op = .negate := Except.ok.inj (hop.symm.trans (operationOf_minus hbegins))
        subst hnegate
        -- A minus that releases nothing leaves what waits; any other one is misplaced.
        obtain hyields | ⟨before, d, rfl, hreleased⟩ := hfront.yields_to_minus hbegins
        · have hnil := eq_nil_of_yields hyields rfl hwaiting
          subst hnil
          obtain hnone | ⟨other, hother, harity⟩ := hbefore hbegins
          · exact Or.inl (by simpa using hnone)
          · exact Or.inr ⟨other, List.mem_cons_of_mem _ hother, harity⟩
        · obtain ⟨other, hother, harity⟩ := hborrows before d [] (by simp) hreleased
          refine Or.inr ⟨other, h.pending_perm.mem_iff.mpr ?_, harity⟩
          simpa using hother

/-! ## When a misplaced minus is compiled -/

/-- A misplaced minus releases an operation. -/
theorem Writes.released_ne_nil {before : List Token} {c : Char} {items : List Item}
    {left : List Pending}
    (h : Writes none [] (before ++ [.operator c, .operator '-']) items left)
    (hreleased : ReleasedByMinus before c) :
    released none (before ++ [.operator c, .operator '-']) ≠ [] := by
  have hall := h
  rw [List.append_cons] at h
  obtain ⟨middle, front, back, hfront, hlast, rfl⟩ := h.of_concat
  obtain ⟨op, rest, hop, hmiddle⟩ := hfront.exists_operation
  have hbinds : precedence .negate ≤ precedence op := by
    rcases hreleased with hc | hc <;> rw [hc] at hop <;> cases hop <;> decide
  rw [List.getLast?_concat, Option.some_or] at hlast
  cases hlast with
  | literal stack hliteral => cases hliteral
  | @operator _ minus waiting below hminus hwaiting hbelow =>
    have hnegate : minus = .negate := Except.ok.inj (hminus.symm.trans (operationOf_minus rfl))
    subst hnegate
    intro hnil
    have hnone := (hall.operations_perm_released.trans (.of_eq hnil)).eq_nil
    rw [operations_append, operations_map_operation] at hnone
    obtain rfl : waiting = [] := (List.append_eq_nil_iff.mp hnone).2
    have hyields : Yields (precedence .negate) (.operation op :: rest) := hmiddle ▸ hbelow
    exact absurd hbinds (Nat.not_le.mpr hyields)

/-- The binary operations are those that no longer wait and those that do. -/
theorem binaryCount_operationsOf (tokens : List Token) :
    binaryCount (operationsOf none tokens) =
      binaryCount (released none tokens) + binaryCount (waitingOf none tokens) := by
  rw [← binaryCount_perm (released_append_waitingOf_perm none tokens), binaryCount_append]

/-- A binary operation is among some operations exactly when there is one to be counted. -/
theorem binaryCount_pos_iff (ops : List Operation) :
    0 < binaryCount ops ↔ ∃ op ∈ ops, op.arity = 2 := by
  simp only [binaryCount, List.countP_pos_iff, beq_iff_eq]

/-- Every beginning of a formula that alternates has one operand more than binary operations, or as
many where an operand may follow. -/
theorem operandCount_of_follows {front tokens : List Token} (hfollows : follows none tokens = true)
    (hoperators : ∀ c, .operator c ∈ tokens → isOperator c = true) (hfront : front <+: tokens) :
    operandCount front = binaryCount (operationsOf none front) + ahead front.getLast? := by
  obtain ⟨rest, rfl⟩ := hfront
  rw [follows_append, Bool.and_eq_true] at hfollows
  have hcount := follows_count hfollows.1 fun c hc => hoperators c (List.mem_append_left _ hc)
  rwa [Option.or_none] at hcount

/-- Every beginning of a formula whose parentheses match can be read. -/
theorem Matched.exists_writes {front tokens : List Token} (h : Matched 0 tokens)
    (hoperators : ∀ c, .operator c ∈ tokens → isOperator c = true) (hfront : front <+: tokens) :
    ∃ items left, Writes none [] front items left := by
  obtain ⟨rest, rfl⟩ := hfront
  exact Writes.exists_of_closes (fun c hc => hoperators c (List.mem_append_left _ hc))
    fun part hpart => h.closes part (hpart.trans (List.prefix_append ..))

/-- In an accepted infix formula every misplaced minus leaves a binary operation waiting: what it
releases is covered, so there is an operand more than those that are used up. -/
theorem Accepted.borrows {tokens : List Token} (h : Accepted tokens) (hform : InfixForm tokens)
    (hoperators : ∀ c, .operator c ∈ tokens → isOperator c = true) : Borrows tokens := by
  obtain ⟨halternates, hmatched⟩ := (infixForm_iff hoperators).mp hform
  rw [alternates, Bool.and_eq_true] at halternates
  rintro before c after rfl hreleased
  have hfront : before ++ [.operator c, .operator '-'] <+:
      before ++ .operator c :: .operator '-' :: after := ⟨after, by simp⟩
  obtain ⟨items, left, hitems⟩ := hmatched.exists_writes hoperators hfront
  have hcovered := h.covered _ hfront (hitems.released_ne_nil hreleased)
  have hahead : ahead (before ++ [Token.operator c, Token.operator '-']).getLast? = 0 := by
    simp only [List.getLast?_append]
    rfl
  rw [operandCount_of_follows halternates.1 hoperators hfront, hahead,
    binaryCount_operationsOf] at hcovered
  exact (binaryCount_pos_iff _).mp (by omega)

/-- An infix formula of numbers is accepted if every misplaced minus leaves a binary operation
waiting. -/
theorem Borrows.accepted {tokens : List Token} (h : Borrows tokens) (hform : InfixForm tokens)
    (hoperators : ∀ c, .operator c ∈ tokens → isOperator c = true)
    (hnumbers : ∀ token ∈ tokens, token.isLiteral = true →
      (Binary64.ofText? token.text).isSome = true)
    (hoperation : operationsOf none tokens ≠ []) : Accepted tokens := by
  obtain ⟨halternates, hmatched⟩ := (infixForm_iff hoperators).mp hform
  rw [alternates, Bool.and_eq_true, Bool.not_eq_true', Option.or_none] at halternates
  obtain ⟨hfollows, hend⟩ := halternates
  have hall := operandCount_of_follows hfollows hoperators (List.prefix_refl _)
  rw [ahead_of_not_opens hend] at hall
  refine ⟨hmatched.closes, by simpa using hmatched.balanced, hnumbers, hoperation, hall, ?_⟩
  intro front hfront hne
  obtain ⟨items, left, hitems⟩ := hmatched.exists_writes hoperators hfront
  have hsplit := binaryCount_operationsOf front
  rw [operandCount_of_follows hfollows hoperators hfront]
  cases hopens : opensOperand front.getLast? with
  | false =>
    rw [ahead_of_not_opens hopens]
    omega
  | true =>
    obtain ⟨rest, rfl⟩ := hfront
    rw [follows_append, Bool.and_eq_true] at hfollows
    obtain hnil | ⟨op, hop, harity⟩ := hitems.eq_nil_or_waits hfollows.1 hopens
      (fun c hc => hoperators c (List.mem_append_left _ hc)) h.of_append
    · exact absurd (hitems.operations_perm_released.symm.trans (.of_eq hnil)).eq_nil hne
    · have hpositive := (binaryCount_pos_iff (waitingOf none front)).mpr
        ⟨op, hitems.pending_perm.mem_iff.mp hop, harity⟩
      omega

/-- A formula with an operator has an operation. -/
theorem operationsOf_ne_nil {before after : List Token} {c : Char} {previous : Option Token}
    (hc : isOperator c = true) : operationsOf previous (before ++ .operator c :: after) ≠ [] := by
  induction before generalizing previous with
  | nil =>
    obtain ⟨op, hop⟩ := exists_operationOf hc previous
    simp [operationsOf, Token.operation?_operator hop]
  | cons token before ih =>
    intro hnil
    exact ih (List.append_eq_nil_iff.mp hnil).2

/-- A formula with a misplaced minus is compiled exactly when it is accepted, and if it is infix and
its operands are numbers, exactly when every misplaced minus leaves a binary operation waiting. -/
theorem compile_isOk_iff_of_misplacedMinus (input : String)
    (h : MisplacedMinus (tokenize input)) :
    ((∃ graph, compile input = .ok graph) ↔ Accepted (tokenize input)) ∧
    (InfixForm (tokenize input) →
      (∀ token ∈ tokenize input, token.isLiteral = true →
        (Binary64.ofText? token.text).isSome = true) →
      ((∃ graph, compile input = .ok graph) ↔ Borrows (tokenize input))) := by
  refine ⟨compile_isOk_iff input, fun hform hnumbers => ?_⟩
  have hoperators : ∀ c, .operator c ∈ tokenize input → isOperator c = true := fun _ hc =>
    isOperator_of_mem_tokenize hc
  obtain ⟨before, c, after, htokens, -⟩ := h
  have hoperation : operationsOf none (tokenize input) ≠ [] := by
    rw [htokens]
    exact operationsOf_ne_nil (hoperators c (by simp [htokens]))
  rw [compile_isOk_iff]
  constructor
  · intro haccepted
    exact haccepted.borrows hform hoperators
  · intro hborrows
    exact hborrows.accepted hform hoperators hnumbers hoperation

/-- The power of `2*3^-4` takes the factor in front of it: `(2^3)*(-4)` is compiled. -/
theorem compile_misplaced :
    MisplacedMinus (tokenize "2*3^-4") ∧
    compile "2*3^-4" = .ok ⟨[
      ⟨.power, ⟨some ⟨0x4000000000000000⟩, some ⟨0x4008000000000000⟩⟩, ⟨none, none⟩⟩,
      ⟨.negate, ⟨some ⟨0x4010000000000000⟩, none⟩, ⟨none, none⟩⟩,
      ⟨.multiply, ⟨none, none⟩, ⟨some 0, some 1⟩⟩]⟩ ∧
    Borrows (tokenize "2*3^-4") := by
  have htokens : tokenize "2*3^-4" = [.number "2", .operator '*', .number "3", .operator '^',
      .operator '-', .number "4"] := by decide +kernel
  have hmisplaced : MisplacedMinus (tokenize "2*3^-4") :=
    ⟨[.number "2", .operator '*', .number "3"], '^', [.number "4"], htokens, Or.inl rfl⟩
  have hgraph : compile "2*3^-4" = .ok ⟨[
      ⟨.power, ⟨some ⟨0x4000000000000000⟩, some ⟨0x4008000000000000⟩⟩, ⟨none, none⟩⟩,
      ⟨.negate, ⟨some ⟨0x4010000000000000⟩, none⟩, ⟨none, none⟩⟩,
      ⟨.multiply, ⟨none, none⟩, ⟨some 0, some 1⟩⟩]⟩ := by decide +kernel
  have hform : InfixForm (tokenize "2*3^-4") := by
    rw [htokens]
    exact .binary (c := '*') rfl (.operand rfl)
      (.binary (c := '^') rfl (.operand rfl) (.negate (.operand rfl)))
  have hnumbers : ∀ token ∈ tokenize "2*3^-4", token.isLiteral = true →
      (Binary64.ofText? token.text).isSome = true := by
    rw [htokens]
    decide +kernel
  exact ⟨hmisplaced, hgraph,
    ((compile_isOk_iff_of_misplacedMinus _ hmisplaced).2 hform hnumbers).mp ⟨_, hgraph⟩⟩

end Reckoner.Formula
