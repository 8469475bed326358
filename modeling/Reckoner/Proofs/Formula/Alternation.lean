import Reckoner.Proofs.Formula.Acceptance

/-!
# Formulas in which operands and operators alternate

The infix formulas are those in which every token fits behind the one before it and every
parenthesis is matched. That tokens fit is never asked for when a formula is compiled: exactly the
accepted lists of tokens that do not alternate are compiled without being infix.
-/

namespace Reckoner.Formula

/-! ## Infix formulas -/

/-- An infix formula. Every formula ends behind an operand, so a minus in front of a formula is the
prefix one and one between two formulas is not. -/
inductive InfixForm : List Token → Prop
  | operand {token : Token} (h : token.isLiteral = true) : InfixForm [token]
  | group {inner : List Token} (h : InfixForm inner) :
    InfixForm (.leftParenthesis :: (inner ++ [.rightParenthesis]))
  | negate {inner : List Token} (h : InfixForm inner) : InfixForm (.operator '-' :: inner)
  | binary {c : Char} (hc : isOperator c = true) {left right : List Token}
    (hleft : InfixForm left) (hright : InfixForm right) :
    InfixForm (left ++ .operator c :: right)

/-! ## Alternation -/

/-- Whether a token may stand behind `previous`. -/
def fits (previous : Option Token) : Token → Bool
  | .rightParenthesis => !opensOperand previous
  | .operator c => c == '-' || !opensOperand previous
  | _ => opensOperand previous

/-- Whether each of the tokens may stand behind the one before it. -/
def follows (previous : Option Token) : List Token → Bool
  | [] => true
  | token :: rest => fits previous token && follows (some token) rest

/-- Whether the tokens follow each other and the last one ends an operand. -/
def alternates (previous : Option Token) (tokens : List Token) : Bool :=
  follows previous tokens && !opensOperand (tokens.getLast?.or previous)

/-- The last token behind another. -/
theorem getLast?_cons_or (token : Token) (rest : List Token) (previous : Option Token) :
    (token :: rest).getLast?.or previous = rest.getLast?.or (some token) := by
  cases rest <;> simp [List.getLast?_cons]

/-- A first token fits, and the others alternate behind it. -/
theorem alternates_cons (previous : Option Token) (token : Token) (rest : List Token) :
    alternates previous (token :: rest) =
      (fits previous token && alternates (some token) rest) := by
  rw [alternates, alternates, getLast?_cons_or, follows, Bool.and_assoc]

/-- Two lists follow each other if each one follows and the second does so behind the first. -/
theorem follows_append (previous : Option Token) (xs ys : List Token) :
    follows previous (xs ++ ys) =
      (follows previous xs && follows (xs.getLast?.or previous) ys) := by
  induction xs generalizing previous with
  | nil => rfl
  | cons token xs ih =>
    rw [List.cons_append, follows, follows, ih, getLast?_cons_or, Bool.and_assoc]

/-- Two lists alternate if the first one follows and the second alternates behind it. -/
theorem alternates_append (previous : Option Token) (xs ys : List Token) :
    alternates previous (xs ++ ys) =
      (follows previous xs && alternates (xs.getLast?.or previous) ys) := by
  rw [alternates, alternates, follows_append, List.getLast?_append, Option.or_assoc,
    Bool.and_assoc]

/-- An infix formula alternates wherever an operand may begin. -/
theorem InfixForm.alternates {tokens : List Token} (h : InfixForm tokens)
    {previous : Option Token} (hprevious : opensOperand previous = true) :
    alternates previous tokens = true := by
  induction h generalizing previous with
  | @operand token h =>
    cases token <;>
      first | exact absurd h Bool.false_ne_true | simp [alternates_cons, fits, hprevious]; rfl
  | @group inner h ih =>
    have hinner := ih (rfl : opensOperand (some .leftParenthesis) = true)
    rw [Formula.alternates, Bool.and_eq_true] at hinner
    rw [alternates_cons, alternates_append, alternates_cons]
    simp only [fits, hprevious, hinner.1, hinner.2, Bool.true_and]
    rfl
  | negate h ih =>
    rw [alternates_cons, ih rfl]
    rfl
  | @binary c hc left right hleft hright ihl ihr =>
    have hfirst := ihl hprevious
    rw [Formula.alternates, Bool.and_eq_true] at hfirst
    rw [alternates_append, alternates_cons, ihr rfl]
    simp [fits, hfirst.1, hfirst.2]

/-! ## Matching parentheses -/

/-- Behind `depth` open parentheses, none is closed that has not been opened, and all are. -/
structure Matched (depth : Nat) (tokens : List Token) : Prop where
  /-- None is closed that has not been opened. -/
  closes : Closes depth tokens
  /-- All are closed. -/
  balanced : tokens.count .rightParenthesis = depth + tokens.count .leftParenthesis

/-- The first token closes a parenthesis that is open, and the others close what is then open. -/
theorem closes_cons {depth : Nat} {token : Token} {rest : List Token} :
    Closes depth (token :: rest) ↔
      [token].count .rightParenthesis ≤ depth + [token].count .leftParenthesis ∧
        Closes (depth + [token].count .leftParenthesis - [token].count .rightParenthesis) rest := by
  constructor
  · intro h
    have hone := h [token] (by simp)
    refine ⟨hone, fun front hfront => ?_⟩
    have hcons := h (token :: front) ((List.prefix_cons_inj _).mpr hfront)
    simp only [List.count_cons, List.count_nil] at hone hcons ⊢
    omega
  · rintro ⟨hone, h⟩ front hfront
    obtain rfl | ⟨tail, rfl, htail⟩ := List.prefix_cons_iff.mp hfront
    · simp
    · have hrest := h tail htail
      simp only [List.count_cons, List.count_nil] at hone hrest ⊢
      omega

/-- An opening parenthesis leaves one more to be closed. -/
theorem matched_left {depth : Nat} {rest : List Token} :
    Matched depth (.leftParenthesis :: rest) ↔ Matched (depth + 1) rest := by
  constructor
  · rintro ⟨hcloses, hbalanced⟩
    simp only [List.count_cons, reduceCtorEq, beq_iff_eq, if_false, if_true] at hbalanced
    exact ⟨(closes_cons.mp hcloses).2, by omega⟩
  · rintro ⟨hcloses, hbalanced⟩
    refine ⟨closes_cons.mpr ⟨by simp, hcloses⟩, ?_⟩
    simp only [List.count_cons, reduceCtorEq, beq_iff_eq, if_false, if_true]
    omega

/-- A closing parenthesis closes one that is open. -/
theorem matched_right {depth : Nat} {rest : List Token} :
    Matched depth (.rightParenthesis :: rest) ↔ depth ≠ 0 ∧ Matched (depth - 1) rest := by
  constructor
  · rintro ⟨hcloses, hbalanced⟩
    obtain ⟨hone, hrest⟩ := closes_cons.mp hcloses
    simp only [List.count_cons, List.count_nil, reduceCtorEq, beq_iff_eq, if_false, if_true]
      at hone hbalanced
    exact ⟨by omega, hrest, by omega⟩
  · rintro ⟨hne, hcloses, hbalanced⟩
    refine ⟨closes_cons.mpr ⟨?_, hcloses⟩, ?_⟩
    all_goals
      simp only [List.count_cons, List.count_nil, reduceCtorEq, beq_iff_eq, if_false, if_true]
      omega

/-- Whether a token is a parenthesis. -/
def Token.isParenthesis : Token → Bool
  | leftParenthesis | rightParenthesis => true
  | _ => false

/-- Any other token leaves the parentheses as they are. -/
theorem matched_cons {depth : Nat} {token : Token} (h : token.isParenthesis = false)
    {rest : List Token} : Matched depth (token :: rest) ↔ Matched depth rest := by
  have hleft : (token == .leftParenthesis) = false := by
    cases token <;> first | rfl | cases h
  have hright : (token == .rightParenthesis) = false := by
    cases token <;> first | rfl | cases h
  have hcloses : Closes depth (token :: rest) ↔ Closes depth rest := by
    rw [closes_cons]
    simp [List.count_cons, hleft, hright]
  have hcounts : (token :: rest).count .rightParenthesis = rest.count .rightParenthesis ∧
      (token :: rest).count .leftParenthesis = rest.count .leftParenthesis := by
    simp [List.count_cons, hleft, hright]
  constructor
  · rintro ⟨hrest, hbalanced⟩
    rw [hcounts.1, hcounts.2] at hbalanced
    exact ⟨hcloses.mp hrest, hbalanced⟩
  · rintro ⟨hrest, hbalanced⟩
    refine ⟨hcloses.mpr hrest, ?_⟩
    rwa [hcounts.1, hcounts.2]

/-- An operand is no parenthesis. -/
theorem Token.isParenthesis_of_isLiteral {token : Token} (h : token.isLiteral = true) :
    token.isParenthesis = false := by
  cases token <;> first | rfl | cases h

/-- A matched list may stand in front of what closes the open parentheses. -/
theorem Matched.append_iff {inner : List Token} {outer : Nat} (h : Matched outer inner)
    {depth : Nat} {rest : List Token} :
    Matched (outer + depth) (inner ++ rest) ↔ Matched depth rest := by
  induction inner generalizing outer with
  | nil =>
    have hzero : outer = 0 := by simpa using h.balanced.symm
    rw [hzero, Nat.zero_add, List.nil_append]
  | cons token inner ih =>
    rw [List.cons_append]
    cases token with
    | leftParenthesis =>
      rw [matched_left, Nat.add_right_comm]
      exact ih (matched_left.mp h)
    | rightParenthesis =>
      obtain ⟨hne, hinner⟩ := matched_right.mp h
      rw [matched_right, show outer + depth - 1 = outer - 1 + depth by omega, ih hinner]
      exact and_iff_right (by omega)
    | number text | unknown c | operator c =>
      exact (matched_cons rfl).trans (ih ((matched_cons rfl).mp h))

/-- The infix formulas have matching parentheses. -/
theorem InfixForm.matched {tokens : List Token} (h : InfixForm tokens) : Matched 0 tokens := by
  induction h with
  | operand h =>
    exact (matched_cons (Token.isParenthesis_of_isLiteral h)).mpr ⟨by simp [Closes], rfl⟩
  | group h ih =>
    refine matched_left.mpr ?_
    exact (@Matched.append_iff _ 0 ih 1 _).mpr
      (matched_right.mpr ⟨by decide, by simp [Closes], rfl⟩)
  | negate h ih => exact (matched_cons rfl).mpr ih
  | binary hc hleft hright ihl ihr =>
    exact (@Matched.append_iff _ 0 ihl 0 _).mpr ((matched_cons rfl).mpr ihr)

/-- What closes the open parentheses closes the innermost one first. -/
theorem Matched.exists_closing {inside depth : Nat} {tokens : List Token}
    (h : Matched (inside + 1 + depth) tokens) :
    ∃ inner after, tokens = inner ++ .rightParenthesis :: after ∧ Matched inside inner ∧
      Matched depth after := by
  induction tokens generalizing inside with
  | nil =>
    have hbalanced := h.balanced
    simp only [List.count_nil] at hbalanced
    omega
  | cons token rest ih =>
    cases token with
    | leftParenthesis =>
      rw [matched_left, show inside + 1 + depth + 1 = inside + 1 + 1 + depth by omega] at h
      obtain ⟨inner, after, rfl, hinner, hafter⟩ := ih h
      exact ⟨_, after, rfl, matched_left.mpr hinner, hafter⟩
    | rightParenthesis =>
      obtain ⟨-, hrest⟩ := matched_right.mp h
      cases inside with
      | zero =>
        rw [show 0 + 1 + depth - 1 = depth by omega] at hrest
        exact ⟨[], rest, rfl, ⟨by simp [Closes], rfl⟩, hrest⟩
      | succ inside =>
        rw [show inside + 1 + 1 + depth - 1 = inside + 1 + depth by omega] at hrest
        obtain ⟨inner, after, rfl, hinner, hafter⟩ := ih hrest
        exact ⟨_, after, rfl, matched_right.mpr ⟨by omega, hinner⟩, hafter⟩
    | number text | unknown c | operator c =>
      obtain ⟨inner, after, rfl, hinner, hafter⟩ := ih ((matched_cons rfl).mp h)
      exact ⟨_, after, rfl, (matched_cons rfl).mpr hinner, hafter⟩

/-! ## The grammar and the two conditions -/

/-- Behind an operand the formula ends or goes on with an operator and a formula. -/
theorem eq_nil_or_operator {last : Token} (hlast : opensOperand (some last) = false)
    {rest : List Token} (halternates : alternates (some last) rest = true)
    (hmatched : Matched 0 rest) :
    rest = [] ∨ ∃ c after, rest = .operator c :: after ∧
      alternates (some (.operator c)) after = true ∧ Matched 0 after := by
  cases rest with
  | nil => exact Or.inl rfl
  | cons token after =>
    rw [alternates_cons, Bool.and_eq_true] at halternates
    cases token with
    | operator c =>
      exact Or.inr ⟨c, after, rfl, halternates.2, (matched_cons rfl).mp hmatched⟩
    | rightParenthesis => exact absurd rfl (matched_right.mp hmatched).1
    | number text | unknown c | leftParenthesis => simp [fits, hlast] at halternates

/-- Whatever alternates and has matching parentheses is an infix formula. -/
theorem InfixForm.of_alternates {previous : Option Token}
    (hprevious : opensOperand previous = true) (tokens : List Token)
    (hoperators : ∀ c, .operator c ∈ tokens → isOperator c = true)
    (halternates : Formula.alternates previous tokens = true) (hmatched : Matched 0 tokens) :
    InfixForm tokens := by
  -- A formula that has been read is the whole one, or the left operand of the next operator.
  have hgoesOn : ∀ {left rest : List Token} {last : Token}, tokens = left ++ rest →
      InfixForm left → opensOperand (some last) = false →
      Formula.alternates (some last) rest = true → Matched 0 rest → InfixForm tokens := by
    intro left rest last heq hleft hlast hrest hmatched
    obtain rfl | ⟨c, after, rfl, hafter, hmatchedAfter⟩ := eq_nil_or_operator hlast hrest hmatched
    · rwa [heq, List.append_nil]
    · subst heq
      have hlength : after.length < (left ++ .operator c :: after).length := by
        simp only [List.length_append, List.length_cons]
        omega
      exact .binary (hoperators c (by simp)) hleft (InfixForm.of_alternates rfl after
        (fun d hd => hoperators d (by simp [hd])) hafter hmatchedAfter)
  cases tokens with
  | nil => simp [Formula.alternates, hprevious, follows] at halternates
  | cons token rest =>
    rw [alternates_cons, Bool.and_eq_true] at halternates
    obtain ⟨hfits, hrest⟩ := halternates
    cases token with
    | number text | unknown c =>
      exact hgoesOn List.singleton_append.symm (.operand rfl) rfl hrest
        ((matched_cons rfl).mp hmatched)
    | rightParenthesis => exact absurd rfl (matched_right.mp hmatched).1
    | operator c =>
      simp only [fits, hprevious, Bool.not_true, Bool.or_false, beq_iff_eq] at hfits
      subst hfits
      exact .negate (InfixForm.of_alternates rfl rest (fun d hd => hoperators d (by simp [hd]))
        hrest ((matched_cons rfl).mp hmatched))
    | leftParenthesis =>
      obtain ⟨inner, after, rfl, hinner, hafter⟩ :=
        @Matched.exists_closing 0 0 rest (matched_left.mp hmatched)
      rw [alternates_append, alternates_cons, Bool.and_eq_true, Bool.and_eq_true] at hrest
      obtain ⟨hfollows, hend, hrest⟩ := hrest
      have hinside : Formula.alternates (some .leftParenthesis) inner = true := by
        rw [Formula.alternates, hfollows]
        exact hend
      have hlength : inner.length < (.leftParenthesis :: (inner ++ .rightParenthesis :: after) :
          List Token).length := by
        simp only [List.length_append, List.length_cons]
        omega
      have hform := InfixForm.of_alternates rfl inner (fun d hd => hoperators d (by simp [hd]))
        hinside hinner
      exact hgoesOn (by simp) (.group hform) rfl hrest hafter
termination_by tokens.length

/-- The infix formulas are the lists of tokens that alternate and whose parentheses match. -/
theorem infixForm_iff {tokens : List Token}
    (hoperators : ∀ c, .operator c ∈ tokens → isOperator c = true) :
    InfixForm tokens ↔ alternates none tokens = true ∧ Matched 0 tokens := by
  constructor
  · intro h
    exact ⟨h.alternates rfl, h.matched⟩
  · rintro ⟨halternates, hmatched⟩
    exact .of_alternates rfl tokens hoperators halternates hmatched

/-- The parentheses of an accepted list of tokens match. -/
theorem Accepted.matched {tokens : List Token} (h : Accepted tokens) : Matched 0 tokens :=
  ⟨h.closes, by rw [h.balanced, Nat.zero_add]⟩

/-- The formulas that are compiled without being infix are those whose tokens are accepted and do
not alternate: alternation is never asked for. -/
theorem compile_isOk_and_not_infixForm_iff (input : String) :
    ((∃ graph, compile input = .ok graph) ∧ ¬InfixForm (tokenize input)) ↔
      Accepted (tokenize input) ∧ alternates none (tokenize input) = false := by
  rw [compile_isOk_iff, infixForm_iff fun _ h => isOperator_of_mem_tokenize h]
  constructor
  · rintro ⟨haccepted, hform⟩
    refine ⟨haccepted, Bool.eq_false_iff.mpr fun halternates => ?_⟩
    exact hform ⟨halternates, haccepted.matched⟩
  · rintro ⟨haccepted, halternates⟩
    refine ⟨haccepted, fun hform => ?_⟩
    rw [hform.1] at halternates
    cases halternates

/-- Two operands without an operator between them and a sum without a right operand are compiled
together. -/
theorem compile_juxtaposed :
    compile "2(3)+" = .ok ⟨[⟨.add, ⟨some ⟨0x4000000000000000⟩, some ⟨0x4008000000000000⟩⟩,
      ⟨none, none⟩⟩]⟩ ∧ ¬InfixForm (tokenize "2(3)+") := by
  have hgraph : compile "2(3)+" = .ok ⟨[⟨.add, ⟨some ⟨0x4000000000000000⟩,
      some ⟨0x4008000000000000⟩⟩, ⟨none, none⟩⟩]⟩ := by decide +kernel
  refine ⟨hgraph, fun hform => ?_⟩
  have halternates := hform.alternates (rfl : opensOperand none = true)
  revert halternates
  decide

end Reckoner.Formula
