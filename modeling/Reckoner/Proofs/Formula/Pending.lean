import Mathlib.Tactic.Common
import Reckoner.Formula.Postfix

/-!
# The stack of pending operations

What waits on the stack lies in layers, one above each open parenthesis. Within the uppermost layer
an operation releases what binds at least as strongly; a closing parenthesis releases the whole
layer, and the end of the formula releases everything. `Advances` lists what a token can do.
-/

namespace Reckoner.Formula

/-! ## Releasing -/

/-- No operation on top of the stack binds as strongly as this. -/
def Yields (strength : Nat) : List Pending → Prop
  | .operation top :: _ => precedence top < strength
  | _ => True

/-- A stack that yields to a weak operation yields to a stronger one. -/
theorem Yields.mono {weak strong : Nat} {stack : List Pending} (h : Yields weak stack)
    (hle : weak ≤ strong) : Yields strong stack := by
  match stack, h with
  | [], _ => trivial
  | .parenthesis :: _, _ => trivial
  | .operation top :: _, h => exact Nat.lt_of_lt_of_le h hle

/-- An operation releases what binds at least as strongly, up to where the stack yields. -/
theorem release_append {op : Operation} {waiting : List Operation} {stack : List Pending}
    (hwaiting : ∀ top ∈ waiting, precedence op ≤ precedence top)
    (hstack : Yields (precedence op) stack) :
    release op (waiting.map .operation ++ stack) = (waiting.map .operation, stack) := by
  induction waiting with
  | nil =>
    match stack, hstack with
    | [], _ => rfl
    | .parenthesis :: _, _ => rfl
    | .operation top :: _, hstack => simp [release, Nat.not_le.mpr hstack]
  | cons top waiting ih =>
    have htop := hwaiting top (List.mem_cons_self ..)
    have hrest := ih fun other h => hwaiting other (List.mem_cons_of_mem _ h)
    simp [release, htop, hrest]

/-- A closing parenthesis releases what waits above its opening one. -/
theorem close_append (waiting : List Operation) (stack : List Pending) :
    close (waiting.map .operation ++ .parenthesis :: stack) =
      .ok (waiting.map .operation, stack) := by
  induction waiting with
  | nil => rfl
  | cons top waiting ih => simp [close, ih]

/-- The end of the formula releases everything. -/
theorem drain_map (waiting : List Operation) :
    drain (waiting.map .operation) = .ok (waiting.map .operation) := by
  induction waiting with
  | nil => rfl
  | cons top waiting ih => simp [drain, ih]

/-- A stack is operations only, or operations above an open parenthesis. -/
theorem exists_layer (stack : List Pending) :
    ∃ waiting : List Operation, stack = waiting.map .operation ∨
      ∃ below, stack = waiting.map .operation ++ .parenthesis :: below := by
  induction stack with
  | nil => exact ⟨[], Or.inl rfl⟩
  | cons pending stack ih =>
    cases pending with
    | parenthesis => exact ⟨[], Or.inr ⟨stack, rfl⟩⟩
    | operation op =>
      obtain ⟨waiting, rfl | ⟨below, rfl⟩⟩ := ih
      · exact ⟨op :: waiting, Or.inl rfl⟩
      · exact ⟨op :: waiting, Or.inr ⟨below, rfl⟩⟩

/-- A stack splits into what an operation releases and a stack that yields to it. -/
theorem exists_release (op : Operation) (stack : List Pending) :
    ∃ (waiting : List Operation) (below : List Pending),
      stack = waiting.map .operation ++ below ∧
        (∀ top ∈ waiting, precedence op ≤ precedence top) ∧ Yields (precedence op) below := by
  induction stack with
  | nil => exact ⟨[], [], rfl, by simp, trivial⟩
  | cons pending stack ih =>
    cases pending with
    | parenthesis => exact ⟨[], .parenthesis :: stack, rfl, by simp, trivial⟩
    | operation top =>
      by_cases htop : precedence op ≤ precedence top
      · obtain ⟨waiting, below, rfl, hwaiting, hbelow⟩ := ih
        refine ⟨top :: waiting, below, rfl, ?_, hbelow⟩
        rintro other (_ | ⟨_, hother⟩)
        · exact htop
        · exact hwaiting other hother
      · exact ⟨[], .operation top :: stack, rfl, by simp, Nat.lt_of_not_le htop⟩

/-- Without an open parenthesis nothing can be closed. -/
theorem close_map (waiting : List Operation) :
    close (waiting.map .operation) = .error .unopenedParenthesis := by
  induction waiting with
  | nil => rfl
  | cons top waiting ih => simp only [List.map_cons, close, ih]; rfl

/-- With an open parenthesis the formula cannot end. -/
theorem drain_append (waiting : List Operation) (stack : List Pending) :
    drain (waiting.map .operation ++ .parenthesis :: stack) = .error .unclosedParenthesis := by
  induction waiting with
  | nil => rfl
  | cons top waiting ih => simp only [List.map_cons, List.cons_append, drain, ih]; rfl

/-! ## What a token does -/

/-- An operator releases and then waits itself. -/
theorem advance_operator {previous : Option Token} {c : Char} {op : Operation}
    (h : operationOf previous c = .ok op) (stack : List Pending) :
    advance previous stack (.operator c) =
      .ok ((release op stack).1, .operation op :: (release op stack).2) := by
  simp only [advance, h]
  rfl

/-- Whether a token is an operand. -/
def Token.isLiteral : Token → Bool
  | number _ | unknown _ => true
  | _ => false

/-- What a token behind `previous` may write, and the stack that it leaves. -/
inductive Advances (previous : Option Token) :
    List Pending → Token → List Item → List Pending → Prop
  | literal {token : Token} (stack : List Pending) (h : token.isLiteral = true) :
    Advances previous stack token [.literal token.text] stack
  | opening (stack : List Pending) :
    Advances previous stack .leftParenthesis [] (.parenthesis :: stack)
  | closing (waiting : List Operation) (stack : List Pending) :
    Advances previous (waiting.map .operation ++ .parenthesis :: stack) .rightParenthesis
      (waiting.map .operation) stack
  | operator {c : Char} {op : Operation} (waiting : List Operation) (stack : List Pending)
    (hop : operationOf previous c = .ok op)
    (hwaiting : ∀ top ∈ waiting, precedence op ≤ precedence top)
    (hstack : Yields (precedence op) stack) :
    Advances previous (waiting.map .operation ++ stack) (.operator c) (waiting.map .operation)
      (.operation op :: stack)

/-- A token is accepted exactly when it can do one of these things, and then does it. -/
theorem advance_eq_ok_iff {previous : Option Token} {stack left : List Pending} {token : Token}
    {items : List Item} :
    advance previous stack token = .ok (items, left) ↔
      Advances previous stack token items left := by
  constructor
  · intro h
    cases token with
    | number text | unknown c => cases h; exact .literal stack rfl
    | leftParenthesis => cases h; exact .opening stack
    | rightParenthesis =>
      obtain ⟨waiting, rfl | ⟨below, rfl⟩⟩ := exists_layer stack
      · exact absurd ((close_map waiting).symm.trans h) (by simp)
      · have heq := (close_append waiting below).symm.trans h
        simp only [Except.ok.injEq, Prod.mk.injEq] at heq
        obtain ⟨rfl, rfl⟩ := heq
        exact .closing waiting _
    | operator c =>
      cases hop : operationOf previous c with
      | error e =>
        simp only [advance, hop] at h
        cases h
      | ok op =>
        obtain ⟨waiting, below, rfl, hwaiting, hbelow⟩ := exists_release op stack
        rw [advance_operator hop, release_append hwaiting hbelow] at h
        simp only [Except.ok.injEq, Prod.mk.injEq] at h
        obtain ⟨rfl, rfl⟩ := h
        exact .operator waiting below hop hwaiting hbelow
  · intro h
    cases h with
    | @literal token stack h =>
      cases token <;> first | rfl | exact absurd h Bool.false_ne_true
    | opening => rfl
    | closing waiting => exact close_append waiting _
    | operator waiting below hop hwaiting hbelow =>
      rw [advance_operator hop, release_append hwaiting hbelow]

/-- A token that is accepted writes its items in front of those of the others. -/
theorem arrange_cons {previous : Option Token} {stack left : List Pending} {token : Token}
    {items : List Item} (h : advance previous stack token = .ok (items, left))
    (rest : List Token) :
    arrange previous stack (token :: rest) =
      (items ++ ·) <$> arrange (some token) left rest := by
  simp only [arrange, h]
  rfl

end Reckoner.Formula
