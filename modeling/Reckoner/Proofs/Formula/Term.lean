import Reckoner.Proofs.Formula.Assembly

/-!
# Terms

A term is made of numbers and operations, each operation with as many operands as it takes. Its
postorder is a postfix form in which every operation stands behind its operands. The postfix forms
that are assembled are the postorders of the terms with at least one operation.
-/

namespace Reckoner.Formula

/-- Numbers under operations. -/
inductive Term where
  /-- The text of a number. -/
  | literal (text : String) (isNumber : (Binary64.ofText? text).isSome = true)
  | negate (operand : Term)
  /-- An operation on two operands. -/
  | binary (op : Operation) (isBinary : op.arity = 2) (left right : Term)

namespace Term

/-- The number of operations. -/
def size : Term → Nat
  | literal _ _ => 0
  | negate operand => operand.size + 1
  | binary _ _ left right => left.size + right.size + 1

/-- Every operation behind its operands, the left one first. -/
def postorder : Term → List Item
  | literal text _ => [.literal text]
  | negate operand => operand.postorder ++ [.operation .negate]
  | binary op _ left right => left.postorder ++ right.postorder ++ [.operation op]

/-- No operation of a term is lost. -/
theorem length_operations (term : Term) : (operations term.postorder).length = term.size := by
  induction term with
  | literal text h => rfl
  | negate operand ih => simp [postorder, size, ih]
  | binary op h left right ihl ihr => simp [postorder, size, ihl, ihr, Nat.add_assoc]

/-- The literals of a term are numbers. -/
theorem isSome_of_mem_postorder {term : Term} {text : String}
    (h : .literal text ∈ term.postorder) : (Binary64.ofText? text).isSome = true := by
  induction term with
  | literal other hnumber =>
    obtain rfl : text = other := by simpa [postorder] using h
    exact hnumber
  | negate operand ih =>
    rw [postorder, List.mem_append] at h
    rcases h with h | h
    · exact ih h
    · simp at h
  | binary op hop left right ihl ihr =>
    rw [postorder, List.mem_append, List.mem_append] at h
    rcases h with (h | h) | h
    · exact ihl h
    · exact ihr h
    · simp at h

/-! ## The postorder of a term is assembled -/

/-- A term leaves one operand on the stack, whatever lies below and follows behind. -/
theorem settle_postorder (term : Term) (height : Nat) (rest : List Item) :
    settle height (term.postorder ++ rest) = settle (height + 1) rest := by
  induction term generalizing height rest with
  | literal text h => rfl
  | negate operand ih =>
    rw [postorder, List.append_assoc, ih, List.singleton_append, settle]
    exact if_pos (Nat.succ_le_succ (Nat.zero_le height))
  | binary op h left right ihl ihr =>
    rw [postorder, List.append_assoc, List.append_assoc, ihl, ihr, List.singleton_append, settle,
      if_pos (by omega)]
    congr 1
    omega

/-- A term with an operation has a graph. -/
theorem exists_graph {term : Term} (h : term.size ≠ 0) :
    ∃ graph, graphOfPostfix term.postorder = .ok graph := by
  have hsettle : settle 0 term.postorder = some 1 := by
    have hall := term.settle_postorder 0 []
    rwa [List.append_nil] at hall
  obtain ⟨hcovered, hcount⟩ := (settle_eq_some_iff term.postorder 0 1).mp hsettle
  refine (graphOfPostfix_isOk_iff _).mpr ⟨fun text htext => ?_, fun hnil => ?_, hcovered, ?_⟩
  · exact isSome_of_mem_postorder htext
  · rw [← term.length_operations, hnil] at h
    exact h rfl
  · omega

/-! ## What is assembled is the postorder of a term -/

/-- The postorders of the terms on a stack, the lowest one first. -/
def spelled : List Term → List Item
  | [] => []
  | top :: below => spelled below ++ top.postorder

end Term

/-- Whatever terms the operands on the stack stand for, the items behind them complete a term. -/
theorem Assembles.exists_term {position : Nat} {stack : List Operand} {items : List Item}
    {nodes : List Node} (h : Assembles position stack items nodes) {terms : List Term}
    (hterms : terms.length = stack.length) :
    ∃ term : Term, term.postorder = Term.spelled terms ++ items := by
  induction h generalizing terms with
  | done root =>
    obtain ⟨term, rfl⟩ := List.length_eq_one_iff.mp hterms
    exact ⟨term, by simp [Term.spelled]⟩
  | @literal _ stack items _ text value hread rest ih =>
    have hnumber : (Binary64.ofText? text).isSome = true := by rw [hread]; rfl
    obtain ⟨term, hterm⟩ := @ih (.literal text hnumber :: terms) (congrArg (· + 1) hterms)
    exact ⟨term, by simpa [Term.spelled, Term.postorder] using hterm⟩
  | @operation _ stack left items _ op node hearlier htake rest ih =>
    obtain ⟨operand, rfl, rfl, -⟩ | ⟨first, second, hslots, rfl, -⟩ := take_cases htake
    · match terms, hterms with
      | inner :: below, hterms =>
        obtain ⟨term, hterm⟩ := @ih (.negate inner :: below) hterms
        exact ⟨term, by simpa [Term.spelled, Term.postorder] using hterm⟩
    · have hbinary : op.arity = 2 := by rw [← op.length_slots, hslots]; rfl
      match terms, hterms with
      | right :: left :: below, hterms =>
        obtain ⟨term, hterm⟩ := @ih (.binary op hbinary left right :: below)
          (Nat.succ.inj hterms)
        exact ⟨term, by simpa [Term.spelled, Term.postorder] using hterm⟩

/-- A postfix form has a graph exactly when it is the postorder of a term with an operation. -/
theorem graphOfPostfix_isOk_iff_exists_term (items : List Item) :
    (∃ graph, graphOfPostfix items = .ok graph) ↔
      ∃ term : Term, term.size ≠ 0 ∧ term.postorder = items := by
  constructor
  · rintro ⟨graph, hgraph⟩
    have hassembles := assembles_of_graphOfPostfix hgraph
    obtain ⟨term, hterm⟩ := @Assembles.exists_term _ _ _ _ hassembles [] rfl
    rw [Term.spelled, List.nil_append] at hterm
    refine ⟨term, ?_, hterm⟩
    have hlength := hassembles.length_pos
    rw [← term.length_operations, hterm, ← hassembles.operations_eq, List.length_map]
    omega
  · rintro ⟨term, hsize, rfl⟩
    exact Term.exists_graph hsize

end Reckoner.Formula
