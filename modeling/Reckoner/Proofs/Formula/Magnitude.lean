import Reckoner.Proofs.Formula.Arrangement
import Reckoner.Proofs.Number.Overflow

/-!
# How large the literals of a formula are

A formula writes its numbers as numerals, and every one of them becomes an operand of a node of the
graph. A numeral that reaches the place where rounding ends in infinity is not refused: it is read
as infinity. So the literals of a graph are finite exactly when no numeral of the formula overflows.
-/

namespace Reckoner

/-- All literals of a graph are finite. -/
def TaskGraph.FiniteLiterals (graph : TaskGraph) : Prop :=
  ∀ node ∈ graph.nodes, ∀ slot value, node.args.get slot = some value → value.isFinite = true

namespace Formula

/-! ## Numerals -/

namespace Numeral

/-- How many digits stand behind the point. -/
def places (n : Numeral) : Nat := (n.fraction.getD []).length

/-- All digits, as one number. -/
def digits (n : Numeral) : Nat := digitsValue (n.whole ++ n.fraction.getD [])

/-- The numeral reaches the least number that is rounded to infinity. -/
def Overflows (n : Numeral) : Prop := Binary64.overflow * 10 ^ n.places ≤ n.digits

/-- A numeral is finite unless it overflows. -/
theorem isFinite_value (n : Numeral) : n.value.isFinite = true ↔ ¬n.Overflows :=
  (Binary64.isFinite_ofDecimal n.digits n.places).trans Nat.not_le.symm

/-- A numeral that overflows is read as infinity. -/
theorem Overflows.value_eq {n : Numeral} (h : n.Overflows) : n.value = Binary64.infinity := by
  have hinfinite : ¬n.value.isFinite = true := fun hfinite => (n.isFinite_value.mp hfinite) h
  obtain ⟨magnitude, hle, heq⟩ := Binary64.exists_ofDecimal n.digits (-n.places)
  change n.value = _ at heq
  rw [heq, Binary64.isFinite_ofMagnitude hle, Nat.not_lt] at hinfinite
  rw [heq, Nat.le_antisymm hle hinfinite]
  rfl

end Numeral

/-! ## What is read is a numeral -/

/-- Characters of numbers make no exponent. -/
theorem eq_nil_of_readExponent? {text : List Char} {power : Int}
    (h : ∀ c ∈ text, IsNumeralChar c) (hread : Binary64.readExponent? text = some power) :
    text = [] := by
  cases text with
  | nil => rfl
  | cons mark rest =>
    unfold Binary64.readExponent? at hread
    dsimp only at hread
    split at hread
    case isFalse => cases hread
    case isTrue hmark =>
      have hnumeral : ¬IsNumeralChar mark := by
        simp only [Bool.and_eq_true, Bool.or_eq_true, beq_iff_eq] at hmark
        rcases hmark.1.1 with rfl | rfl <;> unfold IsNumeralChar <;> decide
      exact absurd (h mark (List.mem_cons_self ..)) hnumeral

/-- Digits with at most one point among them are the body of a numeral, if they are read. -/
theorem exists_body {text : List Char} {value : Binary64} (signed : Bool)
    (h : ∀ c ∈ text, IsNumeralChar c) (hread : Binary64.readDecimal? false text = some value) :
    ∃ n : Numeral, n.signed = signed ∧ n.body = text := by
  have hwhole : ∀ c ∈ text.takeWhile Char.isDigit, c.isDigit = true :=
    fun c hc => List.mem_takeWhile_imp hc
  have hsplit : text.takeWhile Char.isDigit ++ text.dropWhile Char.isDigit = text :=
    List.takeWhile_append_dropWhile
  have hbehind : ∀ c ∈ text.dropWhile Char.isDigit, IsNumeralChar c :=
    fun c hc => h c (List.dropWhile_subset _ hc)
  unfold Binary64.readDecimal? at hread
  dsimp only at hread
  generalize text.takeWhile Char.isDigit = whole at hwhole hsplit hread
  generalize text.dropWhile Char.isDigit = behind at hsplit hread hbehind
  split at hread
  case h_1 digits =>
    dsimp only at hread
    split_ifs at hread with hempty
    obtain ⟨power, hpower, -⟩ := Option.map_eq_some_iff.mp hread
    have hdigits := eq_nil_of_readExponent?
      (fun c hc => hbehind c (List.mem_cons_of_mem _ (List.dropWhile_subset _ hc))) hpower
    have hfraction : ∀ c ∈ digits, c.isDigit = true := List.dropWhile_eq_nil_iff.mp hdigits
    refine ⟨⟨signed, whole, some digits, ?_, fun hnil => hempty ?_⟩, rfl, hsplit⟩
    · intro c hc
      exact (List.mem_append.mp hc).elim (hwhole c) (hfraction c)
    · obtain ⟨rfl, hnil⟩ := List.append_eq_nil_iff.mp hnil
      obtain rfl : digits = [] := hnil
      rfl
  case h_2 =>
    dsimp only at hread
    split_ifs at hread with hempty
    obtain ⟨power, hpower, -⟩ := Option.map_eq_some_iff.mp hread
    obtain rfl := eq_nil_of_readExponent? hbehind hpower
    refine ⟨⟨signed, whole, none, by simpa using hwhole, ?_⟩, rfl, ?_⟩
    · simpa using hempty
    · simpa [Numeral.body] using hsplit

/-- A sign in front of characters of numbers is a plus. -/
theorem exists_splitSign {text : List Char} (h : ∀ c ∈ text, IsNumeralChar c) :
    ∃ (signed : Bool) (body : List Char), Binary64.splitSign text = (false, body) ∧
      text = if signed then '+' :: body else body := by
  unfold Binary64.splitSign
  split
  · exact absurd (h '-' (List.mem_cons_self ..)) (by unfold IsNumeralChar; decide)
  · exact ⟨true, _, rfl, rfl⟩
  · exact ⟨false, text, rfl, rfl⟩

/-- What is read of characters of numbers is a numeral. -/
theorem exists_numeral {text : String} {value : Binary64}
    (h : ∀ c ∈ text.toList, IsNumeralChar c) (hread : Binary64.ofText? text = some value) :
    ∃ n : Numeral, text = String.ofList n.text ∧ n.value = value := by
  obtain ⟨signed, body, hsplit, htext⟩ := exists_splitSign h
  have hbody : ∀ c ∈ body, IsNumeralChar c := by
    intro c hc
    refine h c (htext ▸ ?_)
    split_ifs
    · exact List.mem_cons_of_mem _ hc
    · exact hc
  have hspelled : ∃ n : Numeral, text = String.ofList n.text := by
    simp only [Binary64.ofText?, hsplit, readWord?_of_isNumeralChar hbody, Option.none_or] at hread
    obtain ⟨n, rfl, rfl⟩ := exists_body signed hbody hread
    exact ⟨n, by rw [Numeral.text, ← htext, String.ofList_toList]⟩
  obtain ⟨n, rfl⟩ := hspelled
  exact ⟨n, rfl, Option.some.inj (n.ofText?_text.symm.trans hread)⟩

/-- A digit never stands outside a number. -/
theorem isDigit_of_unknown_mem_scan {previous : Option Char} {input : List Char} {c : Char}
    (h : Token.unknown c ∈ scan previous input) : c.isDigit = false := by
  induction input generalizing previous with
  | nil => cases h
  | cons first rest ih =>
    rw [scan] at h
    split_ifs at h with hnumeral
    · obtain h | h | ⟨_, _, h⟩ := mem_consNumeral h
      · exact ih h
      · cases h
      · cases h
    · rcases List.mem_cons.mp h with htoken | h
      · obtain rfl : c = first := by
          unfold Token.ofChar at htoken
          split_ifs at htoken
          exact Token.unknown.inj htoken
        simp only [isNumeral, Bool.or_eq_true, not_or] at hnumeral
        exact Bool.eq_false_iff.mpr hnumeral.1.1
      · exact ih h

/-- A single character that is read is a digit. -/
theorem isDigit_of_ofText? {c : Char} {value : Binary64} (hoperator : isOperator c = false)
    (hread : Binary64.ofText? (String.singleton c) = some value) : c.isDigit = true := by
  have hsign : c ≠ '-' ∧ c ≠ '+' := by
    constructor <;> rintro rfl <;> cases hoperator
  have hsplit : Binary64.splitSign [c] = (false, [c]) := by
    simp [Binary64.splitSign, hsign]
  simp only [Binary64.ofText?, String.toList_singleton, hsplit, readWord?_singleton,
    Option.none_or] at hread
  by_contra hdigit
  by_cases hpoint : c = '.'
  · subst hpoint
    cases hread
  · simp [Binary64.readDecimal?, hdigit, hpoint] at hread

/-- The text of a literal that is read is a number of the formula, and a numeral. -/
theorem exists_numeral_of_mem_tokenize {input : String} {token : Token} {value : Binary64}
    (h : token ∈ tokenize input) (hliteral : token.isLiteral = true)
    (hread : Binary64.ofText? token.text = some value) :
    ∃ n : Numeral, token = .number (String.ofList n.text) ∧ n.value = value := by
  obtain ⟨hnumber, hunknown⟩ := of_mem_scan h
  cases token with
  | number text =>
    obtain ⟨n, rfl, hvalue⟩ := exists_numeral (hnumber text rfl) hread
    exact ⟨n, rfl, hvalue⟩
  | unknown c =>
    have hdigit := isDigit_of_ofText? (hunknown c rfl) hread
    rw [isDigit_of_unknown_mem_scan h] at hdigit
    cases hdigit
  | operator c => cases hliteral
  | leftParenthesis => cases hliteral
  | rightParenthesis => cases hliteral

/-! ## Every literal is an operand -/

/-- A literal on the stack becomes an operand of the node or is left on it. -/
theorem literal_mem_of_take {op : Operation} {stack left : List Operand} {node : Node}
    (h : take op stack = .ok (node, left)) {value : Binary64} (hvalue : .literal value ∈ stack) :
    .literal value ∈ left ∨ ∃ slot, node.args.get slot = some value := by
  obtain ⟨operand, -, rfl, rfl⟩ | ⟨first, second, -, rfl, rfl⟩ := take_cases h
  · rcases List.mem_cons.mp hvalue with rfl | hvalue
    · exact Or.inr ⟨.left, rfl⟩
    · exact Or.inl hvalue
  · rcases List.mem_cons.mp hvalue with rfl | hvalue
    · exact Or.inr ⟨.right, rfl⟩
    · rcases List.mem_cons.mp hvalue with rfl | hvalue
      · exact Or.inr ⟨.left, rfl⟩
      · exact Or.inl hvalue

/-- Every literal that is on the stack or is still read becomes an operand of a node: at the end
only a result is left. -/
theorem Assembles.exists_node {items : List Item} {position : Nat} {stack : List Operand}
    {nodes : List Node} (h : Assembles position stack items nodes) {value : Binary64}
    (hvalue : .literal value ∈ stack ∨
      ∃ text, .literal text ∈ items ∧ Binary64.ofText? text = some value) :
    ∃ node ∈ nodes, ∃ slot, node.args.get slot = some value := by
  induction h with
  | done root =>
    obtain hstack | ⟨text, htext, -⟩ := hvalue
    · simp at hstack
    · cases htext
  | literal hread rest ih =>
    refine ih ?_
    obtain hstack | ⟨other, hother, hvalue⟩ := hvalue
    · exact Or.inl (List.mem_cons_of_mem _ hstack)
    · rcases List.mem_cons.mp hother with heq | hother
      · cases heq
        obtain rfl := Option.some.inj (hvalue.symm.trans hread)
        exact Or.inl (List.mem_cons_self ..)
      · exact Or.inr ⟨other, hother, hvalue⟩
  | @operation position stack left items nodes op first hearlier htake rest ih =>
    have hlater : (.literal value ∈ left ∨
        ∃ text, .literal text ∈ items ∧ Binary64.ofText? text = some value) →
        ∃ node ∈ first :: nodes, ∃ slot, node.args.get slot = some value := by
      intro hleft
      obtain ⟨node, hnode, hslot⟩ := ih (hleft.imp_left (List.mem_cons_of_mem _))
      exact ⟨node, List.mem_cons_of_mem _ hnode, hslot⟩
    obtain hstack | ⟨text, htext, hvalue⟩ := hvalue
    · obtain hleft | hslot := literal_mem_of_take htake hstack
      · exact hlater (Or.inl hleft)
      · exact ⟨first, List.mem_cons_self .., hslot⟩
    · have htext : .literal text ∈ items := by simpa using htext
      exact hlater (Or.inr ⟨text, htext, hvalue⟩)

/-- The literals of a graph are the numerals of the formula. -/
theorem literal_iff_of_compile {input : String} {graph : TaskGraph}
    (h : compile input = .ok graph) {value : Binary64} :
    (∃ node ∈ graph.nodes, ∃ slot, node.args.get slot = some value) ↔
      ∃ n : Numeral, .number (String.ofList n.text) ∈ tokenize input ∧ n.value = value := by
  obtain ⟨front, waiting, hwrites, hgraph⟩ := exists_writes_of_compile h
  have hassembles := assembles_of_graphOfPostfix hgraph
  constructor
  · rintro ⟨node, hnode, slot, hvalue⟩
    obtain ⟨-, hstack | ⟨text, htext, hread⟩⟩ := hassembles.literal_cases hnode hvalue
    · cases hstack
    · obtain ⟨token, htoken, hliteral, rfl⟩ := (hwrites.literal_mem_all text).mp htext
      obtain ⟨n, rfl, hn⟩ := exists_numeral_of_mem_tokenize htoken hliteral hread
      exact ⟨n, htoken, hn⟩
  · rintro ⟨n, hn, rfl⟩
    have htext := (hwrites.literal_mem_all (String.ofList n.text)).mpr ⟨_, hn, rfl, rfl⟩
    exact hassembles.exists_node (Or.inr ⟨_, htext, n.ofText?_text⟩)

/-- Some numeral of the formula overflows. -/
def Overflows (input : String) : Prop :=
  ∃ n : Numeral, .number (String.ofList n.text) ∈ tokenize input ∧ n.Overflows

/-- The literals of a graph are finite exactly when no numeral of the formula overflows. -/
theorem finiteLiterals_iff {input : String} {graph : TaskGraph} (h : compile input = .ok graph) :
    graph.FiniteLiterals ↔ ¬Overflows input := by
  constructor
  · rintro hfinite ⟨n, hn, hoverflows⟩
    obtain ⟨node, hnode, slot, hvalue⟩ := (literal_iff_of_compile h).mpr ⟨n, hn, rfl⟩
    exact n.isFinite_value.mp (hfinite node hnode slot _ hvalue) hoverflows
  · intro hnone node hnode slot value hvalue
    obtain ⟨n, hn, rfl⟩ := (literal_iff_of_compile h).mp ⟨node, hnode, slot, hvalue⟩
    exact n.isFinite_value.mpr fun hoverflows => hnone ⟨n, hn, hoverflows⟩

/-! ## A divisor that is too large -/

/-- A quotient of two numerals. -/
def Derivation.quotient (a b : Numeral) : Derivation .sum :=
  .product (.divide (.signed (.power (.atom (.number a)))) (.power (.atom (.number b))))

/-- A quotient of two numerals has one node, with their values as its operands. -/
theorem compile_quotient {a b : Numeral} {input : String}
    (hinput : input.toList.filter (fun c => !Text.isBlank c) = (Derivation.quotient a b).text) :
    compile input = .ok ⟨[⟨.divide, ⟨some a.value, some b.value⟩, ⟨none, none⟩⟩]⟩ := by
  have hsize : (Derivation.quotient a b).tree.size ≠ 0 := Nat.succ_ne_zero _
  have hitems := (Derivation.quotient a b).toPostfix_tokens hsize
  rw [← (Derivation.quotient a b).spells.tokenize hinput] at hitems
  exact compile_eq_ok_iff.mpr ⟨_, hitems, Tree.graphOfPostfix_toPostfix hsize⟩

/-- A two with 308 zeros. -/
def Numeral.oversized : Numeral where
  signed := false
  whole := '2' :: List.replicate 308 '0'
  fraction := none
  isDigit_of_mem c hc := by
    rw [Option.getD_none, List.append_nil, List.mem_cons, List.mem_replicate] at hc
    rcases hc with rfl | ⟨-, rfl⟩ <;> rfl
  ne_nil := List.append_ne_nil_of_left_ne_nil (List.cons_ne_nil _ _) _

/-- That number is too large. -/
theorem Numeral.overflows_oversized : Numeral.oversized.Overflows := by
  unfold Numeral.Overflows
  decide +kernel

/-- One, divided by a number that is too large. -/
def oversized : String := String.ofList ('1' :: '/' :: Numeral.oversized.text)

/-- The divisor of `oversized` is read as infinity. -/
theorem compile_oversized : compile oversized =
    .ok ⟨[⟨.divide, ⟨some Binary64.one, some Binary64.infinity⟩, ⟨none, none⟩⟩]⟩ := by
  have hinput : oversized.toList.filter (fun c => !Text.isBlank c) =
      (Derivation.quotient ⟨false, ['1'], none, by simp, by simp⟩ .oversized).text := by
    rw [oversized, String.toList_ofList]
    decide +kernel
  have hone : Numeral.value ⟨false, ['1'], none, by simp, by simp⟩ = Binary64.one := by
    decide +kernel
  rw [compile_quotient hinput, hone, Numeral.overflows_oversized.value_eq]

end Formula

end Reckoner
