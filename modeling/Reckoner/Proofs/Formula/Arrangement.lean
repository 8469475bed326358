import Reckoner.Proofs.Formula.Derivation
import Reckoner.Proofs.Formula.Pending

/-!
# Arranging a formula of the grammar

Reading an operand writes some of its items and leaves operations waiting on the stack; released
together, they complete its postfix form. `Arranges` says so for every stack on whose top nothing
binds as strongly as the operand, and is closed under the rules of the grammar. A formula with at
least one operation is therefore compiled into the nodes of its tree.
-/

namespace Reckoner.Formula

/-! ## Operands -/

/-- Wherever an operand may begin, on a stack that yields to `strength`, reading the tokens writes
a part of the items and leaves the others waiting as operations of at least that strength. -/
def Arranges (strength : Nat) (tokens : List Token) (items : List Item) : Prop :=
  ∃ (written : List Item) (waiting : List Operation) (last : Token),
    opensOperand (some last) = false ∧
    items = written ++ waiting.map .operation ∧
    (∀ op ∈ waiting, strength ≤ precedence op) ∧
    ∀ previous stack rest, opensOperand previous = true → Yields strength stack →
      arrange previous stack (tokens ++ rest) =
        (written ++ ·) <$> arrange (some last) (waiting.map .operation ++ stack) rest

/-- What waits as strong operations waits as weaker ones. -/
theorem Arranges.mono {weak strong : Nat} {tokens : List Token} {items : List Item}
    (h : Arranges strong tokens items) (hle : weak ≤ strong) : Arranges weak tokens items := by
  obtain ⟨written, waiting, last, hlast, hitems, hstrength, harrange⟩ := h
  refine ⟨written, waiting, last, hlast, hitems, ?_, ?_⟩
  · exact fun op hop => hle.trans (hstrength op hop)
  · exact fun previous stack rest hp hs => harrange previous stack rest hp (hs.mono hle)

/-- A number is written at once. -/
theorem Arranges.number (strength : Nat) (text : String) :
    Arranges strength [.number text] [.literal text] := by
  refine ⟨[.literal text], [], .number text, rfl, rfl, by simp, fun previous stack rest _ _ => ?_⟩
  exact arrange_cons rfl rest

/-- A formula in parentheses leaves nothing waiting. -/
theorem Arranges.group {weak : Nat} (strength : Nat) {tokens : List Token} {items : List Item}
    (h : Arranges weak tokens items) :
    Arranges strength (.leftParenthesis :: tokens ++ [.rightParenthesis]) items := by
  obtain ⟨written, waiting, last, -, hitems, -, harrange⟩ := h
  refine ⟨items, [], .rightParenthesis, rfl, by simp, by simp, fun previous stack rest _ _ => ?_⟩
  have hopen : advance previous stack .leftParenthesis = .ok ([], .parenthesis :: stack) := rfl
  have hclose : advance (some last) (waiting.map .operation ++ .parenthesis :: stack)
      .rightParenthesis = .ok (waiting.map .operation, stack) := close_append waiting stack
  simp only [List.cons_append, List.append_assoc, List.nil_append]
  rw [arrange_cons hopen, harrange (some .leftParenthesis) (.parenthesis :: stack) _ rfl trivial,
    arrange_cons hclose, hitems]
  simp [Functor.map_map]

/-- A minus in front of an operand that binds more strongly waits behind its operations. -/
theorem Arranges.negate {strength : Nat} {tokens : List Token} {items : List Item}
    (h : Arranges strength tokens items) (hstrength : precedence .negate < strength) :
    Arranges (precedence .negate) (.operator '-' :: tokens) (items ++ [.operation .negate]) := by
  obtain ⟨written, waiting, last, hlast, hitems, hwaiting, harrange⟩ := h
  refine ⟨written, waiting ++ [.negate], last, hlast, by simp [hitems], ?_, ?_⟩
  · intro op hop
    rcases List.mem_append.mp hop with hop | hop
    · exact hstrength.le.trans (hwaiting op hop)
    · exact (List.mem_singleton.mp hop) ▸ Nat.le_refl _
  · intro previous stack rest hprevious hstack
    have hrelease : release .negate stack = ([], stack) :=
      @release_append .negate [] stack (by simp) hstack
    have hminus : advance previous stack (.operator '-') =
        .ok ([], .operation .negate :: stack) := by
      have hop : operationOf previous '-' = .ok .negate := by simp [operationOf, hprevious]
      rw [advance_operator hop, hrelease]
    rw [List.cons_append, arrange_cons hminus,
      harrange (some (.operator '-')) (.operation .negate :: stack) rest rfl hstrength]
    simp

/-- A binary operation releases its left operand and waits for its right one. -/
theorem Arranges.binary {c : Char} {op : Operation} {weak strong : Nat} {left right : List Token}
    {ls rs : List Item} (hc : binaryOperation? c = some op) (hop : precedence op = weak)
    (hl : Arranges weak left ls) (hr : Arranges strong right rs) (hlt : weak < strong) :
    Arranges weak (left ++ .operator c :: right) (ls ++ rs ++ [.operation op]) := by
  subst hop
  obtain ⟨lwritten, lwaiting, llast, hllast, rfl, hlwaiting, hlarrange⟩ := hl
  obtain ⟨rwritten, rwaiting, rlast, hrlast, rfl, hrwaiting, hrarrange⟩ := hr
  refine ⟨lwritten ++ lwaiting.map .operation ++ rwritten, rwaiting ++ [op], rlast, hrlast,
    by simp, ?_, ?_⟩
  · intro other hother
    rcases List.mem_append.mp hother with h | h
    · exact hlt.le.trans (hrwaiting other h)
    · exact (List.mem_singleton.mp h) ▸ Nat.le_refl _
  · intro previous stack rest hprevious hstack
    have hoperator : advance (some llast) (lwaiting.map .operation ++ stack) (.operator c) =
        .ok (lwaiting.map .operation, .operation op :: stack) := by
      have hop : operationOf (some llast) c = .ok op := by simp [operationOf, hllast, hc]
      rw [advance_operator hop, release_append hlwaiting hstack]
    rw [List.append_assoc, List.cons_append, hlarrange previous stack _ hprevious hstack,
      arrange_cons hoperator,
      hrarrange (some (.operator c)) (.operation op :: stack) rest rfl hlt]
    simp [Functor.map_map]

/-- An operand that stands alone has its items as postfix form, unless it is a single one. -/
theorem Arranges.toPostfix {strength : Nat} {tokens : List Token} {items : List Item}
    (h : Arranges strength tokens items) (hone : items.length ≠ 1) :
    toPostfix tokens = .ok items := by
  obtain ⟨written, waiting, last, -, rfl, -, harrange⟩ := h
  have hall := harrange none [] [] rfl trivial
  simp only [List.append_nil, arrange, drain_map] at hall
  simp only [Formula.toPostfix, hall]
  exact if_neg hone

/-! ## Formulas -/

/-- The least precedence that an operation outside all parentheses of a formula may have. -/
def Grade.strength : Grade → Nat
  | sum => 1
  | product => 2
  | signed => 3
  | power => 4
  | atom => 5

/-- The tokens of a formula arrange the postfix form of its tree. -/
theorem Derivation.arranges {grade : Grade} (d : Derivation grade) :
    Arranges grade.strength d.tokens d.tree.toPostfix := by
  induction d with
  | product inner ih | signed inner ih | power inner ih | atom inner ih =>
    exact ih.mono (by decide)
  | add left right ihl ihr | subtract left right ihl ihr | multiply left right ihl ihr
  | divide left right ihl ihr | raise left right ihl ihr =>
    exact .binary rfl rfl ihl ihr (by decide)
  | negate inner ih => exact ih.negate (by decide)
  | number numeral => exact .number _ _
  | group inner ih => exact ih.group _

/-- The postfix form of a formula with at least one operation is that of its tree. -/
theorem Derivation.toPostfix_tokens (d : Derivation .sum) (hsize : d.tree.size ≠ 0) :
    toPostfix d.tokens = .ok d.tree.toPostfix := by
  have hlength := d.tree.size_lt_length_toPostfix
  exact d.arranges.toPostfix (by omega)

/-- Every formula of the grammar with at least one operation, written with blanks anywhere, is
compiled, and its graph consists of the nodes of its tree. -/
theorem compile_eq_nodes (d : Derivation .sum) (hsize : d.tree.size ≠ 0) (input : String)
    (hinput : input.toList.filter (fun c => !Text.isBlank c) = d.text) :
    compile input = .ok ⟨d.tree.nodes 0⟩ := by
  have htokens : tokenize input = d.tokens := d.spells.tokenize hinput
  simp only [compile, htokens, d.toPostfix_tokens hsize]
  exact Tree.graphOfPostfix_toPostfix hsize

/-- The formula `-2.5^2*(+3-.5)/4.`, in which every kind of operation but the sum occurs. -/
def Derivation.sample : Derivation .sum :=
  .product (.divide
    (.multiply
      (.signed (.negate (.raise
        (.atom (.number ⟨false, ['2'], some ['5'], by simp, by simp⟩))
        (.number ⟨false, ['2'], none, by simp, by simp⟩))))
      (.power (.atom (.group (.subtract
        (.product (.signed (.power (.atom
          (.number ⟨true, ['3'], none, by simp, by simp⟩)))))
        (.signed (.power (.atom
          (.number ⟨false, [], some ['5'], by simp, by simp⟩)))))))))
    (.power (.atom (.number ⟨false, ['4'], some [], by simp, by simp⟩))))

/-- Blanks among the characters of the sample do not change its graph. -/
theorem compile_sample :
    Derivation.sample.tree.size ≠ 0 ∧
    " -2.5 ^ 2\t* (+ 3 - .5) / 4.".toList.filter (fun c => !Text.isBlank c) =
      Derivation.sample.text ∧
    compile " -2.5 ^ 2\t* (+ 3 - .5) / 4." = .ok ⟨[
      ⟨.power, ⟨some ⟨0x4004000000000000⟩, some ⟨0x4000000000000000⟩⟩, ⟨none, none⟩⟩,
      ⟨.negate, ⟨none, none⟩, ⟨some 0, none⟩⟩,
      ⟨.subtract, ⟨some ⟨0x4008000000000000⟩, some ⟨0x3fe0000000000000⟩⟩, ⟨none, none⟩⟩,
      ⟨.multiply, ⟨none, none⟩, ⟨some 1, some 2⟩⟩,
      ⟨.divide, ⟨none, some ⟨0x4010000000000000⟩⟩, ⟨some 3, none⟩⟩]⟩ := by
  have hsize : Derivation.sample.tree.size ≠ 0 := by decide
  have htext : " -2.5 ^ 2\t* (+ 3 - .5) / 4.".toList.filter (fun c => !Text.isBlank c) =
      Derivation.sample.text := by decide
  have hgraph := compile_eq_nodes Derivation.sample hsize _ htext
  exact ⟨hsize, htext, hgraph.trans (by decide +kernel)⟩

end Reckoner.Formula
