import Reckoner.Proofs.Database.Row
import Reckoner.Proofs.Formula.Acceptance
import Reckoner.Proofs.Formula.Numeral
import Reckoner.Proofs.Formula.Shape

/-!
# Literals are kept

A formula has no text for a NaN or for a zero with a sign: a minus in front of a number is an
operation. So a database keeps all literals of a graph bit for bit.
-/

namespace Reckoner

namespace Binary64

/-! ## Numbers without a sign -/

/-- The word of a magnitude. -/
theorem toNat_ofMagnitude {magnitude : Nat} (h : magnitude ≤ infinityMagnitude) :
    (ofMagnitude false magnitude).bits.toNat = magnitude := by
  have hlt : magnitude < 2 ^ 64 := Nat.lt_of_le_of_lt h (by decide)
  exact (UInt64.toNat_ofNat' ..).trans (Nat.mod_eq_of_lt hlt)

/-- Up to infinity, a number without a sign is stored as it is. -/
theorem stored?_ofMagnitude {magnitude : Nat} (h : magnitude ≤ infinityMagnitude) :
    (ofMagnitude false magnitude).stored? = some (ofMagnitude false magnitude) := by
  have hbits := toNat_ofMagnitude h
  have hle : magnitude ≤ 2047 * 4503599627370496 := h
  have hnan : (ofMagnitude false magnitude).isNaN = false := by
    unfold isNaN exponentField fractionField hiddenBit
    rw [hbits]
    by_cases hinfinite : magnitude = 2047 * 4503599627370496
    · subst hinfinite
      rfl
    · have hexponent : magnitude / 4503599627370496 % 2048 ≠ 2047 := by omega
      rw [beq_eq_false_iff_ne.mpr hexponent, Bool.false_and]
  rw [stored?_eq hnan]
  cases hzero : (ofMagnitude false magnitude).isZero with
  | false => rw [plain_of_not_isZero hzero]
  | true =>
    unfold isZero exponentField fractionField hiddenBit at hzero
    rw [hbits, Bool.and_eq_true_iff, beq_iff_eq, beq_iff_eq] at hzero
    obtain rfl : magnitude = 0 := by omega
    rfl

/-- A rounded ratio is at most infinite. -/
theorem exists_ofRatio (numerator denominator : Nat) : ∃ magnitude ≤ infinityMagnitude,
    ofRatio false numerator denominator = ofMagnitude false magnitude := by
  unfold ofRatio
  split_ifs
  · exact ⟨0, Nat.zero_le _, rfl⟩
  · exact ⟨_, Nat.min_le_right .., rfl⟩

/-- A decimal is at most infinite. -/
theorem exists_ofDecimal (digits : Nat) (power : Int) : ∃ magnitude ≤ infinityMagnitude,
    ofDecimal false digits power = ofMagnitude false magnitude := by
  simp only [ofDecimal]
  split_ifs
  · exact ⟨0, Nat.zero_le _, rfl⟩
  · exact ⟨_, Nat.le_refl _, rfl⟩
  · exact exists_ofRatio ..
  · exact exists_ofRatio ..

/-- What is read from a text without a minus that is no word is stored as it is. -/
theorem stored?_of_ofText? {text : String} {value : Binary64}
    (hsign : (splitSign text.toList).1 = false)
    (hword : readWord? false (splitSign text.toList).2 = none) (h : ofText? text = some value) :
    value.stored? = some value := by
  unfold ofText? at h
  generalize splitSign text.toList = split at hsign hword h
  obtain ⟨negative, unsigned⟩ := split
  simp only at hsign hword h
  subst hsign
  rw [hword, Option.none_or] at h
  have hdecimal : ∃ digits power, value = ofDecimal false digits power := by
    simp only [readDecimal?] at h
    split at h
    all_goals
      split_ifs at h
      obtain ⟨power, -, rfl⟩ := Option.map_eq_some_iff.mp h
      exact ⟨_, _, rfl⟩
  obtain ⟨digits, power, rfl⟩ := hdecimal
  obtain ⟨magnitude, hle, heq⟩ := exists_ofDecimal digits power
  rw [heq]
  exact stored?_ofMagnitude hle

end Binary64

namespace Formula

/-! ## Texts of literals -/

/-- A character of a number. -/
def IsNumeralChar (c : Char) : Prop := c.isDigit = true ∨ c = '.' ∨ c = '+'

/-- Putting a character in front of tokens makes them no other but for a number. -/
theorem mem_consNumeral {token : Token} {c : Char} {tokens : List Token}
    (h : token ∈ Token.consNumeral c tokens) :
    token ∈ tokens ∨ token = .number (String.singleton c) ∨
      ∃ text, .number text ∈ tokens ∧ token = .number (String.singleton c ++ text) := by
  unfold Token.consNumeral at h
  split at h
  · rcases List.mem_cons.mp h with rfl | h
    · exact Or.inr (Or.inr ⟨_, List.mem_cons_self .., rfl⟩)
    · exact Or.inl (List.mem_cons_of_mem _ h)
  · rcases List.mem_cons.mp h with rfl | h
    · exact Or.inr (Or.inl rfl)
    · exact Or.inl h

/-- A character that is no part of a number makes no number, and one that stands alone is no
operator. -/
theorem of_ofChar_eq {c : Char} {token : Token} (h : Token.ofChar c = token) :
    (∀ text, token ≠ .number text) ∧ ∀ d, token = .unknown d → isOperator d = false := by
  unfold Token.ofChar at h
  split_ifs at h with hleft hright hoperator <;> subst h
  · exact ⟨fun _ h => (by cases h), fun _ h => (by cases h)⟩
  · exact ⟨fun _ h => (by cases h), fun _ h => (by cases h)⟩
  · exact ⟨fun _ h => (by cases h), fun _ h => (by cases h)⟩
  · refine ⟨fun _ h => (by cases h), fun d h => ?_⟩
    cases h
    exact Bool.eq_false_iff.mpr hoperator

/-- Numbers are made of characters of numbers, and other characters that stand alone are no
operators. -/
theorem of_mem_scan {previous : Option Char} {input : List Char} {token : Token}
    (h : token ∈ scan previous input) :
    (∀ text, token = .number text → ∀ c ∈ text.toList, IsNumeralChar c) ∧
      ∀ c, token = .unknown c → isOperator c = false := by
  induction input generalizing previous token with
  | nil => cases h
  | cons c rest ih =>
    rw [scan] at h
    split_ifs at h with hnumeral
    · have hc : IsNumeralChar c := by
        simp only [isNumeral, Bool.or_eq_true, Bool.and_eq_true, beq_iff_eq] at hnumeral
        rcases hnumeral with (hdigit | hpoint) | ⟨hplus, -⟩
        · exact Or.inl hdigit
        · exact Or.inr (Or.inl hpoint)
        · exact Or.inr (Or.inr hplus)
      rcases mem_consNumeral h with h | rfl | ⟨behind, hbehind, rfl⟩
      · exact ih h
      · refine ⟨fun text htext d hd => ?_, fun d hd => by cases hd⟩
        cases htext
        rw [String.toList_singleton, List.mem_singleton] at hd
        exact hd ▸ hc
      · refine ⟨fun text htext d hd => ?_, fun d hd => by cases hd⟩
        cases htext
        rw [String.toList_append, String.toList_singleton, List.singleton_append] at hd
        rcases List.mem_cons.mp hd with rfl | hd
        · exact hc
        · exact (ih hbehind).1 behind rfl d hd
    · rcases List.mem_cons.mp h with htoken | h
      · obtain ⟨hnumber, hunknown⟩ := of_ofChar_eq htoken.symm
        exact ⟨fun text htext => absurd htext (hnumber text), hunknown⟩
      · exact ih h

/-- Taking a sign off leaves a part of the text, and a minus has been there. -/
theorem splitSign_spec (text : List Char) : (Binary64.splitSign text).2 ⊆ text ∧
    ((Binary64.splitSign text).1 = true → '-' ∈ text) := by
  unfold Binary64.splitSign
  split
  · exact ⟨List.subset_cons_self .., fun _ => List.mem_cons_self ..⟩
  · exact ⟨List.subset_cons_self .., fun h => by cases h⟩
  · exact ⟨fun _ h => h, fun h => by cases h⟩

/-- Characters of numbers make no word. -/
theorem readWord?_of_isNumeralChar {text : List Char} (h : ∀ c ∈ text, IsNumeralChar c) :
    Binary64.readWord? false text = none := by
  have hlower : text.map Char.toLower = text := by
    refine (List.map_congr_left fun c hc => ?_).trans (List.map_id _)
    rcases h c hc with hdigit | hpoint | rfl
    · exact Numeral.toLower_eq_self (Or.inl hdigit)
    · exact Numeral.toLower_eq_self (Or.inr hpoint)
    · rfl
  have hne : ∀ word : String, 'n' ∈ word.toList → String.ofList (text.map Char.toLower) ≠ word := by
    rintro word hmem rfl
    rw [String.toList_ofList, hlower] at hmem
    rcases h 'n' hmem with hdigit | hpoint | hplus
    · exact absurd hdigit (by decide)
    · exact absurd hpoint (by decide)
    · exact absurd hplus (by decide)
  simp [Binary64.readWord?, hne "inf" (by decide), hne "infinity" (by decide),
    hne "nan" (by decide)]

/-- A single character is no word. -/
theorem readWord?_singleton (c : Char) : Binary64.readWord? false [c] = none := by
  have hne : ∀ word : String, word.toList.length ≠ 1 →
      String.ofList ([c].map Char.toLower) ≠ word := by
    rintro word hlength rfl
    exact hlength (by rw [String.toList_ofList]; rfl)
  simp only [Binary64.readWord?, beq_iff_eq, Bool.or_eq_true, hne "inf" (by decide),
    hne "infinity" (by decide), hne "nan" (by decide), or_self, if_false]

/-- The text of a literal has no minus in front and is no word. -/
theorem splitSign_of_mem_scan {previous : Option Char} {input : List Char} {token : Token}
    (h : token ∈ scan previous input) (hliteral : token.isLiteral = true) :
    (Binary64.splitSign token.text.toList).1 = false ∧
      Binary64.readWord? false (Binary64.splitSign token.text.toList).2 = none := by
  obtain ⟨hnumber, hunknown⟩ := of_mem_scan h
  cases token with
  | number text =>
    have hall := hnumber text rfl
    obtain ⟨hsubset, hminus⟩ := splitSign_spec text.toList
    refine ⟨Bool.eq_false_iff.mpr fun hsign => ?_,
      readWord?_of_isNumeralChar fun c hc => hall c (hsubset hc)⟩
    rcases hall '-' (hminus hsign) with hdigit | hpoint | hplus
    · exact absurd hdigit (by decide)
    · exact absurd hpoint (by decide)
    · exact absurd hplus (by decide)
  | unknown c =>
    have hoperator := hunknown c rfl
    have hminus : c ≠ '-' := by
      rintro rfl
      cases hoperator
    have hplus : c ≠ '+' := by
      rintro rfl
      cases hoperator
    have hsplit : Binary64.splitSign (String.singleton c).toList = (false, [c]) := by
      rw [String.toList_singleton]
      simp [Binary64.splitSign, hminus, hplus]
    rw [Token.text, hsplit]
    exact ⟨rfl, readWord?_singleton c⟩
  | operator c => cases hliteral
  | leftParenthesis => cases hliteral
  | rightParenthesis => cases hliteral

/-- The literals of the graph of a formula are stored as they are. -/
theorem stored?_of_compile {input : String} {graph : TaskGraph} (h : compile input = .ok graph)
    {node : Node} (hnode : node ∈ graph.nodes) {slot : Slot} {value : Binary64}
    (hvalue : node.args.get slot = some value) : value.stored? = some value := by
  obtain ⟨-, items, text, hitems, htext, hread⟩ := literal_of_compile h hnode hvalue
  obtain ⟨harrange, -⟩ := toPostfix_eq_ok_iff.mp hitems
  obtain ⟨front, waiting, hwrites, rfl⟩ := arrange_eq_ok_iff.mp harrange
  obtain ⟨token, htoken, hliteral, rfl⟩ := (hwrites.literal_mem_all text).mp htext
  obtain ⟨hsign, hword⟩ := splitSign_of_mem_scan htoken hliteral
  exact Binary64.stored?_of_ofText? hsign hword hread

end Formula

end Reckoner
