import Mathlib.Data.List.TakeWhile
import Reckoner.Number.Literal

/-!
# Numerals

A numeral is an optional plus, digits, and at most one point, with at least one digit in all. Every
numeral is read as a number, and the number is the one that its digits and its point denote.
-/

namespace Reckoner.Formula

/-- A number as it may be written in a formula. -/
structure Numeral where
  /-- Whether a plus stands in front. -/
  signed : Bool
  /-- The digits before the point. -/
  whole : List Char
  /-- The digits behind the point, if there is a point. -/
  fraction : Option (List Char)
  /-- Nothing else is written but digits. -/
  isDigit_of_mem : ∀ c ∈ whole ++ fraction.getD [], c.isDigit = true
  /-- There is a digit on one side of the point. -/
  ne_nil : whole ++ fraction.getD [] ≠ []

namespace Numeral

/-- The digits, and the point if there is one. -/
def body (n : Numeral) : List Char := n.whole ++ n.fraction.elim [] ('.' :: ·)

/-- The numeral as it is written. -/
def text (n : Numeral) : List Char := if n.signed then '+' :: n.body else n.body

/-- The number that the digits denote, the point taken into account. -/
def value (n : Numeral) : Binary64 :=
  .ofDecimal false (digitsValue (n.whole ++ n.fraction.getD [])) (-(n.fraction.getD []).length)

/-- Digits and points are all that the body is made of. -/
theorem mem_body {n : Numeral} {c : Char} (h : c ∈ n.body) : c.isDigit = true ∨ c = '.' := by
  simp only [body, List.mem_append] at h
  rcases h with h | h
  · exact Or.inl (n.isDigit_of_mem c (List.mem_append_left _ h))
  · cases hf : n.fraction with
    | none => simp [hf] at h
    | some digits =>
      simp only [hf, Option.elim_some, List.mem_cons] at h
      rcases h with rfl | h
      · exact Or.inr rfl
      · exact Or.inl (n.isDigit_of_mem c (by simp [hf, h]))

/-- The body is never empty. -/
theorem body_ne_nil (n : Numeral) : n.body ≠ [] := by
  intro h
  obtain ⟨hw, hf⟩ := List.append_eq_nil_iff.mp h
  apply n.ne_nil
  cases hfr : n.fraction with
  | none => simp [hw]
  | some digits => simp [hfr] at hf

/-! ## Reading a numeral -/

/-- A digit or a point is no sign. -/
private theorem ne_sign {c : Char} (h : c.isDigit = true ∨ c = '.') : c ≠ '-' ∧ c ≠ '+' := by
  constructor
  · rintro rfl; simp at h
  · rintro rfl; simp at h

/-- The sign is taken off and the body is left. -/
theorem splitSign_text (n : Numeral) : Binary64.splitSign n.text = (false, n.body) := by
  cases hs : n.signed with
  | true => simp [text, hs, Binary64.splitSign]
  | false =>
    simp only [text, hs]
    cases hb : n.body with
    | nil => exact absurd hb n.body_ne_nil
    | cons c rest =>
      have hc : c.isDigit = true ∨ c = '.' := n.mem_body (by simp [hb])
      simp [Binary64.splitSign, ne_sign hc]

/-- Lowering the case leaves digits and points alone. -/
theorem toLower_eq_self {c : Char} (h : c.isDigit = true ∨ c = '.') : c.toLower = c := by
  rcases h with h | rfl
  · simp only [Char.isDigit, Bool.and_eq_true, decide_eq_true_eq] at h
    have hupper : ¬ (c.val ≥ 65 ∧ c.val ≤ 90) := by
      rintro ⟨hc, -⟩
      exact absurd (UInt32.le_trans hc h.2) (by decide)
    exact dif_neg hupper
  · rfl

/-- A numeral is none of the words for numbers that are not finite. -/
theorem readWord?_body (n : Numeral) (negative : Bool) :
    Binary64.readWord? negative n.body = none := by
  have hlower : n.body.map Char.toLower = n.body :=
    (List.map_congr_left fun c hc => toLower_eq_self (n.mem_body hc)).trans (List.map_id _)
  have hne (word : String) (c : Char) (hmem : c ∈ word.toList)
      (hdigit : c.isDigit = false) (hpoint : c ≠ '.') :
      String.ofList (n.body.map Char.toLower) ≠ word := by
    rintro rfl
    rw [String.toList_ofList, hlower] at hmem
    rcases n.mem_body hmem with h | h
    · simp [h] at hdigit
    · exact hpoint h
  have hinf := hne "inf" 'n' (by simp) (by decide) (by decide)
  have hinfinity := hne "infinity" 'n' (by simp) (by decide) (by decide)
  have hnan := hne "nan" 'n' (by simp) (by decide) (by decide)
  simp [Binary64.readWord?, hinf, hinfinity, hnan]

/-- The decimal reader finds the digits on both sides of the point and no exponent. -/
theorem readDecimal?_body (n : Numeral) : Binary64.readDecimal? false n.body = some n.value := by
  have hwhole : ∀ c ∈ n.whole, c.isDigit = true :=
    fun c hc => n.isDigit_of_mem c (List.mem_append_left _ hc)
  have htake : n.body.takeWhile Char.isDigit = n.whole := by
    rw [body, List.takeWhile_append_of_pos hwhole]
    cases n.fraction <;> simp
  have hdrop : n.body.dropWhile Char.isDigit = n.fraction.elim [] ('.' :: ·) := by
    rw [body, List.dropWhile_append_of_pos hwhole]
    cases n.fraction <;> simp
  have hnonempty := n.ne_nil
  unfold Binary64.readDecimal?
  rw [htake, hdrop]
  cases hf : n.fraction with
  | none =>
    simp only [hf, Option.getD_none, List.append_nil] at hnonempty
    simp [hnonempty, Binary64.readExponent?, value, hf]
  | some digits =>
    have hfraction : ∀ c ∈ digits, c.isDigit = true :=
      fun c hc => n.isDigit_of_mem c (by simp [hf, hc])
    have htakeAll : digits.takeWhile Char.isDigit = digits :=
      List.takeWhile_eq_self_iff.mpr hfraction
    have hdropAll : digits.dropWhile Char.isDigit = [] := List.dropWhile_eq_nil_iff.mpr hfraction
    simp only [hf, Option.getD_some, ne_eq, List.append_eq_nil_iff] at hnonempty
    simp [htakeAll, hdropAll, hnonempty, Binary64.readExponent?, value, hf]

/-- Every numeral is read as the number that it denotes. -/
theorem ofText?_text (n : Numeral) :
    Binary64.ofText? (String.ofList n.text) = some n.value := by
  simp only [Binary64.ofText?, String.toList_ofList, n.splitSign_text, n.readWord?_body,
    n.readDecimal?_body, Option.none_or]

end Numeral

end Reckoner.Formula
