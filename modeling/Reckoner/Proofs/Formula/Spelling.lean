import Mathlib.Tactic.Common
import Reckoner.Formula.Token
import Reckoner.Proofs.Formula.Numeral

/-!
# From characters to tokens

The scan looks back at one character, so what a text is scanned into depends on what stands before
it. `Spells` frees a text of its surroundings: wherever an operand may begin, it is scanned into the
same tokens. Spelled texts are put together as operands are.
-/

namespace Reckoner.Formula

/-- The text goes on with something that no number goes on with. -/
def EndsNumber (rest : List Char) : Prop := ∀ c ∈ rest.head?, c.isDigit = false ∧ c ≠ '.'

/-- Wherever an operand may begin, the text is scanned into the tokens; behind it no operand may
begin. -/
def Spells (text : List Char) (tokens : List Token) : Prop :=
  ∃ last : Char, isSignPosition (some last) = false ∧
    ∀ previous rest, isSignPosition previous = true → EndsNumber rest →
      scan previous (text ++ rest) = tokens ++ scan (some last) rest

/-! ## Single characters -/

/-- An operator character is neither a digit nor a point nor a parenthesis. -/
theorem isOperator_cases {c : Char} (h : isOperator c = true) :
    c.isDigit = false ∧ c ≠ '.' ∧ c ≠ '(' ∧ c ≠ ')' := by
  simp only [isOperator, Bool.or_eq_true, beq_iff_eq] at h
  rcases h with (((rfl | rfl) | rfl) | rfl) | rfl <;> decide

/-- A character that belongs to no number is a token of its own. -/
theorem scan_cons_of_not_isNumeral {previous : Option Char} {c : Char} (rest : List Char)
    (h : isNumeral previous c = false) :
    scan previous (c :: rest) = Token.ofChar c :: scan (some c) rest := by
  simp [scan, h]

/-- A character of a number is put in front of what follows. -/
theorem scan_cons_of_isNumeral {previous : Option Char} {c : Char} (rest : List Char)
    (h : isNumeral previous c = true) :
    scan previous (c :: rest) = Token.consNumeral c (scan (some c) rest) := by
  simp [scan, h]

/-- Behind an operand every operator character is an operator, the plus included. -/
theorem scan_operator {last c : Char} (rest : List Char)
    (hlast : isSignPosition (some last) = false) (hc : isOperator c = true) :
    scan (some last) (c :: rest) = .operator c :: scan (some c) rest := by
  obtain ⟨hdigit, hpoint, hleft, hright⟩ := isOperator_cases hc
  rw [scan_cons_of_not_isNumeral rest (by simp [isNumeral, hdigit, hpoint, hlast])]
  simp [Token.ofChar, hleft, hright, hc]

/-- A minus is an operator everywhere. -/
theorem scan_minus (previous : Option Char) (rest : List Char) :
    scan previous ('-' :: rest) = .operator '-' :: scan (some '-') rest := by
  rw [scan_cons_of_not_isNumeral rest (by simp [isNumeral])]
  rfl

/-- An opening parenthesis is a token of its own. -/
theorem scan_leftParenthesis (previous : Option Char) (rest : List Char) :
    scan previous ('(' :: rest) = .leftParenthesis :: scan (some '(') rest := by
  rw [scan_cons_of_not_isNumeral rest (by simp [isNumeral])]
  rfl

/-- A closing parenthesis is a token of its own. -/
theorem scan_rightParenthesis (previous : Option Char) (rest : List Char) :
    scan previous (')' :: rest) = .rightParenthesis :: scan (some ')') rest := by
  rw [scan_cons_of_not_isNumeral rest (by simp [isNumeral])]
  rfl

/-! ## Numbers -/

/-- A digit or a point is no sign position for what follows. -/
theorem isSignPosition_of_body {c : Char} (h : c.isDigit = true ∨ c = '.') :
    isSignPosition (some c) = false := by
  rcases h with h | rfl
  · have hoperator : isOperator c = false := by
      by_contra hc
      have hdigit := (isOperator_cases (by simpa using hc)).1
      exact Bool.noConfusion (h.symm.trans hdigit)
    have hleft : c ≠ '(' := by rintro rfl; simp at h
    simp [isSignPosition, hoperator, hleft]
  · decide

/-- What is scanned behind the end of a number does not begin with a number. -/
theorem consNumeral_scan {c last : Char} {rest : List Char}
    (hlast : isSignPosition (some last) = false) (hrest : EndsNumber rest) :
    Token.consNumeral c (scan (some last) rest) =
      .number (String.singleton c) :: scan (some last) rest := by
  cases rest with
  | nil => rfl
  | cons d rest =>
    obtain ⟨hdigit, hpoint⟩ := hrest d rfl
    rw [scan_cons_of_not_isNumeral rest (by simp [isNumeral, hdigit, hpoint, hlast])]
    unfold Token.ofChar
    split_ifs <;> rfl

/-- Digits and points run together into one number, up to where the number ends. -/
theorem scan_body {body : List Char} (hbody : ∀ c ∈ body, c.isDigit = true ∨ c = '.')
    (hne : body ≠ []) (previous : Option Char) {rest : List Char} (hrest : EndsNumber rest) :
    scan previous (body ++ rest) =
      .number (String.ofList body) :: scan (some (body.getLast hne)) rest := by
  induction body generalizing previous with
  | nil => exact absurd rfl hne
  | cons c body ih =>
    have hc := hbody c (List.mem_cons_self ..)
    have hnumeral : isNumeral previous c = true := by
      rcases hc with hc | rfl <;> simp [isNumeral, *]
    rw [List.cons_append, scan_cons_of_isNumeral _ hnumeral]
    cases body with
    | nil => exact consNumeral_scan (isSignPosition_of_body hc) hrest
    | cons d body =>
      rw [ih (fun x hx => hbody x (List.mem_cons_of_mem _ hx)) (List.cons_ne_nil d body)]
      simp [Token.consNumeral]

/-- A numeral is scanned into one number token. -/
theorem Numeral.spells (n : Numeral) : Spells n.text [.number (String.ofList n.text)] := by
  have hlast := n.mem_body (List.getLast_mem n.body_ne_nil)
  refine ⟨n.body.getLast n.body_ne_nil, isSignPosition_of_body hlast, ?_⟩
  intro previous rest hprevious hrest
  have hbody (before : Option Char) :=
    scan_body (fun _ hc => n.mem_body hc) n.body_ne_nil before hrest
  cases hs : n.signed with
  | false => simp [text, hs, hbody]
  | true =>
    simp only [text, hs, if_true, List.cons_append]
    rw [scan_cons_of_isNumeral _ (by simp [isNumeral, hprevious]), hbody]
    simp [Token.consNumeral]

/-! ## Operands -/

/-- Two operands around an operator. -/
theorem Spells.binary {left right : List Char} {ls rs : List Token} {c : Char}
    (hl : Spells left ls) (hc : isOperator c = true) (hr : Spells right rs) :
    Spells (left ++ c :: right) (ls ++ .operator c :: rs) := by
  obtain ⟨last, hlast, hscanLeft⟩ := hl
  obtain ⟨final, hfinal, hscanRight⟩ := hr
  obtain ⟨hdigit, hpoint, -, -⟩ := isOperator_cases hc
  refine ⟨final, hfinal, fun previous rest hprevious hrest => ?_⟩
  have hends : EndsNumber (c :: (right ++ rest)) := by
    rintro d ⟨⟩
    exact ⟨hdigit, hpoint⟩
  have hsign : isSignPosition (some c) = true := by simp [isSignPosition, hc]
  rw [List.append_assoc, List.cons_append, hscanLeft previous _ hprevious hends,
    scan_operator _ hlast hc, hscanRight _ rest hsign hrest, List.append_assoc, List.cons_append]

/-- An operand behind a minus. -/
theorem Spells.negate {text : List Char} {tokens : List Token} (h : Spells text tokens) :
    Spells ('-' :: text) (.operator '-' :: tokens) := by
  obtain ⟨last, hlast, hscan⟩ := h
  refine ⟨last, hlast, fun previous rest _ hrest => ?_⟩
  rw [List.cons_append, scan_minus, hscan _ rest rfl hrest, List.cons_append]

/-- An operand in parentheses. -/
theorem Spells.group {text : List Char} {tokens : List Token} (h : Spells text tokens) :
    Spells ('(' :: text ++ [')']) (.leftParenthesis :: tokens ++ [.rightParenthesis]) := by
  obtain ⟨last, -, hscan⟩ := h
  refine ⟨')', rfl, fun previous rest _ _ => ?_⟩
  have hends : EndsNumber (')' :: rest) := by
    rintro d ⟨⟩
    exact ⟨rfl, by decide⟩
  simp only [List.cons_append, List.append_assoc, List.nil_append]
  rw [scan_leftParenthesis, hscan _ _ rfl hends, scan_rightParenthesis]

/-! ## Any text in parentheses -/

/-- A parenthesis behind the tokens does not run together with a number in front of them. -/
theorem consNumeral_append_rightParenthesis (c : Char) (tokens rest : List Token) :
    Token.consNumeral c (tokens ++ .rightParenthesis :: rest) =
      Token.consNumeral c tokens ++ .rightParenthesis :: rest := by
  cases tokens with
  | nil => rfl
  | cons token tokens => cases token <;> rfl

/-- Up to a closing parenthesis a text is scanned as it is alone. -/
theorem scan_append_rightParenthesis (previous : Option Char) (text rest : List Char) :
    scan previous (text ++ ')' :: rest) =
      scan previous text ++ .rightParenthesis :: scan (some ')') rest := by
  induction text generalizing previous with
  | nil => exact scan_rightParenthesis previous rest
  | cons c text ih =>
    rw [List.cons_append]
    cases hc : isNumeral previous c with
    | true =>
      rw [scan_cons_of_isNumeral _ hc, scan_cons_of_isNumeral _ hc, ih,
        consNumeral_append_rightParenthesis]
    | false =>
      rw [scan_cons_of_not_isNumeral _ hc, scan_cons_of_not_isNumeral _ hc, ih, List.cons_append]

/-- A text is scanned alike at the start and behind an opening parenthesis. -/
theorem scan_some_leftParenthesis (text : List Char) : scan (some '(') text = scan none text := by
  cases text with
  | nil => rfl
  | cons c text =>
    have hnumeral : isNumeral (some '(') c = isNumeral none c := rfl
    simp only [scan, hnumeral]

/-- Whatever a text is scanned into alone, it spells in parentheses, be it an operand or not. -/
theorem Spells.enclosed (text : List Char) :
    Spells ('(' :: text ++ [')']) (.leftParenthesis :: scan none text ++ [.rightParenthesis]) := by
  refine ⟨')', rfl, fun previous rest _ _ => ?_⟩
  simp only [List.cons_append, List.append_assoc, List.nil_append]
  rw [scan_leftParenthesis, scan_append_rightParenthesis, scan_some_leftParenthesis]

/-- A formula that spells tokens, with blanks anywhere, is read as these tokens. -/
theorem Spells.tokenize {text : List Char} {tokens : List Token} (h : Spells text tokens)
    {input : String} (hinput : input.toList.filter (fun c => !Text.isBlank c) = text) :
    tokenize input = tokens := by
  obtain ⟨last, -, hscan⟩ := h
  have hends : EndsNumber [] := by rintro d ⟨⟩
  have hall := hscan none [] rfl hends
  rw [Formula.tokenize, hinput]
  simpa [scan] using hall

end Reckoner.Formula
