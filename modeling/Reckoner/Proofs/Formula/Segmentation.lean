import Mathlib.Data.List.Chain
import Reckoner.Proofs.Formula.Spelling

/-!
# The tokens of a formula as segments of its text

Laid end to end, the tokens of a formula are the formula without its blanks. Which token a character
belongs to depends on the character and on the one before it, and numbers are as long as they can
be. This leaves one list of tokens for every text, so a formula may be written back from its tokens
and is read again as they are.

The scan looks at one character at a time, and so do the proofs: what is shown of a list of tokens
is shown of a character of a number put in front of it, and of any other character as a token of its
own.
-/

namespace Reckoner.Formula

/-- Whether a token is a number. -/
def Token.isNumber : Token → Bool
  | number _ => true
  | _ => false

/-- The token that a character belongs to, given by its place in the text of the tokens. -/
def tokenAt? : List Token → Nat → Option Token
  | [], _ => none
  | token :: rest, k =>
    if k < token.text.length then some token else tokenAt? rest (k - token.text.length)

/-- The text of a number is made of plus signs, and of digits and points behind them. -/
def IsSigned (text : String) : Prop :=
  ∃ signs body, text.toList = List.replicate signs '+' ++ body ∧
    ∀ c ∈ body, c.isDigit = true ∨ c = '.'

/-- The tokens of a text without blanks: they make it up, and each character of it belongs to the
token that it should. -/
structure Segments (text : List Char) (tokens : List Token) : Prop where
  /-- Laid end to end, the tokens are the text. -/
  join_eq : String.join (tokens.map Token.text) = String.ofList text
  /-- No two numbers stand side by side. -/
  apart : tokens.IsChain fun left right => left.isNumber = true → right.isNumber = false
  number : ∀ numeral, .number numeral ∈ tokens → numeral ≠ "" ∧ IsSigned numeral
  digit : ∀ k c, text[k]? = some c → c.isDigit = true ∨ c = '.' →
    ∃ number, tokenAt? tokens k = some (.number number)
  operator : ∀ k c, text[k]? = some c → c = '-' ∨ c = '*' ∨ c = '/' ∨ c = '^' →
    tokenAt? tokens k = some (.operator c)
  /-- A plus belongs to a number at the start, behind an operator character and behind an opening
  parenthesis. -/
  plus : ∀ k, text[k]? = some '+' → ((∃ number, tokenAt? tokens k = some (.number number)) ↔
    k = 0 ∨ ∃ previous, text[k - 1]? = some previous ∧
      (isOperator previous = true ∨ previous = '('))
  /-- Elsewhere a plus is an operator. -/
  plus_operator : ∀ k, text[k]? = some '+' →
    (∃ number, tokenAt? tokens k = some (.number number)) ∨
      tokenAt? tokens k = some (.operator '+')
  /-- Every other character is a token of its own. -/
  other : ∀ k c, text[k]? = some c → c.isDigit = false → c ≠ '.' → isOperator c = false →
    tokenAt? tokens k = some (.ofChar c)

/-! ## Putting a character in front -/

/-- A token is a number if it has the form of one. -/
theorem Token.isNumber_iff {token : Token} :
    token.isNumber = true ↔ ∃ number, token = .number number := by
  cases token <;> simp [isNumber]

/-- A character that belongs to no number is the text of its token. -/
@[simp] theorem Token.text_ofChar (c : Char) : (Token.ofChar c).text = String.singleton c := by
  unfold ofChar
  split_ifs with hleft hright
  · rw [beq_iff_eq] at hleft
    rw [hleft]
    rfl
  · rw [beq_iff_eq] at hright
    rw [hright]
    rfl
  · rfl
  · rfl

/-- A character that belongs to no number makes none. -/
@[simp] theorem Token.isNumber_ofChar (c : Char) : (Token.ofChar c).isNumber = false := by
  unfold ofChar
  split_ifs <;> rfl

/-- A number is not the token of a character that belongs to none. -/
theorem Token.number_ne_ofChar (number : String) (c : Char) : Token.number number ≠ .ofChar c := by
  intro h
  have hnumber := congrArg isNumber h
  rw [isNumber_ofChar] at hnumber
  cases hnumber

/-- A character in front makes a number longer by one. -/
theorem Token.length_text_number (c : Char) (number : String) :
    (Token.number (String.singleton c ++ number)).text.length =
      (Token.number number).text.length + 1 := by
  simp [Token.text, Nat.add_comm]

/-- A token that is no number is read from one character. -/
theorem Token.exists_text_eq {token : Token} (h : token.isNumber = false) :
    ∃ c, token.text = String.singleton c := by
  cases token with
  | number text => cases h
  | operator c | unknown c => exact ⟨c, rfl⟩
  | leftParenthesis => exact ⟨'(', rfl⟩
  | rightParenthesis => exact ⟨')', rfl⟩

/-- A character of a number goes into the number behind it, or else becomes one. -/
theorem consNumeral_cases (c : Char) (tokens : List Token) :
    (∃ text rest, tokens = .number text :: rest ∧
      Token.consNumeral c tokens = .number (String.singleton c ++ text) :: rest) ∨
    ((∀ token ∈ tokens.head?, token.isNumber = false) ∧
      Token.consNumeral c tokens = .number (String.singleton c) :: tokens) := by
  cases tokens with
  | nil => exact Or.inr ⟨fun _ h => (by cases h), rfl⟩
  | cons token rest =>
    cases token with
    | number text => exact Or.inl ⟨text, rest, rfl, rfl⟩
    | operator | leftParenthesis | rightParenthesis | unknown =>
      refine Or.inr ⟨fun token h => ?_, rfl⟩
      cases h
      rfl

/-! ## Tokens end to end -/

/-- Tokens that make up a text: none of the numbers is empty, and no two stand side by side. -/
structure EndToEnd (text : List Char) (tokens : List Token) : Prop where
  flatMap_eq : tokens.flatMap (·.text.toList) = text
  apart : tokens.IsChain fun left right => left.isNumber = true → right.isNumber = false
  ne_empty : ∀ number, .number number ∈ tokens → number ≠ ""

namespace EndToEnd

variable {c : Char} {text : List Char} {tokens : List Token}

/-- What stands behind the first token makes up a text as well. -/
theorem tail {token : Token} (h : EndToEnd text (token :: tokens)) :
    EndToEnd (tokens.flatMap (·.text.toList)) tokens where
  flatMap_eq := rfl
  apart := (List.isChain_cons.mp h.apart).2
  ne_empty number hmem := h.ne_empty number (List.mem_cons_of_mem _ hmem)

/-- No token is empty. -/
theorem text_ne_empty {token : Token} (h : EndToEnd text (token :: tokens)) :
    token.text ≠ "" := by
  cases htoken : token.isNumber with
  | true =>
    obtain ⟨number, rfl⟩ := Token.isNumber_iff.mp htoken
    exact h.ne_empty number (List.mem_cons_self ..)
  | false =>
    obtain ⟨c, hc⟩ := Token.exists_text_eq htoken
    simp [hc]

/-- A character that is a token of its own may stand in front of any others. -/
theorem ofChar (h : EndToEnd text tokens) (c : Char) :
    EndToEnd (c :: text) (Token.ofChar c :: tokens) where
  flatMap_eq := by simp [h.flatMap_eq]
  apart := h.apart.cons fun _ _ hnumber => by simp at hnumber
  ne_empty number hmem := by
    rcases List.mem_cons.mp hmem with heq | hmem
    · exact absurd heq (Token.number_ne_ofChar number c)
    · exact h.ne_empty number hmem

/-- A character of a number in front makes the first number longer, or a new one. -/
theorem consNumeral (h : EndToEnd text tokens) (c : Char) :
    EndToEnd (c :: text) (Token.consNumeral c tokens) := by
  obtain ⟨number, rest, rfl, hcons⟩ | ⟨hhead, hcons⟩ := consNumeral_cases c tokens
  · rw [hcons]
    refine ⟨?_, h.apart.imp_head fun hnext _ => hnext rfl, fun other hmem => ?_⟩
    · rw [← h.flatMap_eq]
      simp [Token.text]
    · rcases List.mem_cons.mp hmem with heq | hmem
      · cases heq
        simp
      · exact h.ne_empty other (List.mem_cons_of_mem _ hmem)
  · rw [hcons]
    refine ⟨?_, h.apart.cons fun token htoken _ => hhead token htoken, fun other hmem => ?_⟩
    · rw [← h.flatMap_eq]
      simp [Token.text]
    · rcases List.mem_cons.mp hmem with heq | hmem
      · cases heq
        simp
      · exact h.ne_empty other hmem

/-- The first character of a number has been put in front of other tokens. -/
theorem exists_consNumeral {number : String} (h : EndToEnd (c :: text) (.number number :: tokens)) :
    ∃ others, .number number :: tokens = Token.consNumeral c others ∧ EndToEnd text others := by
  have hflat := h.flatMap_eq
  have hne := h.ne_empty number (List.mem_cons_self ..)
  obtain ⟨hhead, hapart⟩ := List.isChain_cons.mp h.apart
  rw [List.flatMap_cons] at hflat
  cases hnumber : number.toList with
  | nil => exact absurd (String.toList_eq_nil_iff.mp hnumber) hne
  | cons d body =>
    simp only [Token.text, hnumber, List.cons_append, List.cons.injEq] at hflat
    obtain ⟨rfl, rfl⟩ := hflat
    have hsplit : number = String.singleton d ++ String.ofList body := by
      rw [← String.toList_inj, hnumber]
      simp
    cases body with
    | nil =>
      refine ⟨tokens, ?_, h.tail⟩
      obtain ⟨other, rest, rfl, -⟩ | ⟨-, hcons⟩ := consNumeral_cases d tokens
      · exact absurd (hhead (.number other) rfl rfl) (by simp [Token.isNumber])
      · rw [hcons, hsplit]
        simp
    | cons e body =>
      refine ⟨.number (String.ofList (e :: body)) :: tokens, by rw [hsplit]; rfl, ?_, ?_, ?_⟩
      · simp [Token.text]
      · exact hapart.cons fun token htoken _ => hhead token htoken rfl
      · intro other hmem
        rcases List.mem_cons.mp hmem with heq | hmem
        · cases heq
          simp
        · exact h.tail.ne_empty other hmem

end EndToEnd

/-- The tokens that a text is scanned into make up the text. -/
theorem endToEnd_scan (previous : Option Char) (text : List Char) :
    EndToEnd text (scan previous text) := by
  induction text generalizing previous with
  | nil => exact ⟨rfl, .nil, fun _ h => (by cases h)⟩
  | cons c text ih =>
    rw [scan]
    split_ifs
    · exact (ih (some c)).consNumeral c
    · exact (ih (some c)).ofChar c

/-! ## The token of a character -/

/-- The character before the one at a place, in a text that stands behind `previous`. -/
def before (previous : Option Char) (text : List Char) : Nat → Option Char
  | 0 => previous
  | k + 1 => text[k]?

/-- A character that stands behind `previous` has the token that it asks for at a place. -/
def CoveredAt (tokens : List Token) (k : Nat) (previous : Option Char) (c : Char) : Prop :=
  if isNumeral previous c then ∃ number, tokenAt? tokens k = some (.number number)
  else tokenAt? tokens k = some (.ofChar c)

/-- The characters of a text that stands behind `previous` have the tokens that they ask for. -/
def Covers (previous : Option Char) (text : List Char) (tokens : List Token) : Prop :=
  ∀ k c, text[k]? = some c → CoveredAt tokens k (before previous text k) c

/-- The characters of the first token belong to it. -/
theorem tokenAt?_cons_of_lt {token : Token} {k : Nat} (h : k < token.text.length)
    (rest : List Token) : tokenAt? (token :: rest) k = some token := if_pos h

/-- Behind the first token come the others. -/
theorem tokenAt?_cons_add {token : Token} {k : Nat} (h : token.text.length ≤ k)
    (rest : List Token) :
    tokenAt? (token :: rest) k = tokenAt? rest (k - token.text.length) :=
  if_neg (Nat.not_lt_of_le h)

/-- The first character of a text and those behind it. -/
theorem covers_cons {previous : Option Char} {c : Char} {text : List Char} {tokens : List Token} :
    Covers previous (c :: text) tokens ↔ CoveredAt tokens 0 previous c ∧
      ∀ k d, text[k]? = some d → CoveredAt tokens (k + 1) (before (some c) text k) d := by
  have hbefore (k : Nat) : before previous (c :: text) (k + 1) = before (some c) text k := by
    cases k <;> rfl
  constructor
  · intro h
    refine ⟨h 0 c rfl, fun k d hd => ?_⟩
    rw [← hbefore]
    exact h (k + 1) d hd
  · rintro ⟨hfirst, hrest⟩ k d hd
    cases k with
    | zero =>
      cases hd
      exact hfirst
    | succ k =>
      rw [hbefore]
      exact hrest k d hd

/-- A character of a number asks for a number. -/
theorem coveredAt_of_isNumeral {tokens : List Token} {k : Nat} {previous : Option Char} {c : Char}
    (h : isNumeral previous c = true) :
    CoveredAt tokens k previous c ↔ ∃ number, tokenAt? tokens k = some (.number number) := by
  rw [CoveredAt, if_pos h]

/-- Any other character asks for its own token. -/
theorem coveredAt_of_not_isNumeral {tokens : List Token} {k : Nat} {previous : Option Char}
    {c : Char} (h : isNumeral previous c = false) :
    CoveredAt tokens k previous c ↔ tokenAt? tokens k = some (.ofChar c) := by
  rw [CoveredAt, h]
  rfl

/-- Where a number is, it is what the character asks for if that is one of a number. -/
theorem coveredAt_number_iff {tokens : List Token} {k : Nat} {number : String}
    (h : tokenAt? tokens k = some (.number number)) {previous : Option Char} {c : Char} :
    CoveredAt tokens k previous c ↔ isNumeral previous c = true := by
  cases hnumeral : isNumeral previous c with
  | true => simp [coveredAt_of_isNumeral hnumeral, h]
  | false => simp [coveredAt_of_not_isNumeral hnumeral, h, Token.number_ne_ofChar]

/-- Only a character of a number belongs to one. -/
theorem CoveredAt.number_iff {tokens : List Token} {k : Nat} {previous : Option Char} {c : Char}
    (h : CoveredAt tokens k previous c) :
    (∃ number, tokenAt? tokens k = some (.number number)) ↔ isNumeral previous c = true := by
  constructor
  · rintro ⟨number, hnumber⟩
    exact (coveredAt_number_iff hnumber).mp h
  · intro hnumeral
    exact (coveredAt_of_isNumeral hnumeral).mp h

/-- A character that is a token of its own asks for no other. -/
theorem coveredAt_ofChar_zero {previous : Option Char} {c : Char} (tokens : List Token)
    (hnumeral : isNumeral previous c = false) : CoveredAt (.ofChar c :: tokens) 0 previous c :=
  (coveredAt_of_not_isNumeral hnumeral).mpr (tokenAt?_cons_of_lt (by simp) tokens)

/-- A character that is a token of its own is followed by the others. -/
theorem coveredAt_ofChar_succ {c d : Char} {tokens : List Token} {k : Nat}
    {previous : Option Char} :
    CoveredAt (.ofChar c :: tokens) (k + 1) previous d ↔ CoveredAt tokens k previous d := by
  unfold CoveredAt
  rw [tokenAt?_cons_add (by simp)]
  simp

/-- A character of a number that is put in front belongs to a number. -/
theorem coveredAt_consNumeral_zero {previous : Option Char} {c : Char} (tokens : List Token)
    (hnumeral : isNumeral previous c = true) :
    CoveredAt (Token.consNumeral c tokens) 0 previous c := by
  rw [coveredAt_of_isNumeral hnumeral]
  obtain ⟨number, rest, -, hcons⟩ | ⟨-, hcons⟩ := consNumeral_cases c tokens
  · have hpos : 0 < (Token.number (String.singleton c ++ number)).text.length := by
      rw [Token.length_text_number]
      omega
    rw [hcons]
    exact ⟨_, tokenAt?_cons_of_lt hpos rest⟩
  · rw [hcons]
    exact ⟨_, tokenAt?_cons_of_lt (by simp [Token.text]) tokens⟩

/-- Putting a character of a number in front leaves the others what they are. -/
theorem coveredAt_consNumeral_succ {c d : Char} {tokens : List Token} {k : Nat}
    {previous : Option Char} :
    CoveredAt (Token.consNumeral c tokens) (k + 1) previous d ↔
      CoveredAt tokens k previous d := by
  obtain ⟨number, rest, rfl, hcons⟩ | ⟨-, hcons⟩ := consNumeral_cases c tokens
  · have hlength := Token.length_text_number c number
    rw [hcons]
    obtain hlt | hle := Nat.lt_or_ge k (Token.number number).text.length
    · have hlong : k + 1 < (Token.number (String.singleton c ++ number)).text.length := by omega
      rw [coveredAt_number_iff (tokenAt?_cons_of_lt hlong rest),
        coveredAt_number_iff (tokenAt?_cons_of_lt hlt rest)]
    · have hlong : (Token.number (String.singleton c ++ number)).text.length ≤ k + 1 := by omega
      unfold CoveredAt
      rw [tokenAt?_cons_add hlong, tokenAt?_cons_add hle, hlength, Nat.add_sub_add_right]
  · unfold CoveredAt
    rw [hcons, tokenAt?_cons_add (by simp [Token.text])]
    simp [Token.text]

/-- The tokens that a text is scanned into are those that its characters ask for. -/
theorem covers_scan (previous : Option Char) (text : List Char) :
    Covers previous text (scan previous text) := by
  induction text generalizing previous with
  | nil => exact fun _ _ h => by cases h
  | cons c text ih =>
    rw [scan, covers_cons]
    cases hnumeral : isNumeral previous c with
    | true =>
      simp only [if_true]
      exact ⟨coveredAt_consNumeral_zero _ hnumeral, fun k d hd =>
        coveredAt_consNumeral_succ.mpr (ih (some c) k d hd)⟩
    | false =>
      simp only [Bool.false_eq_true, if_false]
      exact ⟨coveredAt_ofChar_zero _ hnumeral, fun k d hd =>
        coveredAt_ofChar_succ.mpr (ih (some c) k d hd)⟩

/-- A text has one list of tokens that make it up and that its characters ask for. -/
theorem EndToEnd.eq_scan {previous : Option Char} {text : List Char} {tokens : List Token}
    (h : EndToEnd text tokens) (hcovers : Covers previous text tokens) :
    tokens = scan previous text := by
  induction text generalizing previous tokens with
  | nil =>
    cases tokens with
    | nil => rfl
    | cons token rest =>
      have hnil := (List.append_eq_nil_iff.mp h.flatMap_eq).1
      exact absurd (String.toList_eq_nil_iff.mp hnil) h.text_ne_empty
  | cons c text ih =>
    obtain ⟨hfirst, hrest⟩ := covers_cons.mp hcovers
    cases tokens with
    | nil => cases h.flatMap_eq
    | cons token rest =>
      have hpos : 0 < token.text.length :=
        Nat.pos_of_ne_zero fun hzero => h.text_ne_empty (String.length_eq_zero_iff.mp hzero)
      rw [scan]
      cases hnumeral : isNumeral previous c with
      | true =>
        rw [coveredAt_of_isNumeral hnumeral, tokenAt?_cons_of_lt hpos] at hfirst
        obtain ⟨number, hnumber⟩ := hfirst
        obtain rfl := Option.some.inj hnumber
        obtain ⟨others, heq, hothers⟩ := h.exists_consNumeral
        rw [heq] at hrest ⊢
        rw [ih hothers fun k d hd => coveredAt_consNumeral_succ.mp (hrest k d hd)]
        rfl
      | false =>
        rw [coveredAt_of_not_isNumeral hnumeral, tokenAt?_cons_of_lt hpos] at hfirst
        obtain rfl := Option.some.inj hfirst
        have htail : EndToEnd text rest := by
          have hflat := h.flatMap_eq
          simp only [List.flatMap_cons, Token.text_ofChar, String.toList_singleton,
            List.singleton_append, List.cons.injEq, true_and] at hflat
          exact hflat ▸ h.tail
        rw [ih htail fun k d hd => coveredAt_ofChar_succ.mp (hrest k d hd)]
        rfl

/-! ## Signs of numbers -/

/-- Digits and points make a number without signs. -/
theorem IsSigned.of_body {number : String}
    (h : ∀ c ∈ number.toList, c.isDigit = true ∨ c = '.') : IsSigned number :=
  ⟨0, number.toList, rfl, h⟩

/-- One more plus may stand in front. -/
theorem IsSigned.plus {number : String} (h : IsSigned number) :
    IsSigned (String.singleton '+' ++ number) := by
  obtain ⟨signs, body, hnumber, hbody⟩ := h
  refine ⟨signs + 1, body, ?_, hbody⟩
  rw [String.toList_append, hnumber]
  rfl

/-- A character of a number is a digit or a point, or a plus in a sign position. -/
theorem isNumeral_cases {previous : Option Char} {c : Char} (h : isNumeral previous c = true) :
    (c.isDigit = true ∨ c = '.') ∨ c = '+' ∧ isSignPosition previous = true := by
  simpa [isNumeral] using h

/-- The signs of a number come first, and a number that begins in no sign position has none. -/
theorem isSigned_of_scan (previous : Option Char) (text : List Char) :
    (∀ number, .number number ∈ scan previous text → IsSigned number) ∧
      (isSignPosition previous = false → ∀ number rest,
        scan previous text = .number number :: rest →
          ∀ c ∈ number.toList, c.isDigit = true ∨ c = '.') := by
  induction text generalizing previous with
  | nil => exact ⟨fun _ h => (by cases h), fun _ _ _ h => by cases h⟩
  | cons c text ih =>
    obtain ⟨hsigned, hunsigned⟩ := ih (some c)
    cases hnumeral : isNumeral previous c with
    | false =>
      rw [scan_cons_of_not_isNumeral text hnumeral]
      refine ⟨fun number hmem => ?_, fun _ number rest heq => ?_⟩
      · rcases List.mem_cons.mp hmem with heq | hmem
        · exact absurd heq (Token.number_ne_ofChar number c)
        · exact hsigned number hmem
      · exact absurd (List.cons.inj heq).1.symm (Token.number_ne_ofChar number c)
    | true =>
      rw [scan_cons_of_isNumeral text hnumeral]
      -- what the character is put in front of is a number, or an empty one
      obtain ⟨behind, rest, hcons, hbehind, hbody, hrest⟩ : ∃ behind rest,
          Token.consNumeral c (scan (some c) text) =
            .number (String.singleton c ++ behind) :: rest ∧
          IsSigned behind ∧
          (c.isDigit = true ∨ c = '.' → ∀ d ∈ behind.toList, d.isDigit = true ∨ d = '.') ∧
          ∀ number, .number number ∈ rest → IsSigned number := by
        obtain ⟨behind, rest, hscan, hcons⟩ | ⟨-, hcons⟩ :=
          consNumeral_cases c (scan (some c) text)
        · rw [hscan] at hsigned
          exact ⟨behind, rest, hcons, hsigned behind (List.mem_cons_self ..),
            fun hc => hunsigned (isSignPosition_of_body hc) behind rest hscan,
            fun number hmem => hsigned number (List.mem_cons_of_mem _ hmem)⟩
        · exact ⟨"", _, by simpa using hcons, .of_body (by simp), by simp, hsigned⟩
      have hall (hc : c.isDigit = true ∨ c = '.') :
          ∀ d ∈ (String.singleton c ++ behind).toList, d.isDigit = true ∨ d = '.' := by
        simpa using ⟨hc, hbody hc⟩
      have hcases := isNumeral_cases hnumeral
      rw [hcons]
      refine ⟨fun number hmem => ?_, fun hprevious number others heq => ?_⟩
      · rcases List.mem_cons.mp hmem with heq | hmem
        · cases heq
          obtain hc | ⟨rfl, -⟩ := hcases
          · exact .of_body (hall hc)
          · exact hbehind.plus
        · exact hrest number hmem
      · cases heq
        obtain hc | ⟨-, hsign⟩ := hcases
        · exact hall hc
        · rw [hprevious] at hsign
          cases hsign

/-! ## Formulas and their tokens -/

/-- A plus is a character of a number in a sign position. -/
theorem isNumeral_plus (previous : Option Char) :
    isNumeral previous '+' = isSignPosition previous := by
  simp [isNumeral]

/-- A character of a text is in a sign position at the start, behind an operator character and
behind an opening parenthesis. -/
theorem isSignPosition_before {text : List Char} {k : Nat} {c : Char} (h : text[k]? = some c) :
    isSignPosition (before none text k) = true ↔
      k = 0 ∨ ∃ previous, text[k - 1]? = some previous ∧
        (isOperator previous = true ∨ previous = '(') := by
  cases k with
  | zero => simp [before, isSignPosition]
  | succ k =>
    have hlt : k < text.length := by
      have hk := (List.getElem?_eq_some_iff.mp h).1
      omega
    simp [before, isSignPosition, List.getElem?_eq_getElem hlt]

/-- An operator character other than a plus is a token of its own. -/
theorem isNumeral_operator {c : Char} (h : c = '-' ∨ c = '*' ∨ c = '/' ∨ c = '^')
    (previous : Option Char) : isNumeral previous c = false ∧ Token.ofChar c = .operator c := by
  rcases h with rfl | rfl | rfl | rfl <;> exact ⟨by simp [isNumeral], rfl⟩

/-- A character that is no operator, no digit and no point belongs to no number. -/
theorem isNumeral_other {c : Char} (hdigit : c.isDigit = false) (hpoint : c ≠ '.')
    (hoperator : isOperator c = false) (previous : Option Char) : isNumeral previous c = false := by
  have hplus : c ≠ '+' := by
    rintro rfl
    cases hoperator
  simp [isNumeral, hdigit, hpoint, hplus]

/-- Digits and points always belong to numbers. -/
theorem isNumeral_body {c : Char} (h : c.isDigit = true ∨ c = '.') (previous : Option Char) :
    isNumeral previous c = true := by
  rcases h with hdigit | rfl <;> simp [isNumeral, *]

/-- Segments have the tokens that the characters of the text ask for. -/
theorem Segments.covers {text : List Char} {tokens : List Token} (h : Segments text tokens) :
    Covers none text tokens := by
  intro k c hc
  by_cases hbody : c.isDigit = true ∨ c = '.'
  · exact (coveredAt_of_isNumeral (isNumeral_body hbody _)).mpr (h.digit k c hc hbody)
  · obtain ⟨hdigit, hpoint⟩ := not_or.mp hbody
    by_cases hplus : c = '+'
    · subst hplus
      have hsign := h.plus k hc
      rw [← isSignPosition_before hc, ← isNumeral_plus] at hsign
      cases hnumeral : isNumeral (before none text k) '+' with
      | true => exact (coveredAt_of_isNumeral hnumeral).mpr (hsign.mpr hnumeral)
      | false =>
        refine (coveredAt_of_not_isNumeral hnumeral).mpr ((h.plus_operator k hc).resolve_left ?_)
        rw [hsign, hnumeral]
        exact Bool.false_ne_true
    · cases hoperator : isOperator c with
      | true =>
        have hcases : c = '-' ∨ c = '*' ∨ c = '/' ∨ c = '^' := by
          simpa [isOperator, hplus, or_assoc] using hoperator
        obtain ⟨hnumeral, htoken⟩ := isNumeral_operator hcases (before none text k)
        rw [coveredAt_of_not_isNumeral hnumeral, htoken]
        exact h.operator k c hc hcases
      | false =>
        have hdigit : c.isDigit = false := (Bool.not_eq_true _).mp hdigit
        exact (coveredAt_of_not_isNumeral (isNumeral_other hdigit hpoint hoperator _)).mpr
          (h.other k c hc hdigit hpoint hoperator)

/-- Segments make up their text. -/
theorem Segments.endToEnd {text : List Char} {tokens : List Token} (h : Segments text tokens) :
    EndToEnd text tokens where
  flatMap_eq := by
    have hjoin := congrArg String.toList h.join_eq
    simpa [String.toList_join, List.flatMap_map] using hjoin
  apart := h.apart
  ne_empty number hmem := (h.number number hmem).1

/-- The tokens that a text is scanned into are its segments. -/
theorem segments_scan (text : List Char) : Segments text (scan none text) where
  join_eq := by
    rw [← String.toList_inj, String.toList_join, List.flatMap_map, String.toList_ofList]
    exact (endToEnd_scan none text).flatMap_eq
  apart := (endToEnd_scan none text).apart
  number number hmem :=
    ⟨(endToEnd_scan none text).ne_empty number hmem, (isSigned_of_scan none text).1 number hmem⟩
  digit k c hc hbody :=
    (coveredAt_of_isNumeral (isNumeral_body hbody _)).mp (covers_scan none text k c hc)
  operator k c hc hoperator := by
    obtain ⟨hnumeral, htoken⟩ := isNumeral_operator hoperator (before none text k)
    rw [← htoken]
    exact (coveredAt_of_not_isNumeral hnumeral).mp (covers_scan none text k c hc)
  plus k hc := by
    rw [(covers_scan none text k '+' hc).number_iff, isNumeral_plus, isSignPosition_before hc]
  plus_operator k hc := by
    have hcovered := covers_scan none text k '+' hc
    cases hnumeral : isNumeral (before none text k) '+' with
    | true => exact Or.inl (hcovered.number_iff.mpr hnumeral)
    | false => exact Or.inr ((coveredAt_of_not_isNumeral hnumeral).mp hcovered)
  other k c hc hdigit hpoint hoperator :=
    (coveredAt_of_not_isNumeral (isNumeral_other hdigit hpoint hoperator _)).mp
      (covers_scan none text k c hc)

/-- **A formula and its tokens determine each other, blanks left out.** The tokens of a formula are
the segments of the formula without its blanks, no other tokens are, and the formula that is written
back from its tokens is read as the same tokens. -/
theorem tokenize_segments (input : String) :
    Segments (input.toList.filter fun c => !Text.isBlank c) (tokenize input) ∧
      (∀ tokens, Segments (input.toList.filter fun c => !Text.isBlank c) tokens →
        tokens = tokenize input) ∧
      tokenize (String.join ((tokenize input).map Token.text)) = tokenize input := by
  have hsegments : Segments (input.toList.filter fun c => !Text.isBlank c) (tokenize input) :=
    segments_scan _
  refine ⟨hsegments, fun tokens h => h.endToEnd.eq_scan h.covers, ?_⟩
  rw [hsegments.join_eq, tokenize, String.toList_ofList, List.filter_filter]
  simp [tokenize]

example : tokenize " 2 * + +3. + -4" =
    [.number "2", .operator '*', .number "++3.", .operator '+', .operator '-', .number "4"] := by
  decide

end Reckoner.Formula
