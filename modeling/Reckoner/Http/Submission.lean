import Reckoner.Json.Token

/-!
# Submissions

A formula is submitted as a JSON object with one member of interest, or as an array of it alone.
What is wrong with a body is decided by the first thing that is wrong: either it is no JSON up to
there, or it is JSON of another shape.
-/

namespace Reckoner.Http

open Json (Token)

/-- Why a body is no submission. -/
inductive Fault where
  /-- It is no JSON. -/
  | malformed
  /-- It is JSON of another shape. -/
  | mismatched
deriving DecidableEq, Repr

/-- The name of the member that holds the formula. -/
def formulaName : String := "expression"

/-! ## Values that do not matter -/

/-- What encloses a value. -/
inductive Frame where
  | array
  | object
deriving DecidableEq, Repr

/-- What may come next within a value. -/
inductive Place where
  | value
  /-- The first element of an array or its end. -/
  | valueOrEnd
  /-- The first name in an object or its end. -/
  | nameOrEnd
  | name
  | colon
  /-- Whatever may stand behind a value. -/
  | behindValue
deriving DecidableEq, Repr

/-- A place within a value, the innermost frame first. -/
structure Spot where
  place : Place
  frames : List Frame
deriving DecidableEq, Repr

namespace Spot

/-- The spot behind a token that begins a value, or is one. -/
def enter? (frames : List Frame) : Token → Option Spot
  | .openArray => some ⟨.valueOrEnd, .array :: frames⟩
  | .openObject => some ⟨.nameOrEnd, .object :: frames⟩
  | .word | .number _ | .text _ => some ⟨.behindValue, frames⟩
  | _ => none

/-- The spot behind a token, if the token may stand there. -/
def step? (spot : Spot) (token : Token) : Option Spot :=
  match spot.place, spot.frames, token with
  | .value, frames, token => enter? frames token
  | .valueOrEnd, .array :: frames, .closeArray => some ⟨.behindValue, frames⟩
  | .valueOrEnd, frames, token => enter? frames token
  | .nameOrEnd, .object :: frames, .closeObject => some ⟨.behindValue, frames⟩
  | .nameOrEnd, frames, .text _ => some ⟨.colon, frames⟩
  | .name, frames, .text _ => some ⟨.colon, frames⟩
  | .colon, frames, .colon => some ⟨.value, frames⟩
  | .behindValue, .array :: frames, .comma => some ⟨.value, .array :: frames⟩
  | .behindValue, .object :: frames, .comma => some ⟨.name, .object :: frames⟩
  | .behindValue, .array :: frames, .closeArray => some ⟨.behindValue, frames⟩
  | .behindValue, .object :: frames, .closeObject => some ⟨.behindValue, frames⟩
  | _, _, _ => none

/-- Whether the outermost value is complete. -/
def isDone (spot : Spot) : Bool := spot.place == .behindValue && spot.frames.isEmpty

end Spot

/-- What follows the value at the front. -/
def skipValue? (spot : Spot) : List Token → Option (List Token)
  | [] => none
  | token :: rest =>
    match spot.step? token with
    | none => none
    | some next => if next.isDone then some rest else skipValue? next rest

theorem length_lt_of_skipValue? {spot : Spot} {tokens rest : List Token}
    (h : skipValue? spot tokens = some rest) : rest.length < tokens.length := by
  induction tokens generalizing spot with
  | nil => simp [skipValue?] at h
  | cons token tokens ih =>
    simp only [skipValue?] at h
    split at h
    · simp at h
    · split at h
      · simp_all
      · have := ih h
        simp only [List.length_cons]
        omega

/-! ## The formula -/

/-- What is wrong with a value in the place of a group or of a text, judged by its first token. -/
def faultOf : Token → Fault
  | .openArray | .openObject | .word | .text (some _) => .mismatched
  | .number x => if x.isInfinite then .malformed else .mismatched
  | _ => .malformed

/-- Reads a text. -/
def readText : List Token → Except Fault (String × List Token)
  | .text (some s) :: rest => .ok (s, rest)
  | token :: _ => .error (faultOf token)
  | [] => .error .malformed

/-- Reads one member of an object; `found` is the formula, if it has been read before. -/
def readMember (found : Option String) : List Token → Except Fault (Option String × List Token)
  | .text (some name) :: rest =>
    if name = formulaName ∧ found.isSome then .error .mismatched
    else
      match rest with
      | .colon :: rest =>
        if name = formulaName then (readText rest).map fun (s, rest) => (some s, rest)
        else
          match skipValue? ⟨.value, []⟩ rest with
          | some rest => .ok (found, rest)
          | none => .error .malformed
      | _ => .error .malformed
  | _ => .error .malformed

theorem length_lt_of_readText {tokens rest : List Token} {s : String}
    (h : readText tokens = .ok (s, rest)) : rest.length < tokens.length := by
  unfold readText at h
  split at h <;> simp_all

theorem length_lt_of_readMember {found next : Option String} {tokens rest : List Token}
    (h : readMember found tokens = .ok (next, rest)) : rest.length < tokens.length := by
  unfold readMember at h
  split at h
  · split at h
    · simp at h
    · split at h
      · split at h
        · rename_i behind _
          cases hread : readText behind with
          | error e => simp [hread, Except.map] at h
          | ok read =>
            simp only [hread, Except.map, Except.ok.injEq, Prod.mk.injEq] at h
            obtain ⟨-, rfl⟩ := h
            have : read.2.length < behind.length := length_lt_of_readText hread
            simp only [List.length_cons]
            omega
        · split at h
          · rename_i hskip
            obtain ⟨-, rfl⟩ := Prod.mk.inj (Except.ok.inj h)
            have := length_lt_of_skipValue? hskip
            simp only [List.length_cons]
            omega
          · simp at h
      · simp at h
  · simp at h

/-- Reads the members of an object up to its end. -/
def readMembers (found : Option String) (tokens : List Token) :
    Except Fault (String × List Token) :=
  match h : readMember found tokens with
  | .ok (found, .comma :: rest) =>
    have := length_lt_of_readMember h
    readMembers found rest
  | .ok (some s, .closeObject :: rest) => .ok (s, rest)
  | .ok (none, .closeObject :: _) => .error .mismatched
  | .ok _ => .error .malformed
  | .error e => .error e
termination_by tokens.length
decreasing_by simp_all; omega

/-- Reads an array behind its opening bracket. -/
def readElements (tokens : List Token) : Except Fault (String × List Token) :=
  match tokens with
  | .closeArray :: _ => .error .mismatched
  | tokens =>
    match readText tokens with
    | .ok (s, .closeArray :: rest) => .ok (s, rest)
    | .ok _ => .error .malformed
    | .error e => .error e

/-- Reads a submission at the front of some tokens. -/
def readGroup : List Token → Except Fault (String × List Token)
  | .openArray :: rest => readElements rest
  | .openObject :: .closeObject :: _ => .error .mismatched
  | .openObject :: rest => readMembers none rest
  | token :: _ => .error (faultOf token)
  | [] => .error .malformed

/-- The formula in a body. -/
def readSubmission (body : List UInt8) : Except Fault String :=
  match readGroup (Json.tokens body) with
  | .ok (s, []) => .ok s
  | .ok _ => .error .malformed
  | .error e => .error e

end Reckoner.Http
