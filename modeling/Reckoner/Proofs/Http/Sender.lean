import Reckoner.Http.Authentication
import Reckoner.Proofs.Database.Keys

/-!
# Whom a request is from

`Request.Carries` says which key a request carries: a bearer's key before any other. The sender is
the user to whom that key was given; a request with another key, or with none, is refused, and the
database is not touched.
-/

namespace Reckoner.Http

open Enrolment (Issued)

variable {request : Request} {key : String}

/-! ## The key of a request -/

/-- The header of this name holds this text. -/
def Request.Holds (request : Request) (name text : String) : Prop :=
  (request.header? name).bind headerText? = some text

/-- There is no header for bearers, or it holds something else than a bearer's key. -/
def Request.HasNoBearer (request : Request) : Prop :=
  request.header? "authorization" = none ∨
    ∃ text, request.Holds "authorization" text ∧ ∀ key, text ≠ "Bearer " ++ key

/-- The key that a request carries. -/
inductive Request.Carries (request : Request) : String → Prop where
  | bearer {text : String} (h : request.Holds "authorization" ("Bearer " ++ text)) :
      request.Carries (Text.trim text)
  | plain {text : String} (hbearer : request.HasNoBearer) (h : request.Holds "x-api-key" text) :
      request.Carries (Text.trim text)

/-- A bearer's key stands behind the word. -/
theorem bearerKey?_append (text : String) :
    bearerKey? ("Bearer " ++ text) = some (Text.trim text) := by
  have hfront : ("Bearer " ++ text).toList = "Bearer ".toList ++ text.toList := String.toList_append
  have hprefix : "Bearer ".toList.isPrefixOf ("Bearer " ++ text).toList = true := by
    rw [hfront, List.isPrefixOf_iff_prefix]
    exact List.prefix_append _ _
  have hrest : ("Bearer " ++ text).toList.drop "Bearer ".length = text.toList := by
    rw [hfront]
    exact List.drop_left
  simp only [bearerKey?, hprefix, if_true, hrest, String.ofList_toList]

/-- Without the word there is no bearer's key. -/
theorem bearerKey?_eq_none {text : String} (h : ∀ key, text ≠ "Bearer " ++ key) :
    bearerKey? text = none := by
  refine if_neg fun hprefix => ?_
  obtain ⟨rest, hrest⟩ := List.isPrefixOf_iff_prefix.mp hprefix
  refine h (String.ofList rest) (String.toList_injective ?_)
  exact hrest.symm.trans (by rw [String.toList_append, @String.toList_ofList rest])

/-- The key in the header for keys is trimmed. -/
theorem plainKey_eq_ok_iff :
    plainKey request = .ok key ↔ ∃ text, request.Holds "x-api-key" text ∧ Text.trim text = key := by
  unfold plainKey Request.Holds
  cases request.header? "x-api-key" with
  | none => simp
  | some value =>
    simp only [Option.bind_some]
    cases headerText? value <;> simp

/-- A request without a bearer's key goes by the other header. -/
theorem keyOf_of_hasNoBearer (h : request.HasNoBearer) : keyOf request = plainKey request := by
  unfold keyOf
  obtain hnone | ⟨text, htext, hother⟩ := h
  · rw [hnone]
  · obtain ⟨value, hvalue, hread⟩ := Option.bind_eq_some_iff.mp htext
    simp only [hvalue, hread, bearerKey?_eq_none hother]

/-- A bearer's key goes before any other. -/
theorem keyOf_of_bearer {text : String} (h : request.Holds "authorization" ("Bearer " ++ text)) :
    keyOf request = .ok (Text.trim text) := by
  unfold keyOf
  obtain ⟨value, hvalue, hread⟩ := Option.bind_eq_some_iff.mp h
  simp only [hvalue, hread, bearerKey?_append]

/-- Either there is a bearer's key, or the other header counts, or the header for bearers cannot be
read. -/
theorem Request.bearer_cases (request : Request) :
    (∃ text, request.Holds "authorization" ("Bearer " ++ text)) ∨ request.HasNoBearer ∨
      keyOf request = .error (.unauthorized "Invalid Authorization header encoding") := by
  cases hvalue : request.header? "authorization" with
  | none => exact .inr (.inl (.inl hvalue))
  | some value =>
    cases hread : headerText? value with
    | none =>
      refine .inr (.inr ?_)
      simp only [keyOf, hvalue, hread]
    | some text =>
      have hholds : request.Holds "authorization" text :=
        Option.bind_eq_some_iff.mpr ⟨_, hvalue, hread⟩
      by_cases hbearer : ∃ key, text = "Bearer " ++ key
      · obtain ⟨key, rfl⟩ := hbearer
        exact .inl ⟨key, hholds⟩
      · exact .inr (.inl (.inr ⟨text, hholds, not_exists.mp hbearer⟩))

/-- The key of a request is the one that it carries. -/
theorem keyOf_eq_ok_iff : keyOf request = .ok key ↔ request.Carries key := by
  constructor
  · intro h
    obtain ⟨text, hbearer⟩ | hnone | hunread := request.bearer_cases
    · obtain rfl := Except.ok.inj ((keyOf_of_bearer hbearer).symm.trans h)
      exact .bearer hbearer
    · obtain ⟨text, htext, rfl⟩ := plainKey_eq_ok_iff.mp ((keyOf_of_hasNoBearer hnone).symm.trans h)
      exact .plain hnone htext
    · cases hunread.symm.trans h
  · rintro (hbearer | ⟨hnone, hplain⟩)
    · exact keyOf_of_bearer hbearer
    · rw [keyOf_of_hasNoBearer hnone]
      exact plainKey_eq_ok_iff.mpr ⟨_, hplain, rfl⟩

/-- A request whose key cannot be read is not authorized. -/
theorem status_of_keyOf {e : Error} (h : keyOf request = .error e) : e.status = 401 := by
  obtain ⟨text, hbearer⟩ | hnone | hunread := request.bearer_cases
  · cases (keyOf_of_bearer hbearer).symm.trans h
  · rw [keyOf_of_hasNoBearer hnone] at h
    unfold plainKey at h
    split at h
    · split at h
      · cases h
      · cases h
        rfl
    · cases h
      rfl
  · cases hunread.symm.trans h
    rfl

/-! ## The sender -/

/-- A request whose keys are nobody's. -/
def Request.Strange (es : List Enrolment) (request : Request) : Prop :=
  ∀ key, request.Carries key → Sha256.Distinguishes (key :: Enrolment.keys es) ∧
    ∀ user, ¬Issued es user key

/-- A request that carries the key of a user. -/
def Request.IsFrom (es : List Enrolment) (user : UserId) (request : Request) : Prop :=
  ∃ key, request.Carries key ∧ Sha256.Distinguishes (key :: Enrolment.keys es) ∧
    Issued es user key

variable {es : List Enrolment} {db : Database}

/-- Whoever the sender is, at most the use of a key is noted. -/
theorem authenticate_stamped (hreadable : db.readable = true) (now : Instant) (request : Request) :
    db.Stamped (authenticate now request db).2 := by
  unfold authenticate
  cases keyOf request with
  | error e => exact .refl db
  | ok key =>
    obtain ⟨after, hanswer, hstamped, -⟩ := Database.authenticate_spec hreadable now key
    dsimp only
    rw [hanswer]
    cases (db.tables.key? key).map (·.userId) <;> exact hstamped

/-- The sender is the user to whom the key was given; at most the use of the key is noted. -/
theorem authenticate_of_isFrom (h : db.tables.Enrols es) (hreadable : db.readable = true)
    {user : UserId} (hfrom : request.IsFrom es user) (now : Instant) :
    ∃ after, db.Stamped after ∧ authenticate now request db = (.ok user, after) := by
  obtain ⟨key, hcarries, hdistinct, hissued⟩ := hfrom
  obtain ⟨after, hanswer, hstamped, -⟩ := Database.authenticate_spec hreadable now key
  refine ⟨after, hstamped, ?_⟩
  unfold authenticate
  rw [keyOf_eq_ok_iff.mpr hcarries]
  dsimp only
  rw [hanswer, (h.map_key?_eq_some_iff hdistinct user).mpr hissued]

/-- A request with the key of nobody is not authorized, and nothing is noted. -/
theorem authenticate_of_strange (h : db.tables.Enrols es) (hreadable : db.readable = true)
    (hstrange : request.Strange es) (now : Instant) :
    ∃ e : Error, authenticate now request db = (.error e, db) ∧ e.status = 401 := by
  unfold authenticate
  cases hkey : keyOf request with
  | error e => exact ⟨e, rfl, status_of_keyOf hkey⟩
  | ok key =>
    obtain ⟨hdistinct, hnobody⟩ := hstrange key (keyOf_eq_ok_iff.mp hkey)
    obtain ⟨after, hanswer, -, hsame⟩ := Database.authenticate_spec hreadable now key
    have hnone : db.tables.key? key = none := by
      cases hfound : db.tables.key? key with
      | none => rfl
      | some row =>
        have hissued := h.map_key?_eq_some_iff hdistinct row.userId
        rw [hfound] at hissued
        exact absurd (hissued.mp rfl) (hnobody row.userId)
    dsimp only
    rw [hanswer, hnone, hsame hnone]
    exact ⟨_, rfl, rfl⟩

end Reckoner.Http
