import Reckoner.Proofs.Http.Dispatch

/-!
# Users among themselves

A site is a database with the users who were added to it. Users are added and anybody's requests are
answered, in any order; what a key is good for is the same at any time. Of keys it is assumed that
SHA-256 distinguishes them from those that were given out.
-/

namespace Reckoner.Http

open Enrolment (Issued)

/-- What happens at a site. -/
inductive Deed where
  /-- A user is added, with a key made from random bytes. -/
  | enrol (entropy : List UInt8) (name : String)
  /-- A request is answered. -/
  | ask (visit : Visit) (request : Request)

/-- A database with the users who were added to it. -/
structure Site where
  database : Database
  /-- The users, in the order in which they were added. -/
  enrolments : List Enrolment

namespace Site

/-- Nobody was added yet. -/
def empty : Site := ⟨.ofTables .empty, []⟩

/-- The site behind a deed. A user counts as added if the credentials were told. -/
def act (site : Site) : Deed → Site
  | .enrol entropy name =>
    match site.database.createUser entropy name with
    | .ok (credentials, database) => ⟨database, site.enrolments ++ [⟨name, credentials⟩]⟩
    | .error _ => site
  | .ask visit request => { site with database := (serve visit request site.database).state }

/-- The site behind deeds of anybody. -/
def after (deeds : List Deed) : Site := deeds.foldl act empty

/-- What keys are good for at a site. -/
structure Secure (site : Site) : Prop where
  /-- A key tells the user to whom it was given, and a key that was not given tells nobody. -/
  tells : ∀ now key, Sha256.Distinguishes (key :: Enrolment.keys site.enrolments) →
    ∃ found, (site.database.authenticate now key).1 = .ok found ∧
      ∀ user, found = some user ↔ Issued site.enrolments user key
  /-- A name that is taken is not given again, and nothing comes of it. -/
  taken : ∀ entropy, ∀ e ∈ site.enrolments,
    site.database.createUser entropy e.name =
        .error (.conflict ("user '" ++ e.name ++ "' already exists")) ∧
      site.act (.enrol entropy e.name) = site
  /-- A new name with a new key is given to a new user. -/
  given : ∀ entropy name, (∀ e ∈ site.enrolments, e.name ≠ name) →
    keyOfEntropy entropy ∉ Enrolment.keys site.enrolments →
    Sha256.Distinguishes (keyOfEntropy entropy :: Enrolment.keys site.enrolments) →
    ∃ user, (∀ e ∈ site.enrolments, e.credentials.userId ≠ user) ∧
      (site.act (.enrol entropy name)).enrolments =
        site.enrolments ++ [⟨name, ⟨user, keyOfEntropy entropy⟩⟩]
  /-- A request for users with a key that was not given, or with none, is refused. -/
  refused : ∀ visit request route, request.Asks route → route.Personal →
    request.Strange site.enrolments →
    (serve visit request site.database).answer.status = 401 ∧
      (serve visit request site.database).state = site.database
  /-- A request with the key of a user is not, and it creates nothing but an expression of that
  user: the formula that was sent, under the number that is answered. -/
  served : ∀ visit request route user, request.Asks route → route.Personal →
    request.IsFrom site.enrolments user →
    (serve visit request site.database).answer.status ≠ 401 ∧
      ∃ added, site.database.Adds (serve visit request site.database).state user added ∧
        ∀ row ∈ added, route = .calculate ∧ readSubmission request.body = .ok row.formula ∧
          (serve visit request site.database).answer = request.framed (created visit row.id)
  /-- A formula of the user that can be read and compiles is stored. -/
  stored : ∀ visit request user formula graph, request.Asks .calculate →
    request.IsFrom site.enrolments user → request.hasJson = true → request.isTooLong = false →
    readSubmission request.body = .ok formula → Formula.compile formula = .ok graph →
    ∃ row, site.database.Adds (serve visit request site.database).state user (some row) ∧
      row.formula = formula ∧
      (serve visit request site.database).answer = request.framed (created visit row.id)
  /-- All expressions of the user are listed, and nothing else. -/
  listed : ∀ visit request user, request.Asks .expressions →
    request.IsFrom site.enrolments user →
    (serve visit request site.database).answer =
      request.framed (listing visit (site.database.owned user))
  /-- An expression of the user is shown. -/
  shown : ∀ visit request segment user, request.Asks (.expression segment) →
    request.IsFrom site.enrolments user → ∀ row ∈ site.database.owned user,
    (decodeSegment? segment).bind signedWordOf? = some row.id →
    (serve visit request site.database).answer = request.framed (showing visit row)
  /-- An expression that is not the user's is not found, be it somebody else's or nobody's. -/
  missing : ∀ visit request segment user, request.Asks (.expression segment) →
    request.IsFrom site.enrolments user → ∀ id, (∀ row ∈ site.database.owned user, row.id ≠ id) →
    (decodeSegment? segment).bind signedWordOf? = some id →
    (serve visit request site.database).answer =
      request.framed (Error.respond visit.now (.expression .notFound))
  /-- All other requests leave users, keys and the origin of every expression alone. -/
  kept : ∀ visit request, (∀ route, request.Asks route → ¬route.Personal) →
    site.database.Keeps (serve visit request site.database).state

/-- No user can tell two sites apart at which the user has the same expressions, but by the number
of a new one. -/
def Alike (site other : Site) : Prop :=
  ∀ visit request route user, request.Asks route → route.Personal →
    request.IsFrom site.enrolments user → request.IsFrom other.enrolments user →
    site.database.owned user = other.database.owned user →
    (route = .calculate →
      site.database.tables.lastExpression = other.database.tables.lastExpression) →
    (serve visit request site.database).answer = (serve visit request other.database).answer

/-! ## What every deed keeps -/

/-- The database of the site is in use, and its users are those who were added. -/
abbrev Sound (site : Site) : Prop := site.database.Sound site.enrolments

theorem Sound.empty : Site.empty.Sound := ⟨rfl, rfl, .empty, .nil, nofun⟩

/-- A deed keeps a site sound. -/
theorem Sound.act {site : Site} (h : site.Sound) (deed : Deed) : (site.act deed).Sound := by
  cases deed with
  | enrol entropy name =>
    simp only [Site.act]
    cases hcreate : site.database.createUser entropy name with
    | error e => exact h
    | ok reply => exact h.createUser hcreate
  | ask visit request => exact serve_sound h visit request

/-- Any deeds keep a site sound. -/
theorem Sound.foldl {site : Site} (h : site.Sound) (deeds : List Deed) :
    (deeds.foldl Site.act site).Sound := by
  induction deeds generalizing site with
  | nil => exact h
  | cons deed rest ih => exact ih (h.act deed)

/-- The site behind any deeds is sound. -/
theorem sound_after (deeds : List Deed) : (after deeds).Sound := Sound.empty.foldl deeds

/-- Keys are good for the same at every sound site. -/
theorem Sound.secure {site : Site} (h : site.Sound) : site.Secure where
  tells now key hkey := by
    obtain ⟨after, hanswer, -⟩ := Database.authenticate_spec h.readable now key
    exact ⟨_, by rw [hanswer], h.enrols.map_key?_eq_some_iff hkey⟩
  taken entropy e he := by
    have hconflict : site.database.createUser entropy e.name =
        .error (.conflict ("user '" ++ e.name ++ "' already exists")) := by
      rw [h.createUser_eq, h.enrols.createUser_taken he]
      rfl
    refine ⟨hconflict, ?_⟩
    simp only [Site.act, hconflict]
  given entropy name hname hkey hdistinct := by
    obtain ⟨user, after, hcreate, hnew⟩ := h.enrols.createUser_fresh hname hkey hdistinct
    have hcreated : site.database.createUser entropy name =
        .ok (⟨user, keyOfEntropy entropy⟩, { site.database with tables := after }) := by
      rw [h.createUser_eq, hcreate]
      rfl
    refine ⟨user, hnew, ?_⟩
    simp only [Site.act, hcreated]
  refused visit request route hasks hpersonal hstrange := by
    obtain ⟨f, hhandles⟩ := hpersonal.exists_handles visit request
    exact serve_of_strange h hasks hhandles hstrange
  served visit request route user hasks hpersonal hfrom := by
    obtain ⟨f, hhandles⟩ := hpersonal.exists_handles visit request
    obtain ⟨middle, hstamped, hanswer, hstate⟩ := serve_of_isFrom h hasks hhandles hfrom
    obtain ⟨added, hadds, hadded⟩ := hhandles.adds user middle
    rw [hanswer, hstate, Request.framed_status]
    refine ⟨hhandles.status_ne user middle, added, hstamped.adds hadds, fun row hrow => ?_⟩
    obtain ⟨hroute, hformula, hcreated⟩ := hadded row hrow
    exact ⟨hroute, hformula, congrArg request.framed hcreated⟩
  stored visit request user formula graph hasks hfrom hjson hshort hread hgraph := by
    have hhandles : Route.Handles visit request .calculate (submit visit request) := .calculate
    obtain ⟨middle, hstamped, hanswer, hstate⟩ := serve_of_isFrom h hasks hhandles hfrom
    obtain ⟨key, -, -, hissued⟩ := hfrom
    obtain ⟨row, hadds, hformula, hcreated⟩ :=
      submit_stores (hstamped.sound h) hissued visit hjson hshort hread hgraph
    rw [hanswer, hstate]
    exact ⟨row, hstamped.adds hadds, hformula, congrArg request.framed hcreated⟩
  listed visit request user hasks hfrom := by
    obtain ⟨middle, hstamped, hanswer, -⟩ := serve_of_isFrom h hasks .expressions hfrom
    rw [hanswer, ← hstamped.owned_eq]
    exact congrArg request.framed (list_eq (hstamped.sound h) visit user)
  shown visit request segment user hasks hfrom row hrow hid := by
    obtain ⟨middle, hstamped, hanswer, -⟩ := serve_of_isFrom h hasks (.expression segment) hfrom
    rw [hanswer]
    rw [← hstamped.owned_eq] at hrow
    exact congrArg request.framed (get_owned (hstamped.sound h) hid hrow)
  missing visit request segment user hasks hfrom id hmissing hid := by
    obtain ⟨middle, hstamped, hanswer, -⟩ := serve_of_isFrom h hasks (.expression segment) hfrom
    rw [hanswer]
    rw [← hstamped.owned_eq] at hmissing
    exact congrArg request.framed (get_missing (hstamped.sound h) hid hmissing)
  kept visit request hothers := serve_keeps hothers visit site.database

/-- Users cannot tell sound sites apart. -/
theorem Sound.alike {site other : Site} (h : site.Sound) (hother : other.Sound) :
    site.Alike other := by
  intro visit request route user hasks hpersonal hfrom hfromOther howned hnext
  obtain ⟨f, hhandles⟩ := hpersonal.exists_handles visit request
  obtain ⟨middle, hstamped, hanswer, -⟩ := serve_of_isFrom h hasks hhandles hfrom
  obtain ⟨d, hstampedOther, hanswerOther, -⟩ := serve_of_isFrom hother hasks hhandles hfromOther
  obtain ⟨key, -, -, hissued⟩ := hfrom
  obtain ⟨otherKey, -, -, hissuedOther⟩ := hfromOther
  rw [hanswer, hanswerOther]
  refine congrArg request.framed (hhandles.agree (hstamped.sound h) (hstampedOther.sound hother)
    hissued hissuedOther ?_ fun hroute => ?_)
  · rw [hstamped.owned_eq, hstampedOther.owned_eq, howned]
  · rw [hstamped.lastExpression_eq, hstampedOther.lastExpression_eq, hnext hroute]

/-- **A key opens what belongs to its user, and nothing else.** Behind any deeds, as far as SHA-256
distinguishes keys: a key tells the user to whom it was given, and a name is taken once; a request
to a route for users without such a key is refused and changes nothing; one with such a key reads
and creates expressions of its user alone, so that its answer is the same wherever the user has the
same expressions, and an expression of somebody else is like one that is missing. -/
theorem isolation (deeds : List Deed) :
    (after deeds).Secure ∧ ∀ others, (after deeds).Alike (after others) :=
  ⟨(sound_after deeds).secure, fun others => (sound_after deeds).alike (sound_after others)⟩

end Site

/-- Two users are added, and the second one submits a formula. -/
def Deed.sample : List Deed :=
  [.enrol [0x0a] "ann", .enrol [0x0b] "bob",
    .ask ⟨default, "", 0⟩ ⟨"POST", "/api/v1/calculate",
      [("Authorization", Text.toBytes "Bearer exf_0b"),
        ("Content-Type", Text.toBytes "application/json")],
      Text.toBytes "[\"1+2\"]"⟩]

/-- Somebody asks for the first expression. -/
def Request.sample (key : String) : Request :=
  ⟨"GET", "/api/v1/expressions/1", [("X-API-Key", Text.toBytes key)], []⟩

/-- The first expression is the second user's. The first one does not find it, and is answered as if
the second one had never been there; a key that was not given is refused. -/
theorem Site.isolation_sample :
    let site := after Deed.sample
    let visit : Visit := ⟨default, "", 0⟩
    site.enrolments = [⟨"ann", 1, "exf_0a"⟩, ⟨"bob", 2, "exf_0b"⟩] ∧
      (site.database.owned 2).map (·.id) = [1] ∧
      (serve visit (Request.sample "exf_0a") site.database).answer =
        (Request.sample "exf_0a").framed (Error.respond visit.now (.expression .notFound)) ∧
      (serve visit (Request.sample "exf_0a") site.database).answer =
        (serve visit (Request.sample "exf_0a") (after (Deed.sample.take 1)).database).answer ∧
      (serve visit (Request.sample "exf_0c") site.database).answer.status = 401 := by
  have hsite : let site := after Deed.sample
      (site.enrolments, site.database.owned 1, (site.database.owned 2).map (·.id)) =
        ([⟨"ann", 1, "exf_0a"⟩, ⟨"bob", 2, "exf_0b"⟩], [], [1]) := by decide +kernel
  have halone : let site := after (Deed.sample.take 1)
      (site.enrolments, site.database.owned 1) = ([⟨"ann", 1, "exf_0a"⟩], []) := by decide +kernel
  simp only [Prod.mk.injEq] at hsite halone
  obtain ⟨henrolments, hown, hbob⟩ := hsite
  obtain ⟨henrolment, hownAlone⟩ := halone
  have hasks (key : String) : (Request.sample key).Asks (.expression "1") :=
    ⟨(by decide +kernel : Route.ofPath? (Request.sample "").path = _), .head _⟩
  have hkeyOf : keyOf (Request.sample "exf_0a") = .ok "exf_0a" := by decide +kernel
  have hdistinct : Sha256.Distinguishes ["exf_0c", "exf_0a", "exf_0b"] := by
    unfold Sha256.Distinguishes
    decide +kernel
  have hfrom : (Request.sample "exf_0a").IsFrom (after Deed.sample).enrolments 1 := by
    rw [henrolments]
    exact ⟨"exf_0a", keyOf_eq_ok_iff.mp hkeyOf, hdistinct.mono (by decide), .head _⟩
  have hfromAlone : (Request.sample "exf_0a").IsFrom (after (Deed.sample.take 1)).enrolments 1 := by
    rw [henrolment]
    exact ⟨"exf_0a", keyOf_eq_ok_iff.mp hkeyOf, hdistinct.mono (by decide), .head _⟩
  have hstrange : (Request.sample "exf_0c").Strange (after Deed.sample).enrolments := by
    rw [henrolments]
    intro key hkey
    have hother : keyOf (Request.sample "exf_0c") = .ok "exf_0c" := by decide +kernel
    obtain rfl := Except.ok.inj (hother.symm.trans (keyOf_eq_ok_iff.mpr hkey))
    refine ⟨hdistinct, fun user hissued => ?_⟩
    obtain ⟨e, he, hcredentials⟩ := hissued.exists
    have hkeys : ∀ e ∈ [(⟨"ann", 1, "exf_0a"⟩ : Enrolment), ⟨"bob", 2, "exf_0b"⟩],
        e.credentials.apiKey ≠ "exf_0c" := by decide
    exact hkeys e he (congrArg Credentials.apiKey hcredentials)
  refine ⟨henrolments, hbob, ?_, ?_, ?_⟩
  · exact (isolation Deed.sample).1.missing _ _ "1" 1 (hasks _) hfrom 1 (hown ▸ nofun)
      (by decide +kernel)
  · exact (isolation Deed.sample).2 (Deed.sample.take 1) _ _ _ 1 (hasks _) (.expression "1") hfrom
      hfromAlone (hown.trans hownAlone.symm) nofun
  · exact ((isolation Deed.sample).1.refused _ _ _ (hasks _) (.expression "1") hstrange).1

end Reckoner.Http
