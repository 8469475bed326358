import Reckoner.Http.Router
import Reckoner.Proofs.Database.Owners
import Reckoner.Proofs.Http.Sender

/-!
# What comes of a request

A request to a route for users is refused if its key is nobody's. Otherwise it is answered from the
expressions of the user alone, and adds at most one to them. All other requests leave users, keys
and the owners of expressions alone.
-/

namespace Reckoner.Http

open Enrolment (Issued)

/-! ## Routes for users -/

/-- The routes that are for users. -/
inductive Route.Personal : Route → Prop where
  | calculate : Personal calculate
  | expressions : Personal expressions
  | expression (segment : String) : Personal (expression segment)

/-- A request leads to a route, by a method of that route. -/
structure Request.Asks (request : Request) (route : Route) : Prop where
  path_eq : Route.ofPath? request.path = some route
  method_mem : request.method ∈ route.methods

/-- What a route for users does once the sender is known. -/
inductive Route.Handles (visit : Visit) (request : Request) :
    Route → (UserId → Database → Reply Response Database) → Prop where
  | calculate : Handles visit request calculate (submit visit request)
  | expressions : Handles visit request expressions fun user db => silent (list visit user db) db
  | expression (segment : String) :
      Handles visit request (expression segment) fun user db =>
        silent (get visit segment user db) db

/-- What is sent of an answer. -/
def Request.framed (request : Request) (response : Response) : Response :=
  let response := response.addHeaders [("access-control-allow-origin", "*")]
  if request.method = "HEAD" then response.withoutBody else response

variable {visit : Visit} {request : Request} {route : Route} {db : Database}
  {f : UserId → Database → Reply Response Database}

theorem Route.Personal.exists_handles (h : route.Personal) (visit : Visit) (request : Request) :
    ∃ f, route.Handles visit request f := by
  cases h with
  | calculate => exact ⟨_, .calculate⟩
  | expressions => exact ⟨_, .expressions⟩
  | expression segment => exact ⟨_, .expression segment⟩

/-- A route for users first asks who the sender is. -/
theorem Route.Handles.run_eq (h : route.Handles visit request f) (db : Database) :
    route.run visit request db = withUser visit request db f := by
  cases h <;> rfl

/-- The status is always sent. -/
@[simp] theorem Request.framed_status (request : Request) (response : Response) :
    (request.framed response).status = response.status := by
  unfold framed
  split <;> rfl

/-- No route is asked for its options. -/
theorem Request.Asks.method_ne (h : request.Asks route) : request.method ≠ "OPTIONS" := by
  intro hmethod
  have hmem := h.method_mem
  rw [hmethod, Route.methods] at hmem
  split at hmem <;> simp at hmem

/-- A request is answered by the route that it asks. -/
theorem serve_of_asks (h : request.Asks route) (visit : Visit) (db : Database) :
    (serve visit request db).answer = request.framed (route.run visit request db).answer ∧
      (serve visit request db).state = (route.run visit request db).state := by
  have hdispatch : dispatch visit request db = route.run visit request db := by
    have hcontains : route.methods.contains request.method = true :=
      List.contains_iff_mem.mpr h.method_mem
    simp only [dispatch, h.path_eq, hcontains, if_true]
  constructor
  · simp only [serve, if_neg h.method_ne, hdispatch]
    rfl
  · simp only [serve, if_neg h.method_ne, hdispatch]

/-- A request that asks no route changes nothing. -/
theorem serve_of_not_asks (h : ∀ route, ¬request.Asks route) (visit : Visit) (db : Database) :
    (serve visit request db).state = db := by
  have hdispatch : (dispatch visit request db).state = db := by
    unfold dispatch
    split
    · rfl
    · split_ifs with hcontains
      · exact absurd ⟨‹_›, List.contains_iff_mem.mp hcontains⟩ (h _)
      · rfl
  simp only [serve]
  split_ifs
  · rfl
  · exact hdispatch

/-! ## What is done for a user -/

/-- The answer to a formula that was taken. -/
def created (visit : Visit) (id : ExpressionId) : Response :=
  .ofJson 201 (visit.envelope (expressionPath id) (.object [("id", .integer id)]))

/-- A formula is either refused by itself, or stored. -/
theorem submit_cases (visit : Visit) (request : Request) :
    (∃ response : Response, response.status ≠ 401 ∧ ∀ user db,
      (submit visit request user db).answer = response ∧
        (submit visit request user db).state = db) ∨
    ∃ formula graph, readSubmission request.body = .ok formula ∧ ∀ user db,
      (∃ e, (submit visit request user db).answer =
          Error.respond visit.now (.expression (.ofStore e)) ∧
        (submit visit request user db).state = db ∧
        Database.store.create visit.now user formula graph db = .error e) ∨
      ∃ e after, (submit visit request user db).answer = created visit e.id ∧
        (submit visit request user db).state = after ∧
        Database.store.create visit.now user formula graph db = .ok (e, after) := by
  unfold submit
  split_ifs
  · exact .inl ⟨_, by decide, fun _ _ => ⟨rfl, rfl⟩⟩
  · exact .inl ⟨_, by decide, fun _ _ => ⟨rfl, rfl⟩⟩
  · cases hread : readSubmission request.body with
    | error fault => cases fault <;> exact .inl ⟨_, by decide, fun _ _ => ⟨rfl, rfl⟩⟩
    | ok formula =>
      cases hgraph : Formula.compile formula with
      | error e =>
        refine .inl ⟨Error.respond visit.now (.expression (.invalid e)), nofun, fun user db => ?_⟩
        simp only [Service.submit, hgraph, and_self]
      | ok graph =>
        refine .inr ⟨formula, graph, rfl, fun user db => ?_⟩
        cases hcreate : Database.store.create visit.now user formula graph db with
        | error e =>
          refine .inl ⟨e, ?_, ?_, rfl⟩ <;> simp only [Service.submit, hgraph, hcreate]
        | ok reply =>
          refine .inr ⟨reply.1, reply.2, ?_, ?_, rfl⟩ <;>
            simp only [Service.submit, hgraph, hcreate, created]

/-- A formula that can be read and compiles is stored for a user who was added. -/
theorem submit_stores {es : List Enrolment} (hdb : db.Sound es) {user : UserId} {key : String}
    (hkey : Issued es user key) (visit : Visit) (hjson : request.hasJson = true)
    (hshort : request.isTooLong = false) {formula : String} {graph : TaskGraph}
    (hread : readSubmission request.body = .ok formula)
    (hgraph : Formula.compile formula = .ok graph) :
    ∃ row, db.Adds (submit visit request user db).state user (some row) ∧ row.formula = formula ∧
      (submit visit request user db).answer = created visit row.id := by
  obtain ⟨e, after, hcreate, -⟩ := hdb.exists_create hkey visit.now formula graph
  obtain ⟨row, hadds, hid, hformula⟩ := Database.adds_create hcreate
  have hsubmit : submit visit request user db =
      ⟨created visit e.id, [.expressionSubmitted e.id], after⟩ := by
    simp only [submit, hjson, hshort, hread, Service.submit, hgraph, hcreate, Bool.not_true,
      Bool.false_eq_true, if_false, created]
  rw [hsubmit]
  exact ⟨row, hadds, hformula, by rw [hid]⟩

/-- No outcome of the service is an answer to somebody who is not authorized. -/
theorem status_respond_ne {α : Type} (visit : Visit) (path : String) (view : α → Json.Value)
    (outcome : Except ExpressionError α) : (respond visit path view outcome).status ≠ 401 := by
  cases outcome with
  | ok value => exact nofun
  | error e => cases e <;> exact nofun

/-- What a user is shown of all expressions: these rows, the newest first. -/
def listing (visit : Visit) (rows : List ExpressionRow) : Response :=
  respond visit expressionsPath (fun es : List Expression => .array (es.map viewExpression))
    ((rows.reverse.mapM ExpressionRow.read).mapError .ofStore)

/-- What a user is shown of an expression: this row. -/
def showing (visit : Visit) (row : ExpressionRow) : Response :=
  respond visit (expressionPath row.id) viewExpression (row.read.mapError .ofStore)

variable {es : List Enrolment} {user : UserId}

/-- The list is one of the user's expressions. -/
theorem list_eq (hdb : db.Sound es) (visit : Visit) (user : UserId) :
    list visit user db = listing visit (db.owned user) := by
  simp only [list, Service.list, hdb.listByUser_eq, listing]

/-- An expression of the user is shown. -/
theorem get_owned (hdb : db.Sound es) {segment : String} {row : ExpressionRow}
    (hid : (decodeSegment? segment).bind signedWordOf? = some row.id)
    (hrow : row ∈ db.owned user) : get visit segment user db = showing visit row := by
  have hfound : (db.owned user).find? (·.id == row.id) = some row :=
    (Memory.find?_key_eq_some_iff (hdb.numbered.increasing.filter _)).mpr ⟨hrow, rfl⟩
  have hread : (some row).mapM (·.read) = row.read.map some := rfl
  simp only [get, hid, Service.get, hdb.find_eq, hfound, showing, hread]
  cases row.read <;> rfl

/-- An expression that is not one of the user is not found, whether it is there or not. -/
theorem get_missing (hdb : db.Sound es) {segment : String} {id : ExpressionId}
    (hid : (decodeSegment? segment).bind signedWordOf? = some id)
    (hmissing : ∀ row ∈ db.owned user, row.id ≠ id) :
    get visit segment user db = Error.respond visit.now (.expression .notFound) := by
  have hnone : (db.owned user).find? (·.id == id) = none :=
    List.find?_eq_none.mpr fun row hrow => by simpa using hmissing row hrow
  simp only [get, hid, Service.get, hdb.find_eq, hnone]
  rfl

namespace Route.Handles

/-- Nobody who is known is answered as if not authorized. -/
theorem status_ne (h : route.Handles visit request f) (user : UserId) (db : Database) :
    (f user db).answer.status ≠ 401 := by
  cases h with
  | calculate =>
    obtain ⟨_, hstatus, hrefused⟩ | ⟨formula, graph, -, hstored⟩ := submit_cases visit request
    · rw [(hrefused user db).1]
      exact hstatus
    · obtain ⟨e, hanswer, -⟩ | ⟨e, after, hanswer, -⟩ := hstored user db
      · rw [hanswer]
        exact nofun
      · rw [hanswer]
        exact nofun
  | expressions => exact status_respond_ne visit _ _ _
  | expression segment =>
    simp only [silent, get]
    split
    · exact nofun
    · exact status_respond_ne visit _ _ _

/-- At most an expression of the user is added: the formula that was sent, under the number that is
answered. -/
theorem adds (h : route.Handles visit request f) (user : UserId) (db : Database) :
    ∃ added, db.Adds (f user db).state user added ∧
      ∀ row ∈ added, route = .calculate ∧ readSubmission request.body = .ok row.formula ∧
        (f user db).answer = created visit row.id := by
  have hnone : db.Adds db user none := (Database.Stamped.refl db).adds_none user
  cases h with
  | calculate =>
    obtain ⟨_, -, hrefused⟩ | ⟨formula, graph, hformula, hstored⟩ := submit_cases visit request
    · rw [(hrefused user db).2]
      exact ⟨none, hnone, nofun⟩
    · obtain ⟨e, -, hstate, -⟩ | ⟨e, after, hanswer, hstate, hcreate⟩ := hstored user db
      · rw [hstate]
        exact ⟨none, hnone, nofun⟩
      · obtain ⟨row, hadds, hid, rfl⟩ := Database.adds_create hcreate
        rw [hstate]
        refine ⟨some row, hadds, ?_⟩
        rintro _ ⟨⟩
        exact ⟨rfl, hformula, by rw [hanswer, hid]⟩
  | expressions => exact ⟨none, hnone, nofun⟩
  | expression segment => exact ⟨none, hnone, nofun⟩

/-- Two databases with the same expressions of a user answer the user alike, as long as they would
give the same number to an expression that is added. -/
theorem agree (h : route.Handles visit request f) {fs : List Enrolment} {key other : String}
    {d : Database} (hdb : db.Sound es) (hd : d.Sound fs)
    (hkey : Issued es user key) (hother : Issued fs user other)
    (howned : db.owned user = d.owned user)
    (hnext : route = .calculate → db.tables.lastExpression = d.tables.lastExpression) :
    (f user db).answer = (f user d).answer := by
  cases h with
  | calculate =>
    obtain ⟨_, -, hrefused⟩ | ⟨formula, graph, -, hstored⟩ := submit_cases visit request
    · rw [(hrefused user db).1, (hrefused user d).1]
    · have hcreated : ∀ {db : Database} {es : List Enrolment} {key : String}, db.Sound es →
          Issued es user key → (submit visit request user db).answer =
            created visit (db.tables.lastExpression + 1) := by
        intro db es key hdb hkey
        obtain ⟨e, after, hcreate, hid⟩ := hdb.exists_create hkey visit.now formula graph
        obtain ⟨_, -, -, hrefused⟩ | ⟨_, _, hanswer, -, htaken⟩ := hstored user db
        · cases hrefused.symm.trans hcreate
        · cases htaken.symm.trans hcreate
          rw [hanswer, hid]
      rw [hcreated hdb hkey, hcreated hd hother, hnext rfl]
  | expressions =>
    simp only [silent, list_eq hdb, list_eq hd, howned]
  | expression segment =>
    simp only [silent, get, Service.get, hdb.find_eq, hd.find_eq, howned]

end Route.Handles

/-! ## Requests of users and of strangers -/

/-- A request with the key of a user is handled for that user. -/
theorem serve_of_isFrom (hdb : db.Sound es) (hasks : request.Asks route)
    (hhandles : route.Handles visit request f) (hfrom : request.IsFrom es user) :
    ∃ middle, db.Stamped middle ∧
      (serve visit request db).answer = request.framed (f user middle).answer ∧
      (serve visit request db).state = (f user middle).state := by
  obtain ⟨middle, hstamped, hsender⟩ :=
    authenticate_of_isFrom hdb.enrols hdb.readable hfrom visit.now
  have hrun : route.run visit request db = f user middle := by
    rw [hhandles.run_eq, withUser, hsender]
  obtain ⟨hanswer, hstate⟩ := serve_of_asks hasks visit db
  exact ⟨middle, hstamped, hrun ▸ hanswer, hrun ▸ hstate⟩

/-- A request with the key of nobody is refused. -/
theorem serve_of_strange (hdb : db.Sound es) (hasks : request.Asks route)
    (hhandles : route.Handles visit request f) (hstrange : request.Strange es) :
    (serve visit request db).answer.status = 401 ∧ (serve visit request db).state = db := by
  obtain ⟨e, hsender, hstatus⟩ :=
    authenticate_of_strange hdb.enrols hdb.readable hstrange visit.now
  have hrun : route.run visit request db = silent (e.respond visit.now) db := by
    rw [hhandles.run_eq, withUser, hsender]
  obtain ⟨hanswer, hstate⟩ := serve_of_asks hasks visit db
  rw [hrun] at hanswer hstate
  exact ⟨by rw [hanswer, Request.framed_status]; exact hstatus, hstate⟩

/-- A request that is not for users leaves users, keys and the origin of every expression. -/
theorem serve_keeps (h : ∀ route, request.Asks route → ¬route.Personal) (visit : Visit)
    (db : Database) : db.Keeps (serve visit request db).state := by
  by_cases hasks : ∃ route, request.Asks route
  · obtain ⟨route, hasks⟩ := hasks
    rw [(serve_of_asks hasks visit db).2]
    cases route with
    | calculate => exact absurd .calculate (h _ hasks)
    | expressions => exact absurd .expressions (h _ hasks)
    | expression segment => exact absurd (.expression segment) (h _ hasks)
    | health => exact .refl db
    | fetchTask => exact .run visit.now Rpc.fetchTask db
    | submitResult =>
      simp only [Route.run]
      split_ifs
      · exact .refl db
      · exact .run visit.now (Rpc.submitResult request.body) db
  · rw [serve_of_not_asks (not_exists.mp hasks) visit db]
    exact .refl db

/-- Whatever is asked, one expression of a user is added at most, or the scheduler works. -/
theorem serve_cases (hreadable : db.readable = true) (visit : Visit) (request : Request) :
    (∃ user added, db.Adds (serve visit request db).state user added) ∨
      db.Keeps (serve visit request db).state := by
  by_cases hpersonal : ∃ route, request.Asks route ∧ route.Personal
  · obtain ⟨route, hasks, hpersonal⟩ := hpersonal
    obtain ⟨f, hhandles⟩ := hpersonal.exists_handles visit request
    rw [(serve_of_asks hasks visit db).2, hhandles.run_eq, withUser]
    have hstamped := authenticate_stamped hreadable visit.now request
    generalize authenticate visit.now request db = sender at hstamped
    obtain ⟨e | user, middle⟩ := sender
    · exact .inl ⟨0, none, hstamped.adds_none 0⟩
    · obtain ⟨added, hadds, -⟩ := hhandles.adds user middle
      exact .inl ⟨user, added, hstamped.adds hadds⟩
  · exact .inr (serve_keeps (fun route hasks hroute => hpersonal ⟨route, hasks, hroute⟩) visit db)

/-- Whatever is asked, a database in use remains one. -/
theorem serve_sound (hdb : db.Sound es) (visit : Visit) (request : Request) :
    (serve visit request db).state.Sound es := by
  obtain ⟨user, added, hadds⟩ | hkeeps := serve_cases hdb.readable visit request
  · exact hadds.sound hdb
  · exact hkeeps.sound hdb

end Reckoner.Http
