import Reckoner.Proofs.Database.Keys
import Reckoner.Proofs.Store.Memory

/-!
# The expressions of a user

What a user reads are the user's own expressions. The tables are written in two ways once users are
added: a user adds an expression, or the scheduler works on those that are there. Both leave users,
keys and the owners of expressions as they were.
-/

namespace Reckoner

open Enrolment (Issued)

/-- Expressions lie in the order of their numbers, all of which have been given out. -/
structure Tables.Numbered (t : Tables) : Prop where
  increasing : t.expressions.Pairwise (·.id < ·.id)
  given : ∀ row ∈ t.expressions, row.id ≤ t.lastExpression

/-- A database in use: both connections are open, these users were added, and expressions are
numbered. -/
structure Database.Sound (db : Database) (es : List Enrolment) : Prop where
  readable : db.readable = true
  writable : db.writable = true
  enrols : db.tables.Enrols es
  numbered : db.tables.Numbered

/-- The expressions of a user, the oldest first. -/
def Database.owned (db : Database) (user : UserId) : List ExpressionRow :=
  db.tables.expressions.filter (·.userId == user)

namespace Database.Sound

variable {db : Database} {es : List Enrolment} (h : db.Sound es)
include h

/-- Whatever is found for a user is found among the expressions of the user. -/
theorem find_eq (id : ExpressionId) (user : UserId) :
    Database.store.find id user db = ((db.owned user).find? (·.id == id)).mapM (·.read) := by
  have hsame : (db.tables.expression? id).filter (·.userId == user) =
      (db.owned user).find? (·.id == id) := by
    refine Option.ext fun row => ?_
    rw [Option.filter_eq_some_iff, Tables.expression?, Database.owned,
      Memory.find?_key_eq_some_iff h.numbered.increasing,
      Memory.find?_key_eq_some_iff (h.numbered.increasing.filter _), List.mem_filter]
    exact and_right_comm
  simp only [Database.store, Database.read, h.readable, if_true, Tables.find, hsame]

/-- What is listed are the expressions of the user. -/
theorem listByUser_eq (user : UserId) :
    Database.store.listByUser user db = (db.owned user).reverse.mapM (·.read) := by
  simp only [Database.store, Database.read, h.readable, if_true, Tables.listByUser, Database.owned,
    List.filter_reverse]

end Database.Sound

/-- One expression of a user at most is added, with its tasks, under the next number. -/
structure Database.Adds (db after : Database) (user : UserId) (added : Option ExpressionRow) :
    Prop where
  expressions_eq : after.tables.expressions = db.tables.expressions ++ added.toList
  owner : ∀ row ∈ added, row.userId = user
  number : ∀ row ∈ added, row.id = db.tables.lastExpression + 1
  lastExpression_eq :
    after.tables.lastExpression = (added.map (·.id)).getD db.tables.lastExpression
  tasks : ∃ tasks, after.tables.tasks = db.tables.tasks ++ tasks ∧
    ∀ task ∈ tasks, ∃ row ∈ added, task.expressionId = row.id
  users_eq : after.tables.users = db.tables.users
  bindings_eq : after.tables.keys.map (·.binding) = db.tables.keys.map (·.binding)
  lastUser_eq : after.tables.lastUser = db.tables.lastUser
  readable_eq : after.readable = db.readable
  writable_eq : after.writable = db.writable

namespace Database

variable {db middle after : Database} {es : List Enrolment} {user : UserId}
  {added : Option ExpressionRow}

/-- Nothing is added. -/
theorem Stamped.adds_none (h : db.Stamped after) (user : UserId) : db.Adds after user none := by
  obtain ⟨keys, hbindings, rfl⟩ := h
  have hnobody {P : ExpressionRow → Prop} : ∀ row ∈ (none : Option ExpressionRow), P row := by simp
  exact ⟨(List.append_nil _).symm, hnobody, hnobody, rfl, ⟨[], (List.append_nil _).symm, by simp⟩,
    rfl, hbindings, rfl, rfl, rfl⟩

/-- Whether uses of keys were noted before does not matter. -/
theorem Stamped.adds (h : db.Stamped middle) (hadds : middle.Adds after user added) :
    db.Adds after user added := by
  obtain ⟨keys, hbindings, rfl⟩ := h
  exact ⟨hadds.expressions_eq, hadds.owner, hadds.number, hadds.lastExpression_eq, hadds.tasks,
    hadds.users_eq, hadds.bindings_eq.trans hbindings, hadds.lastUser_eq, hadds.readable_eq,
    hadds.writable_eq⟩

theorem Stamped.owned_eq (h : db.Stamped after) (user : UserId) :
    after.owned user = db.owned user := by
  obtain ⟨keys, -, rfl⟩ := h
  rfl

theorem Stamped.lastExpression_eq (h : db.Stamped after) :
    after.tables.lastExpression = db.tables.lastExpression := by
  obtain ⟨keys, -, rfl⟩ := h
  rfl

theorem Stamped.sound (h : db.Stamped after) (hsound : db.Sound es) : after.Sound es := by
  obtain ⟨keys, hbindings, rfl⟩ := h
  exact ⟨hsound.readable, hsound.writable, hsound.enrols.congr rfl hbindings rfl,
    hsound.numbered.increasing, hsound.numbered.given⟩

/-- A database in use remains one when an expression is added. -/
theorem Adds.sound (h : db.Adds after user added) (hsound : db.Sound es) : after.Sound es := by
  refine ⟨h.readable_eq.trans hsound.readable, h.writable_eq.trans hsound.writable,
    hsound.enrols.congr h.users_eq h.bindings_eq h.lastUser_eq, ?_, fun row hrow => ?_⟩
  · rw [h.expressions_eq, List.pairwise_append]
    refine ⟨hsound.numbered.increasing, by cases added <;> simp, fun row hrow new hnew => ?_⟩
    rw [h.number new (Option.mem_toList.mp hnew)]
    exact Int.lt_add_one_of_le (hsound.numbered.given row hrow)
  · rw [h.expressions_eq, List.mem_append, Option.mem_toList] at hrow
    rw [h.lastExpression_eq]
    cases added with
    | none => exact hsound.numbered.given row (hrow.resolve_right nofun)
    | some new =>
      rw [Option.map_some, Option.getD_some]
      obtain hold | hsame := hrow
      · rw [h.number new rfl]
        exact Int.le_of_lt (Int.lt_add_one_of_le (hsound.numbered.given row hold))
      · obtain rfl := Option.some.inj hsame
        exact Int.le_refl _

/-- A database in use remains one whatever the scheduler does. -/
theorem Keeps.sound (h : db.Keeps after) (hsound : db.Sound es) : after.Sound es :=
  ⟨h.readable_eq.trans hsound.readable, h.writable_eq.trans hsound.writable,
    hsound.enrols.of_keeps h.tables,
    Memory.pairwise_of_map_key_eq h.tables.ids_eq hsound.numbered.increasing,
    h.tables.expression_le hsound.numbered.given⟩

end Database

/-! ## Adding a user -/

/-- A new user has no expressions. -/
theorem Tables.expressions_of_createUser {t after : Tables} {name key : String} {c : Credentials}
    (h : t.createUser name key = .ok (c, after)) :
    after.expressions = t.expressions ∧ after.lastExpression = t.lastExpression := by
  unfold Tables.createUser at h
  split_ifs at h
  obtain ⟨-, rfl⟩ := Prod.mk.inj (Except.ok.inj h)
  exact ⟨rfl, rfl⟩

namespace Database.Sound

variable {db after : Database} {es : List Enrolment} {entropy : List UInt8} {name : String}

/-- Over an open connection users are added to the tables. -/
theorem createUser_eq (h : db.Sound es) (entropy : List UInt8) (name : String) :
    db.createUser entropy name = (db.tables.createUser name (keyOfEntropy entropy)).map
      fun (credentials, tables) => (credentials, { db with tables }) :=
  if_pos h.writable

/-- A database in use remains one, with one more user. -/
theorem createUser (h : db.Sound es) {c : Credentials}
    (hcreate : db.createUser entropy name = .ok (c, after)) : after.Sound (es ++ [⟨name, c⟩]) := by
  rw [h.createUser_eq] at hcreate
  cases htables : db.tables.createUser name (keyOfEntropy entropy) with
  | error e =>
    rw [htables] at hcreate
    cases hcreate
  | ok reply =>
    rw [htables] at hcreate
    obtain ⟨rfl, rfl⟩ := Prod.mk.inj (Except.ok.inj hcreate)
    obtain ⟨hexpressions, hlast⟩ := Tables.expressions_of_createUser htables
    refine ⟨h.readable, h.writable, h.enrols.createUser htables, ?_, ?_⟩
    · exact hexpressions ▸ h.numbered.increasing
    · exact hexpressions ▸ hlast ▸ h.numbered.given

end Database.Sound

/-! ## Adding an expression -/

/-- New tasks are those of the new expression. -/
theorem Task.expressionId_of_mem_ofNodes {id : ExpressionId} {ids : Array TaskId} {last : TaskId}
    {nodes : List Node} {t : Task} (ht : t ∈ Task.ofNodes id ids last nodes) :
    t.expressionId = id := by
  induction nodes generalizing ids last with
  | nil => cases ht
  | cons node rest ih =>
    obtain rfl | hrest := List.mem_cons.mp ht
    · rfl
    · exact ih hrest

namespace Database

variable {db after : Database} {now : Instant} {user : UserId} {formula : String}
  {graph : TaskGraph}

/-- What a user stores is added. -/
theorem adds_create {e : Expression}
    (h : Database.store.create now user formula graph db = .ok (e, after)) :
    ∃ row, db.Adds after user (some row) ∧ row.id = e.id ∧ row.formula = formula := by
  simp only [Database.store, Database.write] at h
  split_ifs at h
  unfold Tables.create at h
  split_ifs at h
  · obtain ⟨rfl, rfl⟩ := Prod.mk.inj (Except.ok.inj h)
    refine ⟨_, ⟨rfl, ?_, ?_, rfl, ⟨_, rfl, fun row hrow => ⟨_, rfl, ?_⟩⟩, rfl, rfl, rfl, rfl, rfl⟩,
      rfl, rfl⟩
    · rintro _ ⟨⟩
      rfl
    · rintro _ ⟨⟩
      rfl
    · obtain ⟨i, hi, rfl⟩ := List.mem_mapIdx.mp hrow
      exact Task.expressionId_of_mem_ofNodes (List.getElem_mem hi)
  · cases h

/-- A user who was added can store an expression; its number is the next one. -/
theorem Sound.exists_create {es : List Enrolment} (h : db.Sound es) {key : String}
    (hissued : Issued es user key) (now : Instant) (formula : String) (graph : TaskGraph) :
    ∃ e after, Database.store.create now user formula graph db = .ok (e, after) ∧
      e.id = db.tables.lastExpression + 1 := by
  simp only [Database.store, Database.write, h.writable, if_true, Tables.create,
    h.enrols.any_user hissued]
  exact ⟨_, _, rfl, rfl⟩

end Database

end Reckoner
