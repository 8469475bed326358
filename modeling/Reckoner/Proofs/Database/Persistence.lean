import Reckoner.Proofs.Database.Interchange
import Reckoner.Proofs.Database.Provenance

/-!
# Graphs that are persisted

Where a graph names nodes by their positions, tasks name each other by their numbers, which are
given out while the tasks are made. Nodes depend on earlier ones only, so the number of the task
behind a dependency is always among those given out so far. Whatever has been called for before, in
memory or in a database, the tasks of a new expression stand for the nodes one by one, under new
numbers, and nothing that is stored changes.
-/

namespace Reckoner

/-! ## What is persisted -/

/-- What becomes of a store by calls made one after the other, each at its time. -/
def Store.reached {δ : Type} (store : Store δ) (data : δ) (calls : List (Instant × Act)) : δ :=
  calls.foldl (fun data call => (call.2.run store call.1 data).2) data

/-- What holds at first and is kept by every call holds behind all of them. -/
theorem Store.reached_induction {δ : Type} {store : Store δ} {P : δ → Prop} {data : δ}
    (hstart : P data)
    (hact : ∀ (now : Instant) (act : Act) (data : δ), P data → P (act.run store now data).2)
    (calls : List (Instant × Act)) : P (store.reached data calls) := by
  induction calls generalizing data with
  | nil => exact hstart
  | cons call calls ih => exact ih (hact call.1 call.2 data hstart)

/-- Tasks that stand for the nodes of a graph as those of an expression; `last` is the largest
number given to a task before them. -/
structure TaskGraph.Persisted (graph : TaskGraph) (id : ExpressionId) (last : TaskId)
    (ts : List Task) : Prop where
  length_eq : ts.length = graph.size
  /-- Their numbers are new. -/
  fresh : ∀ t ∈ ts, last < t.id ∧ t.id ≤ last + graph.size
  increasing : ts.Pairwise (·.id < ·.id)
  /-- The task at a position computes what the node there says, and nobody has begun with it. -/
  task : ∀ (i : Nat) (node : Node) (t : Task), graph.nodes[i]? = some node → ts[i]? = some t →
    t.expressionId = id ∧ t.operation = node.operation ∧ t.args = node.args ∧
      t.status = .pending ∧ t.result = none
  /-- Where a node waits for nothing, the task does not either. -/
  independent : ∀ (i : Nat) (node : Node) (t : Task) (slot : Slot), graph.nodes[i]? = some node →
    ts[i]? = some t → node.dependencies.get slot = none → t.dependencies.get slot = none
  /-- The position that a node waits for is found among the numbers of the tasks before it. -/
  dependency : ∀ (i : Nat) (node : Node) (t : Task) (slot : Slot) (j : Nat),
    graph.nodes[i]? = some node → ts[i]? = some t → node.dependencies.get slot = some j →
      ∃ number, ((ts.take i).map (·.id))[j]? = some number ∧
        t.dependencies.get slot = some number
  /-- From any position on, the tasks are made with the numbers of those before it at hand. -/
  made : ∀ i ≤ graph.size, ts.drop i =
    Task.ofNodes id ((ts.take i).map (·.id)).toArray (last + i) (graph.nodes.drop i)

/-- An expression that has just been stored; `last` is the largest number given to one before it. -/
structure Expression.New (e : Expression) (last : ExpressionId) (userId : UserId)
    (formula : String) : Prop where
  fresh : last < e.id
  userId_eq : e.userId = userId
  formula_eq : e.formula = formula
  status_eq : e.status = .pending
  result_eq : e.result = none
  error_eq : e.error = ""

/-- One expression and the tasks of its graph are added to a memory. -/
structure Memory.Persists (m : Memory) (userId : UserId) (formula : String) (graph : TaskGraph)
    (e : Expression) (n : Memory) : Prop where
  new : e.New m.lastExpression userId formula
  /-- The numbers in the memory have been given out. -/
  expression_le : ∀ d ∈ m.expressions, d.id ≤ m.lastExpression
  task_le : ∀ t ∈ m.tasks, t.id ≤ m.lastTask ∧ t.expressionId ≤ m.lastExpression
  expressions_eq : n.expressions = m.expressions ++ [e]
  tasks : ∃ ts, n.tasks = m.tasks ++ ts ∧ graph.Persisted e.id m.lastTask ts
  lastExpression_eq : n.lastExpression = e.id
  lastTask_eq : n.lastTask = m.lastTask + graph.size

/-- One expression and the tasks of its graph are added to a database. -/
structure Database.Persists (db : Database) (userId : UserId) (formula : String)
    (graph : TaskGraph) (e : Expression) (after : Database) : Prop where
  new : e.New db.tables.lastExpression userId formula
  /-- The numbers in the tables have been given out. -/
  expression_le : ∀ row ∈ db.tables.expressions, row.id ≤ db.tables.lastExpression
  task_le : ∀ row ∈ db.tables.tasks,
    row.id ≤ db.tables.lastTask ∧ row.expressionId ≤ db.tables.lastExpression
  expressions_eq :
    after.tables.expressions = db.tables.expressions ++ [ExpressionRow.ofExpression e]
  /-- The rows are read back as the tasks, and their references lead somewhere. -/
  tasks : ∃ ts, after.tables.tasks = db.tables.tasks ++ ts.mapIdx TaskRow.ofTask ∧
    (ts.mapIdx TaskRow.ofTask).mapM (·.read) = .ok ts ∧
    (∀ row ∈ ts.mapIdx TaskRow.ofTask, after.tables.danglingFrom row = 0) ∧
    graph.Persisted e.id db.tables.lastTask ts
  lastExpression_eq : after.tables.lastExpression = e.id
  lastTask_eq : after.tables.lastTask = db.tables.lastTask + graph.size
  users_eq : after.tables.users = db.tables.users
  keys_eq : after.tables.keys = db.tables.keys
  lastUser_eq : after.tables.lastUser = db.tables.lastUser
  readable_eq : after.readable = db.readable
  writable_eq : after.writable = db.writable

/-! ## The tasks of a graph -/

/-- Behind some tasks, the others are made with the numbers of these at hand. -/
theorem Task.drop_ofNodes (id : ExpressionId) (ids : Array TaskId) (last : TaskId)
    {nodes : List Node} {i : Nat} (hi : i ≤ nodes.length) :
    (Task.ofNodes id ids last nodes).drop i =
      Task.ofNodes id (ids ++ (((Task.ofNodes id ids last nodes).take i).map (·.id)).toArray)
        (last + i) (nodes.drop i) := by
  induction i generalizing ids last nodes with
  | zero => simp
  | succ i ih =>
    match nodes, hi with
    | node :: rest, hi =>
      have hrest := ih (ids.push (last + 1)) (last + 1) (Nat.le_of_succ_le_succ hi)
      have hlast : last + 1 + (i : Int) = last + ((i + 1 : Nat) : Int) := by
        rw [Int.add_assoc, Int.add_comm 1, Int.natCast_succ]
      rw [hlast] at hrest
      simpa [Task.ofNodes] using hrest

/-- The tasks that are made of a graph stand for its nodes. -/
theorem Task.persisted_ofGraph {graph : TaskGraph} (hshaped : graph.Shaped) (id : ExpressionId)
    (last : TaskId) : graph.Persisted id last (Task.ofGraph id last graph) := by
  have hfresh : ∀ {i : Nat} {node : Node} {t : Task}, graph.nodes[i]? = some node →
      (Task.ofGraph id last graph)[i]? = some t → t.Fresh id last i node := by
    intro i node t hnode ht
    obtain ⟨u, hu, hfresh⟩ := Task.fresh_ofGraph hshaped id last hnode
    obtain rfl := Option.some.inj (ht.symm.trans hu)
    exact hfresh
  refine ⟨Task.length_ofNodes .., fun t ht => Task.bounds_ofNodes ht, Task.pairwise_ofNodes ..,
    fun i node t hnode ht => ?_, fun i node t slot hnode ht hslot => ?_,
    fun i node t slot j hnode ht hslot => ?_, fun i hi => ?_⟩
  · have htask := hfresh hnode ht
    exact ⟨htask.expressionId_eq, htask.operation_eq, htask.args_eq, htask.status_eq,
      htask.result_eq⟩
  · rw [(hfresh hnode ht).dependencies_eq, hslot]
    rfl
  · have hlt := (hshaped.node i node hnode).backward slot j hslot
    have hsize : j < graph.nodes.length :=
      Nat.lt_trans hlt (List.getElem?_eq_some_iff.mp hnode).1
    obtain ⟨d, hd, hdependency⟩ :=
      Task.fresh_ofGraph hshaped id last (List.getElem?_eq_getElem hsize)
    refine ⟨d.id, ?_, ?_⟩
    · rw [List.getElem?_map, List.getElem?_take_of_lt hlt, hd, Option.map_some]
    · rw [(hfresh hnode ht).dependencies_eq, hslot, hdependency.id_eq]
      rfl
  · have hmade := Task.drop_ofNodes id #[] last hi
    rwa [Array.empty_append] at hmade

namespace TaskGraph.Persisted

variable {graph : TaskGraph} {id : ExpressionId} {last : TaskId} {ts : List Task} {t : Task}
  (h : graph.Persisted id last ts)
include h

/-- Every task stands for a node. -/
theorem exists_node (ht : t ∈ ts) :
    ∃ (i : Nat) (node : Node), graph.nodes[i]? = some node ∧ ts[i]? = some t := by
  obtain ⟨i, hi⟩ := List.mem_iff_getElem?.mp ht
  have hsize : i < graph.nodes.length :=
    Nat.lt_of_lt_of_eq (List.getElem?_eq_some_iff.mp hi).1 h.length_eq
  exact ⟨i, _, List.getElem?_eq_getElem hsize, hi⟩

/-- Every task is one of the expression. -/
theorem expressionId_eq (ht : t ∈ ts) : t.expressionId = id := by
  obtain ⟨i, node, hnode, hi⟩ := h.exists_node ht
  exact (h.task i node t hnode hi).1

/-- What a task waits for is one of the tasks. -/
theorem exists_dependency (ht : t ∈ ts) {slot : Slot} {number : TaskId}
    (hnumber : t.dependencies.get slot = some number) : ∃ d ∈ ts, d.id = number := by
  obtain ⟨i, node, hnode, hi⟩ := h.exists_node ht
  cases hslot : node.dependencies.get slot with
  | none =>
    rw [h.independent i node t slot hnode hi hslot] at hnumber
    cases hnumber
  | some j =>
    obtain ⟨found, hfound, hdependency⟩ := h.dependency i node t slot j hnode hi hslot
    obtain ⟨d, hd, rfl⟩ := List.mem_map.mp (List.mem_of_getElem? hfound)
    exact ⟨d, List.mem_of_mem_take hd, Option.some.inj (hdependency.symm.trans hnumber)⟩

/-- Among the tables that store them and their expression, the tasks refer to nothing that is not
there. -/
theorem danglingFrom_eq_zero {after : Tables} (hexpression : (after.expression? id).isSome = true)
    (htasks : ts.mapIdx TaskRow.ofTask ⊆ after.tasks) {row : TaskRow}
    (hrow : row ∈ ts.mapIdx TaskRow.ofTask) : after.danglingFrom row = 0 := by
  obtain ⟨i, hi, rfl⟩ := List.mem_mapIdx.mp hrow
  have hmem : ts[i] ∈ ts := List.getElem_mem hi
  refine Tables.danglingFrom_eq_zero ?_ fun number hnumber => ?_
  · have hid : (TaskRow.ofTask i ts[i]).expressionId = id := h.expressionId_eq hmem
    rw [hid]
    exact hexpression
  · obtain ⟨slot, hslot⟩ := Operands.exists_get_of_mem hnumber
    obtain ⟨d, hd, hid⟩ := h.exists_dependency hmem hslot
    obtain ⟨j, hj, rfl⟩ := List.mem_iff_getElem.mp hd
    exact ⟨_, htasks (List.mem_mapIdx.mpr ⟨j, hj, rfl⟩), hid⟩

end TaskGraph.Persisted

/-! ## In memory -/

namespace Memory

variable {m : Memory}

/-- A memory in order remains one, whatever is called for. -/
theorem Orderly.act (h : m.Orderly) (now : Instant) (act : Act) :
    (act.run Memory.store now m).2.Orderly := by
  cases act with
  | submit userId formula =>
    simp only [Act.run, Service.submit]
    cases hgraph : Formula.compile formula with
    | error e => exact h
    | ok graph => exact h.create now userId hgraph
  | get | list | tasks => exact h
  | read =>
    have hread : (Act.run Memory.store now m .read).2 = m.claim.2 := Step.act_read h now
    rw [hread]
    exact h.claim
  | complete report =>
    have hcomplete : (Act.run Memory.store now m (.complete report)).2 = m.apply report :=
      Step.act_complete h now report
    rw [hcomplete]
    exact h.apply report

/-- So does the empty one, however often something is called for. -/
theorem orderly_reached (calls : List (Instant × Act)) :
    (Memory.store.reached .empty calls).Orderly :=
  Store.reached_induction .empty (fun now act _ h => h.act now act) calls

/-- On a memory in order, a graph is persisted. -/
theorem Orderly.persists (h : m.Orderly) {graph : TaskGraph} (hshaped : graph.Shaped)
    (now : Instant) (userId : UserId) (formula : String) :
    m.Persists userId formula graph (m.create now userId formula graph).1
      (m.create now userId formula graph).2 where
  new := ⟨Int.lt_succ _, rfl, rfl, rfl, rfl, rfl⟩
  expression_le := h.numbered.expression_le
  task_le t ht := by
    obtain ⟨owner, howner, hid, -⟩ := h.owned t ht
    exact ⟨h.numbered.task_le t ht, hid ▸ h.numbered.expression_le owner howner⟩
  expressions_eq := rfl
  tasks := ⟨_, rfl, Task.persisted_ofGraph hshaped _ _⟩
  lastExpression_eq := rfl
  lastTask_eq := rfl

end Memory

/-! ## In a database -/

/-- All numbers in the tables have been given out. -/
structure Tables.Given (t : Tables) : Prop where
  expression_le : ∀ row ∈ t.expressions, row.id ≤ t.lastExpression
  task_le : ∀ row ∈ t.tasks, row.id ≤ t.lastTask ∧ row.expressionId ≤ t.lastExpression

/-- The scheduler gives out no number. -/
theorem Tables.Given.works {t after : Tables} (h : t.Given) (hworks : t.Works after) :
    after.Given := by
  have hkeeps := Tables.Keeps.of_works hworks
  refine ⟨hkeeps.expression_le h.expression_le, fun row hrow => ?_⟩
  obtain ⟨old, hold, horigin⟩ := hworks.exists_origin hrow
  obtain ⟨hid, horigin⟩ := Prod.mk.inj horigin
  obtain ⟨hexpression, -⟩ := Prod.mk.inj horigin
  rw [hid, hexpression, hworks.lastTask_eq, hkeeps.lastExpression_eq]
  exact h.task_le old hold

namespace Database

variable {db after : Database} {users : List UserRow} {now : Instant} {userId : UserId}
  {formula : String} {graph : TaskGraph} {e : Expression}

/-- A database in use by these users. -/
structure Serves (db : Database) (users : List UserRow) : Prop where
  readable : db.readable = true
  writable : db.writable = true
  users_eq : db.tables.users = users
  given : db.tables.Given

/-- A database in use remains one when a graph is persisted. -/
theorem Persists.serves (h : db.Persists userId formula graph e after) (hserves : db.Serves users) :
    after.Serves users := by
  refine ⟨h.readable_eq.trans hserves.readable, h.writable_eq.trans hserves.writable,
    h.users_eq.trans hserves.users_eq, fun row hrow => ?_, fun row hrow => ?_⟩
  · rw [h.expressions_eq] at hrow
    rw [h.lastExpression_eq]
    rcases List.mem_append.mp hrow with hold | hnew
    · exact Int.le_of_lt (Int.lt_of_le_of_lt (h.expression_le row hold) h.new.fresh)
    · rw [List.mem_singleton.mp hnew]
      exact Int.le_refl _
  · obtain ⟨ts, htasks, -, -, hpersisted⟩ := h.tasks
    rw [htasks] at hrow
    rw [h.lastExpression_eq, h.lastTask_eq]
    rcases List.mem_append.mp hrow with hold | hnew
    · obtain ⟨hid, hexpression⟩ := h.task_le row hold
      exact ⟨Int.le_trans hid (Int.le_add_of_nonneg_right (Int.natCast_nonneg _)),
        Int.le_of_lt (Int.lt_of_le_of_lt hexpression h.new.fresh)⟩
    · obtain ⟨i, hi, rfl⟩ := List.mem_mapIdx.mp hnew
      have hmem := List.getElem_mem hi
      exact ⟨(hpersisted.fresh _ hmem).2, Int.le_of_eq (hpersisted.expressionId_eq hmem)⟩

namespace Serves

variable (h : db.Serves users)
include h

/-- A user can store an expression, and its graph is persisted. -/
theorem exists_persists (huser : ∃ user ∈ users, user.id = userId) {source : String}
    (hgraph : Formula.compile source = .ok graph) (now : Instant) (formula : String) :
    ∃ e after, Database.store.create now userId formula graph db = .ok (e, after) ∧
      db.Persists userId formula graph e after := by
  have hany : db.tables.users.any (·.id == userId) = true := by
    obtain ⟨user, huser, hid⟩ := huser
    rw [h.users_eq]
    exact List.any_eq_true.mpr ⟨user, huser, beq_iff_eq.mpr hid⟩
  let e : Expression :=
    { id := db.tables.lastExpression + 1, userId, formula, status := .pending, result := none,
      error := "", createdAt := now, updatedAt := now }
  let ts := Task.ofGraph e.id db.tables.lastTask graph
  let after : Tables :=
    { db.tables with
      expressions := db.tables.expressions ++ [ExpressionRow.ofExpression e]
      tasks := db.tables.tasks ++ ts.mapIdx TaskRow.ofTask
      lastExpression := e.id
      lastTask := db.tables.lastTask + graph.size }
  have hcreate : Database.store.create now userId formula graph db =
      .ok (e, { db with tables := after }) := by
    simp only [Database.store, Database.write, h.writable, if_true, Tables.create, hany]
    rfl
  have hpersisted : graph.Persisted e.id db.tables.lastTask ts :=
    Task.persisted_ofGraph (Formula.shaped_of_compile hgraph) e.id db.tables.lastTask
  have hread : (ts.mapIdx TaskRow.ofTask).mapM (·.read) = .ok ts :=
    Tables.Shows.mapM_read
      (Tables.forall₂_mapIdx (fun t ht => Task.kept_of_mem_ofGraph hgraph ht) id)
  have hnew : ExpressionRow.ofExpression e ∈ after.expressions :=
    List.mem_append_right _ (List.mem_singleton_self _)
  have hreferences : ∀ row ∈ ts.mapIdx TaskRow.ofTask, after.danglingFrom row = 0 := fun row =>
    hpersisted.danglingFrom_eq_zero (List.find?_isSome.mpr ⟨_, hnew, beq_self_eq_true e.id⟩)
      (List.subset_append_right ..)
  exact ⟨e, _, hcreate, ⟨Int.lt_succ _, rfl, rfl, rfl, rfl, rfl⟩, h.given.expression_le,
    h.given.task_le, rfl, ⟨ts, rfl, hread, hreferences, hpersisted⟩, rfl, rfl, rfl, rfl, rfl, rfl,
    rfl⟩

/-- Nobody else can. -/
theorem create_eq_error (huser : ¬ ∃ user ∈ users, user.id = userId) (now : Instant)
    (formula : String) (graph : TaskGraph) :
    Database.store.create now userId formula graph db =
      .error (.conflict ("user " ++ toString userId ++ " does not exist")) := by
  have hany : db.tables.users.any (·.id == userId) = false := by
    rw [h.users_eq]
    exact List.any_eq_false.mpr fun user huser' hid => huser ⟨user, huser', by simpa using hid⟩
  simp only [Database.store, Database.write, h.writable, if_true, Tables.create, hany,
    Bool.false_eq_true, if_false, Except.map]

/-- A formula that is submitted is stored, or nothing changes. -/
theorem submit (now : Instant) (userId : UserId) (formula : String) :
    (Act.run Database.store now db (.submit userId formula)).2.Serves users := by
  simp only [Act.run, Service.submit]
  cases hgraph : Formula.compile formula with
  | error e => exact h
  | ok graph =>
    by_cases huser : ∃ user ∈ users, user.id = userId
    · obtain ⟨e, after, hcreate, hpersists⟩ := h.exists_persists huser hgraph now formula
      simp only [hcreate]
      exact hpersists.serves h
    · simp only [h.create_eq_error huser now formula graph]
      exact h

/-- A database in use remains one, whatever is called for. -/
theorem act (now : Instant) (act : Act) : (act.run Database.store now db).2.Serves users := by
  have hcall : ∀ {α : Type} (call : Call α),
      (call.run (Database.store.handle now) (.of db)).state.committed.Serves users := by
    intro α call
    refine call.run_keeps (P := fun db : Database => db.Serves users) (fun hanswer h => ?_) h h
    obtain ⟨tables, hworks, rfl⟩ := Database.works_of_answer hanswer
    exact ⟨h.readable, h.writable,
      (Tables.Keeps.of_works hworks).users_eq.trans h.users_eq, h.given.works hworks⟩
  cases act with
  | submit userId formula => exact h.submit now userId formula
  | get | list | tasks => exact h
  | read => exact hcall _
  | complete report => exact hcall _

end Serves

/-- Tables in which nothing has been submitted are in use, and remain so whatever is called for. -/
theorem serves_reached {t : Tables} (h : t.Unused) (calls : List (Instant × Act)) :
    (Database.store.reached (.ofTables t) calls).Serves t.users := by
  have hstart : (Database.ofTables t).Serves t.users := by
    refine ⟨rfl, rfl, rfl, fun row hrow => ?_, fun row hrow => ?_⟩
    · exact absurd hrow (h.expressions_eq ▸ List.not_mem_nil)
    · exact absurd hrow (h.tasks_eq ▸ List.not_mem_nil)
  exact Store.reached_induction (P := fun db : Database => db.Serves t.users) hstart
    (fun now act _ hserves => hserves.act now act) calls

end Database

/-- **Persisting a graph preserves it.** Whatever has been submitted by anybody, looked at, asked
for and reported on an empty store, storing an expression with any graph that a formula is compiled
to adds one pending expression under a new number and one pending task for each node, under new
increasing numbers. The task of a node has its operation and its literals, and waits in each slot
for the task of the node that the node waits for, whose number is always among those given out so
far. All other rows stay. A database does the same for its users; for anybody else it answers that
there is a conflict and changes nothing. -/
theorem Store.create_persists {t : Tables} (hunused : t.Unused) {source : String}
    {graph : TaskGraph} (hgraph : Formula.compile source = .ok graph)
    (calls : List (Instant × Act)) (now : Instant) (userId : UserId) (formula : String) :
    (let m := Memory.store.reached .empty calls
    ∃ e n, Memory.store.create now userId formula graph m = .ok (e, n) ∧
      m.Persists userId formula graph e n) ∧
    let db := Database.store.reached (.ofTables t) calls
    ((∃ user ∈ t.users, user.id = userId) →
      ∃ e after, Database.store.create now userId formula graph db = .ok (e, after) ∧
        db.Persists userId formula graph e after) ∧
    ((¬ ∃ user ∈ t.users, user.id = userId) →
      Database.store.create now userId formula graph db =
          .error (.conflict ("user " ++ toString userId ++ " does not exist")) ∧
        (Act.run Database.store now db (.submit userId source)).2 = db) := by
  have hshaped := Formula.shaped_of_compile hgraph
  have hserves := Database.serves_reached hunused calls
  refine ⟨⟨_, _, rfl, (Memory.orderly_reached calls).persists hshaped now userId formula⟩,
    fun huser => hserves.exists_persists huser hgraph now formula, fun huser => ⟨?_, ?_⟩⟩
  · exact hserves.create_eq_error huser now formula graph
  · simp only [Act.run, Service.submit, hgraph, hserves.create_eq_error huser now source graph]

/-- A user and somebody who is none submit a formula, and the only task is claimed and reported on;
then the graph of another formula is persisted in memory and in the database, for the user only. -/
theorem Store.create_persists_sample :
    let graph : TaskGraph := ⟨[
      ⟨.add, ⟨some ⟨0x3ff0000000000000⟩, some ⟨0x4000000000000000⟩⟩, ⟨none, none⟩⟩,
      ⟨.negate, ⟨none, none⟩, ⟨some 0, none⟩⟩]⟩
    let calls : List (Instant × Act) := [(default, .submit 1 "1+1"), (default, .submit 2 "1+1"),
      (default, .read), (default, .complete (.success 1 1 ⟨0⟩))]
    let m := Memory.store.reached .empty calls
    let db := Database.store.reached (.ofTables Tables.sample) calls
    Tables.sample.Unused ∧ Formula.compile "-(1+2)" = .ok graph ∧
      (∃ e n, Memory.store.create default 1 "-(1+2)" graph m = .ok (e, n) ∧
        m.Persists 1 "-(1+2)" graph e n) ∧
      (∃ e after, Database.store.create default 1 "-(1+2)" graph db = .ok (e, after) ∧
        db.Persists 1 "-(1+2)" graph e after) ∧
      Database.store.create default 2 "-(1+2)" graph db =
        .error (.conflict "user 2 does not exist") := by
  intro graph calls m db
  have hunused : Tables.sample.Unused := ⟨rfl, rfl, rfl, rfl⟩
  have hgraph : Formula.compile "-(1+2)" = .ok graph := by decide +kernel
  have huser : ∃ user ∈ Tables.sample.users, user.id = 1 := ⟨_, List.mem_singleton_self _, rfl⟩
  have hnobody : ¬ ∃ user ∈ Tables.sample.users, user.id = 2 := by decide
  obtain ⟨hmemory, hdatabase, -⟩ :=
    Store.create_persists hunused hgraph calls default 1 "-(1+2)"
  obtain ⟨-, -, hconflict⟩ := Store.create_persists hunused hgraph calls default 2 "-(1+2)"
  exact ⟨hunused, hgraph, hmemory, hdatabase huser, (hconflict hnobody).1⟩

end Reckoner
