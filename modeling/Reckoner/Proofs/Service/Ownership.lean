import Reckoner.Proofs.Scheduler.Lifecycle
import Reckoner.Proofs.Service.Ledger

/-!
# Who sees what

A user sees one expression for each formula of his own that was taken, and nothing else: no call of
anybody drops a row, gives it to somebody else or changes its place. `Store.Tells` says in which
rows and tasks a store looks, and `Submission.Accounts` what is in them; what users are answered
follows from the two, for a memory and for a database alike.
-/

namespace Reckoner

/-! ## Tasks of an expression -/

/-- Tasks are all that is stored of an expression: those of its graph, in the order of evaluation
and with the operands that are known by now, until the expression ends, and none from then on. -/
def Expression.HasTasks (e : Expression) (ts : List Task) : Prop :=
  ∃ graph, Formula.compile e.formula = .ok graph ∧ (e.status.isTerminal = true → ts = []) ∧
    (e.status.isTerminal = false → ∃ base,
      List.Forall₂ Task.Grows (Task.ofGraph e.id base graph) ts)

namespace Memory

variable {m : Memory}

/-- An expression that has ended has no tasks. -/
theorem Orderly.tasksOf_eq_nil (h : m.Orderly) {e : Expression} (he : e ∈ m.expressions)
    (hterminal : e.status.isTerminal = true) : m.tasksOf e.id = [] := by
  refine List.filter_eq_nil_iff.mpr fun t ht howner => ?_
  obtain ⟨d, hd, hid, hopen⟩ := h.owned t ht
  obtain rfl := h.numbered.eq_of_expression_id_eq hd he (hid.trans (beq_iff_eq.mp howner))
  rw [hterminal] at hopen
  cases hopen

/-- The tasks of an expression in a memory in order. -/
theorem Orderly.hasTasks (h : m.Orderly) {e : Expression} (he : e ∈ m.expressions) :
    e.HasTasks (m.tasksOf e.id) := by
  obtain ⟨graph, hgraph, hprogress⟩ := h.progress e he
  refine ⟨graph, hgraph, h.tasksOf_eq_nil he, fun hopen => ?_⟩
  cases hprogress with
  | unfinished base _ _ _ htasks =>
    exact ⟨base, htasks.forall₂_grows h.numbered (Formula.shaped_of_compile hgraph)⟩
  | completed _ hstatus | failed hstatus =>
    rw [hstatus] at hopen
    cases hopen

end Memory

/-! ## What a store looks at -/

section Rows

variable {δ : Type} {store : Store δ} {data : δ} {rows : List Expression} {stored : List Task}
  {taken : List Submission}

/-- Expressions and tasks are looked up in these rows. -/
structure Store.Tells (store : Store δ) (data : δ) (rows : List Expression)
    (stored : List Task) : Prop where
  find : ∀ id userId, store.find id userId data =
    .ok ((rows.find? (·.id == id)).filter (·.userId == userId))
  listByUser : ∀ userId, store.listByUser userId data =
    .ok (rows.reverse.filter (·.userId == userId))
  listTasks : ∀ id, store.listTasks id data = .ok (stored.filter (·.expressionId == id))

/-- The rows are those of the submissions that were taken, with their tasks. -/
structure Submission.Accounts (taken : List Submission) (rows : List Expression)
    (stored : List Task) : Prop where
  increasing : rows.Pairwise (·.id < ·.id)
  shows : List.Forall₂ Submission.Shows taken rows
  tasks : ∀ e ∈ rows, e.HasTasks (stored.filter (·.expressionId == e.id))

/-- What a user sees: these rows. -/
structure Store.Sees (store : Store δ) (data : δ) (stored : List Task) (taken : List Submission)
    (userId : UserId) (rows : List Expression) : Prop where
  /-- The rows are listed. -/
  list : Service.list store userId data = .ok rows
  /-- There is one for each formula of the user that was taken, the newest first. -/
  shows : List.Forall₂ Submission.Shows (taken.filter (·.userId == userId)).reverse rows
  /-- Each of them is found by its number. -/
  get : ∀ e ∈ rows, Service.get store userId e.id data = .ok e
  /-- So are its tasks, which are all that is stored of it. -/
  tasks : ∀ e ∈ rows,
    Service.tasks store userId e.id data = .ok (stored.filter (·.expressionId == e.id)) ∧
      e.HasTasks (stored.filter (·.expressionId == e.id))
  /-- Nothing else is found. -/
  missing : ∀ id, (∀ e ∈ rows, e.id ≠ id) →
    Service.get store userId id data = .error .notFound ∧
      Service.tasks store userId id data = .error .notFound

/-- What is answered by a store that has taken these submissions. -/
structure Store.Owns (store : Store δ) (data : δ) (stored : List Task)
    (taken : List Submission) : Prop where
  /-- No number is given out twice. -/
  increasing : taken.Pairwise (·.id < ·.id)
  /-- Every user sees what is his own. -/
  sees : ∀ userId, ∃ rows, store.Sees data stored taken userId rows
  /-- A formula that is not compiled changes nothing. -/
  refused : ∀ now userId formula e, Formula.compile formula = .error e →
    Act.run store now data (.submit userId formula) = (.expression (.error (.invalid e)), data)

/-- The rows of a user are in the list of all rows. -/
theorem Store.Tells.find_eq (h : store.Tells data rows stored)
    (hrows : rows.Pairwise (·.id < ·.id)) {e : Expression} (he : e ∈ rows) :
    store.find e.id e.userId data = .ok (some e) := by
  rw [h.find, (Memory.find?_key_eq_some_iff hrows).mpr ⟨he, rfl⟩]
  simp

/-- What is not among the rows of a user is not found. -/
theorem Store.Tells.find_eq_none (h : store.Tells data rows stored) {userId : UserId}
    {id : ExpressionId} (hmissing : ∀ e ∈ rows, e.userId = userId → e.id ≠ id) :
    store.find id userId data = .ok none := by
  rw [h.find]
  congr 1
  refine Option.filter_eq_none_iff.mpr fun e he howner => ?_
  have hid : e.id = id := by simpa using List.find?_some he
  exact hmissing e (List.mem_of_find?_eq_some he) (beq_iff_eq.mp howner) hid

namespace Submission.Accounts

variable (h : Submission.Accounts taken rows stored)
include h

/-- The submissions were numbered in their order. -/
theorem taken_increasing : taken.Pairwise (·.id < ·.id) := by
  have hids : taken.map (·.id) = rows.map (·.id) :=
    List.forall₂_eq_eq_eq ▸ List.rel_map (fun _ _ hs => hs.id_eq.symm) h.shows
  exact Memory.pairwise_of_map_key_eq hids h.increasing

/-- A user sees the rows of the user, the newest first. -/
theorem sees (htells : store.Tells data rows stored) (userId : UserId) :
    store.Sees data stored taken userId (rows.reverse.filter (·.userId == userId)) := by
  have hmem : ∀ {e}, e ∈ rows.reverse.filter (·.userId == userId) ↔
      e ∈ rows ∧ e.userId = userId := by
    intro e
    rw [List.mem_filter, List.mem_reverse, beq_iff_eq]
  have hget : ∀ e ∈ rows.reverse.filter (·.userId == userId),
      Service.get store userId e.id data = .ok e := by
    intro e he
    obtain ⟨hrow, rfl⟩ := hmem.mp he
    simp only [Service.get, htells.find_eq h.increasing hrow]
  refine ⟨?_, ?_, hget, fun e he => ⟨?_, h.tasks e (hmem.mp he).1⟩, fun id hmissing => ?_⟩
  · simp only [Service.list, htells.listByUser]
    rfl
  · rw [← List.filter_reverse]
    refine List.rel_filter (fun s e hs => ?_) (List.rel_reverse h.shows)
    simp only [hs.userId_eq]
  · simp only [Service.tasks, hget e he]
    change (store.listTasks e.id data).mapError _ = _
    rw [htells.listTasks]
    rfl
  · have hnone : Service.get store userId id data = .error .notFound := by
      have hfind := htells.find_eq_none fun e he howner => hmissing e (hmem.mpr ⟨he, howner⟩)
      simp only [Service.get, hfind]
    refine ⟨hnone, ?_⟩
    simp only [Service.tasks, hnone]
    rfl

/-- Rows that are those of the submissions are seen by their owners. -/
theorem owns (htells : store.Tells data rows stored) : store.Owns data stored taken := by
  refine ⟨h.taken_increasing, fun userId => ⟨_, h.sees htells userId⟩, ?_⟩
  intro now userId formula e hrefused
  simp only [Act.run, Service.submit, hrefused]

end Submission.Accounts

end Rows

/-! ## Memories -/

namespace Ledger.Kept

variable {l : Ledger Memory}

/-- A memory is asked about its rows. -/
theorem tells (m : Memory) : Memory.store.Tells m m.expressions m.tasks :=
  ⟨fun _ _ => rfl, fun _ => rfl, fun _ => rfl⟩

/-- The rows of a memory are those of its ledger. -/
theorem accounts (h : l.Kept) :
    Submission.Accounts l.taken l.data.expressions l.data.tasks :=
  ⟨h.orderly.numbered.expressions, h.shows, fun _ he => h.orderly.hasTasks he⟩

end Ledger.Kept

/-! ## Databases -/

/-- Between two related lists there is a third one, entry by entry. -/
theorem exists_between {α β γ : Type} {R : α → β → Prop} {S : α → γ → Prop} {T : γ → β → Prop}
    {xs : List α} {ys : List β} (h : List.Forall₂ R xs ys)
    (hbetween : ∀ x y, R x y → ∃ z, S x z ∧ T z y) :
    ∃ zs, List.Forall₂ S xs zs ∧ List.Forall₂ T zs ys := by
  induction h with
  | nil => exact ⟨[], .nil, .nil⟩
  | @cons x y _ _ hfirst _ ih =>
    obtain ⟨z, hxz, hzy⟩ := hbetween x y hfirst
    obtain ⟨zs, hxs, hys⟩ := ih
    exact ⟨z :: zs, .cons hxz hxs, .cons hzy hys⟩

/-- A row that is read as an expression. -/
structure ExpressionRow.Reads (row : ExpressionRow) (e : Expression) : Prop where
  read_eq : row.read = .ok e
  id_eq : row.id = e.id
  userId_eq : row.userId = e.userId

/-- Rows are read one by one. -/
theorem ExpressionRow.mapM_read {rows : List ExpressionRow} {es : List Expression}
    (h : List.Forall₂ ExpressionRow.Reads rows es) : rows.mapM (·.read) = .ok es := by
  induction h with
  | nil => rfl
  | cons hfirst _ ih =>
    rw [List.mapM_cons, hfirst.read_eq, ih]
    rfl

namespace StandsFor

variable {users : List UserRow} {db : Database} {m : Memory}

/-- A database is asked about the rows of the memory that it stands for, but for times and signs of
zeros. -/
theorem exists_tells (h : StandsFor users db m) : ∃ rows,
    Database.store.Tells db rows (m.mapNumbers Binary64.plain).tasks ∧
      List.Forall₂ (fun d e => d.timeless = Expression.timeless (e.mapNumbers Binary64.plain)) rows
        m.expressions := by
  have hbetween : ∀ (row : ExpressionRow) (e : Expression), row.Shows e →
      ∃ d, row.Reads d ∧ d.timeless = e.timeless := by
    intro row e hrow
    obtain ⟨d, hread, htimeless⟩ := hrow.read_eq
    exact ⟨d, ⟨hread, hrow.id_eq.trans (congrArg Expression.id htimeless).symm,
      hrow.userId_eq.trans (congrArg Expression.userId htimeless).symm⟩, htimeless⟩
  obtain ⟨rows, hreads, hrows⟩ := exists_between h.shows.tables.expressions hbetween
  have hrows : List.Forall₂ (fun d e : Expression => d.timeless = e.timeless) rows
    (m.expressions.map (·.mapNumbers Binary64.plain)) := hrows
  rw [List.forall₂_map_right_iff] at hrows
  refine ⟨rows, ⟨fun id userId => ?_, fun userId => ?_, fun id => ?_⟩, hrows⟩
  · have hrel : Option.Rel ExpressionRow.Reads (db.tables.expression? id)
        (rows.find? (·.id == id)) :=
      rel_find? hreads fun _ _ hrow => congrArg (· == id) hrow.id_eq
    simp only [Database.store, Database.read, h.shows.readable, if_true, Tables.find]
    generalize db.tables.expression? id = row at hrel ⊢
    generalize rows.find? (·.id == id) = e at hrel ⊢
    cases hrel with
    | none => rfl
    | @some row e hrow =>
      rw [Option.filter_some, Option.filter_some, hrow.userId_eq]
      split_ifs
      · change (Functor.map some row.read : Except StoreError _) = _
        rw [hrow.read_eq]
        rfl
      · rfl
  · simp only [Database.store, Database.read, h.shows.readable, if_true, Tables.listByUser]
    refine ExpressionRow.mapM_read (List.rel_filter (fun row e hrow => ?_)
      (List.rel_reverse hreads))
    simp only [hrow.userId_eq]
  · simp only [Database.store, Database.read, h.shows.readable, if_true, Tables.listTasks]
    exact h.shows.tables.mapM_tasksOf id

/-- All tasks of a database are read back. -/
theorem mapM_tasks (h : StandsFor users db m) :
    db.tables.tasks.mapM (·.read) = .ok (m.mapNumbers Binary64.plain).tasks :=
  Tables.Shows.mapM_read h.shows.tables.tasks

end StandsFor

/-- A task whose numbers are exchanged has grown from one whose numbers are. -/
theorem Task.Grows.mapNumbers {s t : Task} (h : s.Grows t) (f : Binary64 → Binary64) :
    (s.mapNumbers f).Grows (t.mapNumbers f) := by
  refine ⟨h.id_eq, h.expressionId_eq, h.operation_eq, h.dependencies_eq,
    fun slot value hvalue => ?_⟩
  simp only [Task.mapNumbers, Operands.get_map] at hvalue ⊢
  obtain ⟨before, hbefore, rfl⟩ := Option.map_eq_some_iff.mp hvalue
  rw [h.args slot before hbefore, Option.map_some]

/-- Tasks whose zeros have no sign are still those of the graph: its literals have none. -/
theorem Expression.HasTasks.mapNumbers {d e : Expression} {ts : List Task} (h : e.HasTasks ts)
    (hsame : d.timeless = Expression.timeless (e.mapNumbers Binary64.plain)) :
    d.HasTasks (ts.map (·.mapNumbers Binary64.plain)) := by
  obtain ⟨graph, hgraph, hended, hopen⟩ := h
  have hid : d.id = e.id := congrArg (·.id) hsame
  have hformula : d.formula = e.formula := congrArg (·.formula) hsame
  have hstatus : d.status = e.status := congrArg (·.status) hsame
  refine ⟨graph, hformula ▸ hgraph, fun hterminal => ?_, fun hterminal => ?_⟩
  · rw [hended (hstatus ▸ hterminal), List.map_nil]
  · obtain ⟨base, hgrows⟩ := hopen (hstatus ▸ hterminal)
    have hliterals := Memory.map_mapNumbers_ofGraph (Formula.shaped_of_compile hgraph)
      (fun node hnode slot value hvalue =>
        (Binary64.of_stored? (Formula.stored?_of_compile hgraph hnode hvalue)).2) e.id base
    refine ⟨base, ?_⟩
    rw [hid, ← hliterals, List.forall₂_map_left_iff, List.forall₂_map_right_iff]
    exact hgrows.imp fun s t hst => hst.mapNumbers Binary64.plain

/-- Rows that are the same as those of submissions, times and numbers apart, are theirs too. -/
theorem Submission.forall₂_timeless {taken : List Submission} {ds es : List Expression}
    (h : List.Forall₂ Submission.Shows taken es)
    (hsame : List.Forall₂ (fun d e => d.timeless =
      Expression.timeless (e.mapNumbers Binary64.plain)) ds es) :
    List.Forall₂ Submission.Shows taken ds := by
  induction h generalizing ds with
  | nil =>
    cases hsame
    exact .nil
  | cons hfirst _ ih =>
    cases hsame with
    | cons heq hrest =>
      refine .cons ⟨?_, ?_, ?_⟩ (ih hrest)
      · exact (congrArg Expression.id heq).trans hfirst.id_eq
      · exact (congrArg Expression.userId heq).trans hfirst.userId_eq
      · exact (congrArg Expression.formula heq).trans hfirst.formula_eq

/-- The rows of a database are those of its ledger. -/
theorem Ledger.Mirrors.exists_accounts {users : List UserRow} {l : Ledger Database}
    {k : Ledger Memory} (h : Mirrors users l k) (hk : k.Kept) :
    ∃ rows, Database.store.Tells l.data rows (k.data.mapNumbers Binary64.plain).tasks ∧
      Submission.Accounts l.taken rows (k.data.mapNumbers Binary64.plain).tasks := by
  obtain ⟨rows, htells, hrows⟩ := h.standsFor.exists_tells
  refine ⟨rows, htells, ?_, ?_, fun d hd => ?_⟩
  · have hids : rows.map (·.id) = k.data.expressions.map (·.id) :=
      List.forall₂_eq_eq_eq ▸ List.rel_map (fun d e heq => congrArg (·.id) heq) hrows
    exact Memory.pairwise_of_map_key_eq hids hk.orderly.numbered.expressions
  · rw [h.taken_eq]
    exact Submission.forall₂_timeless hk.shows hrows
  · obtain ⟨e, he, hsame⟩ := exists_of_forall₂ hrows.flip hd
    have hid : d.id = e.id := congrArg (·.id) hsame
    have htasks := (hk.orderly.hasTasks he).mapNumbers hsame
    rw [← Memory.tasksOf_mapNumbers] at htasks
    rw [hid]
    exact htasks

/-- **Every user sees what is his own.** Whatever is submitted by any users, looked at, asked for
and reported, in any order: a user is listed exactly one expression for each formula of his that was
taken, the newest first, and finds these and nothing else by their numbers; their tasks are all that
is stored of them, in the order of evaluation; and a formula that is not compiled changes nothing.
This holds of a memory, and of a database in which nothing had been submitted before, at times that
can be stored. -/
theorem Store.ownership :
    (∀ calls, let l := Memory.store.ledger .empty calls
      Memory.store.Owns l.data l.data.tasks l.taken) ∧
    ∀ tables : Tables, tables.Unused → ∀ calls : List (Instant × Act),
      (∀ call ∈ calls, call.1.Storable) →
      let l := Database.store.ledger (.ofTables tables) calls
      ∃ stored, l.data.tables.tasks.mapM (·.read) = .ok stored ∧
        Database.store.Owns l.data stored l.taken := by
  constructor
  · intro calls
    exact (Ledger.Kept.empty.foldl calls).accounts.owns (Ledger.Kept.tells _)
  · intro tables hunused calls hclock
    have hmirrors : Ledger.Mirrors tables.users ⟨.ofTables tables, []⟩ ⟨.empty, []⟩ :=
      ⟨hunused.standsFor, rfl⟩
    obtain ⟨heard, hmirrors⟩ := hmirrors.exists_foldl hclock
    obtain ⟨rows, htells, haccounts⟩ := hmirrors.exists_accounts (Ledger.Kept.empty.foldl heard)
    exact ⟨_, hmirrors.standsFor.mapM_tasks, haccounts.owns htells⟩

/-- Two users submit formulas, of which one is malformed, and a worker reports on the first task. -/
def Act.submissions : List (Instant × Act) :=
  [(default, .submit 1 "1+1"), (default, .submit 2 "2*3"), (default, .submit 1 "2+"),
    (default, .read), (default, .complete (.success 1 1 ⟨0x4000000000000000⟩)),
    (default, .submit 1 "3-2")]

/-- Tables with one user take the formulas of this user alone, and he sees them. -/
theorem Store.ownership_sample :
    let l := Database.store.ledger (.ofTables Tables.sample) Act.submissions
    Tables.sample.Unused ∧ (∀ call ∈ Act.submissions, call.1.Storable) ∧
      l.taken = [⟨1, 1, "1+1"⟩, ⟨2, 1, "3-2"⟩] ∧
      ∃ stored, l.data.tables.tasks.mapM (·.read) = .ok stored ∧
        Database.store.Owns l.data stored l.taken := by
  have hunused : Tables.sample.Unused := ⟨rfl, rfl, rfl, rfl⟩
  have hclock : ∀ call ∈ Act.submissions, call.1.Storable := by
    have hdefault : (default : Instant).Storable := ⟨by decide, by decide, by decide⟩
    simp [Act.submissions, hdefault]
  exact ⟨hunused, hclock, by decide +kernel, Store.ownership.2 _ hunused _ hclock⟩

end Reckoner
