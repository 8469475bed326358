import Reckoner.Proofs.Database.Interchange

/-!
# What a store has taken

The submissions that a store has answered with an expression are its ledger. In a memory the rows of
expressions are those of the ledger, one for each submission and in the same order, whatever workers
ask for and report in between; a database goes along with a memory that is called by the users it
knows alone, and so has the same ledger.
-/

namespace Reckoner

/-- A formula that a store has taken from a user, with the number it was given. -/
structure Submission where
  id : ExpressionId
  userId : UserId
  formula : String
deriving DecidableEq, Repr

/-- An expression is the one of a submission. -/
structure Submission.Shows (s : Submission) (e : Expression) : Prop where
  id_eq : e.id = s.id
  userId_eq : e.userId = s.userId
  formula_eq : e.formula = s.formula

/-- What a call adds to the submissions: a formula that was answered with an expression. -/
def Act.taken (act : Act) (answer : Answer) : List Submission :=
  match act, answer with
  | .submit userId formula, .expression (.ok e) => [⟨e.id, userId, formula⟩]
  | _, _ => []

/-- A store behind some calls. -/
structure Ledger (δ : Type) where
  /-- What is stored. -/
  data : δ
  /-- The submissions that were taken, the newest last. -/
  taken : List Submission

/-- The ledger behind one more call. -/
def Ledger.record {δ : Type} (store : Store δ) (l : Ledger δ) (call : Instant × Act) : Ledger δ :=
  let reply := call.2.run store call.1 l.data
  ⟨reply.2, l.taken ++ call.2.taken reply.1⟩

/-- The ledger of calls one after the other, each at its time. -/
def Store.ledger {δ : Type} (store : Store δ) (data : δ) (calls : List (Instant × Act)) :
    Ledger δ :=
  calls.foldl (Ledger.record store) ⟨data, []⟩

/-! ## Memories -/

section Memory

variable {m : Memory} {taken : List Submission}

/-- A change of an expression that keeps its number, its owner and its formula. -/
theorem Submission.forall₂_revise (h : List.Forall₂ Submission.Shows taken m.expressions)
    (id : ExpressionId) {f : Expression → Expression}
    (hf : ∀ e, (f e).id = e.id ∧ (f e).userId = e.userId ∧ (f e).formula = e.formula) :
    List.Forall₂ Submission.Shows taken (m.revise id f).expressions := by
  unfold Memory.revise
  rw [List.forall₂_map_right_iff]
  refine h.imp fun s e hs => ?_
  split_ifs
  · obtain ⟨hid, huser, hformula⟩ := hf e
    exact ⟨hid.trans hs.id_eq, huser.trans hs.userId_eq, hformula.trans hs.formula_eq⟩
  · exact hs

/-- A claim keeps all expressions, and what was submitted. -/
theorem Submission.forall₂_claim (hm : m.Numbered)
    (h : List.Forall₂ Submission.Shows taken m.expressions) :
    List.Forall₂ Submission.Shows taken m.claim.2.expressions := by
  obtain hnone | ⟨t, -, hclaims⟩ := Memory.claim_cases hm
  · rw [hnone]
    exact h
  · rw [hclaims.expressions_eq]
    refine forall₂_revise h _ fun e => ?_
    split_ifs <;> exact ⟨rfl, rfl, rfl⟩

/-- A report keeps all expressions, and what was submitted. -/
theorem Submission.forall₂_apply (hm : m.Numbered)
    (h : List.Forall₂ Submission.Shows taken m.expressions) (report : Report) :
    List.Forall₂ Submission.Shows taken (m.apply report).expressions := by
  have happlies := Memory.apply_cases hm report
  generalize m.apply report = n at happlies
  cases happlies with
  | dropped => exact h
  | failed t error => exact forall₂_revise h _ fun _ => ⟨rfl, rfl, rfl⟩
  | completed t => exact h
  | finished t => exact forall₂_revise h _ fun _ => ⟨rfl, rfl, rfl⟩

end Memory

/-- A memory in order whose expressions are those that were submitted. -/
structure Ledger.Kept (l : Ledger Memory) : Prop where
  orderly : l.data.Orderly
  shows : List.Forall₂ Submission.Shows l.taken l.data.expressions

namespace Ledger

/-- Nothing has been submitted at first. -/
theorem Kept.empty : Kept ⟨Memory.empty, []⟩ := ⟨.empty, .nil⟩

/-- Every call keeps the ledger of a memory. -/
theorem Kept.record {l : Ledger Memory} (h : l.Kept) (call : Instant × Act) :
    (l.record Memory.store call).Kept := by
  obtain ⟨now, act⟩ := call
  have hsame : ∀ {n : Memory}, n.Orderly → List.Forall₂ Submission.Shows l.taken n.expressions →
      Kept ⟨n, l.taken ++ []⟩ := fun hn hshows => ⟨hn, (List.append_nil l.taken).symm ▸ hshows⟩
  cases act with
  | submit userId formula =>
    simp only [Ledger.record, Act.run, Service.submit]
    cases hgraph : Formula.compile formula with
    | error e => exact hsame h.orderly h.shows
    | ok graph =>
      refine ⟨h.orderly.create now userId hgraph, ?_⟩
      exact List.rel_append h.shows (.cons ⟨rfl, rfl, rfl⟩ .nil)
  | get userId id => exact hsame h.orderly h.shows
  | list userId => exact hsame h.orderly h.shows
  | tasks userId id => exact hsame h.orderly h.shows
  | read =>
    have hafter : (Act.run Memory.store now l.data .read).2 = l.data.claim.2 :=
      Step.act_read h.orderly now
    simp only [Ledger.record, hafter]
    exact hsame h.orderly.claim (Submission.forall₂_claim h.orderly.numbered h.shows)
  | complete report =>
    have hafter : (Act.run Memory.store now l.data (.complete report)).2 = l.data.apply report :=
      Step.act_complete h.orderly now report
    simp only [Ledger.record, hafter]
    exact hsame (h.orderly.apply report)
      (Submission.forall₂_apply h.orderly.numbered h.shows report)

/-- Any calls keep the ledger of a memory. -/
theorem Kept.foldl {l : Ledger Memory} (h : l.Kept) (calls : List (Instant × Act)) :
    (calls.foldl (Ledger.record Memory.store) l).Kept := by
  induction calls generalizing l with
  | nil => exact h
  | cons call rest ih => exact ih (h.record call)

/-! ## Databases -/

/-- A database that stands for a memory with the same ledger. -/
structure Mirrors (users : List UserRow) (l : Ledger Database) (k : Ledger Memory) : Prop where
  standsFor : StandsFor users l.data k.data
  taken_eq : l.taken = k.taken

variable {users : List UserRow} {l : Ledger Database} {k : Ledger Memory}

/-- Answers that agree add the same submissions: neither times nor numbers matter. -/
theorem taken_eq_of_agrees (act : Act) {answer other : Answer} (h : answer.Agrees other) :
    act.taken answer = act.taken other := by
  have htimeless : ∀ answer : Answer, act.taken answer.timeless = act.taken answer := by
    rintro ((_ | e) | es | ts | t | r) <;> cases act <;> rfl
  have hnumbers : ∀ answer : Answer,
      act.taken (answer.mapNumbers Binary64.plain) = act.taken answer := by
    rintro ((_ | e) | es | ts | t | r) <;> cases act <;> rfl
  rw [← htimeless answer, h, htimeless, hnumbers]

/-- A call of a user who is there is recorded in both ledgers alike. -/
theorem Mirrors.record (h : Mirrors users l k) {call : Instant × Act} (hnow : call.1.Storable)
    (hact : call.2.By users) :
    Mirrors users (l.record Database.store call) (k.record Memory.store call) := by
  obtain ⟨hagrees, hstands⟩ := h.standsFor.run hnow call.1 hact
  refine ⟨hstands, ?_⟩
  simp only [Ledger.record, h.taken_eq, taken_eq_of_agrees call.2 hagrees]

/-- A call that is not one of a user who is there changes nothing. -/
theorem Mirrors.record_of_not_by (h : Mirrors users l k) {call : Instant × Act}
    (hact : ¬call.2.By users) : l.record Database.store call = l := by
  obtain ⟨now, act⟩ := call
  cases act
  case submit userId formula =>
    have hany : ¬l.data.tables.users.any (·.id == userId) = true := by
      rw [h.standsFor.shows.tables.users_eq, List.any_eq_true]
      rintro ⟨user, huser, hid⟩
      exact hact ⟨user, huser, beq_iff_eq.mp hid⟩
    simp only [Ledger.record, Act.run, Service.submit]
    cases Formula.compile formula with
    | error e => simp [Act.taken]
    | ok graph =>
      have hcreate : ∃ e, Database.store.create now userId formula graph l.data = .error e := by
        refine ⟨.conflict ("user " ++ toString userId ++ " does not exist"), ?_⟩
        simp only [Database.store, Database.write, h.standsFor.shows.writable, if_true,
          Tables.create, if_neg hany]
        rfl
      obtain ⟨e, hcreate⟩ := hcreate
      simp [hcreate, Act.taken]
  all_goals exact absurd trivial hact

/-- Whatever a database is called for, it goes along with a memory that is called by the users who
are there. -/
theorem Mirrors.exists_foldl (h : Mirrors users l k) {calls : List (Instant × Act)}
    (hclock : ∀ call ∈ calls, call.1.Storable) :
    ∃ heard : List (Instant × Act), Mirrors users (calls.foldl (Ledger.record Database.store) l)
      (heard.foldl (Ledger.record Memory.store) k) := by
  induction calls generalizing l k with
  | nil => exact ⟨[], h⟩
  | cons call rest ih =>
    obtain ⟨hnow, hrest⟩ := List.forall_mem_cons.mp hclock
    by_cases hact : call.2.By users
    · obtain ⟨heard, hheard⟩ := ih (h.record hnow hact) hrest
      exact ⟨call :: heard, hheard⟩
    · obtain ⟨heard, hheard⟩ := ih h hrest
      refine ⟨heard, ?_⟩
      rw [List.foldl_cons, h.record_of_not_by hact]
      exact hheard

end Ledger

end Reckoner
