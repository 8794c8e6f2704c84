/-
  OraOS.Orders.StatusRace — `updateStatus` under READ COMMITTED, any number of them
  at once on one order.

  The move is decided from an unlocked read; the UPDATE waits for the row lock and
  then writes whatever the status has become.  A commit is recorded with what it
  found and what it had read:

    * `statusProgram`       — the statements of the transaction;
    * `updateStatus_alone`  — on its own it is `updateStatus`;
    * `fresh_runs_lawful`   — while every commit read the status it replaces, the
                              committed changes are one path of the whitelist;
    * `stale_commit_unlawful` — and after a commit that did not, they are not.
-/
import OraOS.Orders.SalesFigures
import OraOS.Lib.Transactions

namespace OraOS.Orders

open OraOS.Api
open OraOS.Lib
open OraOS.Inventory

/-! ## §1. Paths through the whitelist. -/

/-- The status changes `l` lead from `s` to `t`, each one legal and each one from
where the one before it ended. -/
inductive StatusPath : OrderStatus → List (OrderStatus × OrderStatus) → OrderStatus → Prop where
  | nil (s : OrderStatus) : StatusPath s [] s
  | snoc {s t u : OrderStatus} {l : List (OrderStatus × OrderStatus)} :
      StatusPath s l t → canTransition t u = true → StatusPath s (l ++ [(t, u)]) u

/-- Where a list of changes ends. -/
def lastStatus (s : OrderStatus) (l : List (OrderStatus × OrderStatus)) : OrderStatus :=
  (l.getLast?.map Prod.snd).getD s

theorem lastStatus_snoc (s : OrderStatus) (l : List (OrderStatus × OrderStatus))
    (c : OrderStatus × OrderStatus) : lastStatus s (l ++ [c]) = c.2 := by
  unfold lastStatus
  rw [List.getLast?_concat]
  rfl

/-- A path ends where its last move leads. -/
theorem StatusPath.last {s t : OrderStatus} {l : List (OrderStatus × OrderStatus)}
    (h : StatusPath s l t) : lastStatus s l = t := by
  cases h with
  | nil => rfl
  | snoc _ _ => exact lastStatus_snoc _ _ _

/-- The last change of a path starts where the others end. -/
theorem StatusPath.snoc_inv {s t : OrderStatus} {l : List (OrderStatus × OrderStatus)}
    {c : OrderStatus × OrderStatus} (h : StatusPath s (l ++ [c]) t) :
    StatusPath s l c.1 ∧ canTransition c.1 c.2 = true := by
  generalize hl : l ++ [c] = l' at h
  cases h with
  | nil => cases l <;> cases hl
  | snoc hp hcan =>
      obtain ⟨rfl, heq⟩ := List.append_inj' hl rfl
      cases heq
      exact ⟨hp, hcan⟩

/-- **No change leaves a terminal status.** -/
theorem StatusPath.not_terminal {s t : OrderStatus} {l : List (OrderStatus × OrderStatus)}
    (h : StatusPath s l t) : ∀ c ∈ l, isTerminal c.1 = false := by
  induction h with
  | nil => exact List.forall_mem_nil _
  | snoc hp hcan ih =>
      intro c hc
      rcases List.mem_append.mp hc with hc | hc
      · exact ih c hc
      · rw [List.mem_singleton.mp hc]
        by_contra hterminal
        rw [canTransition_of_terminal (by simpa using hterminal)] at hcan
        cases hcan

/-- A path back at DRAFT has not left it, and it leaves it at most once. -/
theorem StatusPath.leaves_draft_once {s t : OrderStatus} {l : List (OrderStatus × OrderStatus)}
    (h : StatusPath s l t) : (t = .draft → l = [])
      ∧ (l.filter fun c => decide (c.1 = .draft)).length ≤ 1 := by
  induction h with
  | nil => exact ⟨fun _ => rfl, by simp⟩
  | @snoc t u l hp hcan ih =>
      refine ⟨?_, ?_⟩
      · rintro rfl
        rw [canTransition_to_draft] at hcan
        cases hcan
      · rw [List.filter_append, List.length_append]
        by_cases ht : t = .draft
        · rw [ih.1 ht]
          simp [ht]
        · have hone : [(t, u)].filter (fun c => decide (c.1 = .draft)) = [] := by simp [ht]
          rw [hone]
          exact ih.2

/-- A path calls a sale off at most once, and then it has ended. -/
theorem StatusPath.reverses_once {s t : OrderStatus} {l : List (OrderStatus × OrderStatus)}
    (h : StatusPath s l t) : (isReversed t = false → l.filter (fun c => isReversed c.2) = [])
      ∧ (l.filter fun c => isReversed c.2).length ≤ 1 := by
  induction h with
  | nil => exact ⟨fun _ => rfl, by simp⟩
  | @snoc t u l hp hcan ih =>
      have hlive : isReversed t = false := by
        by_contra hrev
        rw [canTransition_of_reversed (by simpa using hrev)] at hcan
        cases hcan
      rw [List.filter_append, ih.1 hlive, List.nil_append]
      refine ⟨?_, List.length_filter_le _ _⟩
      intro hu
      simp [hu]

/-! ## §2. The transaction, statement by statement. -/

/-- A request for a status change, past its permission check. -/
structure StatusTx where
  ctx : TenantContext
  now : Instant
  toStatus : OrderStatus
  reason : Option String

/-- How far a transaction is; `o` is the order as its SELECT saw it, `found` the
status its UPDATE replaced.  Staged rows are nobody else's to see. -/
inductive Phase where
  | started
  | decided (o : Order)
  | updated (o : Order) (found : OrderStatus)
  | depleted (o : Order) (found : OrderStatus) (rows : List StockMovement)
  | restocked (o : Order) (found : OrderStatus) (rows back : List StockMovement)

/-- A committed status change: the status it replaced, the status it had read, and
the stock rows it wrote. -/
structure StatusCommit where
  before : OrderStatus
  fromStatus : OrderStatus
  toStatus : OrderStatus
  depleted : List StockMovement
  returned : List StockMovement

/-- What is committed: the database, and the changes that led there. -/
structure Committed where
  db : Db
  log : List StatusCommit

/-- The status of an order, if it is there. -/
def statusOf (db : Db) (orderId : Uuid) : Option OrderStatus :=
  (db.findOrder orderId).map (·.status)

/-- The rows a step of the transaction added to the ledger it saw. -/
def addedRows (before after : Db) : List StockMovement :=
  after.movements.drop before.movements.length

/-- The database after the transaction's commit: the UPDATE set the status without
looking at the old one, and the event names the one that was read. -/
def commitStatus (db : Db) (tx : StatusTx) (o : Order) (rows : List StockMovement) : Db :=
  statusChanged db tx.ctx tx.now o tx.toStatus tx.reason rows
    (recordVoid db tx.ctx o tx.toStatus tx.reason).auditLogs

/-- The next statement of the transaction. -/
def nextStatement (orderId : Uuid) (s : Committed) :
    StatusTx × Phase → Move Committed (StatusTx × Phase)
  | (tx, .started) =>
      match s.db.findOrder orderId with
      -- the SELECT takes no lock, and decides
      | some o => if canTransition o.status tx.toStatus then .go (tx, .decided o) else .stop
      | none => .stop
  | (tx, .decided o) =>
      match statusOf s.db orderId with
      -- UPDATE … WHERE id: waits for the row, whatever its status by then
      | some found => .lock (tx, .updated o found)
      | none => .stop
  | (tx, .updated o found) =>
      match depleteOnResume s.db tx.ctx tx.now o tx.toStatus with
      -- decided by the status that was read, not by the one replaced
      | .ok db => .go (tx, .depleted o found (addedRows s.db db))
      | .error _ => .stop
  | (tx, .depleted o found rows) =>
      -- its own rows, and what is committed by now
      let visible := s.db.withMovements (s.db.movements ++ rows)
      match restockOnReversal visible tx.ctx orderId tx.toStatus with
      | .ok db => .go (tx, .restocked o found rows (addedRows visible db))
      | .error _ => .stop
  | (tx, .restocked o _ rows back) =>
      match statusOf s.db orderId with
      | some before => .commit
          { db := commitStatus s.db tx o (rows ++ back)
            log := s.log ++ [⟨before, o.status, tx.toStatus, rows, back⟩] }
      | none => .stop

/-- Changes of status of one order, statement by statement. -/
def statusProgram (orderId : Uuid) : Program Committed (StatusTx × Phase) StatusTx where
  start tx := (tx, .started)
  next := nextStatement orderId

/-- Any number of status changes of one order at once, from a database in which it
has the status `first`. -/
def statusRace (orderId : Uuid) (first : OrderStatus) :
    System (Config Committed (StatusTx × Phase)) (TxAction StatusTx) :=
  (statusProgram orderId).interleaved fun s => statusOf s.db orderId = some first ∧ s.log = []

/-- The stock step of a resume is an insert of its rows. -/
theorem depleteOnResume_eq (db : Db) (ctx : TenantContext) (now : Instant) (o : Order)
    (toStatus : OrderStatus) :
    depleteOnResume db ctx now o toStatus
      = createMany db.movements (if resuming o.status toStatus then
          depletionRows db now o.id ctx.userId (resumeLines o.items) else [])
        >>= fun l => .ok (db.withMovements l) := by
  unfold depleteOnResume
  split
  · rfl
  · rfl

/-- Only a reversal gives stock back. -/
theorem restockOnReversal_eq (db : Db) (ctx : TenantContext) (orderId : Uuid)
    (toStatus : OrderStatus) :
    restockOnReversal db ctx orderId toStatus
      = createMany db.movements (if toStatus ∈ reversingStatuses then
          restockRows db.movements orderId ctx.userId toStatus else [])
        >>= fun l => .ok (db.withMovements l) := by
  unfold restockOnReversal
  split
  · rfl
  · rfl

/-- Only a void leaves an audit row. -/
theorem recordVoid_eq (db : Db) (ctx : TenantContext) (o : Order) (toStatus : OrderStatus)
    (reason : Option String) :
    recordVoid db ctx o toStatus reason = db.withAuditLogs (db.auditLogs
      ++ if toStatus ∈ voidStatuses then
          [⟨o.id, .orderVoided o.orderNumber reason, ctx.userId⟩] else []) := by
  unfold recordVoid
  split
  · rfl
  · rw [List.append_nil]
    rfl

/-- **On its own the transaction is `updateStatus`**: same database, and one commit
that replaced what it had read. -/
theorem updateStatus_alone {db db' : Db} {log : List StatusCommit} {tx : StatusTx} {orderId : Uuid}
    {o : Order} (ho : db.findOrder orderId = some o) (hne : o.status ≠ tx.toStatus)
    (h : updateStatus db tx.ctx tx.now orderId tx.toStatus tx.reason = .ok db') :
    ∃ rows back, (statusProgram orderId).alone 5 ⟨db, log⟩ (tx, .started)
      = some ⟨db', log ++ [⟨o.status, o.status, tx.toStatus, rows, back⟩]⟩ := by
  have hid : o.id = orderId := (Db.mem_of_findOrder ho).2
  subst hid
  simp only [updateStatus, bind_ok, found_ok] at h
  obtain ⟨-, -, _, ho', h⟩ := h
  cases ho.symm.trans ho'
  rw [if_neg hne] at h
  simp only [depleteOnResume_eq, restockOnReversal_eq, recordVoid_eq, bind_ok, require_ok,
    Db.withAuditLogs_movements, Db.withOrderEvents_movements] at h
  obtain ⟨-, hcan, _, ⟨l, hl, h1⟩, l', hl', h⟩ := h
  cases h1
  cases h
  rw [Db.withMovements_movements] at hl'
  -- the rows of the resume do not depend on the order's new status
  have hfirst : createMany db.movements (if resuming o.status tx.toStatus then
      depletionRows db tx.now o.id tx.ctx.userId (resumeLines o.items) else []) = .ok l := by
    rw [← hl]
    congr 1
  obtain ⟨rows, -, rfl⟩ := createMany_ok hfirst
  obtain ⟨back, -, rfl⟩ := createMany_ok hl'
  refine ⟨rows, back, ?_⟩
  have hstatus : statusOf db o.id = some o.status := by
    unfold statusOf
    rw [ho]
    rfl
  simp only [Program.alone, statusProgram, nextStatement, ho, hcan, if_true, hstatus,
    depleteOnResume_eq, hfirst, ok_bind, addedRows, List.drop_left, restockOnReversal_eq,
    hl', commitStatus, statusChanged, recordVoid_eq, Db.withMovements, Db.withOrders,
    Db.withOrderEvents, Db.withAuditLogs]
  simp only [List.append_assoc]

/-! ## §3. What is asked of the committed changes. -/

/-- **Lifecycle safety** of the committed changes of an order that was `first`: they
are one path of the whitelist, so are the events, and stock left and came back at
most once. -/
structure Lawful (first : OrderStatus) (log : List StatusCommit) : Prop where
  path : ∃ t, StatusPath first (log.map fun c => (c.before, c.toStatus)) t
  trail : ∃ t, StatusPath first (log.map fun c => (c.fromStatus, c.toStatus)) t
  depletedOnce : (log.filter fun c => !c.depleted.isEmpty).length ≤ 1
  returnedOnce : (log.filter fun c => !c.returned.isEmpty).length ≤ 1

/-- No committed change leaves COMPLETED, CANCELLED or VOIDED. -/
theorem Lawful.not_terminal {first : OrderStatus} {log : List StatusCommit} (h : Lawful first log) :
    ∀ c ∈ log, c.before ≠ .completed ∧ c.before ≠ .cancelled ∧ c.before ≠ .voided := by
  intro c hc
  obtain ⟨t, hpath⟩ := h.path
  have hopen := hpath.not_terminal (c.before, c.toStatus)
    (List.mem_map_of_mem (f := fun c : StatusCommit => (c.before, c.toStatus)) hc)
  have hnot : ¬ (c.before = .completed ∨ c.before = .cancelled ∨ c.before = .voided) := by
    rw [← isTerminal_iff, hopen]
    exact Bool.false_ne_true
  tauto

/-! ## §4. What a transaction knows. -/

/-- What a transaction knows by itself: it moves its order legally from the status
it read, and stages stock rows only where they belong. -/
def Knows (orderId : Uuid) : StatusTx × Phase → Prop
  | (_, .started) => True
  | (tx, .decided o) => o.id = orderId ∧ canTransition o.status tx.toStatus = true
  | (tx, .updated o _) => o.id = orderId ∧ canTransition o.status tx.toStatus = true
  | (tx, .depleted o _ rows) => o.id = orderId ∧ canTransition o.status tx.toStatus = true
      ∧ (rows ≠ [] → o.status = .draft)
  | (tx, .restocked o _ rows back) => o.id = orderId ∧ canTransition o.status tx.toStatus = true
      ∧ (rows ≠ [] → o.status = .draft) ∧ (back ≠ [] → isReversed tx.toStatus = true)

/-- The transaction is past its UPDATE. -/
def Phase.owns : Phase → Bool
  | .started | .decided _ => false
  | .updated _ _ | .depleted _ _ _ | .restocked _ _ _ _ => true

/-- What the owner of the row lock knows: the status is still the one it replaced. -/
def FoundStands (orderId : Uuid) (s : Committed) : StatusTx × Phase → Prop
  | (_, .started) => True
  | (_, .decided _) => True
  | (_, .updated _ found) => statusOf s.db orderId = some found
  | (_, .depleted _ found _) => statusOf s.db orderId = some found
  | (_, .restocked _ found _ _) => statusOf s.db orderId = some found

/-- The status changes in the trail of an order. -/
def statusChanges (db : Db) (orderId : Uuid) : List (OrderStatus × OrderStatus) :=
  db.orderEvents.filterMap fun e =>
    match e.kind with
    | .statusChanged fromStatus toStatus _ =>
        if e.orderId = orderId then some (fromStatus, toStatus) else none
    | _ => none

/-- What is known of the committed state: where the changes have led, what each of
them did, and that the trail and the ledger gained what the log says. -/
structure CommittedInv (orderId : Uuid) (first : OrderStatus) (s : Committed) : Prop where
  status : statusOf s.db orderId
    = some (lastStatus first (s.log.map fun c => (c.before, c.toStatus)))
  legal : ∀ c ∈ s.log, canTransition c.fromStatus c.toStatus = true
    ∧ (c.depleted ≠ [] → c.fromStatus = .draft) ∧ (c.returned ≠ [] → isReversed c.toStatus = true)
  writes : ∃ base : Db, statusOf base orderId = some first
    ∧ statusChanges s.db orderId
        = statusChanges base orderId ++ s.log.map (fun c => (c.fromStatus, c.toStatus))
    ∧ s.db.movements = base.movements ++ s.log.flatMap fun c => c.depleted ++ c.returned

/-- The UPDATE of an order that exists sets its status. -/
theorem statusOf_commitStatus {db : Db} {tx : StatusTx} {o : Order} (rows : List StockMovement)
    {found : OrderStatus} (h : statusOf db o.id = some found) :
    statusOf (commitStatus db tx o rows) o.id = some tx.toStatus := by
  obtain ⟨x, hx, -⟩ := Option.map_eq_some_iff.mp h
  have hid : x.id = o.id := (Db.mem_of_findOrder hx).2
  unfold statusOf Db.findOrder commitStatus
  rw [statusChanged_orders]
  unfold setStatus
  rw [List.find?_map]
  have hpred : ((fun y : Order => decide (y.id = o.id)) ∘ fun y : Order => if y.id = o.id then
      { y with status := tx.toStatus,
               placedAt := (if resuming o.status tx.toStatus then some tx.now else none).orElse
                 fun _ => y.placedAt } else y) = fun y => decide (y.id = o.id) := by
    funext y
    show decide ((if y.id = o.id then _ else y : Order).id = o.id) = _
    split
    · rfl
    · rfl
  have hfind : db.orders.find? (fun y => decide (y.id = o.id)) = some x := hx
  rw [hpred, hfind]
  show some (if x.id = o.id then _ else x : Order).status = _
  rw [if_pos hid]

/-- No resume, no depletion rows. -/
theorem depleteOnResume_rows {db db' : Db} {ctx : TenantContext} {now : Instant} {o : Order}
    {toStatus : OrderStatus} (h : depleteOnResume db ctx now o toStatus = .ok db')
    (hrows : addedRows db db' ≠ []) : o.status = .draft := by
  unfold depleteOnResume at h
  split at h
  next hres =>
    simp only [resuming, Bool.and_eq_true, decide_eq_true_eq] at hres
    exact hres.1
  next =>
    cases h
    exact absurd (List.drop_length) hrows

/-- **Rows that were added by it are those of a reversal.** -/
theorem restockOnReversal_rows {db db' : Db} {ctx : TenantContext} {orderId : Uuid}
    {toStatus : OrderStatus} (h : restockOnReversal db ctx orderId toStatus = .ok db')
    (hrows : addedRows db db' ≠ []) : isReversed toStatus = true := by
  unfold restockOnReversal at h
  split at h
  next hrev =>
    unfold isReversed
    simpa using hrev
  next =>
    cases h
    exact absurd (List.drop_length) hrows

/-- What the next statement can be, whatever the phase. -/
inductive Statement (orderId : Uuid) (s : Committed) :
    StatusTx × Phase → Move Committed (StatusTx × Phase) → Prop where
  | refused {t : StatusTx × Phase} : Statement orderId s t .stop
  | read {tx : StatusTx} {o : Order} (ho : s.db.findOrder orderId = some o)
      (hcan : canTransition o.status tx.toStatus = true) :
      Statement orderId s (tx, .started) (.go (tx, .decided o))
  | update {tx : StatusTx} {o : Order} {found : OrderStatus}
      (hfound : statusOf s.db orderId = some found) :
      Statement orderId s (tx, .decided o) (.lock (tx, .updated o found))
  | deplete {tx : StatusTx} {o : Order} {found : OrderStatus} {db : Db}
      (hok : depleteOnResume s.db tx.ctx tx.now o tx.toStatus = .ok db) :
      Statement orderId s (tx, .updated o found)
        (.go (tx, .depleted o found (addedRows s.db db)))
  | restock {tx : StatusTx} {o : Order} {found : OrderStatus} {rows : List StockMovement} {db : Db}
      (hok : restockOnReversal (s.db.withMovements (s.db.movements ++ rows)) tx.ctx orderId
        tx.toStatus = .ok db) :
      Statement orderId s (tx, .depleted o found rows) (.go (tx, .restocked o found rows
        (addedRows (s.db.withMovements (s.db.movements ++ rows)) db)))
  | commit {tx : StatusTx} {o : Order} {found before : OrderStatus}
      {rows back : List StockMovement} (hbefore : statusOf s.db orderId = some before) :
      Statement orderId s (tx, .restocked o found rows back) (.commit
        ⟨commitStatus s.db tx o (rows ++ back),
          s.log ++ [⟨before, o.status, tx.toStatus, rows, back⟩]⟩)

/-- **The statement inversion.** -/
theorem nextStatement_statement {orderId : Uuid} {s : Committed} {t : StatusTx × Phase}
    {m : Move Committed (StatusTx × Phase)} (h : nextStatement orderId s t = m) :
    Statement orderId s t m := by
  subst h
  obtain ⟨tx, phase⟩ := t
  -- one phase after the other, as the statements of the transaction come
  cases phase with
  | started =>
      simp only [nextStatement]
      split
      next o ho =>
        split
        next hcan => exact .read ho hcan
        next => exact .refused
      next => exact .refused
  | decided o =>
      simp only [nextStatement]
      split
      next found hfound => exact .update hfound
      next => exact .refused
  | updated o found =>
      simp only [nextStatement]
      split
      next db hok => exact .deplete hok
      next => exact .refused
  | depleted o found rows =>
      simp only [nextStatement]
      split
      next db hok => exact .restock hok
      next => exact .refused
  | restocked o found rows back =>
      simp only [nextStatement]
      split
      next before hbefore => exact .commit hbefore
      next => exact .refused

/-! ## §5. The two invariants. -/

/-- **In every interleaving the log is true, and each transaction knows its order.** -/
theorem statusRace_invariant {orderId : Uuid} {first : OrderStatus}
    {c : Config Committed (StatusTx × Phase)} (h : (statusRace orderId first).Reachable c) :
    CommittedInv orderId first c.shared ∧ ∀ i t, c.running i = some t → Knows orderId t := by
  refine (statusProgram orderId).local_invariant (CommittedInv orderId first) (Knows orderId) ?_
    (fun _ => trivial) ?_ ?_ ?_ h
  · rintro s ⟨hstatus, hlog⟩
    refine ⟨?_, ?_, s.db, hstatus, ?_, ?_⟩
    · rw [hlog]
      exact hstatus
    · rw [hlog]
      exact List.forall_mem_nil _
    · rw [hlog, List.map_nil, List.append_nil]
    · rw [hlog, List.flatMap_nil, List.append_nil]
  · intro s t t' _ hknow hnext
    cases nextStatement_statement hnext with
    | read ho hcan => exact ⟨(Db.mem_of_findOrder ho).2, hcan⟩
    | deplete hok => exact ⟨hknow.1, hknow.2, depleteOnResume_rows hok⟩
    | restock hok => exact ⟨hknow.1, hknow.2.1, hknow.2.2, restockOnReversal_rows hok⟩
  · intro s t t' _ hknow hnext
    cases nextStatement_statement hnext with
    | update hfound => exact hknow
  · intro s t s' hinv hknow hnext
    cases nextStatement_statement hnext with
    | @commit tx o _ before rows back hbefore =>
        -- only a commit writes: the log grows by the change it publishes
        obtain ⟨rfl, hcan, hrows, hback⟩ := hknow
        obtain ⟨base, hbase, hchanges, hmovements⟩ := hinv.writes
        refine ⟨?_, ?_, base, hbase, ?_, ?_⟩
        · rw [List.map_append, List.map_singleton, lastStatus_snoc]
          exact statusOf_commitStatus _ hbefore
        · intro c hc
          rcases List.mem_append.mp hc with hc | hc
          · exact hinv.legal c hc
          · rw [List.mem_singleton.mp hc]
            exact ⟨hcan, hrows, hback⟩
        · rw [List.map_append, ← List.append_assoc, ← hchanges]
          unfold statusChanges commitStatus
          rw [statusChanged_orderEvents, List.filterMap_append]
          simp
        · unfold commitStatus
          rw [statusChanged_movements, hmovements, List.flatMap_append, List.append_assoc]
          simp

/-- The row lock is taken before the order is written, and kept. -/
theorem statusDiscipline (orderId : Uuid) :
    (statusProgram orderId).Discipline (fun t => t.2.owns) (FoundStands orderId) where
  start _ := rfl
  go s t t' hnext := by
    cases nextStatement_statement hnext with
    | read ho hcan => rfl
    | deplete hok => rfl
    | restock hok => rfl
  kept s t t' howns hheld hnext := by
    cases nextStatement_statement hnext with
    | read ho hcan => trivial
    | deplete hok => exact hheld
    | restock hok => exact hheld
  taken s t t' hnext := by
    cases nextStatement_statement hnext with
    | update hfound => exact ⟨rfl, rfl, hfound⟩
  commit s t s' hnext := by
    cases nextStatement_statement hnext with
    | commit hbefore => rfl

/-- **What the UPDATE replaced is what the commit replaces**: the row lock keeps the
status in between. -/
theorem found_is_committed {orderId : Uuid} {first : OrderStatus}
    {c : Config Committed (StatusTx × Phase)} (h : (statusRace orderId first).Reachable c) {i : ℕ}
    {tx : StatusTx} {o : Order} {found : OrderStatus} {rows back : List StockMovement}
    (hi : c.running i = some (tx, .restocked o found rows back)) :
    statusOf c.shared.db orderId = some found :=
  ((statusProgram orderId).lock_invariant (statusDiscipline orderId) h i _ hi rfl).2

/-! ## §6. Fresh commits are lawful, stale ones are not. -/

/-- A transaction about to commit replaces the status it had read. -/
def ReadIsCurrent (c : Config Committed (StatusTx × Phase)) : TxAction StatusTx → Prop
  | .run i => ∀ tx o found rows back, c.running i = some (tx, .restocked o found rows back) →
      found = o.status
  | _ => True

/-- What a run of fresh commits keeps. -/
structure FreshInv (first : OrderStatus) (log : List StatusCommit) : Prop where
  read : ∀ c ∈ log, c.before = c.fromStatus
  path : StatusPath first (log.map fun c => (c.before, c.toStatus))
    (lastStatus first (log.map fun c => (c.before, c.toStatus)))

/-- **A commit that has read the current status extends the lawful log.** -/
theorem FreshInv.snoc {first : OrderStatus} {log : List StatusCommit} (h : FreshInv first log)
    {c : StatusCommit} (hlast : lastStatus first (log.map fun c => (c.before, c.toStatus)) = c.before)
    (hread : c.before = c.fromStatus) (hcan : canTransition c.before c.toStatus = true) :
    FreshInv first (log ++ [c]) := by
  have hpath := h.path
  rw [hlast] at hpath
  refine ⟨?_, ?_⟩
  · intro x hx
    rcases List.mem_append.mp hx with hx | hx
    · exact h.read x hx
    · rw [List.mem_singleton.mp hx]
      exact hread
  · rw [List.map_append, List.map_singleton, lastStatus_snoc]
    exact hpath.snoc hcan

theorem FreshInv.lawful {orderId : Uuid} {first : OrderStatus} {s : Committed}
    (h : FreshInv first s.log) (hs : CommittedInv orderId first s) : Lawful first s.log := by
  have htrail : (s.log.map fun c => (c.fromStatus, c.toStatus))
      = s.log.map fun c => (c.before, c.toStatus) := by
    refine List.map_congr_left ?_
    intro c hc
    rw [h.read c hc]
  refine ⟨⟨_, h.path⟩, ⟨_, htrail ▸ h.path⟩, ?_, ?_⟩
  · -- only a commit that leaves DRAFT depletes
    have honce := h.path.leaves_draft_once.2
    rw [List.filter_map, List.length_map, ← List.countP_eq_length_filter] at honce
    rw [← List.countP_eq_length_filter]
    refine le_trans (List.countP_mono_left ?_) honce
    intro c hc hdepleted
    have hdraft := (hs.legal c hc).2.1 (by simpa using hdepleted)
    simpa [h.read c hc] using hdraft
  · -- only a commit that calls the sale off returns stock
    have honce := h.path.reverses_once.2
    rw [List.filter_map, List.length_map, ← List.countP_eq_length_filter] at honce
    rw [← List.countP_eq_length_filter]
    refine le_trans (List.countP_mono_left ?_) honce
    intro c hc hreturned
    exact (hs.legal c hc).2.2 (by simpa using hreturned)

/-- **Every run of current commits is lawful.** -/
theorem fresh_runs_lawful {orderId : Uuid} {first : OrderStatus}
    {c : Config Committed (StatusTx × Phase)}
    (h : ((statusRace orderId first).restrict ReadIsCurrent).Reachable c) :
    Lawful first c.shared.log := by
  refine FreshInv.lawful ?_ (statusRace_invariant (System.restrict_reachable h)).1
  refine (h.invariant (fun c => (statusRace orderId first).Reachable c
    ∧ FreshInv first c.shared.log) ?_ ?_).2
  · intro c hc
    refine ⟨.init hc, ?_⟩
    rw [hc.1.2]
    exact ⟨List.forall_mem_nil _, .nil first⟩
  · rintro c a c' ⟨hreach, hinv⟩ ⟨hcurrent, hstep⟩
    refine ⟨hreach.step hstep, ?_⟩
    cases (statusProgram orderId).act_stepped hstep with
    | began _ => exact hinv
    | went _ _ => exact hinv
    | locked _ _ _ => exact hinv
    | ended => exact hinv
    | @committed i t s hi hnext =>
        obtain ⟨tx, phase⟩ := t
        obtain ⟨hcommitted, hknows⟩ := statusRace_invariant hreach
        have hknow := hknows i _ hi
        cases nextStatement_statement hnext with
        | @commit _ o found before rows back hbefore =>
            -- what it read is what stands: the change continues the path
            have hfound : found = o.status := hcurrent tx o found rows back hi
            have hstands := found_is_committed hreach hi
            have hsame : before = o.status := by
              rw [hbefore] at hstands
              rw [← hfound]
              exact Option.some.inj hstands
            have hlast : lastStatus first (c.shared.log.map fun c => (c.before, c.toStatus))
                = before := by
              rw [hcommitted.status] at hbefore
              exact Option.some.inj hbefore
            exact hinv.snoc hlast hsame (hsame ▸ hknow.2.1)

/-- The events and the statuses that were replaced end alike. -/
theorem lastStatus_trail (first : OrderStatus) (log : List StatusCommit) :
    lastStatus first (log.map fun c => (c.fromStatus, c.toStatus))
      = lastStatus first (log.map fun c => (c.before, c.toStatus)) := by
  unfold lastStatus
  rw [List.getLast?_map, List.getLast?_map, Option.map_map, Option.map_map]
  rfl

/-- **A stale commit breaks the chain**: its event starts where no change ended. -/
theorem stale_commit_unlawful {orderId : Uuid} {first : OrderStatus}
    {c c' : Config Committed (StatusTx × Phase)} {a : TxAction StatusTx}
    (h : (statusRace orderId first).Reachable c) (hstep : (statusRace orderId first).step c a c')
    (hstale : ¬ ReadIsCurrent c a) : ¬ Lawful first c'.shared.log := by
  cases a with
  | begin i r => exact absurd trivial hstale
  | abort i => exact absurd trivial hstale
  | run i =>
      simp only [ReadIsCurrent, not_forall] at hstale
      obtain ⟨tx, o, found, rows, back, hi, hne⟩ := hstale
      have hstands := found_is_committed h hi
      have hlog : c'.shared.log = c.shared.log ++ [⟨found, o.status, tx.toStatus, rows, back⟩] := by
        have hact : (statusProgram orderId).act c (.run i) = some c' := hstep
        simp only [Program.act, hi, statusProgram, nextStatement, hstands] at hact
        cases hact
        rfl
      intro hlawful
      rw [hlog] at hlawful
      obtain ⟨t, hpath⟩ := hlawful.path
      obtain ⟨t', htrail⟩ := hlawful.trail
      rw [List.map_append] at hpath htrail
      have hbefore := hpath.snoc_inv.1.last
      have hread := htrail.snoc_inv.1.last
      rw [lastStatus_trail, hbefore] at hread
      exact hne hread

/-- **The lifecycle under concurrency**: safe in every run whose commits all replace
the status they had read, and broken by the first commit that does not. -/
theorem statusRace_lawful (orderId : Uuid) (first : OrderStatus) :
    (∀ c, ((statusRace orderId first).restrict ReadIsCurrent).Reachable c →
        Lawful first c.shared.log)
      ∧ ∀ c a c', (statusRace orderId first).Reachable c →
          (statusRace orderId first).step c a c' → ¬ ReadIsCurrent c a →
            ¬ Lawful first c'.shared.log :=
  ⟨fun _ h => fresh_runs_lawful h, fun _ _ _ h hstep hstale => stale_commit_unlawful h hstep hstale⟩

/-! ## §7. Two cancellations at once. -/

/-- The order is called off. -/
def cancelTx : StatusTx := ⟨cashier, 1, .cancelled, none⟩

/-- Both read PLACED; the second waits for the first and then cancels again. -/
def doubleCancel : List (TxAction StatusTx) :=
  [.begin 0 cancelTx, .begin 1 cancelTx, .run 0, .run 1,
    .run 0, .run 0, .run 0, .run 0, .run 1, .run 1, .run 1, .run 1]

/-- One lassi placed, nobody at work on it. -/
def placedBar : Config Committed (StatusTx × Phase) :=
  ⟨⟨(after placedLassi openBar).db, []⟩, fun _ => none, none⟩

theorem placedBar_init : (statusRace 20 .placed).init placedBar :=
  ⟨⟨rfl, rfl⟩, fun _ => rfl, rfl⟩

/-- The curd of one lassi has come back twice. -/
theorem double_cancel_unlawful :
    ∃ c, (statusRace 20 .placed).Reachable c ∧ ¬ Lawful .placed c.shared.log
      ∧ taggedAt c.shared.db.movements 20 4 none = 150 := by
  refine ⟨_, System.replay_reachable (f := (statusProgram 20).act) (fun _ _ _ h => h)
    doubleCancel placedBar placedBar_init rfl, ?_, rfl⟩
  intro hlawful
  exact absurd hlawful.returnedOnce (by decide)

/-- `ReadIsCurrent`, of one transaction. -/
def isCurrent : StatusTx × Phase → Bool
  | (_, .restocked o found _ _) => decide (found = o.status)
  | _ => true

/-- The check decides the condition. -/
theorem isCurrent_iff {t : StatusTx × Phase} : isCurrent t = true ↔
    ∀ tx o found rows back, t = (tx, .restocked o found rows back) → found = o.status := by
  constructor
  · rintro h tx o found rows back rfl
    exact of_decide_eq_true h
  · intro h
    obtain ⟨tx, phase⟩ := t
    cases phase with
    | restocked o found rows back => exact decide_eq_true (h tx o found rows back rfl)
    | _ => rfl

instance (c : Config Committed (StatusTx × Phase)) (a : TxAction StatusTx) :
    Decidable (ReadIsCurrent c a) :=
  match a with
  | .begin _ _ | .abort _ => isTrue trivial
  | .run i => decidable_of_iff (∀ t ∈ c.running i, isCurrent t = true)
      ⟨fun h tx o found rows back hi => isCurrent_iff.mp (h _ hi) tx o found rows back rfl,
        fun h _ hi => isCurrent_iff.mpr fun tx o found rows back ht =>
          h tx o found rows back (ht ▸ hi)⟩

/-- The kitchen's change commits before the cancellation reads the order; another change
reads it after that, and stops. -/
def preparedThenCancelled : List (TxAction StatusTx) :=
  [.begin 0 ⟨cashier, 1, .preparing, none⟩, .begin 1 cancelTx, .run 0, .run 0, .run 0, .run 0,
    .run 0, .run 1, .begin 2 ⟨cashier, 1, .ready, none⟩, .run 1, .run 1, .run 1, .run 1, .run 2]

/-- Prepared and then called off is lawful; called off twice is not. -/
theorem statusRace_lawful_cancel :
    (∃ c, ((statusRace 20 .placed).restrict ReadIsCurrent).Reachable c
        ∧ (c.shared.log.map fun change => (change.before, change.toStatus))
          = [(.placed, .preparing), (.preparing, .cancelled)]
        ∧ Lawful .placed c.shared.log)
      ∧ ∃ c, (statusRace 20 .placed).Reachable c ∧ ¬ Lawful .placed c.shared.log := by
  have hcurrent : ((statusRace 20 .placed).restrict ReadIsCurrent).Reachable _ :=
    System.replay_restricted (f := (statusProgram 20).act) (fun _ _ _ h => h)
      preparedThenCancelled placedBar placedBar_init rfl
  refine ⟨⟨_, hcurrent, rfl, (statusRace_lawful 20 .placed).1 _ hcurrent⟩, ?_⟩
  have hlast : (statusRace 20 .placed).Reachable _ :=
    System.replay_reachable (f := (statusProgram 20).act) (fun _ _ _ h => h)
      doubleCancel.dropLast placedBar placedBar_init rfl
  refine ⟨_, hlast.step (a := .run 1) rfl, ?_⟩
  refine (statusRace_lawful 20 .placed).2 _ (.run 1) _ hlast rfl ?_
  intro hstale
  have hsame := hstale _ _ _ _ _ rfl
  cases hsame

end OraOS.Orders
