/-
  OraOS.Inventory.CountRace — `StockCountService.submit` and `cancel` under READ
  COMMITTED, any number of calls on any counts at once.

  A call locks its count's row, reads it, and holds the lock to its end; the live stock
  is read under that lock, which is the count's and not the ingredient's.

    * `countTurn`           — the statements of a call;
    * `count_alone`         — on its own a call is the service's method;
    * `countSession_knows`  — what it knows of its count while it has the lock;
    * `count_applied_once`  — a count is applied by one submit or by none.
-/
import OraOS.Inventory.StockCounts
import OraOS.Lib.Journal

namespace OraOS.Inventory

open OraOS.Api
open OraOS.Lib

/-! ## §1. What a submit writes. -/

/-- `stockCount.findUnique`. -/
def findCount (db : Db) (id : Uuid) : Option StockCount :=
  db.stockCounts.find? fun c => c.id = id

/-- The count that is found has the id. -/
theorem findCount_id {db : Db} {id : Uuid} {count : StockCount}
    (h : findCount db id = some count) : count.id = id := by
  simpa using List.find?_some h

/-- What a submit or a cancel is about to publish. -/
structure CountWrite where
  count : StockCount
  rows : List StockMovement
  event : AuditEvent

/-- The commit of a submit or a cancel. -/
def CountWrite.publish (w : CountWrite) (db : Db) (ctx : TenantContext) : Db :=
  Db.record { db with
    movements := db.movements ++ w.rows
    stockCounts := replaceCount db.stockCounts w.count } ctx w.count.id w.event

/-- The count is open, and the lines are its own, each once. -/
def checkSubmit (count : StockCount) (dto : SubmitStockCountDto) : Except ApiError Unit := do
  require (count.status = .open) (.conflict "This count can no longer be submitted")
  checkLines (count.lines.map (·.ingredientId)) dto.lines []

/-- A reason wherever stock moved. -/
def checkReasons (db : Db) (adjustments : List CountAdjustment) : Except ApiError Unit :=
  let missing := missingReasons adjustments
  require (missing = [])
    (.badRequest ("A reason is required where stock changed: " ++ ", ".intercalate
      ((db.ingredients.filter fun i => missing.contains i.id).map (·.name))))

/-- The rows of a submit, its lines and its status. -/
def submitWrite (ctx : TenantContext) (now : Instant) (count : StockCount)
    (adjustments : List CountAdjustment) (notes : Option String) : Except ApiError CountWrite := do
  let rows ← storeRows (adjustmentRows ctx count.code adjustments)
  require (∀ a ∈ adjustments, fitsInt4 a.difference = true) .outOfRange
  pure ⟨completeCount count ctx now adjustments notes, rows,
    .stockCountCompleted count.code adjustments.length
      (adjustments.filter fun a => a.difference ≠ 0).length⟩

/-- What a cancel writes. -/
def cancelWrite (count : StockCount) : CountWrite :=
  ⟨{ count with status := .cancelled }, [], .stockCountCancelled count.code⟩

/-- A submit keeps the id of the count. -/
theorem completeCount_id (count : StockCount) (ctx : TenantContext) (now : Instant)
    (adjustments : List CountAdjustment) (notes : Option String) :
    (completeCount count ctx now adjustments notes).id = count.id := rfl

theorem cancelWrite_id (count : StockCount) : (cancelWrite count).count.id = count.id := rfl

/-- Adjustments have no idempotency key. -/
theorem adjustmentRows_unkeyed {ctx : TenantContext} {code : String}
    {adjustments : List CountAdjustment} :
    ∀ m ∈ adjustmentRows ctx code adjustments, m.idempotencyKey = none := by
  intro m hm
  obtain ⟨a, -, rfl⟩ := List.mem_map.mp hm
  rfl

/-- **`submit`, statement by statement**, when nothing happens in between. -/
theorem submitStockCount_eq (db : Db) (ctx : TenantContext) (now : Instant) (id : Uuid)
    (dto : SubmitStockCountDto) :
    submitStockCount db ctx now id dto = (do
      let count ← found (findCount db id) (.notFound "Stock count not found")
      if count.status = .completed then pure db
      else do
        checkSubmit count dto
        let adjustments := reconcileCount dto.lines (stockOf db.movements)
        checkReasons db adjustments
        let w ← submitWrite ctx now count adjustments dto.notes
        pure (w.publish db ctx)) := by
  unfold submitStockCount findCount
  cases hfind : db.stockCounts.find? (fun c => c.id = id) with
  | none => rfl
  | some count =>
      have hid : count.id = id := by simpa using List.find?_some hfind
      simp only [found, ok_bind]
      -- a completed count is left as it is
      by_cases hdone : count.status = .completed
      · rw [if_pos hdone, if_pos hdone]
      · rw [if_neg hdone, if_neg hdone]
        unfold checkSubmit checkReasons submitWrite
        simp only [bind_assoc, createMany_unkeyed adjustmentRows_unkeyed, mapped_bind, pure_bind]
        refine bind_congr fun _ => bind_congr fun _ => bind_congr fun _ => bind_congr fun rows =>
          bind_congr fun _ => ?_
        subst hid
        rfl

/-- `cancelStockCount`, as its checks and its write. -/
theorem cancelStockCount_eq (db : Db) (ctx : TenantContext) (id : Uuid) :
    cancelStockCount db ctx id = (do
      let count ← found (findCount db id) (.notFound "Stock count not found")
      require (count.status = .open) (.conflict "Only an open count can be cancelled")
      pure ((cancelWrite count).publish db ctx)) := by
  unfold cancelStockCount findCount
  cases hfind : db.stockCounts.find? (fun c => c.id = id) with
  | none => rfl
  | some count =>
      have hid : count.id = id := by simpa using List.find?_some hfind
      subst hid
      unfold CountWrite.publish cancelWrite
      simp only [found, ok_bind, List.append_nil]

/-! ## §2. The calls, statement by statement. -/

/-- The two calls that end a count. -/
inductive CountOp where
  | submit (now : Instant) (dto : SubmitStockCountDto)
  | cancel

/-- A call on the count `id`. -/
structure CountCall where
  ctx : TenantContext
  id : Uuid
  op : CountOp

/-- The call, served by itself. -/
def CountCall.perform (r : CountCall) (db : Db) : Except ApiError Db :=
  match r.op with
  | .submit now dto => submitStockCount db r.ctx now r.id dto
  | .cancel => cancelStockCount db r.ctx r.id

/-- What has been committed: by a call on a count, with its rows, or elsewhere. -/
inductive CountEntry where
  | applied (r : CountCall) (rows : List StockMovement)
  | elsewhere (rows : List StockMovement)

/-- What an entry added to the stock ledger. -/
def CountEntry.rows : CountEntry → List StockMovement
  | .applied _ rows => rows
  | .elsewhere rows => rows

/-- The database, with the commits so far. -/
abbrev CountJournal := Journal Db CountEntry

/-- How far a call is; `seen` is the ledger as the live stock was summed over it. -/
inductive CountPhase where
  | asked
  | locked
  | opened (count : StockCount)
  | reconciled (count : StockCount) (seen : List StockMovement)
  | completing (count : StockCount) (seen : List StockMovement) (w : CountWrite)
  | cancelling (count : StockCount)
  | answered (result : Except ApiError Unit)

/-- What a statement does. -/
abbrev CountTurn := Turn CountJournal (CountCall × CountPhase) Uuid

/-- A call that ends with an error. -/
def CountCall.fail (r : CountCall) (e : ApiError) : CountCall × CountPhase :=
  (r, .answered (.error e))

/-- What the adjustments of a submit are, with the stock it read. -/
def adjustmentsOf (dto : SubmitStockCountDto) (seen : List StockMovement) :
    List CountAdjustment :=
  reconcileCount dto.lines (stockOf seen)

/-- After the lock the row is read again, and what is read decides. -/
def lockedTurn (r : CountCall) (count : StockCount) : CountTurn :=
  match r.op with
  | .submit _ dto =>
      -- an applied count is answered with what it is
      if count.status = .completed then .rollback (r, .answered (.ok ()))
      else .orRollback (checkSubmit count dto) r.fail fun _ => .go (r, .opened count)
  | .cancel =>
      .orRollback (require (count.status = .open)
        (.conflict "Only an open count can be cancelled")) r.fail fun _ =>
          .go (r, .cancelling count)

/-- The next statement of a call. -/
def countTurn (s : CountJournal) : CountCall × CountPhase → CountTurn
  | (r, .asked) =>
      -- SELECT … FOR UPDATE; nobody knows the id of a count before its row is there
      match findCount s.db r.id with
      | some _ => .lock r.id (r, .locked)
      | none => .rollback (r.fail (.notFound "Stock count not found"))
  | (r, .locked) =>
      .orRollback (found (findCount s.db r.id) (.notFound "Stock count not found")) r.fail
        (lockedTurn r)
  | (r, .opened count) =>
      match r.op with
      | .submit _ dto =>
          .orRollback (checkReasons s.db (adjustmentsOf dto s.db.movements)) r.fail fun _ =>
            .go (r, .reconciled count s.db.movements)
      | .cancel => .idle
  | (r, .reconciled count seen) =>
      match r.op with
      | .submit now dto =>
          .orRollback (submitWrite r.ctx now count (adjustmentsOf dto seen) dto.notes) r.fail
            fun w => .go (r, .completing count seen w)
      | .cancel => .idle
  | (r, .completing _ _ w) =>
      .commit (s.note (w.publish s.db r.ctx) (.applied r w.rows)) (r, .answered (.ok ()))
  | (r, .cancelling count) =>
      .commit (s.note ((cancelWrite count).publish s.db r.ctx) (.applied r []))
        (r, .answered (.ok ()))
  | (_, .answered _) => .idle

/-- A commit of any other service: counts are only started there, and the ledger only
grows. -/
structure CountBystander where
  write : Db → Db
  counts : ∀ db, ∃ new, (write db).stockCounts = db.stockCounts ++ new
  ledger : ∀ db, ∃ new, (write db).movements = db.movements ++ new

/-- The rows a change has added to the ledger. -/
def CountBystander.rows (e : CountBystander) (db : Db) : List StockMovement :=
  (e.write db).movements.drop db.movements.length

/-- What a bystander adds to the ledger. -/
theorem CountBystander.movements (e : CountBystander) (db : Db) :
    (e.write db).movements = db.movements ++ e.rows db := by
  obtain ⟨new, hnew⟩ := e.ledger db
  unfold CountBystander.rows
  rw [hnew, List.drop_left]

/-- Any number of calls at once, and what `elsewhere` makes of other requests. -/
def countSession {ε : Type} (elsewhere : CountJournal → ε → CountJournal) :
    Session CountJournal (CountCall × CountPhase) CountCall Uuid Unit ε where
  start r := (r, .asked)
  turn _ := countTurn
  env := elsewhere

/-- A bystander's write, noted as one. -/
def bystanding (s : CountJournal) (e : CountBystander) : CountJournal :=
  s.note (e.write s.db) (.elsewhere (e.rows s.db))

/-- Calls on counts among everything else, from a database `db`. -/
def countRace (db : Db) : System (Sessions CountJournal (CountCall × CountPhase) Uuid)
    (SessionEvent CountCall Unit CountBystander) :=
  (countSession bystanding).interleaved fun s => s = .blank db

/-- Calls on counts and no other movement. -/
def countsOnly (db : Db) : System (Sessions CountJournal (CountCall × CountPhase) Uuid)
    (SessionEvent CountCall Unit Empty) :=
  (countSession fun s _ => s).interleaved fun s => s = .blank db

/-! ## §3. On its own a call is the service's method. -/

section Alone

variable {ε : Type} {elsewhere : CountJournal → ε → CountJournal}

/-- What a call on its own comes to: what is committed then, and its answer. -/
def CountCall.Settles (elsewhere : CountJournal → ε → CountJournal) (s : CountJournal)
    (r : CountCall) (phase : CountPhase) (out : Except ApiError Db) : Prop :=
  ∃ s', (countSession elsewhere).Leads s (r, phase) s' (r, .answered (out.map fun _ => ()))
    ∧ s'.db = out.toOption.getD s.db

/-- How a call ends: with its answer, and what it returns on its own is committed. -/
def CountEnds (s : CountJournal) (r : CountCall) (out : Except ApiError Db) (s' : CountJournal)
    (t : CountCall × CountPhase) : Prop :=
  t = (r, .answered (out.map fun _ => ())) ∧ s'.db = out.toOption.getD s.db

variable (elsewhere) in
/-- A call that has failed has ended. -/
theorem count_failed (s : CountJournal) (r : CountCall) (e : ApiError) :
    (countSession elsewhere).Settles (CountEnds s r) s (r.fail e) (.error e) :=
  .ended ⟨rfl, rfl⟩

/-- On its own a submit ends as `submitStockCount` does. -/
theorem submit_settles {s : CountJournal} {r : CountCall} {now : Instant}
    {dto : SubmitStockCountDto} (hop : r.op = .submit now dto) :
    (countSession elsewhere).Settles (CountEnds s r) s (r, .locked)
      (submitStockCount s.db r.ctx now r.id dto) := by
  have hfail := count_failed elsewhere s r
  rw [submitStockCount_eq]
  refine .check (o := ()) rfl hfail fun count _ hturn => ?_
  have hlocked : countTurn s (r, .locked) = lockedTurn r count := hturn
  simp only [lockedTurn, hop] at hlocked
  by_cases hdone : count.status = .completed
  · rw [if_pos hdone] at hlocked ⊢
    exact .rollback (o := ()) hlocked (.ended ⟨rfl, rfl⟩)
  · rw [if_neg hdone] at hlocked ⊢
    have hopened : countTurn s (r, .opened count)
        = .orRollback (checkReasons s.db (adjustmentsOf dto s.db.movements)) r.fail fun _ =>
          .go (r, .reconciled count s.db.movements) := by
      simp only [countTurn, hop]
    have hreconciled : countTurn s (r, .reconciled count s.db.movements)
        = .orRollback (submitWrite r.ctx now count (adjustmentsOf dto s.db.movements) dto.notes)
          r.fail fun w => .go (r, .completing count s.db.movements w) := by
      simp only [countTurn, hop]
    -- the three checks of an open count, and its commit
    refine .check (o := ()) hlocked hfail fun _ _ hturn => .go hturn ?_
    refine .check (o := ()) hopened hfail fun _ _ hturn => .go hturn ?_
    refine .check (o := ()) hreconciled hfail fun w _ hturn => .go hturn ?_
    exact .commit (o := ()) rfl (.ended ⟨rfl, rfl⟩)

theorem cancel_settles {s : CountJournal} {r : CountCall} (hop : r.op = .cancel) :
    (countSession elsewhere).Settles (CountEnds s r) s (r, .locked)
      (cancelStockCount s.db r.ctx r.id) := by
  have hfail := count_failed elsewhere s r
  rw [cancelStockCount_eq]
  refine .check (o := ()) rfl hfail fun count _ hturn => ?_
  have hlocked : countTurn s (r, .locked) = lockedTurn r count := hturn
  simp only [lockedTurn, hop] at hlocked
  refine .check (o := ()) hlocked hfail fun _ _ hturn => .go hturn ?_
  exact .commit (o := ()) rfl (.ended ⟨rfl, rfl⟩)

/-- **On its own a call is `submit` or `cancel`.** -/
theorem count_alone (s : CountJournal) (r : CountCall) :
    r.Settles elsewhere s .asked (r.perform s.db) := by
  have hlocked : (countSession elsewhere).Settles (CountEnds s r) s (r, .locked)
      (r.perform s.db) := by
    unfold CountCall.perform
    cases hop : r.op with
    | submit now dto => exact submit_settles hop
    | cancel => exact cancel_settles hop
  -- a count that is not there is not found by the lock, nor by `submit` and `cancel`
  cases hfind : findCount s.db r.id with
  | some count =>
      have hturn : countTurn s (r, .asked) = .lock r.id (r, .locked) := by
        simp only [countTurn, hfind]
      obtain ⟨s', _, hleads, rfl, hdb⟩ := hlocked
      exact ⟨s', .lock (o := ()) hturn hleads, hdb⟩
  | none =>
      have hturn : countTurn s (r, .asked)
          = .rollback (r.fail (.notFound "Stock count not found")) := by
        simp only [countTurn, hfind]
      have hperform : r.perform s.db = .error (.notFound "Stock count not found") := by
        unfold CountCall.perform
        cases r.op with
        | submit now dto =>
            show submitStockCount _ _ _ _ _ = _
            rw [submitStockCount_eq, hfind]
            rfl
        | cancel =>
            show cancelStockCount _ _ _ = _
            rw [cancelStockCount_eq, hfind]
            rfl
      rw [hperform]
      exact ⟨s, .rollback (o := ()) hturn (.refl _ _), rfl⟩

end Alone

/-! ## §4. What a call knows. -/

/-- The statements, with what each of them has seen. -/
inductive CountMoves (s : CountJournal) : CountCall × CountPhase → CountTurn → Prop where
  | asks {r : CountCall} : CountMoves s (r, .asked) (.lock r.id (r, .locked))
  | opens {r : CountCall} {now : Instant} {dto : SubmitStockCountDto} {count : StockCount}
      (hop : r.op = .submit now dto) (hfind : findCount s.db r.id = some count)
      (hcheck : checkSubmit count dto = .ok ()) :
      CountMoves s (r, .locked) (.go (r, .opened count))
  | stops {r : CountCall} {count : StockCount} (hop : r.op = .cancel)
      (hfind : findCount s.db r.id = some count) (hopen : count.status = .open) :
      CountMoves s (r, .locked) (.go (r, .cancelling count))
  | reconciles {r : CountCall} {now : Instant} {dto : SubmitStockCountDto} {count : StockCount}
      (hop : r.op = .submit now dto)
      (hreasons : missingReasons (adjustmentsOf dto s.db.movements) = []) :
      CountMoves s (r, .opened count) (.go (r, .reconciled count s.db.movements))
  | writes {r : CountCall} {now : Instant} {dto : SubmitStockCountDto} {count : StockCount}
      {seen : List StockMovement} {w : CountWrite} (hop : r.op = .submit now dto)
      (hw : submitWrite r.ctx now count (adjustmentsOf dto seen) dto.notes = .ok w) :
      CountMoves s (r, .reconciled count seen) (.go (r, .completing count seen w))
  | completes {r : CountCall} {count : StockCount} {seen : List StockMovement} {w : CountWrite} :
      CountMoves s (r, .completing count seen w)
        (.commit (s.note (w.publish s.db r.ctx) (.applied r w.rows)) (r, .answered (.ok ())))
  | cancels {r : CountCall} {count : StockCount} :
      CountMoves s (r, .cancelling count)
        (.commit (s.note ((cancelWrite count).publish s.db r.ctx) (.applied r []))
          (r, .answered (.ok ())))
  | ends {r : CountCall} {phase : CountPhase} {result : Except ApiError Unit} :
      CountMoves s (r, phase) (.rollback (r, .answered result))
  | idles {t : CountCall × CountPhase} : CountMoves s t .idle

/-- A check, or the end of the call. -/
theorem CountMoves.orRollback {α : Type} {s : CountJournal} {r : CountCall} {phase : CountPhase}
    {x : Except ApiError α} {next : α → CountTurn}
    (h : ∀ a, x = .ok a → CountMoves s (r, phase) (next a)) :
    CountMoves s (r, phase) (.orRollback x r.fail next) :=
  Turn.orRollback_rec (p := CountMoves s (r, phase)) (fun _ => .ends) h

/-- What a call does once it holds the row of its count. -/
theorem lockedTurn_moves {s : CountJournal} {r : CountCall} {count : StockCount}
    (hfind : findCount s.db r.id = some count) :
    CountMoves s (r, .locked) (lockedTurn r count) := by
  unfold lockedTurn
  split
  next now dto hop =>
    split
    next => exact .ends
    next => exact .orRollback fun _ hcheck => .opens hop hfind hcheck
  next hop => exact .orRollback fun _ hopen => .stops hop hfind (require_ok.mp hopen)

/-- **The step inversion.** -/
theorem countTurn_moves (s : CountJournal) (t : CountCall × CountPhase) :
    CountMoves s t (countTurn s t) := by
  obtain ⟨r, phase⟩ := t
  -- one case for each place a call can stand at
  cases phase with
  | asked =>
      simp only [countTurn]
      split
      · exact .asks
      · exact .ends
  | locked => exact .orRollback fun _ hfound => lockedTurn_moves (found_ok.mp hfound)
  | opened count =>
      simp only [countTurn]
      split
      next now dto hop =>
        exact .orRollback fun _ hreasons => .reconciles hop (require_ok.mp hreasons)
      next => exact .idles
  | reconciled count seen =>
      simp only [countTurn]
      split
      next now dto hop => exact .orRollback fun _ hw => .writes hop hw
      next => exact .idles
  | completing count seen w => exact .completes
  | cancelling count => exact .cancels
  | answered result => exact .idles

theorem countSession_inverts {ε : Type} {elsewhere : CountJournal → ε → CountJournal} :
    (countSession elsewhere).Inverts CountMoves := fun _ => countTurn_moves

/-- The count as the call has read it: still that, and open. -/
def StillOpen (s : CountJournal) (r : CountCall) (count : StockCount) : Prop :=
  findCount s.db r.id = some count ∧ count.status = .open

/-- What a call knows of its count and of its own checks. -/
def CountKnows (s : CountJournal) : CountCall × CountPhase → Prop
  | (_, .asked) => True
  | (_, .locked) => True
  | (r, .opened count) => StillOpen s r count
      ∧ ∀ now dto, r.op = .submit now dto → checkSubmit count dto = .ok ()
  | (r, .reconciled count seen) => StillOpen s r count
      ∧ ∀ now dto, r.op = .submit now dto → checkSubmit count dto = .ok ()
        ∧ missingReasons (adjustmentsOf dto seen) = []
  | (r, .completing count seen w) => StillOpen s r count
      ∧ ∃ now dto, r.op = .submit now dto ∧ checkSubmit count dto = .ok ()
        ∧ missingReasons (adjustmentsOf dto seen) = []
        ∧ submitWrite r.ctx now count (adjustmentsOf dto seen) dto.notes = .ok w
  | (r, .cancelling count) => StillOpen s r count ∧ r.op = .cancel
  | (_, .answered _) => True

/-- The call has its count's row locked. -/
def CountPhase.locks : CountPhase → Bool
  | .asked | .answered _ => false
  | _ => true

/-- The lock a call holds: the row of its count. -/
def CountHolds (t : CountCall × CountPhase) (id : Uuid) : Prop :=
  id = t.1.id ∧ t.2.locks = true

/-- A write changes its own count only. -/
theorem findCount_publish {w : CountWrite} {db : Db} {ctx : TenantContext} {id : Uuid} :
    findCount (w.publish db ctx) id
      = (findCount db id).map fun c => if c.id = w.count.id then w.count else c := by
  show (replaceCount db.stockCounts w.count).find? _ = _
  unfold replaceCount findCount
  rw [List.find?_map]
  congr 1
  refine congrArg (db.stockCounts.find? ·) (funext fun c => ?_)
  show decide ((if c.id = w.count.id then w.count else c).id = id) = decide (c.id = id)
  by_cases hc : c.id = w.count.id
  · rw [if_pos hc, hc]
  · rw [if_neg hc]

/-- What a submit that goes through writes. -/
theorem submitWrite_ok {ctx : TenantContext} {now : Instant} {count : StockCount}
    {adjustments : List CountAdjustment} {notes : Option String} {w : CountWrite}
    (h : submitWrite ctx now count adjustments notes = .ok w) :
    w.count = completeCount count ctx now adjustments notes
      ∧ w.rows.map (·.toNewMovement) = adjustmentRows ctx count.code adjustments := by
  obtain ⟨rows, hrows, h⟩ := bind_ok.mp h
  obtain ⟨_, -, h⟩ := bind_ok.mp h
  cases pure_ok.mp h
  exact ⟨rfl, storeRows_ok hrows⟩

/-- Another call's count is not the one that was written. -/
theorem findCount_publish_other {w : CountWrite} {db : Db} {ctx : TenantContext} {id : Uuid}
    (hne : id ≠ w.count.id) : findCount (w.publish db ctx) id = findCount db id := by
  rw [findCount_publish]
  cases hfind : findCount db id with
  | none => rfl
  | some c =>
      show some (if c.id = w.count.id then w.count else c) = some c
      rw [if_neg (findCount_id hfind ▸ hne)]

theorem findCount_publish_self {w : CountWrite} {db : Db} {ctx : TenantContext} {id : Uuid}
    {count : StockCount} (hfind : findCount db id = some count) (hid : w.count.id = id) :
    findCount (w.publish db ctx) id = some w.count := by
  rw [findCount_publish, hfind]
  show some (if count.id = w.count.id then w.count else count) = _
  rw [if_pos ((findCount_id hfind).trans hid.symm)]

/-- A commit on another count leaves what a call knows. -/
theorem CountKnows.other {s : CountJournal} {r : CountCall} {w : CountWrite}
    {entry : CountEntry} (hid : w.count.id = r.id) {u : CountCall × CountPhase}
    (hu : CountKnows s u) (hfree : ¬ CountHolds u r.id) :
    CountKnows (s.note (w.publish s.db r.ctx) entry) u := by
  obtain ⟨q, phase⟩ := u
  -- a call that holds the lock of another count works on that one
  have hother : ∀ count, phase.locks = true → StillOpen s q count →
      StillOpen (s.note (w.publish s.db r.ctx) entry) q count := by
    intro count hlocks hstill
    have hne : q.id ≠ w.count.id := by
      intro heq
      exact hfree ⟨(heq.trans hid).symm, hlocks⟩
    refine ⟨?_, hstill.2⟩
    show findCount (w.publish s.db r.ctx) q.id = some count
    rw [findCount_publish_other hne]
    exact hstill.1
  cases phase with
  | asked => exact trivial
  | locked => exact trivial
  | opened count => exact ⟨hother count rfl hu.1, hu.2⟩
  | reconciled count seen => exact ⟨hother count rfl hu.1, hu.2⟩
  | completing count seen w => exact ⟨hother count rfl hu.1, hu.2⟩
  | cancelling count => exact ⟨hother count rfl hu.1, hu.2⟩
  | answered result => exact trivial

/-- Found counts survive a change from elsewhere. -/
def KeepsCounts {ε : Type} (elsewhere : CountJournal → ε → CountJournal) : Prop :=
  ∀ s e id count, findCount s.db id = some count → findCount (elsewhere s e).db id = some count

/-- What a call relies on stands while bystanders leave the counts alone. -/
theorem CountKnows.env {s s' : CountJournal} {u : CountCall × CountPhase}
    (hkeep : ∀ id count, findCount s.db id = some count → findCount s'.db id = some count)
    (hu : CountKnows s u) : CountKnows s' u := by
  obtain ⟨q, phase⟩ := u
  cases phase with
  | asked => exact trivial
  | locked => exact trivial
  | opened count => exact ⟨⟨hkeep _ _ hu.1.1, hu.1.2⟩, hu.2⟩
  | reconciled count seen => exact ⟨⟨hkeep _ _ hu.1.1, hu.1.2⟩, hu.2⟩
  | completing count seen w => exact ⟨⟨hkeep _ _ hu.1.1, hu.1.2⟩, hu.2⟩
  | cancelling count => exact ⟨⟨hkeep _ _ hu.1.1, hu.1.2⟩, hu.2⟩
  | answered result => exact trivial

/-- What is known of counts and calls, statement by statement. -/
theorem countSession_knows {ε : Type} {elsewhere : CountJournal → ε → CountJournal}
    (hkeep : KeepsCounts elsewhere) :
    (countSession elsewhere).Knows (fun _ => True) CountKnows CountHolds where
  start s r _ := ⟨trivial, fun k h => Bool.false_ne_true h.2⟩
  go o s t t' _ hk hturn := by
    cases countSession_inverts.moves hturn with
    | opens hop hfind hcheck =>
        refine ⟨⟨⟨hfind, ?_⟩, ?_⟩, fun k hh => hh⟩
        · obtain ⟨_, hopen, -⟩ := bind_ok.mp hcheck
          exact require_ok.mp hopen
        · intro now dto hop'
          cases hop.symm.trans hop'
          exact hcheck
    | stops hop hfind hopen => exact ⟨⟨⟨hfind, hopen⟩, hop⟩, fun k hh => hh⟩
    | reconciles hop hreasons =>
        refine ⟨⟨hk.1, ?_⟩, fun k hh => hh⟩
        intro now dto hop'
        cases hop.symm.trans hop'
        exact ⟨hk.2 _ _ hop, hreasons⟩
    | writes hop hw =>
        obtain ⟨hcheck, hreasons⟩ := hk.2 _ _ hop
        exact ⟨⟨hk.1, _, _, hop, hcheck, hreasons, hw⟩, fun k hh => hh⟩
  lock o s t t' k _ hk hturn := by
    cases countSession_inverts.moves hturn with
    | asks => exact ⟨trivial, fun k' hh => .inl hh.1⟩
  commit o s t s' t' _ hk hturn := by
    cases countSession_inverts.moves hturn with
    | completes =>
        obtain ⟨⟨hfind, -⟩, now, dto, -, -, -, hw⟩ := hk
        refine ⟨trivial, trivial, fun k h => Bool.false_ne_true h.2, ?_⟩
        -- another call on this count would hold its lock
        intro u hu hfree
        refine hu.other ?_ (hfree _ ⟨rfl, rfl⟩)
        rw [(submitWrite_ok hw).1, completeCount_id]
        exact findCount_id hfind
    | cancels =>
        obtain ⟨⟨hfind, -⟩, -⟩ := hk
        refine ⟨trivial, trivial, fun k h => Bool.false_ne_true h.2, ?_⟩
        intro u hu hfree
        refine hu.other ?_ (hfree _ ⟨rfl, rfl⟩)
        rw [cancelWrite_id]
        exact findCount_id hfind
  rollback o s t t' _ hk hturn := by
    cases countSession_inverts.moves hturn with
    | ends => exact ⟨trivial, fun k h => Bool.false_ne_true h.2⟩
  env s e _ := ⟨trivial, fun u hu => hu.env (hkeep s e)⟩

/-! ## §5. Applied by one submit, or by none. -/

/-- What the calls on one count have committed. -/
def entriesOf (id : Uuid) (log : List CountEntry) : List (CountCall × List StockMovement) :=
  log.filterMap fun
    | .applied r rows => if r.id = id then some (r, rows) else none
    | .elsewhere _ => none

/-- An entry of the count joins its entries. -/
theorem entriesOf_snoc_self {id : Uuid} {log : List CountEntry} {r : CountCall}
    {rows : List StockMovement} (hid : r.id = id) :
    entriesOf id (log ++ [.applied r rows]) = entriesOf id log ++ [(r, rows)] := by
  unfold entriesOf
  rw [List.filterMap_append]
  simp [hid]

/-- One of another count does not. -/
theorem entriesOf_snoc_other {id : Uuid} {log : List CountEntry} {r : CountCall}
    {rows : List StockMovement} (hid : r.id ≠ id) :
    entriesOf id (log ++ [.applied r rows]) = entriesOf id log := by
  unfold entriesOf
  rw [List.filterMap_append]
  simp [hid]

theorem entriesOf_snoc_elsewhere {id : Uuid} {log : List CountEntry}
    {rows : List StockMovement} :
    entriesOf id (log ++ [.elsewhere rows]) = entriesOf id log := by
  unfold entriesOf
  rw [List.filterMap_append]
  simp

/-- **What a submit writes** of its lines, at a live stock: one ADJUSTMENT for each line
whose count is not the stock, none for the others, and no ingredient twice. -/
structure Reconciles (count : StockCount) (dto : SubmitStockCountDto) (live : Uuid → ℤ)
    (rows : List StockMovement) : Prop where
  lines : ∀ l ∈ dto.lines, l.ingredientId ∈ count.lines.map (·.ingredientId)
  once : (dto.lines.map (·.ingredientId)).Nodup
  differences : rows.map (fun m => (m.ingredientId, m.quantity))
    = (dto.lines.map fun l => (l.ingredientId, l.countedQuantity - live l.ingredientId)).filter
        fun d => d.2 ≠ 0
  adjustments : ∀ m ∈ rows, m.type = .adjustment

/-- The lines of a submit are among those of the count, each once. -/
theorem checkLines_ok {counted : List Uuid} {lines : List SubmitLine} :
    ∀ {seen : List Uuid}, checkLines counted lines seen = .ok () →
      (∀ l ∈ lines, l.ingredientId ∈ counted ∧ l.ingredientId ∉ seen)
        ∧ (lines.map (·.ingredientId)).Nodup := by
  induction lines with
  | nil => exact fun _ => ⟨List.forall_mem_nil _, List.nodup_nil⟩
  | cons l lines ih =>
      intro seen h
      obtain ⟨_, hin, h⟩ := bind_ok.mp h
      obtain ⟨_, hnew, h⟩ := bind_ok.mp h
      obtain ⟨hall, hnd⟩ := ih h
      refine ⟨?_, ?_⟩
      · intro l' hl'
        rcases List.mem_cons.mp hl' with rfl | hl'
        · exact ⟨require_ok.mp hin, require_ok.mp hnew⟩
        · exact ⟨(hall l' hl').1, fun hs => (hall l' hl').2 (List.mem_cons_of_mem _ hs)⟩
      · rw [List.map_cons, List.nodup_cons]
        refine ⟨?_, hnd⟩
        intro hmem
        obtain ⟨l', hl', heq⟩ := List.mem_map.mp hmem
        exact (hall l' hl').2 (heq ▸ List.mem_cons_self)

/-- An adjustment for each line that was off, of what it was off by. -/
theorem adjustmentRows_differences (ctx : TenantContext) (code : String)
    (lines : List SubmitLine) (live : Uuid → ℤ) :
    (adjustmentRows ctx code (reconcileCount lines live)).map
        (fun m => (m.ingredientId, m.quantity))
      = (lines.map fun l => (l.ingredientId, l.countedQuantity - live l.ingredientId)).filter
          fun d => d.2 ≠ 0 := by
  unfold adjustmentRows reconcileCount
  rw [List.map_map, List.filter_map, List.filter_map, List.map_map]
  rfl

/-- What a submit writes brings the stock it has seen to what was counted. -/
theorem reconciles_of_write {ctx : TenantContext} {now : Instant} {count : StockCount}
    {dto : SubmitStockCountDto} {seen : List StockMovement} {w : CountWrite}
    (hcheck : checkSubmit count dto = .ok ())
    (hw : submitWrite ctx now count (adjustmentsOf dto seen) dto.notes = .ok w) :
    Reconciles count dto (stockOf seen) w.rows := by
  obtain ⟨_, -, hlines⟩ := bind_ok.mp hcheck
  obtain ⟨hall, hnd⟩ := checkLines_ok hlines
  have hrows := (submitWrite_ok hw).2
  refine ⟨fun l hl => (hall l hl).1, hnd, ?_, ?_⟩
  · rw [← adjustmentRows_differences ctx count.code, ← adjustmentsOf, ← hrows, List.map_map]
    rfl
  · intro m hm
    have hmem : m.toNewMovement ∈ adjustmentRows ctx count.code (adjustmentsOf dto seen) := by
      rw [← hrows]
      exact List.mem_map_of_mem hm
    obtain ⟨a, -, heq⟩ := List.mem_map.mp hmem
    show m.toNewMovement.type = .adjustment
    rw [← heq]

/-- **The story of one count**, `first` at the start: untouched, applied by one submit
against the stock of a moment of the run, or cancelled. -/
inductive CountStory (id : Uuid) (first : StockCount) (s : CountJournal) : Prop where
  | untouched (hfind : findCount s.db id = some first) (hnone : entriesOf id s.log = [])
  | completed {r : CountCall} {now : Instant} {dto : SubmitStockCountDto}
      {seen rows : List StockMovement} (hopen : first.status = .open)
      (hop : r.op = .submit now dto) (hone : entriesOf id s.log = [(r, rows)])
      (hseen : seen <+: s.db.movements) (hrows : Reconciles first dto (stockOf seen) rows)
      (hfind : findCount s.db id
        = some (completeCount first r.ctx now (adjustmentsOf dto seen) dto.notes))
  | cancelled {r : CountCall} (hopen : first.status = .open) (hop : r.op = .cancel)
      (hone : entriesOf id s.log = [(r, [])])
      (hfind : findCount s.db id = some { first with status := .cancelled })

/-- The ledger is what it was, and what has been committed since. -/
def LedgerGrown (ledger : List StockMovement) (s : CountJournal) : Prop :=
  s.db.movements = ledger ++ s.log.flatMap CountEntry.rows

/-- The ledger a submit has read is the beginning of what it is now. -/
def SeenBefore (s : CountJournal) : CountCall × CountPhase → Prop
  | (_, .reconciled _ seen) => seen <+: s.db.movements
  | (_, .completing _ seen _) => seen <+: s.db.movements
  | _ => True

/-- What a call has seen was in the ledger, and still is. -/
theorem SeenBefore.grown {s s' : CountJournal} {rows : List StockMovement}
    (hgrown : s'.db.movements = s.db.movements ++ rows) {u : CountCall × CountPhase}
    (hu : SeenBefore s u) : SeenBefore s' u := by
  have hlater : ∀ seen, seen <+: s.db.movements → seen <+: s'.db.movements := by
    intro seen h
    rw [hgrown]
    exact h.trans (List.prefix_append _ _)
  obtain ⟨q, phase⟩ := u
  cases phase with
  | reconciled count seen => exact hlater _ hu
  | completing count seen w => exact hlater _ hu
  | _ => exact trivial

/-- A commit that leaves the count alone, and its entries, goes on with its story. -/
theorem CountStory.elsewhere {id : Uuid} {first : StockCount} {s s' : CountJournal}
    (h : CountStory id first s) {rows : List StockMovement}
    (hgrown : s'.db.movements = s.db.movements ++ rows)
    (hkeep : ∀ count, findCount s.db id = some count → findCount s'.db id = some count)
    (hlog : entriesOf id s'.log = entriesOf id s.log) : CountStory id first s' := by
  cases h with
  | untouched hfind hnone => exact .untouched (hkeep _ hfind) (hlog.trans hnone)
  | completed hopen hop hone hseen hrows hfind =>
      refine .completed hopen hop (hlog.trans hone) ?_ hrows (hkeep _ hfind)
      rw [hgrown]
      exact hseen.trans (List.prefix_append _ _)
  | cancelled hopen hop hone hfind => exact .cancelled hopen hop (hlog.trans hone) (hkeep _ hfind)

/-- An open count has its story before it. -/
theorem CountStory.of_open {id : Uuid} {first count : StockCount} {s : CountJournal}
    (h : CountStory id first s) (hfind : findCount s.db id = some count)
    (hopen : count.status = .open) : count = first ∧ entriesOf id s.log = [] := by
  cases h with
  | untouched hfirst hnone =>
      rw [hfind] at hfirst
      exact ⟨Option.some.inj hfirst, hnone⟩
  | completed _ _ _ _ _ hdone =>
      rw [hfind] at hdone
      rw [Option.some.inj hdone] at hopen
      cases hopen
  | cancelled _ _ _ hgone =>
      rw [hfind] at hgone
      rw [Option.some.inj hgone] at hopen
      cases hopen

/-- A call's commit, on its own count or on another. -/
theorem CountStory.published {id : Uuid} {first : StockCount} {s : CountJournal}
    (h : CountStory id first s) {r : CountCall} {count : StockCount} {w : CountWrite}
    (hstill : StillOpen s r count) (hid : w.count.id = r.id)
    (hown : r.id = id → count = first → entriesOf id s.log = [] →
      CountStory id first (s.note (w.publish s.db r.ctx) (.applied r w.rows))) :
    CountStory id first (s.note (w.publish s.db r.ctx) (.applied r w.rows)) := by
  by_cases hr : r.id = id
  · obtain ⟨hcount, hnone⟩ := h.of_open (hr ▸ hstill.1) hstill.2
    exact hown hr hcount hnone
  · refine h.elsewhere rfl ?_ (entriesOf_snoc_other hr)
    intro c hc
    show findCount (w.publish s.db r.ctx) id = some c
    rw [findCount_publish_other]
    · exact hc
    · intro heq
      exact hr (hid.symm.trans heq.symm)

/-- The ledger grows by what is noted. -/
theorem LedgerGrown.note {ledger rows : List StockMovement} {s : CountJournal} {db : Db}
    {entry : CountEntry} (h : LedgerGrown ledger s) (hdb : db.movements = s.db.movements ++ rows)
    (hrows : entry.rows = rows) : LedgerGrown ledger (s.note db entry) := by
  rw [← hrows] at hdb
  exact Journal.grown h hdb

/-- A bystander leaves every count alone. -/
theorem findCount_bystander (e : CountBystander) {db : Db} {id : Uuid} {count : StockCount}
    (h : findCount db id = some count) : findCount (e.write db) id = some count := by
  obtain ⟨new, hnew⟩ := e.counts db
  unfold findCount at h ⊢
  rw [hnew, List.find?_append, h]
  rfl

/-- What is learned along a run of the story of one count. -/
theorem countSession_learns (ledger : List StockMovement) (id : Uuid) (first : StockCount) :
    (countSession bystanding).Learns CountKnows
      (fun s => CountStory id first s ∧ LedgerGrown ledger s) SeenBefore where
  start s r _ := trivial
  go o s t t' _ _ hseen hturn := by
    cases countSession_inverts.moves hturn with
    | opens _ _ _ => exact trivial
    | stops _ _ _ => exact trivial
    | reconciles _ _ => exact List.prefix_refl _
    | writes _ _ => exact hseen
  lock o s t t' k _ _ _ hturn := by
    cases countSession_inverts.moves hturn with
    | asks => exact trivial
  commit o s t s' t' hinv hk hseen hturn := by
    obtain ⟨hstory, hledger⟩ := hinv
    cases countSession_inverts.moves hturn with
    | @completes r count seen w =>
        -- its rows are the differences from the ledger it saw (`hseen`), not from the one now
        obtain ⟨hstill, now, dto, hop, hcheck, -, hw⟩ := hk
        have hcount := (submitWrite_ok hw).1
        have hid : w.count.id = r.id := by
          rw [hcount, completeCount_id]
          exact findCount_id hstill.1
        refine ⟨⟨hstory.published hstill hid ?_, hledger.note rfl rfl⟩, trivial, ?_⟩
        · intro hr hfirst hnone
          subst hfirst
          refine .completed hstill.2 hop ?_ (hseen.trans (List.prefix_append _ _))
            (reconciles_of_write hcheck hw) ?_
          · rw [Journal.note_log, entriesOf_snoc_self hr, hnone]
            rfl
          · rw [Journal.note_db, findCount_publish_self (hr ▸ hstill.1) (hid.trans hr), hcount]
        · exact fun u hu => hu.grown rfl
    -- a cancel is noted with no rows
    | @cancels r count =>
        obtain ⟨hstill, hop⟩ := hk
        have hid : (cancelWrite count).count.id = r.id :=
          (cancelWrite_id count).trans (findCount_id hstill.1)
        refine ⟨⟨hstory.published hstill hid ?_, hledger.note rfl rfl⟩, trivial, ?_⟩
        · intro hr hfirst hnone
          subst hfirst
          refine .cancelled hstill.2 hop ?_ ?_
          · rw [Journal.note_log]
            show entriesOf id (s.log ++ [.applied r []]) = _
            rw [entriesOf_snoc_self hr, hnone]
            rfl
          · rw [Journal.note_db, findCount_publish_self (hr ▸ hstill.1) (hid.trans hr)]
            rfl
        · exact fun u hu => hu.grown rfl
  rollback o s t t' _ _ _ hturn := by
    cases countSession_inverts.moves hturn with
    | ends => exact trivial
  env s e hinv := by
    refine ⟨⟨hinv.1.elsewhere (e.movements s.db) (fun _ => findCount_bystander e)
      entriesOf_snoc_elsewhere, hinv.2.note (e.movements s.db) rfl⟩, ?_⟩
    intro u hu
    exact hu.grown (e.movements s.db)

/-- What one step may do to a count: its status leaves OPEN once and for good, a call that
changes anything has succeeded with that, and an answered call does nothing more. -/
structure CountStep (id : Uuid) (c : Sessions CountJournal (CountCall × CountPhase) Uuid)
    (e : SessionEvent CountCall Unit CountBystander)
    (c' : Sessions CountJournal (CountCall × CountPhase) Uuid) : Prop where
  status : ∀ a b, findCount c.shared.db id = some a → findCount c'.shared.db id = some b →
    a.status = b.status ∨ a.status = .open ∧ (b.status = .completed ∨ b.status = .cancelled)
  changed : (∀ x, e ≠ .env x) → c'.shared = c.shared ∨
    ∃ i r, e = .run i () ∧ c'.running i = some (r, .answered (.ok ()))
  answered : ∀ i r result, c.running i = some (r, .answered result) → e ≠ .run i ()

/-- A commit on an open count moves that count, and no other. -/
theorem status_published {id : Uuid} {s : CountJournal} {r : CountCall} {count a b : StockCount}
    {w : CountWrite} (hstill : StillOpen s r count) (hid : w.count.id = r.id)
    (hstatus : w.count.status = .completed ∨ w.count.status = .cancelled)
    (ha : findCount s.db id = some a) (hb : findCount (w.publish s.db r.ctx) id = some b) :
    a.status = b.status ∨ a.status = .open ∧ (b.status = .completed ∨ b.status = .cancelled) := by
  by_cases hr : id = w.count.id
  · right
    have hsame : a = count := by
      rw [hr, hid, hstill.1] at ha
      exact (Option.some.inj ha).symm
    rw [findCount_publish_self ha hr.symm] at hb
    rw [hsame, ← Option.some.inj hb]
    exact ⟨hstill.2, hstatus⟩
  · left
    rw [findCount_publish_other hr, ha] at hb
    rw [Option.some.inj hb]

/-- **The step lemma** of a count's story. -/
theorem count_step {id : Uuid} {c c' : Sessions CountJournal (CountCall × CountPhase) Uuid}
    {e : SessionEvent CountCall Unit CountBystander}
    (hknow : ∀ i t, c.running i = some t → CountKnows c.shared t)
    (h : (countSession bystanding).act c e = some c') : CountStep id c e c' := by
  have hsame : ∀ a b, findCount c.shared.db id = some a → findCount c.shared.db id = some b →
      a.status = b.status ∨ a.status = .open ∧ (b.status = .completed ∨ b.status = .cancelled) := by
    intro a b ha hb
    rw [ha] at hb
    rw [Option.some.inj hb]
    exact .inl rfl
  have hidle : ∀ i r result, c.running i = some (r, .answered result) → e ≠ .run i () := by
    rintro i r result hi rfl
    simp only [Session.act, hi] at h
    cases h
  -- only a commit writes the count, and then the lock was its own
  cases (countSession bystanding).act_moved h with
  | began _ => exact ⟨hsame, fun _ => .inl rfl, hidle⟩
  | went _ _ => exact ⟨hsame, fun _ => .inl rfl, hidle⟩
  | locked _ _ _ => exact ⟨hsame, fun _ => .inl rfl, hidle⟩
  | @committed i o s' t t' hi hturn =>
      have hk := hknow i t hi
      have hmoves := countSession_inverts.moves hturn
      refine ⟨?_, fun _ => .inr ?_, hidle⟩
      · intro a b ha hb
        cases hmoves with
        | completes =>
            obtain ⟨hstill, now, dto, hop, hcheck, -, hw⟩ := hk
            refine status_published hstill ?_ (.inl ?_) ha hb
            · rw [(submitWrite_ok hw).1, completeCount_id]
              exact findCount_id hstill.1
            · rw [(submitWrite_ok hw).1]
              rfl
        | cancels =>
            refine status_published hk.1 ?_ (.inr rfl) ha hb
            exact (cancelWrite_id _).trans (findCount_id hk.1.1)
      · cases hmoves with
        | @completes r _ _ _ => exact ⟨i, r, rfl, Function.update_self ..⟩
        | @cancels r _ => exact ⟨i, r, rfl, Function.update_self ..⟩
  | rolledBack _ _ => exact ⟨hsame, fun _ => .inl rfl, hidle⟩
  | dropped => exact ⟨hsame, fun _ => .inl rfl, hidle⟩
  | @elsewhere x =>
      refine ⟨?_, fun hx => absurd rfl (hx x), hidle⟩
      intro a b ha hb
      have hkept : findCount (bystanding c.shared x).db id = some a := findCount_bystander x ha
      have hlater : findCount (bystanding c.shared x).db id = some b := hb
      rw [hkept] at hlater
      rw [Option.some.inj hlater]
      exact .inl rfl

/-- **A stock count is applied exactly once or not at all**, whatever calls and other
requests interleave: its story is one of three, the ledger holds what the entries say,
and no step does anything else to it. -/
theorem count_applied_once {db : Db} {id : Uuid} {first : StockCount}
    (hfirst : findCount db id = some first)
    {c : Sessions CountJournal (CountCall × CountPhase) Uuid} (h : (countRace db).Reachable c) :
    CountStory id first c.shared ∧ LedgerGrown db.movements c.shared
      ∧ ∀ e c', (countRace db).step c e c' → CountStep id c e c' := by
  have hkeep : KeepsCounts bystanding := fun s e _ _ hfind => findCount_bystander e hfind
  have hinv := Session.invariant ((countSession_knows hkeep).learn
    (countSession_learns db.movements id first)) ?_ h
  · refine ⟨hinv.1.2.1, hinv.1.2.2, ?_⟩
    intro e c' hstep
    exact count_step (fun i t hi => (hinv.2 i t hi).1.1) hstep
  · rintro s rfl
    exact ⟨trivial, .untouched hfirst rfl, (List.append_nil _).symm⟩

/-- Who counts. -/
def shelfKeeper : TenantContext := ⟨1, 3, 30, []⟩

/-- What is counted. -/
def paneer : Ingredient := ⟨7, "Paneer", none, true, false, none, none⟩

/-- Ten paneer were bought. -/
def paneerRow : NewMovement :=
  { ingredientId := 7, type := .purchase, quantity := 10, orderId := none, prepBatchId := none,
    supplierId := none, totalCostMinor := none, note := none, actorUserId := some 3,
    idempotencyKey := none }

/-- Ten of it are there. -/
def paneerBought : List StockMovement := (storeRows [paneerRow]).toOption.getD []

/-- A count of it that has been opened. -/
def paneerCount (id : Uuid) (code : String) : StockCount :=
  ⟨id, code, .open, none, some 3, none, none, [⟨7, 10, none, none, none⟩]⟩

/-- Two open counts, both of the paneer. -/
def shelf : Db :=
  { Db.empty with
    ingredients := [paneer]
    movements := paneerBought
    stockCounts := [paneerCount 1 "SC-1", paneerCount 2 "SC-2"] }

/-- Seven is within the bounds of a count. -/
theorem seven_countable : (0 : ℤ) ≤ 7 ∧ (7 : ℤ) ≤ maxQty := by decide

/-- Seven are there. -/
def countedSeven (id : Uuid) : CountCall :=
  ⟨shelfKeeper, id, .submit 100 ⟨[⟨7, 7, some .countingError, seven_countable⟩], none⟩⟩

/-- The count is called off. -/
def callOff (id : Uuid) : CountCall := ⟨shelfKeeper, id, .cancel⟩

/-- Ten more arrive while the count is on. -/
def delivery : CountBystander where
  write db := db.withMovements (db.movements ++ paneerBought)
  counts _ := ⟨[], (List.append_nil _).symm⟩
  ledger _ := ⟨paneerBought, rfl⟩

/-- A submit, a delivery while it has the lock, a second submit and a cancel that wait. -/
def busyCount : List (SessionEvent CountCall Unit CountBystander) :=
  [.begin 0 (countedSeven 1), .run 0 (), .begin 1 (callOff 1), .run 0 (), .env delivery,
    .begin 2 (countedSeven 1), .run 0 (), .run 0 (), .run 0 (), .run 1 (), .run 1 (), .run 2 (),
    .run 2 ()]

theorem busyCount_runs : (System.replay (countSession bystanding).act busyCount
    (Session.quiet (.blank shelf))).isSome = true := by decide +kernel

/-- The story of a count in a run with two calls on it. -/
theorem count_applied_once_busy : ∃ c, (countRace shelf).Reachable c
    ∧ (findCount c.shared.db 1).map (·.status) = some .completed
    ∧ CountStory 1 (paneerCount 1 "SC-1") c.shared := by
  have hreach : (countRace shelf).Reachable _ :=
    Session.replay_reached (by rfl) busyCount (Option.some_get busyCount_runs).symm
  exact ⟨_, hreach, by decide +kernel, (count_applied_once rfl hreach).1⟩

end OraOS.Inventory
