/-
  OraOS.Inventory.Wasting — `PrepService.wasteBatch` statement by statement.

  What remains of the batch is read without a lock; the row waits for the entry of its
  key, and is in the ledger with the commit.

    * `writeMovement_eq` — an insert is a row that is stored and a key that is free;
    * `wasteTurn`        — the statements of a call;
    * `waste_alone`      — on its own a call is `wasteBatch`;
    * `wasteTurn_moves`  — **the step inversion**;
    * `waste_commit`     — a commit is `wasteBatch` on what is committed then, if the batch
                           still has the quantity left.
-/
import OraOS.Inventory.Batches
import OraOS.Lib.Sessions

namespace OraOS.Inventory

open OraOS.Api
open OraOS.Lib

/-! ## §1. A row and its key. -/

/-- The row, within the columns' range and the CHECKs. -/
def storeMovement (m : NewMovement) : Except ApiError StockMovement := do
  let rows ← insertMovement [] m
  found rows.getLast? .recordNotFound

/-- Its key, if it has one, is on no committed row. -/
def enterMovementKey (db : Db) (key : Option String) : Except ApiError Unit :=
  require (¬ keyTaken key (db.movements.map (·.idempotencyKey)) = true)
    (.uniqueViolation .movementIdempotencyKey)

/-- An insert checks the row and enters its key, and then adds it. -/
theorem insertMovement_eq (db : Db) (m : NewMovement) :
    insertMovement db.movements m = (do
      let row ← storeMovement m
      enterMovementKey db m.idempotencyKey
      pure (db.movements ++ [row])) := by
  have hnobody : keyTaken m.idempotencyKey (([] : List StockMovement).map (·.idempotencyKey))
      = false := by simp [keyTaken]
  unfold storeMovement insertMovement
  split
  · split
    · split
      · split
        · rw [hnobody]
          unfold enterMovementKey
          by_cases hfree : keyTaken m.idempotencyKey (db.movements.map (·.idempotencyKey)) = true
          · simp only [require, hfree]
            rfl
          · rw [if_neg hfree, require_of _ hfree]
            rfl
        · rfl
      · rfl
    · rfl
  · rfl

/-- The row stored is the one that was given. -/
theorem storeMovement_ok {m : NewMovement} {row : StockMovement} (h : storeMovement m = .ok row) :
    row.toNewMovement = m := by
  obtain ⟨rows, hrows, h⟩ := bind_ok.mp h
  obtain ⟨r, hr, rfl⟩ := insertMovement_ok hrows
  rw [found_ok] at h
  cases h
  exact hr

/-- **`writeMovement`**, in two statements when nothing happens in between. -/
theorem writeMovement_eq (db : Db) (m : NewMovement) :
    writeMovement db m = (do
      let row ← storeMovement m
      enterMovementKey db m.idempotencyKey
      pure (row, db.withMovements (db.movements ++ [row]))) := by
  unfold writeMovement
  rw [insertMovement_eq]
  simp only [bind_assoc, pure_bind]
  refine bind_congr fun row => bind_congr fun _ => ?_
  rw [List.getLast?_concat]
  rfl

/-! ## §2. The statements of a call. -/

/-- A request to write off part of a batch. -/
structure WasteCall where
  ctx : TenantContext
  batchId : Uuid
  dto : WasteBatchDto

/-- The request of a call, made alone. -/
def WasteCall.perform (r : WasteCall) (db : Db) : Except ApiError (StockMovement × Db) :=
  wasteBatch db r.ctx r.batchId r.dto

/-- The WASTE row; the sign is the server's. -/
def WasteCall.row (r : WasteCall) (ingredientId : Uuid) : NewMovement :=
  { ingredientId, type := .waste, quantity := -r.dto.quantity, orderId := none,
    prepBatchId := some r.batchId, supplierId := none, totalCostMinor := none,
    note := r.dto.note, actorUserId := some r.ctx.userId,
    idempotencyKey := r.dto.idempotencyKey }

/-- The batch a request names. -/
def findBatch (db : Db) (batchId : Uuid) : Except ApiError PrepBatch :=
  found (db.prepBatches.find? fun b => b.id = batchId) (.notFound "Batch not found")

/-- No more is written off than remains. -/
def checkRemaining (db : Db) (r : WasteCall) : Except ApiError Unit :=
  require (r.dto.quantity ≤ remainingOf db.movements r.batchId)
    (.badRequest ("Only " ++ toString (remainingOf db.movements r.batchId)
      ++ " remaining in this batch"))

/-- Where a call stands between its statements. -/
inductive WastePhase where
  | asked
  | reading
  | batchRead (b : PrepBatch)
  | checked (b : PrepBatch)
  /-- the row waits for the entry of its key -/
  | entering (row : StockMovement)
  | staged (row : StockMovement)
  | clashed (e : ApiError)
  | answered (result : Except ApiError StockMovement)

/-- An index that refuses the row leads to a second lookup; other errors are the answer. -/
def WasteCall.fail (r : WasteCall) : ApiError → WasteCall × WastePhase
  | .uniqueViolation ix => (r, .clashed (.uniqueViolation ix))
  | e => (r, .answered (.error e))

/-- The next statement of a call; the lock is the entry of a key. -/
def wasteTurn (db : Db) : WasteCall × WastePhase → Turn Db (WasteCall × WastePhase) String
  | (r, .asked) =>
      match findMovementByKey db r.dto.idempotencyKey with
      | some existing => .rollback (r, .answered (.ok existing))
      | none => .rollback (r, .reading)
  | (r, .reading) => .orRollback (findBatch db r.batchId) r.fail fun b => .go (r, .batchRead b)
  | (r, .batchRead b) =>
      -- what remains now; no lock keeps it so
      .orRollback (checkRemaining db r) r.fail fun _ => .go (r, .checked b)
  | (r, .checked b) =>
      .orRollback (storeMovement (r.row b.prepIngredientId)) r.fail fun row =>
        .go (r, .entering row)
  | (r, .entering row) =>
      .orRollback (enterMovementKey db r.dto.idempotencyKey) r.fail fun _ =>
        match r.dto.idempotencyKey with
        | some key => .lock key (r, .staged row)
        | none => .go (r, .staged row)
  | (r, .staged row) =>
      .commit (db.withMovements (db.movements ++ [row])) (r, .answered (.ok row))
  | (r, .clashed e) =>
      match findMovementByKey db r.dto.idempotencyKey with
      | some existing => .rollback (r, .answered (.ok existing))
      | none => .rollback (r, .answered (.error e))
  | (_, .answered _) => .idle

/-- Batches written off side by side. -/
def wasteSession : Session Db (WasteCall × WastePhase) WasteCall String Unit Empty where
  start r := (r, .asked)
  turn _ := wasteTurn
  env _ e := e.elim

/-! ## §3. On its own a call is `wasteBatch`. -/

/-- `wasteBatch` past the lookup of its key. -/
def WasteCall.write (r : WasteCall) (db : Db) : Except ApiError (StockMovement × Db) := do
  let b ← findBatch db r.batchId
  checkRemaining db r
  let row ← storeMovement (r.row b.prepIngredientId)
  enterMovementKey db r.dto.idempotencyKey
  pure (row, db.withMovements (db.movements ++ [row]))

/-- **The request is the write of the session, behind the lookup of its key.** -/
theorem wasteBatch_eq (db : Db) (r : WasteCall) :
    r.perform db = writeOnce db r.dto.idempotencyKey (r.write db) := by
  have hwrite : ∀ b : PrepBatch, writeMovement db (r.row b.prepIngredientId) = (do
      let row ← storeMovement (r.row b.prepIngredientId)
      enterMovementKey db r.dto.idempotencyKey
      pure (row, db.withMovements (db.movements ++ [row]))) := fun b => writeMovement_eq db _
  unfold WasteCall.perform wasteBatch WasteCall.write findBatch checkRemaining
  simp only [← hwrite]
  rfl

/-- What a call leaves. -/
def wasteLeft (db : Db) : Except ApiError (StockMovement × Db) → Db
  | .ok (_, db') => db'
  | .error _ => db

/-- The call gets from a phase to what `result` says. -/
def WasteReaches (db : Db) (r : WasteCall) (phase : WastePhase)
    (result : Except ApiError (StockMovement × Db)) : Prop :=
  wasteSession.Leads db (r, phase) (wasteLeft db result) (r, .answered (result.map (·.1)))

/-- How a call ends: with what it leaves on its own. -/
def WasteEnds (db : Db) (r : WasteCall) (out : Except ApiError (StockMovement × Db)) (db' : Db)
    (t : WasteCall × WastePhase) : Prop :=
  db' = wasteLeft db out ∧ t = (r, .answered (out.map (·.1)))

/-- The key that was not found before is not found after a failure either. -/
theorem waste_failed {db : Db} {r : WasteCall}
    (hkey : findMovementByKey db r.dto.idempotencyKey = none) (e : ApiError) :
    wasteSession.Settles (WasteEnds db r) db (r.fail e) (.error e) := by
  cases e with
  | uniqueViolation ix =>
      have hclash : wasteTurn db (r, .clashed (.uniqueViolation ix))
          = .rollback (r, .answered (.error (.uniqueViolation ix))) := by
        simp only [wasteTurn, hkey]
      exact .rollback (o := ()) hclash (.ended ⟨rfl, rfl⟩)
  | _ => exact .ended ⟨rfl, rfl⟩

/-- The row is added once its key is entered. -/
theorem waste_written {db : Db} {r : WasteCall} {row : StockMovement}
    (hturn : wasteTurn db (r, .entering row) = match r.dto.idempotencyKey with
      | some key => .lock key (r, .staged row)
      | none => .go (r, .staged row)) :
    wasteSession.Settles (WasteEnds db r) db (r, .entering row)
      (.ok (row, db.withMovements (db.movements ++ [row]))) := by
  have hcommit : wasteSession.Settles (WasteEnds db r) db (r, .staged row)
      (.ok (row, db.withMovements (db.movements ++ [row]))) :=
    .commit (o := ()) rfl (.ended ⟨rfl, rfl⟩)
  cases hset : r.dto.idempotencyKey with
  | none =>
      rw [hset] at hturn
      exact .go (o := ()) hturn hcommit
  | some key =>
      rw [hset] at hturn
      exact .lock (o := ()) hturn hcommit

/-- **A call whose key is new, alone, is the request.** -/
theorem waste_settles {db : Db} {r : WasteCall}
    (hkey : findMovementByKey db r.dto.idempotencyKey = none) :
    wasteSession.Settles (WasteEnds db r) db (r, .reading) (r.write db) := by
  have hfail := waste_failed hkey
  refine .check (o := ()) rfl hfail fun b _ hturn => .go hturn ?_
  refine .check (o := ()) rfl hfail fun _ _ hturn => .go hturn ?_
  refine .check (o := ()) rfl hfail fun row _ hturn => .go hturn ?_
  exact .check (o := ()) rfl hfail fun _ _ hturn => waste_written hturn

/-- **On its own a call is `wasteBatch`**: what is committed then, and its answer. -/
theorem waste_alone (db : Db) (r : WasteCall) : WasteReaches db r .asked (r.perform db) := by
  rw [wasteBatch_eq]
  unfold writeOnce
  cases hkey : findMovementByKey db r.dto.idempotencyKey with
  | some existing =>
      have hasked : wasteTurn db (r, .asked) = .rollback (r, .answered (.ok existing)) := by
        simp only [wasteTurn, hkey]
      exact .rollback (o := ()) hasked (.refl _ _)
  | none =>
      have hasked : wasteTurn db (r, .asked) = .rollback (r, .reading) := by
        simp only [wasteTurn, hkey]
      -- behind the lookup the transaction runs to its end
      obtain ⟨_, _, hleads, rfl, rfl⟩ := waste_settles hkey
      exact .rollback (o := ()) hasked hleads

/-! ## §4. What a call knows. -/

/-- The batch it has read, the row of it, and that nobody has the key it has entered. -/
def WasteKnows (db : Db) : WasteCall × WastePhase → Prop
  | (r, .batchRead b) => findBatch db r.batchId = .ok b
  | (r, .checked b) => findBatch db r.batchId = .ok b
  | (r, .entering row) => ∃ b, findBatch db r.batchId = .ok b
      ∧ storeMovement (r.row b.prepIngredientId) = .ok row
  | (r, .staged row) => (∃ b, findBatch db r.batchId = .ok b
      ∧ storeMovement (r.row b.prepIngredientId) = .ok row)
      ∧ ¬ keyTaken r.dto.idempotencyKey (db.movements.map (·.idempotencyKey)) = true
  | _ => True

/-- A staged row holds the entry of its key. -/
def wasteHeld : WasteCall × WastePhase → String → Prop
  | (r, .staged _), key => r.dto.idempotencyKey = some key
  | _, _ => False

/-- What the next statement can be. -/
inductive WasteMoves (db : Db) (r : WasteCall) :
    WastePhase → Turn Db (WasteCall × WastePhase) String → Prop where
  | ends {p p' : WastePhase} (hknow : ∀ db', WasteKnows db' (r, p'))
      (hheld : ∀ key, ¬ wasteHeld (r, p') key) : WasteMoves db r p (.rollback (r, p'))
  | reads {b : PrepBatch} (h : findBatch db r.batchId = .ok b) :
      WasteMoves db r .reading (.go (r, .batchRead b))
  | checks {b : PrepBatch} (h : r.dto.quantity ≤ remainingOf db.movements r.batchId) :
      WasteMoves db r (.batchRead b) (.go (r, .checked b))
  | stores {b : PrepBatch} {row : StockMovement}
      (h : storeMovement (r.row b.prepIngredientId) = .ok row) :
      WasteMoves db r (.checked b) (.go (r, .entering row))
  | enters {row : StockMovement} {key : String} (hkey : r.dto.idempotencyKey = some key)
      (hfree : ¬ keyTaken r.dto.idempotencyKey (db.movements.map (·.idempotencyKey)) = true) :
      WasteMoves db r (.entering row) (.lock key (r, .staged row))
  | unkeyed {row : StockMovement} (hkey : r.dto.idempotencyKey = none) :
      WasteMoves db r (.entering row) (.go (r, .staged row))
  | commits {row : StockMovement} : WasteMoves db r (.staged row)
      (.commit (db.withMovements (db.movements ++ [row])) (r, .answered (.ok row)))
  | idles {result : Except ApiError StockMovement} : WasteMoves db r (.answered result) .idle

theorem WasteMoves.fails (db : Db) (r : WasteCall) (p : WastePhase) (e : ApiError) :
    WasteMoves db r p (.rollback (r.fail e)) := by
  cases e <;> exact .ends (fun _ => trivial) fun _ => id

/-- A statement that may fail is a move if what follows it is. -/
theorem WasteMoves.orRollback {α : Type} {db : Db} {r : WasteCall} {p : WastePhase}
    {x : Except ApiError α} {next : α → Turn Db (WasteCall × WastePhase) String}
    (h : ∀ a, x = .ok a → WasteMoves db r p (next a)) :
    WasteMoves db r p (.orRollback x r.fail next) :=
  Turn.orRollback_rec (p := WasteMoves db r p) (WasteMoves.fails db r p) h

/-- **The step inversion.** -/
theorem wasteTurn_moves (db : Db) (r : WasteCall) (p : WastePhase) :
    WasteMoves db r p (wasteTurn db (r, p)) := by
  cases p with
  | asked =>
      simp only [wasteTurn]
      split <;> exact .ends (fun _ => trivial) fun _ => id
  | reading => exact .orRollback fun _ h => .reads h
  | batchRead b => exact .orRollback fun _ h => .checks (require_ok.mp h)
  | checked b => exact .orRollback fun _ h => .stores h
  | entering row =>
      refine .orRollback fun _ h => ?_
      -- the index entry is the lock of the key
      have hfree := require_ok.mp h
      split
      next key hkey => exact .enters hkey hfree
      next hkey => exact .unkeyed hkey
  | staged row => exact .commits
  | clashed e =>
      simp only [wasteTurn]
      split <;> exact .ends (fun _ => trivial) fun _ => id
  | answered result => exact .idles

/-- No batch has changed, and the rows that have come have other keys. -/
theorem WasteKnows.kept {db db' : Db} {t : WasteCall × WastePhase} (h : WasteKnows db t)
    {rows : List StockMovement} (hbatches : db'.prepBatches = db.prepBatches)
    (hmovements : db'.movements = db.movements ++ rows)
    (hkeys : ∀ m ∈ rows, ∀ key, m.idempotencyKey = some key → ¬ wasteHeld t key) :
    WasteKnows db' t := by
  have hread : ∀ batchId, findBatch db' batchId = findBatch db batchId := by
    intro batchId
    unfold findBatch
    rw [hbatches]
  obtain ⟨r, p⟩ := t
  cases p with
  | batchRead b => exact (hread _).trans h
  | checked b => exact (hread _).trans h
  | entering row =>
      obtain ⟨b, hb, hrow⟩ := h
      exact ⟨b, (hread _).trans hb, hrow⟩
  | staged row =>
      obtain ⟨⟨b, hb, hrow⟩, hfree⟩ := h
      refine ⟨⟨b, (hread _).trans hb, hrow⟩, ?_⟩
      -- a key that is taken now was taken by one of the new rows
      intro htaken
      refine hfree ?_
      simp only [keyTaken, Bool.and_eq_true, List.contains_iff_mem] at htaken ⊢
      obtain ⟨hset, hmem⟩ := htaken
      refine ⟨hset, ?_⟩
      rw [hmovements, List.map_append] at hmem
      rcases List.mem_append.mp hmem with hold | hnew
      · exact hold
      · obtain ⟨m, hm, hkey⟩ := List.mem_map.mp hnew
        obtain ⟨key, hsome⟩ := Option.isSome_iff_exists.mp hset
        exact absurd hsome (hkeys m hm key (hkey.trans hsome))
  | _ => exact trivial

/-- A key that no row has finds nothing. -/
theorem findMovementByKey_free {db : Db} {key : Option String}
    (h : ¬ keyTaken key (db.movements.map (·.idempotencyKey)) = true) :
    findMovementByKey db key = none := by
  rw [Option.eq_none_iff_forall_not_mem]
  intro m hm
  obtain ⟨k, hk, hfind⟩ := Option.bind_eq_some_iff.mp hm
  obtain rfl := truthy_some hk
  have hrow : m.idempotencyKey = some k := by simpa using List.find?_some hfind
  refine h ?_
  simp only [keyTaken, Option.isSome_some, Bool.true_and, List.contains_iff_mem]
  exact hrow ▸ List.mem_map_of_mem (List.mem_of_find?_eq_some hfind)

/-- **A commit is `wasteBatch`** on what is committed then, if the batch has the quantity
left. -/
theorem waste_commit {db : Db} {r : WasteCall} {row : StockMovement}
    (hk : WasteKnows db (r, .staged row))
    (hleft : r.dto.quantity ≤ remainingOf db.movements r.batchId) :
    r.perform db = .ok (row, db.withMovements (db.movements ++ [row])) := by
  obtain ⟨⟨b, hb, hrow⟩, hfree⟩ := hk
  rw [wasteBatch_eq]
  unfold writeOnce WasteCall.write checkRemaining enterMovementKey
  rw [findMovementByKey_free hfree]
  simp only [hb, hrow, require_of _ hleft, require_of _ hfree, ok_bind]
  rfl

end OraOS.Inventory
