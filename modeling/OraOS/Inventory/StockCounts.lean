/-
  OraOS.Inventory.StockCounts — physical counts reconciled into the ledger
  (`StockCountService`).

  A submit turns every non-zero discrepancy against the live stock into one
  ADJUSTMENT; it never names an order.
-/
import OraOS.Inventory.Batches

namespace OraOS.Inventory

open OraOS.Api
open OraOS.Lib

/-! ## §1. The maths of a count. -/

/-- One physical count a staff member entered. -/
structure SubmitLine where
  ingredientId : Uuid
  countedQuantity : ℤ
  reason : Option StockCountReason
  counted_ok : 0 ≤ countedQuantity ∧ countedQuantity ≤ maxQty

/-- A reconciled count line. -/
structure CountAdjustment where
  ingredientId : Uuid
  countedQuantity : ℤ
  difference : ℤ
  reason : Option StockCountReason
  deriving DecidableEq, Repr

/-- `reconcileCount`: counted minus live stock, never minus the snapshot. -/
def reconcileCount (lines : List SubmitLine) (liveStock : Uuid → ℤ) :
    List CountAdjustment :=
  lines.map fun l =>
    ⟨l.ingredientId, l.countedQuantity, l.countedQuantity - liveStock l.ingredientId,
      l.reason⟩

/-- `missingReasons`: moved stock without a reason. -/
def missingReasons (adjustments : List CountAdjustment) : List Uuid :=
  (adjustments.filter fun a => a.difference ≠ 0 && a.reason.isNone).map (·.ingredientId)

/-- `REASON_LABEL`. -/
def reasonLabel : StockCountReason → String
  | .wasteSpoilage => "Waste / spoilage"
  | .countingError => "Counting error"
  | .damaged => "Damaged"
  | .theft => "Theft / missing"
  | .unrecordedUsage => "Unrecorded usage"
  | .receivingDiscrepancy => "Receiving discrepancy"
  | .other => "Other"

/-! ## §2. Starting a count. -/

/-- What to count: some ingredients, those that run low, or all. -/
structure StartStockCountDto where
  ingredientIds : Option (List Uuid)
  lowStockOnly : Bool
  notes : Option String

/-- `resolveScope`: the chosen ingredients, the low ones, or all active ones. -/
def resolveScope (db : Db) (dto : StartStockCountDto) : Except ApiError (List Uuid) := do
  let active := db.ingredients.filter (·.isActive)
  match dto.ingredientIds with
  | some (i :: is) => do
      -- an id named twice is counted once
      let ids := distinct (i :: is)
      require (countFound active ids = ids.length)
        (.badRequest "One or more items are unavailable")
      pure ((active.filter fun i => ids.contains i.id).map (·.id))
  | _ =>
      if dto.lowStockOnly then
        pure ((active.filter fun i =>
          i.reorderLevel.any fun level => decide (stockOf db.movements i.id ≤ level)).map (·.id))
      else pure (active.map (·.id))

/-- One attempt at `start`, with the code that was drawn for it. -/
def startWithCode (db : Db) (ctx : TenantContext) (env : Env) (code : String)
    (dto : StartStockCountDto) : Except ApiError (StockCount × Db) := do
  let ingredients ← resolveScope db dto
  require (ingredients ≠ []) (.badRequest "No ingredients to count")
  require (∀ c ∈ db.stockCounts, c.id ≠ env.newId ∧ c.code ≠ code)
    (.uniqueViolation .primaryKey)
  -- the expected quantities are a snapshot for the screen
  require (∀ i ∈ ingredients, fitsInt4 (stockOf db.movements i) = true) .outOfRange
  let count : StockCount :=
    { id := env.newId, code, status := .open, notes := dto.notes,
      createdBy := some ctx.userId, submittedBy := none, completedAt := none,
      lines := ingredients.map fun i => ⟨i, stockOf db.movements i, none, none, none⟩ }
  pure (count, { db with stockCounts := db.stockCounts ++ [count] })

/-- `retryOnCodeClash` around one attempt per code drawn. -/
def startAttempts (db : Db) (ctx : TenantContext) (env : Env) (dto : StartStockCountDto) :
    List String → Except ApiError (StockCount × Db)
  | [] => .error (.conflict "Could not allocate a count code — try again")
  | code :: codes =>
      match startWithCode db ctx env code dto with
      | .error (.uniqueViolation _) => startAttempts db ctx env dto codes
      | result => result

/-- `StockCountService.start`. -/
def startStockCount (db : Db) (ctx : TenantContext) (env : Env) (codes : List String)
    (dto : StartStockCountDto) : Except ApiError (StockCount × Db) :=
  startAttempts db ctx env dto (codes.take 5)

theorem startWithCode_leavesOrders {db db' : Db} {ctx : TenantContext} {env : Env}
    {code : String} {dto : StartStockCountDto} {count : StockCount}
    (h : startWithCode db ctx env code dto = .ok (count, db')) : LeavesOrders db db' := by
  simp only [startWithCode, bind_ok] at h
  obtain ⟨_, -, _, -, _, -, _, -, h⟩ := h
  cases pure_ok.mp h
  exact ⟨rfl, rfl, rfl, rfl, rfl, List.prefix_rfl, [], (List.append_nil _).symm,
    List.forall_mem_nil _⟩

theorem startAttempts_leavesOrders {db db' : Db} {ctx : TenantContext} {env : Env}
    {dto : StartStockCountDto} {count : StockCount} :
    ∀ {codes : List String}, startAttempts db ctx env dto codes = .ok (count, db') →
      LeavesOrders db db'
  | [], h => by cases h
  | code :: codes, h => by
      unfold startAttempts at h
      split at h
      next => exact startAttempts_leavesOrders h
      next => exact startWithCode_leavesOrders h

theorem startStockCount_leavesOrders {db db' : Db} {ctx : TenantContext} {env : Env}
    {codes : List String} {dto : StartStockCountDto} {count : StockCount}
    (h : startStockCount db ctx env codes dto = .ok (count, db')) : LeavesOrders db db' :=
  startAttempts_leavesOrders h

/-! ## §3. Submitting and cancelling. -/

/-- The numbers counted. -/
structure SubmitStockCountDto where
  lines : List SubmitLine
  notes : Option String

/-- The checks of the lines, in their order: on the count, and only once. -/
def checkLines (counted : List Uuid) : List SubmitLine → List Uuid → Except ApiError Unit
  | [], _ => .ok ()
  | l :: lines, seen => do
      require (l.ingredientId ∈ counted) (.badRequest "A counted item is not part of this count")
      require (l.ingredientId ∉ seen) (.badRequest "An item was counted twice")
      checkLines counted lines (l.ingredientId :: seen)

/-- The ADJUSTMENT rows of a submit. -/
def adjustmentRows (ctx : TenantContext) (code : String) (adjustments : List CountAdjustment) :
    List NewMovement :=
  (adjustments.filter fun a => a.difference ≠ 0).map fun a =>
    { ingredientId := a.ingredientId, type := .adjustment, quantity := a.difference,
      orderId := none, prepBatchId := none, supplierId := none, totalCostMinor := none,
      note := some ("Stock count " ++ code ++ " · "
        ++ (a.reason.map reasonLabel).getD "undefined"),
      actorUserId := some ctx.userId, idempotencyKey := none }

/-- The count with its submitted lines filled in. -/
def completeCount (count : StockCount) (ctx : TenantContext) (now : Instant)
    (adjustments : List CountAdjustment) (notes : Option String) : StockCount :=
  { count with
    status := .completed
    completedAt := some now
    submittedBy := some ctx.userId
    notes := notes.orElse fun _ => count.notes
    lines := count.lines.map fun l =>
      -- a line nobody counted stays as it was
      match adjustments.find? fun a => a.ingredientId = l.ingredientId with
      | some a =>
          { l with countedQuantity := some a.countedQuantity
                   difference := some a.difference
                   reason := a.reason }
      | none => l }

/-- The counts after one of them was rewritten. -/
def replaceCount (counts : List StockCount) (count : StockCount) : List StockCount :=
  counts.map fun c => if c.id = count.id then count else c

/-- `StockCountService.submit`. -/
def submitStockCount (db : Db) (ctx : TenantContext) (now : Instant) (id : Uuid)
    (dto : SubmitStockCountDto) : Except ApiError Db := do
  let count ← found (db.stockCounts.find? fun c => c.id = id)
    (.notFound "Stock count not found")
  -- a retried submit finds the count completed and writes nothing
  if count.status = .completed then pure db
  else do
    require (count.status = .open) (.conflict "This count can no longer be submitted")
    checkLines (count.lines.map (·.ingredientId)) dto.lines []
    let adjustments := reconcileCount dto.lines (stockOf db.movements)
    let missing := missingReasons adjustments
    require (missing = [])
      (.badRequest ("A reason is required where stock changed: " ++ ", ".intercalate
        ((db.ingredients.filter fun i => missing.contains i.id).map (·.name))))
    let movements ← createMany db.movements (adjustmentRows ctx count.code adjustments)
    require (∀ a ∈ adjustments, fitsInt4 a.difference = true) .outOfRange
    let db : Db := { db with
      movements
      stockCounts := replaceCount db.stockCounts
        (completeCount count ctx now adjustments dto.notes) }
    pure (db.record ctx id (.stockCountCompleted count.code adjustments.length
      (adjustments.filter fun a => a.difference ≠ 0).length))

/-- `StockCountService.cancel`. -/
def cancelStockCount (db : Db) (ctx : TenantContext) (id : Uuid) : Except ApiError Db := do
  let count ← found (db.stockCounts.find? fun c => c.id = id)
    (.notFound "Stock count not found")
  require (count.status = .open) (.conflict "Only an open count can be cancelled")
  let db : Db := { db with
    stockCounts := replaceCount db.stockCounts { count with status := .cancelled } }
  pure (db.record ctx id (.stockCountCancelled count.code))

/-- The corrections of a count belong to no order. -/
theorem adjustmentRows_untagged {ctx : TenantContext} {code : String}
    {adjustments : List CountAdjustment} :
    ∀ m ∈ adjustmentRows ctx code adjustments, m.orderId = none := by
  intro m hm
  obtain ⟨a, -, rfl⟩ := List.mem_map.mp hm
  rfl

theorem submitStockCount_leavesOrders {db db' : Db} {ctx : TenantContext} {now : Instant}
    {id : Uuid} {dto : SubmitStockCountDto}
    (h : submitStockCount db ctx now id dto = .ok db') : LeavesOrders db db' := by
  obtain ⟨count, -, h⟩ := bind_ok.mp h
  split at h
  next =>
    cases pure_ok.mp h
    exact .refl db
  next =>
    simp only [bind_ok] at h
    obtain ⟨_, -, _, -, _, -, movements, hrows, _, -, h⟩ := h
    cases pure_ok.mp h
    exact .of_createMany hrows adjustmentRows_untagged rfl rfl rfl rfl rfl
      (List.prefix_append _ _) rfl

theorem cancelStockCount_leavesOrders {db db' : Db} {ctx : TenantContext} {id : Uuid}
    (h : cancelStockCount db ctx id = .ok db') : LeavesOrders db db' := by
  simp only [cancelStockCount, bind_ok] at h
  obtain ⟨_, -, _, -, h⟩ := h
  cases pure_ok.mp h
  exact ⟨rfl, rfl, rfl, rfl, rfl, List.prefix_append _ _, [], (List.append_nil _).symm,
    List.forall_mem_nil _⟩

end OraOS.Inventory
