/-
  OraOS.Inventory.Movements — what stock operations leave alone, and the
  operations of `InventoryService` that write recipes and manual movements.

    * `LeavesOrders` — the operation touches no order, payment, refund or
                       loyalty row and tags no movement with an order.
-/
import OraOS.Inventory.Depletion

namespace OraOS.Inventory

open OraOS.Api
open OraOS.Lib

/-! ## §1. The frame of the stock operations. -/

/-- Orders and their money stay as they are, the audit log is only added to, and the
ledger grows only by movements without an order. -/
structure LeavesOrders (db db' : Db) : Prop where
  orders : db'.orders = db.orders
  orderEvents : db'.orderEvents = db.orderEvents
  payments : db'.payments = db.payments
  refunds : db'.refunds = db.refunds
  loyaltyLedger : db'.loyaltyLedger = db.loyaltyLedger
  auditLogs : db.auditLogs <+: db'.auditLogs
  movements : ∃ new, db'.movements = db.movements ++ new ∧ ∀ m ∈ new, m.orderId = none

theorem LeavesOrders.refl (db : Db) : LeavesOrders db db :=
  ⟨rfl, rfl, rfl, rfl, rfl, List.prefix_rfl, [], (List.append_nil _).symm,
    List.forall_mem_nil _⟩

/-- An insert of rows that name no order is within the frame. -/
theorem LeavesOrders.of_createMany {db db' : Db} {rows : List NewMovement}
    {movements : List StockMovement} (h : createMany db.movements rows = .ok movements)
    (hrows : ∀ m ∈ rows, m.orderId = none) (ho : db'.orders = db.orders)
    (he : db'.orderEvents = db.orderEvents) (hp : db'.payments = db.payments)
    (hr : db'.refunds = db.refunds) (hl : db'.loyaltyLedger = db.loyaltyLedger)
    (ha : db.auditLogs <+: db'.auditLogs) (hm : db'.movements = movements) :
    LeavesOrders db db' := by
  obtain ⟨new, hnew, rfl⟩ := createMany_ok h
  refine ⟨ho, he, hp, hr, hl, ha, new, hm, fun m hmem => ?_⟩
  exact hrows m.toNewMovement (hnew ▸ List.mem_map_of_mem hmem)

/-- Inserting one row is inserting a list of one. -/
theorem createMany_singleton (l : List StockMovement) (m : NewMovement) :
    createMany l [m] = insertMovement l m := by
  show insertMovement l m >>= Except.ok = insertMovement l m
  cases insertMovement l m <;> rfl

/-! ## §2. Recipes. -/

/-- The bound of every client-supplied quantity (`MAX_QTY`). -/
def maxQty : ℤ := 100000000

/-- One ingredient of a product's recipe as it is sent. -/
structure RecipeItemDto where
  ingredientId : Uuid
  quantity : ℤ
  quantity_ok : 1 ≤ quantity ∧ quantity ≤ maxQty

/-- A product's recipe as it is sent; an empty one clears it. -/
structure SetRecipeDto where
  items : List RecipeItemDto

/-- How many ingredients `where: { id: { in: ids } }` finds. -/
def countFound (ingredients : List Ingredient) (ids : List Uuid) : ℕ :=
  (ingredients.filter fun i => ids.contains i.id).length

/-- `InventoryService.setRecipe`: replaces the product's recipe wholesale. -/
def setRecipe (db : Db) (productId : Uuid) (dto : SetRecipeDto) : Except ApiError Db := do
  require (∃ p ∈ db.products, p.id = productId) (.notFound "Product not found")
  let ids := distinct (dto.items.map (·.ingredientId))
  require (ids.length = dto.items.length) (.badRequest "Duplicate ingredient in recipe")
  require (countFound db.ingredients ids = ids.length) (.badRequest "Unknown ingredient")
  pure { db with
    recipeItems := (db.recipeItems.filter fun r => r.productId ≠ productId)
      ++ dto.items.map fun i => ⟨productId, i.ingredientId, i.quantity, i.quantity_ok.1⟩ }

theorem setRecipe_leavesOrders {db db' : Db} {productId : Uuid} {dto : SetRecipeDto}
    (h : setRecipe db productId dto = .ok db') : LeavesOrders db db' := by
  simp only [setRecipe, bind_ok, pure_ok] at h
  obtain ⟨-, -, -, -, -, -, rfl⟩ := h
  exact ⟨rfl, rfl, rfl, rfl, rfl, List.prefix_rfl, [], (List.append_nil _).symm,
    List.forall_mem_nil _⟩

/-! ## §3. Manual movements. -/

/-- What a client may record directly; CONSUMPTION is deliberately absent. -/
inductive ManualMovementType where
  | purchase
  | waste
  | adjustment
  deriving DecidableEq, Repr

/-- `SIGN[dto.type]` with the row's type; an ADJUSTMENT has no sign there. -/
def ManualMovementType.signed : ManualMovementType → Option (StockMovementType × ℤ)
  | .purchase => some (.purchase, 1)
  | .waste => some (.waste, -1)
  | .adjustment => none

/-- A movement recorded by hand: a purchase, a waste or an opening balance. -/
structure CreateMovementDto where
  type : ManualMovementType
  quantity : ℤ
  supplierId : Option Uuid
  totalCostMinor : Option ℤ
  note : Option String
  idempotencyKey : Option String
  quantity_ok : 1 ≤ quantity ∧ quantity ≤ maxQty
  cost_ok : ∀ c ∈ totalCostMinor, 0 ≤ c ∧ c ≤ 1000000000

/-- A correction of the stock, up or down. -/
structure CreateAdjustmentDto where
  quantity : ℤ
  note : Option String
  idempotencyKey : Option String
  quantity_ok : -maxQty ≤ quantity ∧ quantity ≤ maxQty

/-- A key that JavaScript takes for set: present and not the empty string. -/
def truthy (key : Option String) : Option String :=
  key.filter fun k => k ≠ ""

/-- A key that counts as given is the one that was sent. -/
theorem truthy_some {key : Option String} {k : String} (h : truthy key = some k) :
    key = some k := by
  unfold truthy at h
  exact (Option.filter_eq_some_iff.mp h).1

/-- `findMovementByKey`, for a key that is set. -/
def findMovementByKey (db : Db) (key : Option String) : Option StockMovement :=
  (truthy key).bind fun k => db.movements.find? fun m => m.idempotencyKey = some k

/-- Appends one movement and answers with its row. -/
def writeMovement (db : Db) (m : NewMovement) : Except ApiError (StockMovement × Db) := do
  let movements ← insertMovement db.movements m
  let row ← found movements.getLast? .recordNotFound
  pure (row, db.withMovements movements)

/-- `writeOnce`: a replayed key, or one that lost the race for the unique index,
answers with the row already there. -/
def writeOnce (db : Db) (key : Option String)
    (write : Except ApiError (StockMovement × Db)) : Except ApiError (StockMovement × Db) :=
  match findMovementByKey db key with
  | some existing => .ok (existing, db)
  | none => write

/-- `InventoryService.recordMovement`. -/
def recordMovement (db : Db) (ctx : TenantContext) (ingredientId : Uuid)
    (dto : CreateMovementDto) : Except ApiError (StockMovement × Db) := do
  let (type, sign) ← found dto.type.signed (.badRequest "Unsupported movement type")
  writeOnce db dto.idempotencyKey do
    require (∃ i ∈ db.ingredients, i.id = ingredientId) (.notFound "Ingredient not found")
    require (type = .purchase → ∀ s ∈ dto.supplierId, s ∈ db.suppliers)
      (.badRequest "Unknown supplier")
    writeMovement db
      { ingredientId, type, quantity := sign * dto.quantity, orderId := none,
        prepBatchId := none,
        -- only a purchase has a supplier and a cost
        supplierId := if type = .purchase then dto.supplierId else none,
        totalCostMinor := if type = .purchase then dto.totalCostMinor else none,
        note := dto.note, actorUserId := some ctx.userId,
        idempotencyKey := dto.idempotencyKey }

/-- `InventoryService.recordAdjustment`: a signed correction. -/
def recordAdjustment (db : Db) (ctx : TenantContext) (ingredientId : Uuid)
    (dto : CreateAdjustmentDto) : Except ApiError (StockMovement × Db) := do
  require (dto.quantity ≠ 0) (.badRequest "An adjustment of zero records nothing")
  writeOnce db dto.idempotencyKey do
    require (∃ i ∈ db.ingredients, i.id = ingredientId) (.notFound "Ingredient not found")
    writeMovement db
      { ingredientId, type := .adjustment, quantity := dto.quantity, orderId := none,
        prepBatchId := none, supplierId := none, totalCostMinor := none,
        note := dto.note, actorUserId := some ctx.userId,
        idempotencyKey := dto.idempotencyKey }

theorem writeMovement_leavesOrders {db db' : Db} {m : NewMovement} {row : StockMovement}
    (hm : m.orderId = none) (h : writeMovement db m = .ok (row, db')) :
    LeavesOrders db db' := by
  simp only [writeMovement, bind_ok, pure_ok] at h
  obtain ⟨movements, hins, _, -, hdb⟩ := h
  cases hdb
  rw [← createMany_singleton] at hins
  exact .of_createMany hins (fun m' hm' => List.mem_singleton.mp hm' ▸ hm)
    rfl rfl rfl rfl rfl List.prefix_rfl rfl

theorem writeOnce_leavesOrders {db db' : Db} {key : Option String} {row : StockMovement}
    {write : Except ApiError (StockMovement × Db)}
    (hw : ∀ row' db'', write = .ok (row', db'') → LeavesOrders db db'')
    (h : writeOnce db key write = .ok (row, db')) : LeavesOrders db db' := by
  unfold writeOnce at h
  split at h
  next =>
    cases h
    exact .refl db
  next => exact hw row db' h

theorem recordMovement_leavesOrders {db db' : Db} {ctx : TenantContext}
    {ingredientId : Uuid} {dto : CreateMovementDto} {row : StockMovement}
    (h : recordMovement db ctx ingredientId dto = .ok (row, db')) : LeavesOrders db db' := by
  obtain ⟨⟨type, sign⟩, -, h⟩ := bind_ok.mp h
  refine writeOnce_leavesOrders (fun row' db'' hw => ?_) h
  obtain ⟨-, -, hw⟩ := bind_ok.mp hw
  obtain ⟨-, -, hw⟩ := bind_ok.mp hw
  exact writeMovement_leavesOrders rfl hw

theorem recordAdjustment_leavesOrders {db db' : Db} {ctx : TenantContext}
    {ingredientId : Uuid} {dto : CreateAdjustmentDto} {row : StockMovement}
    (h : recordAdjustment db ctx ingredientId dto = .ok (row, db')) :
    LeavesOrders db db' := by
  obtain ⟨-, -, h⟩ := bind_ok.mp h
  refine writeOnce_leavesOrders (fun row' db'' hw => ?_) h
  obtain ⟨-, -, hw⟩ := bind_ok.mp hw
  exact writeMovement_leavesOrders rfl hw

end OraOS.Inventory
