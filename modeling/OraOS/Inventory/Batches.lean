/-
  OraOS.Inventory.Batches — `PrepService`: prep recipes, preparing a batch and
  wasting one.

  Preparing a batch writes the raw components out and the yield in, all tagged
  with the batch; none of the three touches an order.
-/
import OraOS.Inventory.Movements

namespace OraOS.Inventory

open OraOS.Api
open OraOS.Lib

/-! ## §1. Prep recipes. -/

/-- One component of a recipe as it is sent. -/
structure PrepComponentDto where
  ingredientId : Uuid
  quantity : ℤ
  quantity_ok : 1 ≤ quantity ∧ quantity ≤ maxQty

/-- A recipe as it is sent: what one yield makes and of what. -/
structure SetPrepRecipeDto where
  batchYield : ℤ
  items : List PrepComponentDto
  yield_ok : 1 ≤ batchYield ∧ batchYield ≤ maxQty
  items_ok : 1 ≤ items.length ∧ items.length ≤ 50

/-- `db.ingredient.findFirst({ where: { id, isPrepared: true } })`. -/
def findPrepItem (db : Db) (id : Uuid) : Option Ingredient :=
  db.ingredients.find? fun i => i.id = id && i.isPrepared

/-- The recipe rows of a prep item, when the item is not its own component. -/
def prepRecipeRows (id : Uuid) (items : List PrepComponentDto)
    (h : id ∉ distinct (items.map (·.ingredientId))) : List PrepRecipeItem :=
  items.attach.map fun c =>
    ⟨id, c.1.ingredientId, c.1.quantity, c.1.quantity_ok.1,
      fun heq => h (mem_distinct.mpr (heq ▸ List.mem_map_of_mem c.2))⟩

/-- `PrepService.setRecipe`: the recipe and its yield, replaced together. -/
def setPrepRecipe (db : Db) (id : Uuid) (dto : SetPrepRecipeDto) : Except ApiError Db := do
  let _ ← found (findPrepItem db id) (.notFound "Prep item not found")
  let ids := distinct (dto.items.map (·.ingredientId))
  require (ids.length = dto.items.length) (.badRequest "Duplicate component in recipe")
  if h : id ∈ distinct (dto.items.map (·.ingredientId)) then
    .error (.badRequest "A prep item cannot contain itself")
  else do
    require (countFound (db.ingredients.filter (·.isActive)) ids = ids.length)
      (.badRequest "One or more components are unavailable")
    -- direct loops only; longer ones are not looked for
    require (∀ r ∈ db.prepRecipeItems,
        ¬ (r.prepIngredientId ∈ ids ∧ r.componentIngredientId = id))
      (.badRequest "A component already uses this item — that would loop")
    pure { db with
      ingredients := db.ingredients.map fun i =>
        if i.id = id then { i with prepBatchYield := some dto.batchYield } else i
      prepRecipeItems := (db.prepRecipeItems.filter fun r => r.prepIngredientId ≠ id)
        ++ prepRecipeRows id dto.items h }

theorem setPrepRecipe_leavesOrders {db db' : Db} {id : Uuid} {dto : SetPrepRecipeDto}
    (h : setPrepRecipe db id dto = .ok db') : LeavesOrders db db' := by
  obtain ⟨-, -, h⟩ := bind_ok.mp h
  obtain ⟨-, -, h⟩ := bind_ok.mp h
  split at h
  next => cases h
  next =>
    obtain ⟨-, -, h⟩ := bind_ok.mp h
    obtain ⟨-, -, h⟩ := bind_ok.mp h
    cases pure_ok.mp h
    exact ⟨rfl, rfl, rfl, rfl, rfl, List.prefix_rfl, [], (List.append_nil _).symm,
      List.forall_mem_nil _⟩

/-! ## §2. Preparing a batch. -/

/-- The request to prepare a batch. -/
structure CreateBatchDto where
  quantity : ℤ
  actualQuantity : Option ℤ
  expiresAt : Option Instant
  note : Option String
  idempotencyKey : Option String
  quantity_ok : 1 ≤ quantity ∧ quantity ≤ maxQty
  actual_ok : ∀ q ∈ actualQuantity, 0 ≤ q ∧ q ≤ maxQty

/-- A quantity that is left out is within every bound. -/
theorem absent_within : ∀ q ∈ (none : Option ℤ), 0 ≤ q ∧ q ≤ maxQty := forall_mem_none

theorem fiveHundred_within : (1 : ℤ) ≤ 500 ∧ (500 : ℤ) ≤ maxQty := by decide

/-- The yield put into stock; the planned one unless the dto says otherwise. -/
def CreateBatchDto.actual (dto : CreateBatchDto) : ℤ :=
  dto.actualQuantity.getD dto.quantity

/-- What came out of the pot is never negative. -/
theorem CreateBatchDto.actual_nonneg (dto : CreateBatchDto) : 0 ≤ dto.actual := by
  unfold CreateBatchDto.actual
  cases h : dto.actualQuantity with
  | none =>
      have := dto.quantity_ok.1
      show 0 ≤ dto.quantity
      omega
  | some q => exact (dto.actual_ok q h).1

/-- `findBatchByKey`, for a key that is set. -/
def findBatchByKey (db : Db) (key : Option String) : Option PrepBatch :=
  (truthy key).bind fun k => db.prepBatches.find? fun b => b.idempotencyKey = some k

/-- One `name (need …, have …)` of the shortfall message. -/
def shortfallText (db : Db) (s : Shortfall) : String :=
  let name := ((db.ingredients.find? fun i => i.id = s.ingredientId).map (·.name)).getD "item"
  name ++ " (need " ++ toString s.need ++ ", have " ++ toString s.available ++ ")"

/-- The batch's own rows: raw components out, the yield in. -/
def batchRows (ctx : TenantContext) (batchId prepIngredientId : Uuid)
    (components : List Component) (actual : ℤ) : List NewMovement :=
  let row (ingredientId : Uuid) (type : StockMovementType) (quantity : ℤ) : NewMovement :=
    { ingredientId, type, quantity, orderId := none, prepBatchId := some batchId,
      supplierId := none, totalCostMinor := none, note := none,
      actorUserId := some ctx.userId, idempotencyKey := none }
  components.map (fun c => row c.ingredientId .prepBatch (-c.quantity))
    ++ if 0 < actual then [row prepIngredientId .prepOutput actual] else []

/-- The movements of a batch belong to no order. -/
theorem batchRows_untagged {ctx : TenantContext} {batchId prepIngredientId : Uuid}
    {components : List Component} {actual : ℤ} :
    ∀ m ∈ batchRows ctx batchId prepIngredientId components actual, m.orderId = none := by
  intro m hm
  rcases List.mem_append.mp hm with hm | hm
  · obtain ⟨c, -, rfl⟩ := List.mem_map.mp hm
    rfl
  · split at hm
    · cases List.mem_singleton.mp hm
      rfl
    · cases hm

/-- `doCreateBatch`, with the human code that was drawn for it. -/
def doCreateBatch (db : Db) (ctx : TenantContext) (env : Env) (code : String) (id : Uuid)
    (dto : CreateBatchDto) : Except ApiError (PrepBatch × Db) := do
  let item ← found (findPrepItem db id) (.notFound "Prep item not found")
  let standardYield ← found item.prepBatchYield
    (.badRequest "Set a recipe before preparing a batch")
  let recipe := db.prepRecipeItems.filter fun r => r.prepIngredientId = id
  require (recipe ≠ []) (.badRequest "Set a recipe before preparing a batch")
  let scaled ← scaleComponents
    (recipe.map fun r => ⟨r.componentIngredientId, r.quantity⟩) standardYield dto.quantity
  let components := scaled.filter fun c => decide (0 < c.quantity)
  -- unlike a sale, a batch never cooks what is not there
  let shorts := findShortfalls components (stockOf db.movements)
  require (shorts = [])
    (.badRequest ("Not enough stock: " ++ ", ".intercalate (shorts.map (shortfallText db))))
  require (∀ b ∈ db.prepBatches, b.id ≠ env.newId ∧ b.code ≠ code)
    (.uniqueViolation .primaryKey)
  require (¬ keyTaken dto.idempotencyKey (db.prepBatches.map (·.idempotencyKey)))
    (.uniqueViolation .prepBatchIdempotencyKey)
  let batch : PrepBatch :=
    { id := env.newId, prepIngredientId := id, code,
      expectedQuantity := dto.quantity, actualQuantity := dto.actual,
      expiresAt := dto.expiresAt.orElse fun _ =>
        item.prepShelfLifeHours.map fun hours => env.now + hours * 3600 * 1000,
      note := dto.note, actorUserId := some ctx.userId,
      idempotencyKey := dto.idempotencyKey, createdAt := env.now,
      quantities_valid := ⟨by have := dto.quantity_ok.1; omega, dto.actual_nonneg⟩ }
  let movements ← createMany db.movements
    (batchRows ctx env.newId id components dto.actual)
  pure (batch, { db with prepBatches := db.prepBatches ++ [batch], movements })

/-- The attempts of `createBatch`, one per code drawn. -/
def createBatchAttempts (db : Db) (ctx : TenantContext) (env : Env) (id : Uuid)
    (dto : CreateBatchDto) : List String → Except ApiError (PrepBatch × Db)
  | [] => .error (.conflict "Could not allocate a batch code — try again")
  | code :: codes =>
      match doCreateBatch db ctx env code id dto with
      | .ok result => .ok result
      | .error (.uniqueViolation _) =>
          match findBatchByKey db dto.idempotencyKey with
          | some existing => .ok (existing, db)
          | none => createBatchAttempts db ctx env id dto codes
      | .error e => .error e

/-- `PrepService.createBatch`: five codes at most, a replayed key answered with
the original batch. -/
def createBatch (db : Db) (ctx : TenantContext) (env : Env) (codes : List String) (id : Uuid)
    (dto : CreateBatchDto) : Except ApiError (PrepBatch × Db) :=
  match findBatchByKey db dto.idempotencyKey with
  | some existing => .ok (existing, db)
  | none => createBatchAttempts db ctx env id dto (codes.take 5)

theorem doCreateBatch_leavesOrders {db db' : Db} {ctx : TenantContext} {env : Env}
    {code : String} {id : Uuid} {dto : CreateBatchDto} {batch : PrepBatch}
    (h : doCreateBatch db ctx env code id dto = .ok (batch, db')) :
    LeavesOrders db db' := by
  simp only [doCreateBatch, bind_ok] at h
  obtain ⟨_, -, _, -, _, -, _, -, _, -, _, -, _, -, movements, hrows, h⟩ := h
  cases pure_ok.mp h
  exact .of_createMany hrows batchRows_untagged rfl rfl rfl rfl rfl List.prefix_rfl rfl

theorem createBatchAttempts_leavesOrders {db db' : Db} {ctx : TenantContext} {env : Env}
    {id : Uuid} {dto : CreateBatchDto} {batch : PrepBatch} :
    ∀ {codes : List String},
      createBatchAttempts db ctx env id dto codes = .ok (batch, db') →
        LeavesOrders db db'
  | [], h => by cases h
  | code :: codes, h => by
      unfold createBatchAttempts at h
      split at h
      next result hdo =>
        cases h
        exact doCreateBatch_leavesOrders hdo
      next =>
        split at h
        next =>
          cases h
          exact .refl db
        next => exact createBatchAttempts_leavesOrders h
      next => cases h

theorem createBatch_leavesOrders {db db' : Db} {ctx : TenantContext} {env : Env}
    {codes : List String} {id : Uuid} {dto : CreateBatchDto} {batch : PrepBatch}
    (h : createBatch db ctx env codes id dto = .ok (batch, db')) : LeavesOrders db db' := by
  unfold createBatch at h
  split at h
  next =>
    cases h
    exact .refl db
  next => exact createBatchAttempts_leavesOrders h

/-! ## §3. Wasting a batch. -/

/-- The request to write off part of a batch. -/
structure WasteBatchDto where
  quantity : ℤ
  note : Option String
  idempotencyKey : Option String
  quantity_ok : 1 ≤ quantity ∧ quantity ≤ maxQty

/-- `PrepService.wasteBatch`: no more than the batch has left. -/
def wasteBatch (db : Db) (ctx : TenantContext) (batchId : Uuid) (dto : WasteBatchDto) :
    Except ApiError (StockMovement × Db) :=
  writeOnce db dto.idempotencyKey do
    let batch ← found (db.prepBatches.find? fun b => b.id = batchId)
      (.notFound "Batch not found")
    let remaining := remainingOf db.movements batchId
    require (dto.quantity ≤ remaining)
      (.badRequest ("Only " ++ toString remaining ++ " remaining in this batch"))
    writeMovement db
      -- tagged with the batch, so that what remains of it goes down
      { ingredientId := batch.prepIngredientId, type := .waste, quantity := -dto.quantity,
        orderId := none, prepBatchId := some batchId, supplierId := none,
        totalCostMinor := none, note := dto.note, actorUserId := some ctx.userId,
        idempotencyKey := dto.idempotencyKey }

theorem wasteBatch_leavesOrders {db db' : Db} {ctx : TenantContext} {batchId : Uuid}
    {dto : WasteBatchDto} {row : StockMovement}
    (h : wasteBatch db ctx batchId dto = .ok (row, db')) : LeavesOrders db db' := by
  refine writeOnce_leavesOrders (fun row' db'' hw => ?_) h
  obtain ⟨batch, -, hw⟩ := bind_ok.mp hw
  obtain ⟨-, -, hw⟩ := bind_ok.mp hw
  exact writeMovement_leavesOrders rfl hw

end OraOS.Inventory
