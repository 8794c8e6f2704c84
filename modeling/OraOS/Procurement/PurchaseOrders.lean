/-
  OraOS.Procurement.PurchaseOrders — drafting a purchase order and moving it
  along its lifecycle (`ProcurementService`).

  Receiving writes ordinary PURCHASE movements, none of them under an order.
-/
import OraOS.Inventory.StockCounts

namespace OraOS.Procurement

open OraOS.Api
open OraOS.Lib
open OraOS.Inventory

/-- The purchase-order lifecycle whitelist. -/
def transitions : PurchaseOrderStatus → List PurchaseOrderStatus
  | .draft => [.ordered, .cancelled]
  | .ordered => [.received, .cancelled]
  | .received => []
  | .cancelled => []

/-- A status as an error message spells it. -/
def statusText : PurchaseOrderStatus → String
  | .draft => "draft"
  | .ordered => "ordered"
  | .received => "received"
  | .cancelled => "cancelled"

/-- One line of a purchase order as it is sent. -/
structure PurchaseOrderItemDto where
  ingredientId : Uuid
  quantity : ℤ
  totalCostMinor : Option ℤ
  quantity_ok : 1 ≤ quantity ∧ quantity ≤ maxQty
  cost_ok : ∀ c ∈ totalCostMinor, 0 ≤ c ∧ c ≤ 1000000000

/-- A purchase order as it is sent. -/
structure CreatePurchaseOrderDto where
  supplierId : Uuid
  items : List PurchaseOrderItemDto
  note : Option String
  items_ok : 1 ≤ items.length

/-- `ProcurementService.createPurchaseOrder`. -/
def createPurchaseOrder (db : Db) (ctx : TenantContext) (env : Env)
    (dto : CreatePurchaseOrderDto) : Except ApiError Db := do
  let ids := distinct (dto.items.map (·.ingredientId))
  require (ids.length = dto.items.length) (.badRequest "Duplicate ingredient in the order")
  require (dto.supplierId ∈ db.suppliers) (.badRequest "Unknown supplier")
  require (countFound db.ingredients ids = ids.length) (.badRequest "Unknown ingredient")
  -- the checks are the service's; from here on it is the insert
  require (∀ po ∈ db.purchaseOrders, po.id ≠ env.newId) (.uniqueViolation .primaryKey)
  let po : PurchaseOrder :=
    { id := env.newId, supplierId := dto.supplierId, status := .draft, note := dto.note,
      actorUserId := some ctx.userId, orderedAt := none, receivedAt := none,
      items := dto.items.map fun i => ⟨i.ingredientId, i.quantity, i.totalCostMinor⟩ }
  let db : Db := { db with purchaseOrders := db.purchaseOrders ++ [po] }
  pure (db.record ctx env.newId
    (.purchaseOrderMoved .draft dto.supplierId dto.items.length))

/-- The PURCHASE rows of a receipt. -/
def receiptRows (ctx : TenantContext) (po : PurchaseOrder) : List NewMovement :=
  po.items.map fun it =>
    { ingredientId := it.ingredientId, type := .purchase, quantity := it.quantity,
      orderId := none, prepBatchId := none, supplierId := some po.supplierId,
      totalCostMinor := it.totalCostMinor, note := some "Received from purchase order",
      actorUserId := some ctx.userId, idempotencyKey := none }

/-- `ProcurementService.transition`. -/
def transition (db : Db) (ctx : TenantContext) (now : Instant) (id : Uuid)
    (toStatus : PurchaseOrderStatus) : Except ApiError Db := do
  let po ← found (db.purchaseOrders.find? fun po => po.id = id)
    (.notFound "Purchase order not found")
  require (toStatus ∈ transitions po.status)
    (.conflict ("A " ++ statusText po.status ++ " order cannot move to "
      ++ statusText toStatus))
  require (toStatus = .received → po.items ≠ [])
    (.badRequest "Cannot receive an order with no items")
  -- stock arrives with the status, in one transaction
  let movements ← createMany db.movements
    (if toStatus = .received then receiptRows ctx po else [])
  let moved : PurchaseOrder := { po with
    status := toStatus
    orderedAt := if toStatus = .ordered then some now else po.orderedAt
    receivedAt := if toStatus = .received then some now else po.receivedAt }
  let db : Db := { db with
    movements
    purchaseOrders := db.purchaseOrders.map fun p => if p.id = id then moved else p }
  pure (db.record ctx id (.purchaseOrderMoved toStatus po.supplierId po.items.length))

theorem createPurchaseOrder_leavesOrders {db db' : Db} {ctx : TenantContext} {env : Env}
    {dto : CreatePurchaseOrderDto} (h : createPurchaseOrder db ctx env dto = .ok db') :
    LeavesOrders db db' := by
  simp only [createPurchaseOrder, bind_ok] at h
  obtain ⟨_, -, _, -, _, -, _, -, h⟩ := h
  cases pure_ok.mp h
  exact ⟨rfl, rfl, rfl, rfl, rfl, List.prefix_append _ _, [], (List.append_nil _).symm,
    List.forall_mem_nil _⟩

theorem transition_leavesOrders {db db' : Db} {ctx : TenantContext} {now : Instant}
    {id : Uuid} {toStatus : PurchaseOrderStatus}
    (h : transition db ctx now id toStatus = .ok db') : LeavesOrders db db' := by
  simp only [transition, bind_ok] at h
  obtain ⟨po, -, _, -, _, -, movements, hrows, h⟩ := h
  cases pure_ok.mp h
  refine .of_createMany hrows (fun m hm => ?_) rfl rfl rfl rfl rfl
    (List.prefix_append _ _) rfl
  split at hm
  · obtain ⟨it, -, rfl⟩ := List.mem_map.mp hm
    rfl
  · cases hm

end OraOS.Procurement
