/-
  OraOS.Api.Tables — the tables of one tenant, as row-level security shows them
  to its requests.

  A row that a CHECK constraint speaks about carries the constraint as a proof
  field, so a table can only hold rows the database would have taken.  Columns
  that name the tenant are left out: every row here is the tenant's own.
-/
import OraOS.Api.Base
import Mathlib.Tactic.Simps.Basic

namespace OraOS.Api

/-! ## §1. The menu. -/

/-- A row of `products`. -/
structure Product where
  id : Uuid
  name : String
  priceMinor : ℤ
  taxRateBp : ℤ
  isActive : Bool
  /-- `products_price_valid` -/
  price_valid : 0 ≤ priceMinor ∧ 0 ≤ taxRateBp ∧ taxRateBp ≤ 10000

/-- A row of `combo_items`: what is in a combo, and how many of it. -/
structure ComboItem where
  productId : Uuid
  quantity : ℤ
  sortOrder : ℤ
  /-- `combo_items` CHECK -/
  quantity_pos : 1 ≤ quantity

/-- A row of `combos`, with its items. -/
structure Combo where
  id : Uuid
  name : String
  priceMinor : ℤ
  taxRateBp : ℤ
  isActive : Bool
  items : List ComboItem
  price_valid : 0 ≤ priceMinor ∧ 0 ≤ taxRateBp

/-- A row of `modifier_options`. -/
structure ModifierOption where
  id : Uuid
  name : String
  priceAdjustMinor : ℤ
  isActive : Bool
  sortOrder : ℤ
  /-- `modifier_options_price_valid` -/
  price_valid : 0 ≤ priceAdjustMinor

/-- A row of `modifier_groups`, with its options. -/
structure ModifierGroup where
  id : Uuid
  productId : Uuid
  name : String
  minSelect : ℤ
  maxSelect : ℤ
  isActive : Bool
  sortOrder : ℤ
  options : List ModifierOption
  /-- `modifier_groups_select_valid` -/
  select_valid : 0 ≤ minSelect ∧ 1 ≤ maxSelect ∧ minSelect ≤ maxSelect

/-- A row of `branches`, as far as orders read it. -/
structure Branch where
  id : Uuid
  isActive : Bool
  createdAt : Instant
  deriving DecidableEq, Repr

/-- A row of `customers`, as far as orders read it. -/
structure Customer where
  id : Uuid
  deriving DecidableEq, Repr

/-! ## §2. Coupons. -/

/-- `coupons_value_shape` makes a coupon exactly one kind of discount. -/
inductive CouponValue where
  | percent (percentBp : ℤ) (valid : 0 < percentBp ∧ percentBp ≤ 10000)
  | fixed (amountMinor : ℤ) (valid : 0 < amountMinor)

/-- A row of `coupons`. -/
structure Coupon where
  id : Uuid
  code : String
  value : CouponValue
  maxDiscountMinor : Option ℤ
  minSubtotalMinor : ℤ
  maxRedemptions : Option ℤ
  validFrom : Option Instant
  validUntil : Option Instant
  isActive : Bool
  /-- `coupons_non_negative` -/
  non_negative : 0 ≤ minSubtotalMinor ∧ (∀ d ∈ maxDiscountMinor, 0 < d)
    ∧ ∀ n ∈ maxRedemptions, 0 < n

/-- A row of `coupon_redemptions`: the discount an order got by a coupon. -/
structure CouponRedemption where
  couponId : Uuid
  orderId : Uuid
  discountMinor : ℤ
  /-- `coupon_redemptions_discount_positive` -/
  discount_pos : 0 < discountMinor

/-! ## §3. Loyalty. -/

/-- A tenant's loyalty rules (`LoyaltyConfig`, the `loyalty_settings` row). -/
structure LoyaltyConfig where
  isEnabled : Bool
  earnAmountMinor : ℤ
  earnPoints : ℤ
  redeemPoints : ℤ
  redeemAmountMinor : ℤ
  minimumRedeemPoints : ℤ
  maximumRedeemPointsPerOrder : Option ℤ
  deriving DecidableEq, Repr

/-- The CHECKs of `loyalty_settings`. -/
def LoyaltyConfig.Valid (c : LoyaltyConfig) : Prop :=
  0 < c.earnAmountMinor ∧ 0 < c.earnPoints ∧ c.earnPoints ≤ c.earnAmountMinor
    ∧ 0 < c.redeemPoints ∧ 0 ≤ c.redeemAmountMinor ∧ 0 ≤ c.minimumRedeemPoints
    ∧ ∀ m ∈ c.maximumRedeemPointsPerOrder, 0 ≤ m

/-- A row of `loyalty_settings`; only what `validateConfig` lets through is stored. -/
structure LoyaltySettings where
  config : LoyaltyConfig
  valid : config.Valid

/-- `LoyaltyEntryType` of the schema. -/
inductive LoyaltyEntryType where
  | earn
  | redeem
  | adjust
  | refundReversal
  | redeemReversal
  | expire
  deriving DecidableEq, Repr

/-- `loyalty_ledger_points_sign` -/
def LoyaltyEntryType.signOk (t : LoyaltyEntryType) (points : ℤ) : Bool :=
  match t with
  | .earn | .redeemReversal => decide (0 < points)
  | .redeem | .expire | .refundReversal => decide (points < 0)
  | .adjust => decide (points ≠ 0)

/-- The rate in force when the row was written. -/
inductive ConfigSnapshot where
  | earn (earnAmountMinor earnPoints : ℤ)
  | redeem (redeemPoints redeemAmountMinor : ℤ)
  deriving DecidableEq, Repr

/-- What `append` hands to the ledger. -/
structure NewLoyaltyEntry where
  customerId : Uuid
  type : LoyaltyEntryType
  points : ℤ
  orderId : Option Uuid
  reason : Option String
  actorUserId : Option Uuid
  idempotencyKey : Option String
  configSnapshot : Option ConfigSnapshot
  deriving DecidableEq, Repr

/-- A row of `loyalty_ledger`, with the constraints it has passed. -/
structure LoyaltyEntry extends NewLoyaltyEntry where
  points_fits : fitsInt4 points = true
  sign_ok : type.signOk points = true

/-! ## §4. Stock. -/

/-- A row of `ingredients`; a prepared one has a yield and may have a shelf life. -/
structure Ingredient where
  id : Uuid
  name : String
  reorderLevel : Option ℤ
  isActive : Bool
  isPrepared : Bool
  prepBatchYield : Option ℤ
  prepShelfLifeHours : Option ℤ
  deriving DecidableEq, Repr

/-- What one unit of a product consumes. -/
structure RecipeItem where
  productId : Uuid
  ingredientId : Uuid
  quantity : ℤ
  /-- `recipe_items_quantity_positive` -/
  quantity_pos : 0 < quantity

/-- A row of `prep_recipe_items`: what a batch of a prepared ingredient takes. -/
structure PrepRecipeItem where
  prepIngredientId : Uuid
  componentIngredientId : Uuid
  quantity : ℤ
  /-- `prep_recipe_items_quantity_positive` -/
  quantity_pos : 0 < quantity
  /-- `prep_recipe_items_not_self` -/
  not_self : prepIngredientId ≠ componentIngredientId

/-- A row of `prep_batches`. -/
structure PrepBatch where
  id : Uuid
  prepIngredientId : Uuid
  code : String
  expectedQuantity : ℤ
  actualQuantity : ℤ
  expiresAt : Option Instant
  note : Option String
  actorUserId : Option Uuid
  idempotencyKey : Option String
  createdAt : Instant
  /-- `prep_batches_quantities_valid` -/
  quantities_valid : 0 ≤ expectedQuantity ∧ 0 ≤ actualQuantity

/-- `StockMovementType` of the schema. -/
inductive StockMovementType where
  | purchase
  | consumption
  | waste
  | adjustment
  | prepBatch
  | prepOutput
  deriving DecidableEq, Repr

/-- `stock_movements_direction` -/
def StockMovementType.directionOk (t : StockMovementType) (quantity : ℤ) : Bool :=
  match t with
  | .purchase | .prepOutput => decide (0 < quantity)
  | .consumption | .waste | .prepBatch => decide (quantity < 0)
  | .adjustment => true

/-- What a service hands to `stockMovement.create(Many)`. -/
structure NewMovement where
  ingredientId : Uuid
  type : StockMovementType
  quantity : ℤ
  orderId : Option Uuid
  prepBatchId : Option Uuid
  supplierId : Option Uuid
  totalCostMinor : Option ℤ
  note : Option String
  actorUserId : Option Uuid
  idempotencyKey : Option String
  deriving DecidableEq, Repr

/-- The row fits its columns and meets every CHECK of `stock_movements`. -/
structure NewMovement.Storable (m : NewMovement) : Prop where
  quantity_fits : fitsInt4 m.quantity = true
  cost_fits : ∀ c ∈ m.totalCostMinor, fitsInt4 c = true
  /-- `stock_movements_cost_non_negative` -/
  cost_ok : ∀ c ∈ m.totalCostMinor, 0 ≤ c
  direction_ok : m.type.directionOk m.quantity = true
  /-- `stock_movements_quantity_nonzero` -/
  quantity_ne : m.quantity ≠ 0

/-- A row of `stock_movements`, with the constraints it has passed. -/
structure StockMovement extends NewMovement where
  storable : toNewMovement.Storable

/-- `StockCountReason` of the schema. -/
inductive StockCountReason where
  | wasteSpoilage
  | countingError
  | damaged
  | theft
  | unrecordedUsage
  | receivingDiscrepancy
  | other
  deriving DecidableEq, Repr

/-- `StockCountStatus` of the schema. -/
inductive StockCountStatus where
  | open
  | completed
  | cancelled
  deriving DecidableEq, Repr

/-- A row of `stock_count_lines`. -/
structure StockCountLine where
  ingredientId : Uuid
  systemQuantity : ℤ
  countedQuantity : Option ℤ
  difference : Option ℤ
  reason : Option StockCountReason
  deriving DecidableEq, Repr

/-- A row of `stock_counts`, with its lines. -/
structure StockCount where
  id : Uuid
  code : String
  status : StockCountStatus
  notes : Option String
  createdBy : Option Uuid
  submittedBy : Option Uuid
  completedAt : Option Instant
  lines : List StockCountLine
  deriving DecidableEq, Repr

/-- `PurchaseOrderStatus` of the schema. -/
inductive PurchaseOrderStatus where
  | draft
  | ordered
  | received
  | cancelled
  deriving DecidableEq, Repr

/-- A row of `purchase_order_items`. -/
structure PurchaseOrderItem where
  ingredientId : Uuid
  quantity : ℤ
  totalCostMinor : Option ℤ
  deriving DecidableEq, Repr

/-- A row of `purchase_orders`, with its items. -/
structure PurchaseOrder where
  id : Uuid
  supplierId : Uuid
  status : PurchaseOrderStatus
  note : Option String
  actorUserId : Option Uuid
  orderedAt : Option Instant
  receivedAt : Option Instant
  items : List PurchaseOrderItem
  deriving DecidableEq, Repr

/-! ## §5. Orders and their money. -/

/-- `OrderStatus` of the schema. -/
inductive OrderStatus where
  | draft
  | placed
  | preparing
  | ready
  | completed
  | cancelled
  | voided
  deriving DecidableEq, Repr

/-- `OrderType` of the schema. -/
inductive OrderType where
  | dineIn
  | takeaway
  | delivery
  deriving DecidableEq, Repr

/-- `PaymentMethod` of the schema. -/
inductive PaymentMethod where
  | cash
  | upi
  | card
  | wallet
  | other
  deriving DecidableEq, Repr

/-- `PaymentStatus` of the schema. -/
inductive PaymentStatus where
  | pending
  | captured
  | failed
  deriving DecidableEq, Repr

/-- What lands on `order_items.modifiers`. -/
structure ModifierSnapshotEntry where
  optionId : Uuid
  groupName : String
  optionName : String
  priceAdjustMinor : ℤ
  deriving DecidableEq, Repr

/-- What lands on `order_items.combo_items`. -/
structure ComboItemSnapshot where
  productId : Uuid
  name : String
  quantity : ℤ
  deriving DecidableEq, Repr

/-- A priced line, before the database has looked at it. -/
structure NewOrderItem where
  productId : Option Uuid
  nameSnapshot : String
  unitPriceMinor : ℤ
  quantity : ℤ
  lineTotalMinor : ℤ
  taxRateBp : ℤ
  taxMinor : ℤ
  notes : Option String
  modifiers : Option (List ModifierSnapshotEntry)
  comboItems : Option (List ComboItemSnapshot)
  deriving DecidableEq, Repr

/-- A row of `order_items`, with the constraints it has passed. -/
structure OrderItem extends NewOrderItem where
  /-- `order_items_quantity_positive` -/
  quantity_pos : 0 < quantity
  /-- `order_items_amounts_valid` -/
  amounts_valid : 0 ≤ unitPriceMinor ∧ 0 ≤ taxMinor ∧ 0 ≤ taxRateBp
    ∧ taxRateBp ≤ 10000 ∧ lineTotalMinor = unitPriceMinor * quantity

/-- A row of `orders`, with its items; amounts are in paise. -/
structure Order where
  id : Uuid
  branchId : Uuid
  customerId : Option Uuid
  orderNumber : ℤ
  status : OrderStatus
  orderType : OrderType
  subtotalMinor : ℤ
  discountMinor : ℤ
  taxMinor : ℤ
  totalMinor : ℤ
  notes : Option String
  idempotencyKey : Option String
  placedAt : Option Instant
  createdAt : Instant
  items : List OrderItem
  /-- `orders_amounts_non_negative` -/
  amounts_nonneg : 0 ≤ subtotalMinor ∧ 0 ≤ discountMinor ∧ 0 ≤ taxMinor
    ∧ 0 ≤ totalMinor
  /-- `orders_total_adds_up` -/
  total_adds_up : totalMinor = subtotalMinor - discountMinor + taxMinor
  /-- `orders_discount_within_subtotal` -/
  discount_within : discountMinor ≤ subtotalMinor

/-- The rows of an order's append-only trail that the services write. -/
inductive OrderEventKind where
  | created (toStatus : OrderStatus) (itemCount : ℕ) (totalMinor : ℤ)
  | statusChanged (fromStatus toStatus : OrderStatus) (reason : Option String)
  | paymentRecorded (method : PaymentMethod) (amountMinor : ℤ)
  | refundRecorded (method : PaymentMethod) (amountMinor : ℤ) (reason : String)
  deriving DecidableEq, Repr

/-- A row of `order_events`. -/
structure OrderEvent where
  orderId : Uuid
  kind : OrderEventKind
  actorUserId : Uuid
  deriving DecidableEq, Repr

/-- A row of `payments`. -/
structure Payment where
  orderId : Uuid
  method : PaymentMethod
  status : PaymentStatus
  amountMinor : ℤ
  reference : Option String
  idempotencyKey : Option String
  createdAt : Instant
  /-- `payments_amount_positive` -/
  amount_pos : 0 < amountMinor

/-- A row of `refunds`. -/
structure Refund where
  orderId : Uuid
  method : PaymentMethod
  amountMinor : ℤ
  reason : String
  actorUserId : Option Uuid
  idempotencyKey : Option String
  createdAt : Instant
  /-- `refunds_amount_positive` -/
  amount_pos : 0 < amountMinor

/-! ## §6. The audit log. -/

/-- What `EventsService.record` is told, with its metadata. -/
inductive AuditEvent where
  | orderDiscounted (orderNumber discountMinor : ℤ) (reason : Option String)
  | orderVoided (orderNumber : ℤ) (reason : Option String)
  | orderRefunded (orderNumber : ℤ) (method : PaymentMethod) (amountMinor : ℤ)
      (reason : String)
  | loyalty (type : LoyaltyEntryType) (points : ℤ) (orderId : Option Uuid)
  | stockCountCompleted (code : String) (counted adjusted : ℕ)
  | stockCountCancelled (code : String)
  | purchaseOrderMoved (toStatus : PurchaseOrderStatus) (supplierId : Uuid) (itemCount : ℕ)
  deriving DecidableEq, Repr

/-- A row of `audit_logs`, as far as its event goes. -/
structure AuditLog where
  entityId : Uuid
  event : AuditEvent
  actorUserId : Uuid
  deriving DecidableEq, Repr

/-! ## §7. The tenant's database. -/

/-- The rows of one tenant, table by table. -/
structure Db where
  products : List Product
  combos : List Combo
  modifierGroups : List ModifierGroup
  branches : List Branch
  customers : List Customer
  coupons : List Coupon
  couponRedemptions : List CouponRedemption
  loyaltySettings : Option LoyaltySettings
  loyaltyLedger : List LoyaltyEntry
  ingredients : List Ingredient
  suppliers : List Uuid
  recipeItems : List RecipeItem
  prepRecipeItems : List PrepRecipeItem
  prepBatches : List PrepBatch
  movements : List StockMovement
  stockCounts : List StockCount
  purchaseOrders : List PurchaseOrder
  orders : List Order
  orderEvents : List OrderEvent
  payments : List Payment
  refunds : List Refund
  auditLogs : List AuditLog

/-- A tenant that has nothing yet. -/
def Db.empty : Db :=
  { products := [], combos := [], modifierGroups := [], branches := [], customers := [],
    coupons := [], couponRedemptions := [], loyaltySettings := none, loyaltyLedger := [],
    ingredients := [], suppliers := [], recipeItems := [], prepRecipeItems := [],
    prepBatches := [], movements := [], stockCounts := [], purchaseOrders := [], orders := [],
    orderEvents := [], payments := [], refunds := [], auditLogs := [] }

/-- `db.order.findFirst({ where: { id } })`. -/
def Db.findOrder (db : Db) (id : Uuid) : Option Order :=
  db.orders.find? fun o => o.id = id

/-- The order that is found is one of the table, with that id. -/
theorem Db.mem_of_findOrder {db : Db} {id : Uuid} {o : Order}
    (h : db.findOrder id = some o) : o ∈ db.orders ∧ o.id = id :=
  ⟨List.mem_of_find?_eq_some h, by simpa using List.find?_some h⟩

/-! ## §8. Replacing one table. -/

/-- The same database with other `orders`; so for each table that a request writes. -/
@[simps] def Db.withOrders (db : Db) (orders : List Order) : Db :=
  { db with orders }

@[simps] def Db.withOrderEvents (db : Db) (orderEvents : List OrderEvent) : Db :=
  { db with orderEvents }

@[simps] def Db.withPayments (db : Db) (payments : List Payment) : Db :=
  { db with payments }

@[simps] def Db.withRefunds (db : Db) (refunds : List Refund) : Db :=
  { db with refunds }

@[simps] def Db.withMovements (db : Db) (movements : List StockMovement) : Db :=
  { db with movements }

@[simps] def Db.withLoyaltyLedger (db : Db) (loyaltyLedger : List LoyaltyEntry) : Db :=
  { db with loyaltyLedger }

@[simps] def Db.withCoupons (db : Db) (coupons : List Coupon) : Db :=
  { db with coupons }

@[simps] def Db.withCouponRedemptions (db : Db)
    (couponRedemptions : List CouponRedemption) : Db :=
  { db with couponRedemptions }

@[simps] def Db.withAuditLogs (db : Db) (auditLogs : List AuditLog) : Db :=
  { db with auditLogs }

/-- The log that is put last is the one that stands. -/
theorem Db.withAuditLogs_twice (db : Db) (logs logs' : List AuditLog) :
    (db.withAuditLogs logs).withAuditLogs logs' = db.withAuditLogs logs' := rfl

/-- `EventsService.record`. -/
def Db.record (db : Db) (ctx : TenantContext) (entityId : Uuid) (event : AuditEvent) :
    Db :=
  db.withAuditLogs (db.auditLogs ++ [⟨entityId, event, ctx.userId⟩])

end OraOS.Api
