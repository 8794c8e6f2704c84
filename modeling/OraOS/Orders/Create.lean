/-
  OraOS.Orders.Create — `OrdersService.create`: guards, idempotent replay, and
  the one transaction that prices an order and writes it.

    * `insert_ok`  — everything a successful transaction wrote;
    * `create_ok`  — a successful request either answers with an order that was
                     already there, or is one such transaction.

  The loyalty credit runs after the commit, so `create` returns it as a `Hook`
  still to run.
-/
import OraOS.Orders.Lines
import OraOS.Marketing.Coupons
import OraOS.Loyalty.Ledger
import OraOS.Inventory.Movements

namespace OraOS.Orders

open OraOS.Api
open OraOS.Lib
open OraOS.Inventory
open OraOS.Marketing
open OraOS.Loyalty

/-! ## §1. Guards and pricing. -/

/-- Loyalty work that runs after its request has committed. -/
inductive Hook where
  /-- `creditLoyalty` -/
  | credit (orderId : Uuid)
  /-- `reverseLoyalty` -/
  | reverse (orderId : Uuid)
  deriving DecidableEq, Repr

/-- Whether the order is only parked. -/
def CreateOrderDto.held (dto : CreateOrderDto) : Bool := dto.hold = some true

/-- How many discount sources the request names. -/
def discountSources (dto : CreateOrderDto) : ℕ :=
  [dto.couponCode.isSome, dto.manualDiscountMinor.isSome, dto.redeemPoints.isSome].count true

/-- The guards of `create`, before any transaction. -/
def checkRequest (ctx : TenantContext) (dto : CreateOrderDto) : Except ApiError Unit := do
  require (¬ (dto.held = true ∧ dto.paymentMethod.isSome))
    (.badRequest "A held order cannot take a payment — collect it when placing")
  require (discountSources dto ≤ 1) (.badRequest
    "Use only one discount: a coupon, a manual discount, or redeemed points")
  require (dto.manualDiscountMinor.isSome → .orderDiscount ∈ ctx.permissions)
    (.forbidden "Missing permission: order.discount")
  require (dto.redeemPoints.isSome → dto.customerId.isSome)
    (.badRequest "Redeeming points needs a customer")
  require (dto.redeemPoints.isSome → dto.held = false)
    (.badRequest "A held order cannot redeem points — redeem when placing")
  require (dto.redeemPoints.isSome → .loyaltyRedeem ∈ ctx.permissions)
    (.forbidden "Missing permission: loyalty.redeem")

/-- The discount and what it is paid with. -/
structure Discount where
  discountMinor : ℤ
  coupon : Option CouponDiscount
  redeemPoints : ℤ
  redeemConfigSnapshot : Option ConfigSnapshot

/-- The one discount source of the request, priced by the server. -/
def discountFor (db : Db) (now : Instant) (dto : CreateOrderDto) (subtotalMinor : ℤ) :
    Except ApiError Discount :=
  match truthy dto.couponCode, dto.manualDiscountMinor, dto.redeemPoints with
  | some code, _, _ => do
      let r ← validateAndComputeDiscount db now code subtotalMinor
      pure ⟨r.discountMinor, some r, 0, none⟩
  -- a code is looked at first, then a discount by hand, then points
  | none, some manual, _ => do
      require (manual ≤ subtotalMinor)
        (.badRequest "Discount cannot exceed the order subtotal")
      pure ⟨manual, none, 0, none⟩
  | none, none, some points =>
      let config := getConfig db
      match redemptionFor points subtotalMinor config with
      | .ok r => .ok ⟨r.discountMinor, none, r.points, some (redeemSnapshot config)⟩
      | .error reason => .error (.badRequest reason)
  | none, none, none => .ok ⟨0, none, 0, none⟩

/-- What `insert` has worked out before its first write. -/
structure PricedOrder where
  branchId : Uuid
  lines : List NewOrderItem
  discount : Discount

/-- The lines before tax and discount. -/
def subtotalOf (lines : List NewOrderItem) : ℤ := (lines.map (·.lineTotalMinor)).sum

/-- The tax of the lines. -/
def taxOf (lines : List NewOrderItem) : ℤ := (lines.map (·.taxMinor)).sum

/-- The oldest active branch. -/
def findBranch (db : Db) : Option Branch :=
  ((db.branches.filter (·.isActive)).insertionSort fun a b => a.createdAt ≤ b.createdAt).head?

/-- What `doCreate` reads and computes before its transaction. -/
def priceOrder (db : Db) (now : Instant) (dto : CreateOrderDto) :
    Except ApiError PricedOrder := do
  dto.items.forM checkItem
  checkMenu db dto.items
  require (∀ c ∈ dto.customerId, ∃ k ∈ db.customers, k.id = c) (.badRequest "Unknown customer")
  -- `findFirstOrThrow`: a tenant always has a branch
  let branch ← found (findBranch db) .recordNotFound
  let lines ← dto.items.mapM (priceLine db)
  -- tax stays on the undiscounted lines
  let discount ← discountFor db now dto (subtotalOf lines)
  pure ⟨branch.id, lines, discount⟩

/-! ## §2. The writes. -/

/-- A line as `order_items` takes it. -/
def storeItem (l : NewOrderItem) : Except ApiError OrderItem :=
  if fitsInt4 l.unitPriceMinor ∧ fitsInt4 l.lineTotalMinor ∧ fitsInt4 l.taxMinor then
    if ha : 0 ≤ l.unitPriceMinor ∧ 0 ≤ l.taxMinor ∧ 0 ≤ l.taxRateBp ∧ l.taxRateBp ≤ 10000
        ∧ l.lineTotalMinor = l.unitPriceMinor * l.quantity then
      if hq : 0 < l.quantity then .ok ⟨l, hq, ha⟩
      else .error (.checkViolation "order_items_quantity_positive")
    else .error (.checkViolation "order_items_amounts_valid")
  else .error .outOfRange

/-- One above the highest number so far. -/
def nextOrderNumber (db : Db) : ℤ := (db.orders.map (·.orderNumber)).max?.getD 0 + 1

/-- `db.order.create` with its items: the columns' range, the CHECKs in the order
of their names, then the unique indexes. -/
def insertOrder (db : Db) (env : Env) (dto : CreateOrderDto) (p : PricedOrder) :
    Except ApiError Order :=
  let subtotal := subtotalOf p.lines
  let discount := p.discount.discountMinor
  let tax := taxOf p.lines
  let total := subtotal - discount + tax
  let orderNumber := nextOrderNumber db
  if fitsInt4 subtotal ∧ fitsInt4 discount ∧ fitsInt4 tax ∧ fitsInt4 total
      ∧ fitsInt4 orderNumber then
    if ha : 0 ≤ subtotal ∧ 0 ≤ discount ∧ 0 ≤ tax ∧ 0 ≤ total then
      if hd : discount ≤ subtotal then do
        -- the CHECKs have been looked at; now the unique indexes
        require (∀ o ∈ db.orders, o.id ≠ env.newId) (.uniqueViolation .primaryKey)
        require (∀ o ∈ db.orders, o.orderNumber ≠ orderNumber) (.uniqueViolation .orderNumber)
        require (¬ keyTaken dto.idempotencyKey (db.orders.map (·.idempotencyKey)))
          (.uniqueViolation .orderIdempotencyKey)
        let items ← p.lines.mapM storeItem
        pure
          { id := env.newId, branchId := p.branchId, customerId := dto.customerId,
            orderNumber, status := if dto.held then .draft else .placed,
            orderType := dto.orderType.getD .takeaway, subtotalMinor := subtotal,
            discountMinor := discount, taxMinor := tax, totalMinor := total,
            notes := dto.notes, idempotencyKey := dto.idempotencyKey,
            placedAt := if dto.held then none else some env.now, createdAt := env.now,
            items, amounts_nonneg := ha, total_adds_up := rfl, discount_within := hd }
      else .error (.checkViolation "orders_discount_within_subtotal")
    else .error (.checkViolation "orders_amounts_non_negative")
  else .error .outOfRange

/-- The coupon's redemption row. -/
def redeemCoupon (db : Db) (orderId : Uuid) (coupon : Option CouponDiscount) :
    Except ApiError Db :=
  match coupon with
  | some c => recordRedemption db c.couponId orderId c.discountMinor
  | none => .ok db

/-- The points debit; `checkRequest` has refused a redemption without a customer. -/
def redeemPointsFor (db : Db) (ctx : TenantContext) (orderId : Uuid) (dto : CreateOrderDto)
    (d : Discount) : Except ApiError Db :=
  if 0 < d.redeemPoints then do
    let customerId ← found dto.customerId .recordNotFound
    redeemForOrder db ctx customerId orderId d.redeemPoints d.redeemConfigSnapshot
  else .ok db

/-- The audit entry of a manual discount. -/
def recordDiscount (db : Db) (ctx : TenantContext) (o : Order) (dto : CreateOrderDto) : Db :=
  if dto.manualDiscountMinor.isSome then
    db.record ctx o.id (.orderDiscounted o.orderNumber o.discountMinor dto.discountReason)
  else db

/-- `db.payment.create`. -/
def insertPayment (db : Db) (env : Env) (orderId : Uuid) (method : PaymentMethod)
    (amountMinor : ℤ) (reference idempotencyKey : Option String) : Except ApiError Db := do
  require (fitsInt4 amountMinor = true) .outOfRange
  if h : 0 < amountMinor then do
    require (¬ keyTaken idempotencyKey (db.payments.map (·.idempotencyKey)))
      (.uniqueViolation .paymentIdempotencyKey)
    pure (db.withPayments (db.payments ++
      [⟨orderId, method, .captured, amountMinor, reference, idempotencyKey, env.now, h⟩]))
  else .error (.checkViolation "payments_amount_positive")

/-- The payment taken with the order: always its full total. -/
def payAtPlacement (db : Db) (env : Env) (o : Order) (dto : CreateOrderDto) :
    Except ApiError Db :=
  match dto.paymentMethod with
  | some method => insertPayment db env o.id method o.totalMinor none dto.idempotencyKey
  | none => .ok db

/-- Stock leaves in the transaction of the sale; a held order takes none. -/
def depleteAtPlacement (db : Db) (ctx : TenantContext) (now : Instant) (o : Order)
    (dto : CreateOrderDto) : Except ApiError Db :=
  if dto.held then .ok db
  else depleteForOrder db ctx now o.id (placementLines db dto.items)

/-- `OrdersService.insert`. -/
def insert (db : Db) (ctx : TenantContext) (env : Env) (dto : CreateOrderDto) :
    Except ApiError (Order × Db) := do
  let p ← priceOrder db env.now dto
  let o ← insertOrder db env dto p
  let db := db.withOrders (db.orders ++ [o])
  -- every write below is in the transaction of the order row
  let db ← redeemCoupon db o.id p.discount.coupon
  let db ← redeemPointsFor db ctx o.id dto p.discount
  let db := recordDiscount db ctx o dto
  let db ← payAtPlacement db env o dto
  let db ← depleteAtPlacement db ctx env.now o dto
  pure (o, db.withOrderEvents (db.orderEvents ++
    [⟨o.id, .created o.status p.lines.length o.totalMinor, ctx.userId⟩]))

/-- `findByIdempotencyKey`, for a key that is set. -/
def findByIdempotencyKey (db : Db) (key : Option String) : Option Order :=
  (truthy key).bind fun k => db.orders.find? fun o => o.idempotencyKey = some k

/-- The retry loop around `insert`: once more on a taken order number; a taken
key is answered with the order that has it. -/
def insertAttempts (db : Db) (ctx : TenantContext) (env : Env) (dto : CreateOrderDto) :
    ℕ → Except ApiError (Order × Db × List Hook)
  | 0 => .error (.badRequest "Could not allocate an order number")
  | n + 1 =>
      match insert db ctx env dto with
      | .ok (o, db') =>
          .ok (o, db',
            if dto.customerId.isSome && dto.paymentMethod.isSome then [.credit o.id] else [])
      -- another order took the number: read the highest again
      | .error (.uniqueViolation .orderNumber) => insertAttempts db ctx env dto n
      -- the key is taken: the first request of this key won
      | .error (.uniqueViolation ix) =>
          match (if ix.onIdempotencyKey then findByIdempotencyKey db dto.idempotencyKey
            else none) with
          | some existing => .ok (existing, db, [])
          | none => .error (.uniqueViolation ix)
      | .error e => .error e

/-- `OrdersService.create`. -/
def create (db : Db) (ctx : TenantContext) (env : Env) (dto : CreateOrderDto) :
    Except ApiError (Order × Db × List Hook) := do
  checkRequest ctx dto
  match findByIdempotencyKey db dto.idempotencyKey with
  | some existing => .ok (existing, db, [])
  | none => insertAttempts db ctx env dto 5

/-! ## §3. What a successful creation wrote. -/

/-- A replay found an order with its key. -/
theorem findByIdempotencyKey_some {db : Db} {key : Option String} {o : Order}
    (h : findByIdempotencyKey db key = some o) : o ∈ db.orders ∧ o.idempotencyKey = key := by
  obtain ⟨k, hk, hfind⟩ := Option.bind_eq_some_iff.mp h
  refine ⟨List.mem_of_find?_eq_some hfind, ?_⟩
  rw [truthy_some hk]
  simpa using List.find?_some hfind

/-- The line stored is the one that was priced. -/
theorem storeItem_ok {l : NewOrderItem} {i : OrderItem} (h : storeItem l = .ok i) :
    i.toNewOrderItem = l := by
  unfold storeItem at h
  split at h
  next =>
    split at h
    next =>
      split at h
      next =>
        injection h with h
        rw [← h]
      next => cases h
    next => cases h
  next => cases h

theorem storeItems_ok {lines : List NewOrderItem} {items : List OrderItem}
    (h : lines.mapM storeItem = .ok items) : items.map (·.toNewOrderItem) = lines := by
  induction mapM_ok.mp h with
  | nil => rfl
  | cons hi _ ih =>
      rename_i hrest
      rw [List.map_cons, storeItem_ok hi, ih (mapM_ok.mpr hrest)]

/-- The order row a request asks for, and that its id was free. -/
structure NewOrder (db : Db) (env : Env) (dto : CreateOrderDto) (p : PricedOrder) (o : Order) :
    Prop where
  id : o.id = env.newId
  fresh : ∀ x ∈ db.orders, x.id ≠ env.newId
  status : o.status = if dto.held then .draft else .placed
  customer : o.customerId = dto.customerId
  items : o.items.map (·.toNewOrderItem) = p.lines
  discount : o.discountMinor = p.discount.discountMinor

/-- **A new order, and everything its columns were checked for.** -/
theorem insertOrder_ok {db : Db} {env : Env} {dto : CreateOrderDto} {p : PricedOrder}
    {o : Order} (h : insertOrder db env dto p = .ok o) : NewOrder db env dto p o := by
  unfold insertOrder at h
  dsimp only at h
  split at h
  next =>
    split at h
    next =>
      split at h
      next =>
        simp only [bind_ok, require_ok] at h
        obtain ⟨-, hid, -, -, -, -, items, hitems, h⟩ := h
        cases pure_ok.mp h
        exact ⟨rfl, hid, rfl, rfl, storeItems_ok hitems, rfl⟩
      next => cases h
    next => cases h
  next => cases h

/-- Redeeming a coupon writes its redemptions only. -/
theorem redeemCoupon_ok {db db' : Db} {orderId : Uuid} {coupon : Option CouponDiscount}
    (h : redeemCoupon db orderId coupon = .ok db') :
    ∃ redemptions, db' = db.withCouponRedemptions redemptions := by
  unfold redeemCoupon at h
  split at h
  next => exact recordRedemption_ok h
  next =>
    cases h
    exact ⟨_, rfl⟩

/-- The loyalty rows of a new order: at most one REDEEM, of at most `bound`
points. -/
def SpentPoints (l : List LoyaltyEntry) (orderId : Uuid) (bound : ℤ)
    (spent : List LoyaltyEntry) : Prop :=
  spent = [] ∨ ∃ r, spent = [r] ∧ r.type = .redeem ∧ -bound ≤ r.points ∧ Fresh l orderId r

/-- Redeeming points writes one entry, or none. -/
theorem redeemPointsFor_ok {db db' : Db} {ctx : TenantContext} {orderId : Uuid}
    {dto : CreateOrderDto} {d : Discount} {bound : ℤ} (hb : d.redeemPoints ≤ bound)
    (h : redeemPointsFor db ctx orderId dto d = .ok db') :
    ∃ spent, SpentPoints db.loyaltyLedger orderId bound spent
      ∧ LoyaltyOnly db db' (db.loyaltyLedger ++ spent) := by
  unfold redeemPointsFor at h
  split at h
  next =>
    obtain ⟨customerId, -, h⟩ := bind_ok.mp h
    obtain ⟨r, htype, hpoints, hfresh, hdb⟩ := redeemForOrder_ok h
    exact ⟨[r], .inr ⟨r, rfl, htype, by omega, hfresh⟩, hdb⟩
  next =>
    cases h
    refine ⟨[], .inl rfl, ?_⟩
    rw [List.append_nil]
    exact .refl db

/-- The payment rows of one capture. -/
theorem insertPayment_ok {db db' : Db} {env : Env} {orderId : Uuid} {method : PaymentMethod}
    {amountMinor : ℤ} {reference key : Option String}
    (h : insertPayment db env orderId method amountMinor reference key = .ok db') :
    ∃ p : Payment, p.orderId = orderId ∧ p.status = .captured ∧ p.amountMinor = amountMinor
      ∧ db' = db.withPayments (db.payments ++ [p]) := by
  obtain ⟨-, -, h⟩ := bind_ok.mp h
  split at h
  next hpos =>
    obtain ⟨-, -, h⟩ := bind_ok.mp h
    cases pure_ok.mp h
    exact ⟨_, rfl, rfl, rfl, rfl⟩
  next => cases h

/-- The payment rows of a new order: none, or its total captured. -/
def PaidAtPlacement (o : Order) (dto : CreateOrderDto) (paid : List Payment) : Prop :=
  (paid = [] ∧ dto.paymentMethod = none)
    ∨ ∃ p, paid = [p] ∧ p.orderId = o.id ∧ p.status = .captured
      ∧ p.amountMinor = o.totalMinor ∧ dto.paymentMethod.isSome

/-- A payment is taken at placement if a method was given. -/
theorem payAtPlacement_ok {db db' : Db} {env : Env} {o : Order} {dto : CreateOrderDto}
    (h : payAtPlacement db env o dto = .ok db') :
    ∃ paid, PaidAtPlacement o dto paid ∧ db' = db.withPayments (db.payments ++ paid) := by
  unfold payAtPlacement at h
  split at h
  next method hm =>
    obtain ⟨p, hid, hstatus, hamount, rfl⟩ := insertPayment_ok h
    exact ⟨[p], .inr ⟨p, rfl, hid, hstatus, hamount, by rw [hm]; rfl⟩, rfl⟩
  next hm =>
    cases h
    exact ⟨[], .inl ⟨rfl, hm⟩, by rw [List.append_nil]; rfl⟩

/-- The movements of a new order: none when held, and otherwise the depletion of
its placement lines. -/
def DepletedAtPlacement (db : Db) (ctx : TenantContext) (now : Instant) (orderId : Uuid)
    (dto : CreateOrderDto) (moved : List StockMovement) : Prop :=
  moved.map (·.toNewMovement) =
    if dto.held then []
    else depletionRows db now orderId ctx.userId (placementLines db dto.items)

/-- Stock is drawn at placement unless the order is held. -/
theorem depleteAtPlacement_ok {db db' : Db} {ctx : TenantContext} {now : Instant} {o : Order}
    {dto : CreateOrderDto} (h : depleteAtPlacement db ctx now o dto = .ok db') :
    ∃ moved, DepletedAtPlacement db ctx now o.id dto moved
      ∧ db' = db.withMovements (db.movements ++ moved) := by
  unfold depleteAtPlacement at h
  unfold DepletedAtPlacement
  split at h
  next hheld =>
    cases h
    exact ⟨[], by rw [if_pos hheld]; rfl, by rw [List.append_nil]; rfl⟩
  next hheld =>
    obtain ⟨new, hnew, rfl⟩ := depleteForOrder_ok h
    exact ⟨new, by rw [if_neg hheld]; exact hnew, rfl⟩

/-- The bound on redeemed points of the DTO. -/
def maxRedeemPoints : ℤ := 10000000

/-- No order redeems more points than a request may ask for. -/
theorem discountFor_points {db : Db} {now : Instant} {dto : CreateOrderDto}
    {subtotalMinor : ℤ} {d : Discount} (h : discountFor db now dto subtotalMinor = .ok d) :
    d.redeemPoints ≤ maxRedeemPoints := by
  unfold discountFor at h
  split at h
  next =>
    obtain ⟨r, -, h⟩ := bind_ok.mp h
    cases pure_ok.mp h
    show (0 : ℤ) ≤ 10000000
    omega
  next =>
    obtain ⟨-, -, h⟩ := bind_ok.mp h
    cases pure_ok.mp h
    show (0 : ℤ) ≤ 10000000
    omega
  next points _ _ hpoints =>
    dsimp only at h
    split at h
    next r hr =>
      cases h
      have := (dto.redeemPoints_ok points hpoints).2
      show r.points ≤ 10000000
      rw [(redemptionFor_ok hr).1]
      exact this
    next => cases h
  next =>
    cases h
    show (0 : ℤ) ≤ 10000000
    omega

/-- What a successful `insert` wrote besides the order row. -/
structure Inserted (db : Db) (ctx : TenantContext) (env : Env) (dto : CreateOrderDto) (o : Order)
    (paid : List Payment) (moved : List StockMovement) (spent : List LoyaltyEntry) :
    Prop where
  id : o.id = env.newId
  fresh : ∀ x ∈ db.orders, x.id ≠ env.newId
  status : o.status = if dto.held then .draft else .placed
  customer : o.customerId = dto.customerId
  priced : List.Forall₂ (fun i l => priceLine db i = .ok l) dto.items
    (o.items.map (·.toNewOrderItem))
  paid : PaidAtPlacement o dto paid
  moved : DepletedAtPlacement db ctx env.now o.id dto moved
  spent : SpentPoints db.loyaltyLedger o.id maxRedeemPoints spent

/-- The database after a creation. -/
@[simps] def inserted (db : Db) (ctx : TenantContext) (o : Order) (paid : List Payment)
    (moved : List StockMovement) (spent : List LoyaltyEntry)
    (redemptions : List CouponRedemption) (logs : List AuditLog) : Db :=
  { db with
    orders := db.orders ++ [o]
    couponRedemptions := redemptions
    loyaltyLedger := db.loyaltyLedger ++ spent
    auditLogs := logs
    payments := db.payments ++ paid
    movements := db.movements ++ moved
    orderEvents := db.orderEvents ++
      [⟨o.id, .created o.status o.items.length o.totalMinor, ctx.userId⟩] }

/-- A discount by hand leaves an audit row. -/
theorem recordDiscount_logs (db : Db) (ctx : TenantContext) (o : Order) (dto : CreateOrderDto) :
    ∃ logs, recordDiscount db ctx o dto = db.withAuditLogs (db.auditLogs ++ logs) := by
  unfold recordDiscount
  split
  · exact ⟨_, rfl⟩
  · exact ⟨[], by rw [List.append_nil]; rfl⟩

/-- What pricing leaves of a request: each line by itself, and the discount on their sum. -/
structure OrderPriced (db : Db) (now : Instant) (dto : CreateOrderDto) (p : PricedOrder) :
    Prop where
  lines : List.Forall₂ (fun item l => priceLine db item = .ok l) dto.items p.lines
  discount : discountFor db now dto (subtotalOf p.lines) = .ok p.discount
  customer : ∀ c ∈ dto.customerId, ∃ k ∈ db.customers, k.id = c

/-- **What a priced order was checked for.** -/
theorem priceOrder_ok {db : Db} {now : Instant} {dto : CreateOrderDto} {p : PricedOrder}
    (h : priceOrder db now dto = .ok p) : OrderPriced db now dto p := by
  simp only [priceOrder, bind_ok, require_ok] at h
  obtain ⟨-, -, -, -, -, hcustomer, branch, -, lines, hlines, discount, hdiscount, h⟩ := h
  cases pure_ok.mp h
  exact ⟨mapM_ok.mp hlines, hdiscount, hcustomer⟩

/-- The order that is stored is the one that was priced. -/
theorem insert_priced {db db' : Db} {ctx : TenantContext} {env : Env} {dto : CreateOrderDto}
    {o : Order} (h : insert db ctx env dto = .ok (o, db')) :
    ∃ p, OrderPriced db env.now dto p ∧ insertOrder db env dto p = .ok o := by
  obtain ⟨p, hprice, h⟩ := bind_ok.mp h
  obtain ⟨_, ho, h⟩ := bind_ok.mp h
  -- the writes after it go to other tables
  obtain ⟨_, -, h⟩ := bind_ok.mp h
  obtain ⟨_, -, h⟩ := bind_ok.mp h
  obtain ⟨_, -, h⟩ := bind_ok.mp h
  obtain ⟨_, -, h⟩ := bind_ok.mp h
  cases pure_ok.mp h
  exact ⟨p, priceOrder_ok hprice, ho⟩

/-- **What a successful `insert` does**: one new order with its trail, and at
most one payment, its depletion and one points debit. -/
theorem insert_ok {db db' : Db} {ctx : TenantContext} {env : Env} {dto : CreateOrderDto}
    {o : Order} (h : insert db ctx env dto = .ok (o, db')) :
    ∃ paid moved spent redemptions logs, Inserted db ctx env dto o paid moved spent
      ∧ db' = inserted db ctx o paid moved spent redemptions (db.auditLogs ++ logs) := by
  -- the statements of the transaction in their order, each by its own lemma
  obtain ⟨p, hprice, h⟩ := bind_ok.mp h
  obtain ⟨_, ho, h⟩ := bind_ok.mp h
  obtain ⟨db₁, h1, h⟩ := bind_ok.mp h
  obtain ⟨db₂, h2, h⟩ := bind_ok.mp h
  obtain ⟨db₃, h3, h⟩ := bind_ok.mp h
  obtain ⟨db₄, h4, h⟩ := bind_ok.mp h
  cases pure_ok.mp h
  have hpriced := priceOrder_ok hprice
  have hrow := insertOrder_ok ho
  obtain ⟨redemptions, rfl⟩ := redeemCoupon_ok h1
  obtain ⟨spent, hspent, logs, rfl⟩ := redeemPointsFor_ok (discountFor_points hpriced.discount) h2
  obtain ⟨logs', hlogs⟩ := recordDiscount_logs _ ctx o dto
  rw [hlogs, Db.withAuditLogs_twice] at h3
  obtain ⟨paid, hpaid, rfl⟩ := payAtPlacement_ok h3
  obtain ⟨moved, hmoved, rfl⟩ := depleteAtPlacement_ok h4
  have hlen : p.lines.length = o.items.length := by
    rw [← hrow.items, List.length_map]
  refine ⟨paid, moved, spent, redemptions, logs ++ logs', ⟨hrow.id, hrow.fresh, hrow.status,
    hrow.customer, ?_, hpaid, ?_, hspent⟩, ?_⟩
  · rw [hrow.items]
    exact hpriced.lines
  -- depletion reads no table the earlier statements wrote
  · unfold DepletedAtPlacement at hmoved ⊢
    rw [hmoved]
    split
    · rfl
    · refine depletionRows_congr ?_ ?_ ?_ ?_ _ _ _ _ <;> rfl
  · simp only [inserted, hlen, Db.withOrders, Db.withCouponRedemptions, Db.withLoyaltyLedger,
      Db.withAuditLogs, Db.withPayments, Db.withMovements, Db.withOrderEvents, List.append_assoc]

/-- A successful attempt inserted, or found the order of its key. -/
theorem insertAttempts_ok {db db' : Db} {ctx : TenantContext} {env : Env}
    {dto : CreateOrderDto} {o : Order} {hooks : List Hook} {n : ℕ}
    (h : insertAttempts db ctx env dto n = .ok (o, db', hooks)) :
    (findByIdempotencyKey db dto.idempotencyKey = some o ∧ db' = db ∧ hooks = [])
      ∨ (insert db ctx env dto = .ok (o, db')
        ∧ hooks = if dto.customerId.isSome && dto.paymentMethod.isSome then [.credit o.id]
          else []) := by
  induction n with
  | zero => cases h
  | succ n ih =>
      unfold insertAttempts at h
      split at h
      next o' db'' hins =>
        cases h
        exact .inr ⟨hins, rfl⟩
      next => exact ih h
      next ix _ =>
        split at h
        next existing hex =>
          cases h
          split at hex
          next => exact .inl ⟨hex, rfl, rfl⟩
          next => cases hex
        next => cases h
      next => cases h

/-- **What a successful `create` does**: it answers with an order that was there,
changing nothing, or it is one `insert`. -/
theorem create_ok {db db' : Db} {ctx : TenantContext} {env : Env} {dto : CreateOrderDto}
    {o : Order} {hooks : List Hook} (h : create db ctx env dto = .ok (o, db', hooks)) :
    checkRequest ctx dto = .ok () ∧
      ((findByIdempotencyKey db dto.idempotencyKey = some o ∧ db' = db ∧ hooks = [])
        ∨ (insert db ctx env dto = .ok (o, db')
          ∧ hooks = if dto.customerId.isSome && dto.paymentMethod.isSome then [.credit o.id]
            else [])) := by
  obtain ⟨_, hcheck, h⟩ := bind_ok.mp h
  refine ⟨hcheck, ?_⟩
  split at h
  next existing hex =>
    cases h
    exact .inl ⟨hex, rfl, rfl⟩
  next => exact insertAttempts_ok h

/-! ## §4. A small menu to run requests on. -/

/-- One product with its recipe, a combo of two of it, one customer. -/
def lassiBar : Db :=
  { Db.empty with
    products := [⟨1, "Lassi", 1000, 500, true, by decide⟩]
    combos := [⟨2, "Lassi for two", 1800, 500, true, [⟨1, 2, 0, by decide⟩], by decide⟩]
    branches := [⟨3, true, 0⟩]
    customers := [⟨5⟩]
    ingredients := [⟨4, "Curd", none, true, false, none, none⟩]
    recipeItems := [⟨1, 4, 150, by decide⟩] }

/-- Who is at the till in the runs below. -/
def cashier : TenantContext := ⟨10, 11, 12, [.orderVoid]⟩

/-- An order of one line without a discount. -/
def orderOf (item : OrderItemDto) (hold : Option Bool) (paymentMethod : Option PaymentMethod)
    (customerId : Option Uuid) : CreateOrderDto :=
  { items := [item], paymentMethod, orderType := none, hold, customerId, couponCode := none,
    manualDiscountMinor := none, discountReason := none, redeemPoints := none, notes := none,
    idempotencyKey := none, items_ok := ⟨Nat.le_refl 1, by simp⟩, manualDiscount_ok := nofun,
    redeemPoints_ok := nofun }

/-- One of a product or of a combo. -/
def oneOf (productId comboId : Option Uuid) : OrderItemDto :=
  ⟨productId, comboId, 1, none, none, by decide, nofun⟩

/-- One lassi. -/
def lassiOrder (hold : Option Bool) (paymentMethod : Option PaymentMethod)
    (customerId : Option Uuid) : CreateOrderDto :=
  orderOf (oneOf (some 1) none) hold paymentMethod customerId

end OraOS.Orders
