/-
  OraOS.Orders.CreateStatements — `OrdersService.create` statement by statement.

  What `insert` does in one go is a transaction of many statements: it reads the
  menu, the customer, the branch and the highest number, waits for the entries of the
  unique indexes of `orders`, and writes its rows, which appear with its commit.

    * `insert_eq`    — `insert`, as the rows its statements write;
    * `createTurn`   — the next statement of a call;
    * `create_alone` — on its own a call is `create`.
-/
import OraOS.Orders.Create
import OraOS.Loyalty.PointsRace

namespace OraOS.Orders

open OraOS.Api
open OraOS.Lib
open OraOS.Inventory
open OraOS.Marketing
open OraOS.Loyalty

/-! ## §1. The order row and its index entries. -/

/-- The row of an order under a number: the columns' range and the CHECKs. -/
def orderRow (env : Env) (dto : CreateOrderDto) (p : PricedOrder) (orderNumber : ℤ) :
    Except ApiError Order :=
  let subtotal := subtotalOf p.lines
  let discount := p.discount.discountMinor
  let tax := taxOf p.lines
  let total := subtotal - discount + tax
  if fitsInt4 subtotal ∧ fitsInt4 discount ∧ fitsInt4 tax ∧ fitsInt4 total
      ∧ fitsInt4 orderNumber then
    -- the checks of the table are tried by name
    if ha : 0 ≤ subtotal ∧ 0 ≤ discount ∧ 0 ≤ tax ∧ 0 ≤ total then
      if hd : discount ≤ subtotal then
        .ok
          { id := env.newId, branchId := p.branchId, customerId := dto.customerId,
            orderNumber, status := if dto.held then .draft else .placed,
            orderType := dto.orderType.getD .takeaway, subtotalMinor := subtotal,
            discountMinor := discount, taxMinor := tax, totalMinor := total,
            notes := dto.notes, idempotencyKey := dto.idempotencyKey,
            placedAt := if dto.held then none else some env.now, createdAt := env.now,
            items := [], amounts_nonneg := ha, total_adds_up := rfl, discount_within := hd }
      else .error (.checkViolation "orders_discount_within_subtotal")
    else .error (.checkViolation "orders_amounts_non_negative")
  else .error .outOfRange

/-- The order has the number that was read and the key of its request. -/
theorem orderRow_ok {env : Env} {dto : CreateOrderDto} {p : PricedOrder} {orderNumber : ℤ}
    {o : Order} (h : orderRow env dto p orderNumber = .ok o) :
    o.orderNumber = orderNumber ∧ o.idempotencyKey = dto.idempotencyKey := by
  unfold orderRow at h
  dsimp only at h
  split at h
  next =>
    split at h
    next =>
      split at h
      next =>
        cases h
        exact ⟨rfl, rfl⟩
      next => cases h
    next => cases h
  next => cases h

/-- The unique indexes of `orders`. -/
inductive OrderIndex where
  | id
  | number
  | key
  deriving DecidableEq, Repr

/-- The index that refuses an order. -/
def OrderIndex.violation : OrderIndex → UniqueIndex
  | .id => .primaryKey
  | .number => .orderNumber
  | .key => .orderIdempotencyKey

/-- No committed row has the entry. -/
def OrderIndex.Free (db : Db) (o : Order) : OrderIndex → Prop
  | .id => ∀ x ∈ db.orders, x.id ≠ o.id
  | .number => ∀ x ∈ db.orders, x.orderNumber ≠ o.orderNumber
  | .key => ¬ keyTaken o.idempotencyKey (db.orders.map (·.idempotencyKey)) = true

instance (db : Db) (o : Order) : DecidablePred (OrderIndex.Free db o)
  | .id => inferInstanceAs (Decidable (∀ x ∈ db.orders, x.id ≠ o.id))
  | .number => inferInstanceAs (Decidable (∀ x ∈ db.orders, x.orderNumber ≠ o.orderNumber))
  | .key => inferInstanceAs
      (Decidable (¬ keyTaken o.idempotencyKey (db.orders.map (·.idempotencyKey)) = true))

/-- The entry goes in, or the index is violated. -/
def enter (db : Db) (o : Order) (ix : OrderIndex) : Except ApiError Unit :=
  require (ix.Free db o) (.uniqueViolation ix.violation)

/-- `order_items`, in the statement of their order. -/
def withItems (o : Order) (lines : List NewOrderItem) : Except ApiError Order := do
  let items ← lines.mapM storeItem
  pure { o with items }

/-- **The insert of an order: three entries of the index, and then the lines.** -/
theorem insertOrder_eq (db : Db) (env : Env) (dto : CreateOrderDto) (p : PricedOrder) :
    insertOrder db env dto p = (do
      let o ← orderRow env dto p (nextOrderNumber db)
      enter db o .id
      enter db o .number
      enter db o .key
      withItems o p.lines) := by
  unfold insertOrder orderRow
  dsimp only
  split
  · split
    · split
      · rfl
      · rfl
    · rfl
  · rfl

/-! ## §2. The other rows. -/

/-- A call of `create`. -/
structure CreateCall where
  ctx : TenantContext
  env : Env
  dto : CreateOrderDto

/-- A transaction that has written its order row, with the rows it has written. -/
structure CreateTx where
  /-- What the menu was when it was read. -/
  menu : Db
  priced : PricedOrder
  order : Order
  redemptions : List CouponRedemption
  spent : List LoyaltyEntry
  logs : List AuditLog
  paid : List Payment
  moved : List StockMovement

/-- Only the order row as yet. -/
def CreateTx.fresh (menu : Db) (priced : PricedOrder) (order : Order) : CreateTx :=
  ⟨menu, priced, order, [], [], [], [], []⟩

/-- What the commit makes visible. -/
def CreateTx.publish (tx : CreateTx) (db : Db) (ctx : TenantContext) : Db :=
  inserted db ctx tx.order tx.paid tx.moved tx.spent (db.couponRedemptions ++ tx.redemptions)
    (db.auditLogs ++ tx.logs)

/-- The statements after the order row. -/
inductive Write where
  | coupon
  /-- `lockCustomer` -/
  | customer
  | balance
  | points
  | discount
  | payment
  | stock
  deriving DecidableEq, Repr

/-- The writes of the transaction after the insert, in their order. -/
def Write.all : List Write :=
  [.coupon, .customer, .balance, .points, .discount, .payment, .stock]

/-- The redemption the transaction adds. -/
def redemptionRows (db : Db) (orderId : Uuid) (coupon : Option CouponDiscount) :
    Except ApiError (List CouponRedemption) :=
  match coupon with
  | some c =>
      if h : 0 < c.discountMinor then do
        require (∀ r ∈ db.couponRedemptions, r.orderId ≠ orderId)
          (.uniqueViolation .couponRedemptionOrder)
        pure [⟨c.couponId, orderId, c.discountMinor, h⟩]
      else .error (.checkViolation "coupon_redemptions_discount_positive")
  | none => .ok []

/-- The debit of the redeemed points. -/
def debitEntry (ctx : TenantContext) (customerId orderId : Uuid) (d : Discount) :
    NewLoyaltyEntry :=
  { orderEntry customerId .redeem (-d.redeemPoints) orderId d.redeemConfigSnapshot with
    actorUserId := some ctx.userId }

/-- The customer whose points pay, where points pay. -/
def payer (dto : CreateOrderDto) (d : Discount) : Except ApiError (Option Uuid) :=
  if 0 < d.redeemPoints then do
    let customerId ← found dto.customerId .recordNotFound
    pure (some customerId)
  else .ok none

/-- The payment it adds. -/
def paymentRows (db : Db) (env : Env) (o : Order) (dto : CreateOrderDto) :
    Except ApiError (List Payment) :=
  match dto.paymentMethod with
  | some method => do
      require (fitsInt4 o.totalMinor = true) .outOfRange
      if h : 0 < o.totalMinor then do
        require (¬ keyTaken dto.idempotencyKey (db.payments.map (·.idempotencyKey)))
          (.uniqueViolation .paymentIdempotencyKey)
        pure [⟨o.id, method, .captured, o.totalMinor, none, dto.idempotencyKey, env.now, h⟩]
      else .error (.checkViolation "payments_amount_positive")
  | none => .ok []

/-- The audit row it adds. -/
def discountLogs (ctx : TenantContext) (o : Order) (dto : CreateOrderDto) : List AuditLog :=
  if dto.manualDiscountMinor.isSome then
    [⟨o.id, .orderDiscounted o.orderNumber o.discountMinor dto.discountReason, ctx.userId⟩]
  else []

/-- The combos are those of the menu that was read; the recipes are read now. -/
def movementRows (db : Db) (r : CreateCall) (menu : Db) (orderId : Uuid) :
    Except ApiError (List StockMovement) :=
  if r.dto.held then .ok []
  else (createMany db.movements (depletionRows db r.env.now orderId r.ctx.userId
    (placementLines menu r.dto.items))).map (·.drop db.movements.length)

/-- One statement, on what is committed. -/
def write (db : Db) (r : CreateCall) (tx : CreateTx) : Write → Except ApiError CreateTx
  | .coupon => do
      let redemptions ← redemptionRows db tx.order.id tx.priced.discount.coupon
      pure { tx with redemptions }
  | .customer => do
      match ← payer r.dto tx.priced.discount with
      | some customerId => do
          lockCustomer db customerId
          pure tx
      | none => pure tx
  | .balance => do
      match ← payer r.dto tx.priced.discount with
      | some customerId => do
          checkBalance db customerId tx.priced.discount.redeemPoints
          pure tx
      | none => pure tx
  | .points => do
      match ← payer r.dto tx.priced.discount with
      | some customerId => do
          let e ← insertEntry db (debitEntry r.ctx customerId tx.order.id tx.priced.discount)
          pure { tx with
            spent := [e]
            logs := tx.logs ++ [⟨e.customerId, .loyalty e.type e.points e.orderId,
              r.ctx.userId⟩] }
      | none => pure tx
  | .discount => .ok { tx with logs := tx.logs ++ discountLogs r.ctx tx.order r.dto }
  | .payment => do
      let paid ← paymentRows db r.env tx.order r.dto
      pure { tx with paid }
  | .stock => do
      let moved ← movementRows db r tx.menu tx.order.id
      pure { tx with moved }

/-- The products, combos and modifiers of the request are there to be sold. -/
def readMenu (db : Db) (dto : CreateOrderDto) : Except ApiError Unit := do
  dto.items.forM checkItem
  checkMenu db dto.items

/-- The customer of a request must be known. -/
def readCustomer (db : Db) (dto : CreateOrderDto) : Except ApiError Unit :=
  require (∀ c ∈ dto.customerId, ∃ k ∈ db.customers, k.id = c) (.badRequest "Unknown customer")

/-- The branch an order is placed at. -/
def readBranch (db : Db) : Except ApiError Uuid := do
  let branch ← found (findBranch db) .recordNotFound
  pure branch.id

/-- The lines priced from the menu that was read, and what pays for the discount. -/
def price (db menu : Db) (now : Instant) (dto : CreateOrderDto) (branchId : Uuid) :
    Except ApiError PricedOrder := do
  let lines ← dto.items.mapM (priceLine menu)
  let discount ← discountFor db now dto (subtotalOf lines)
  pure ⟨branchId, lines, discount⟩

/-- Redeeming a coupon adds its row. -/
theorem redeemCoupon_eq (db : Db) (orderId : Uuid) (coupon : Option CouponDiscount) :
    redeemCoupon db orderId coupon = (redemptionRows db orderId coupon).map fun rows =>
      db.withCouponRedemptions (db.couponRedemptions ++ rows) := by
  unfold redeemCoupon redemptionRows recordRedemption
  cases coupon with
  | none =>
      simp only [Except.map, List.append_nil]
      rfl
  | some c =>
      dsimp only
      split
      · by_cases hfree : ∀ r ∈ db.couponRedemptions, r.orderId ≠ orderId
        · rw [require_of _ hfree]
          rfl
        · simp only [require, if_neg hfree]
          rfl
      · rfl

/-- Redeeming points locks the customer, checks the balance and adds its entry. -/
theorem redeemPointsFor_eq (db : Db) (ctx : TenantContext) (orderId : Uuid)
    (dto : CreateOrderDto) (d : Discount) :
    redeemPointsFor db ctx orderId dto d = (do
      match ← payer dto d with
      | some customerId => do
          lockCustomer db customerId
          checkBalance db customerId d.redeemPoints
          let e ← insertEntry db (debitEntry ctx customerId orderId d)
          pure (publishEntry db ctx e)
      | none => pure db) := by
  unfold redeemPointsFor payer
  split
  · cases dto.customerId with
    | none => rfl
    | some customerId =>
        show redeemForOrder db ctx customerId orderId d.redeemPoints d.redeemConfigSnapshot = _
        unfold redeemForOrder
        rw [append_eq]
        rfl
  · rfl

theorem payAtPlacement_eq (db : Db) (env : Env) (o : Order) (dto : CreateOrderDto) :
    payAtPlacement db env o dto = (paymentRows db env o dto).map fun rows =>
      db.withPayments (db.payments ++ rows) := by
  unfold payAtPlacement paymentRows insertPayment
  cases dto.paymentMethod with
  | none =>
      simp only [Except.map, List.append_nil]
      rfl
  | some method =>
      dsimp only
      by_cases hfit : fitsInt4 o.totalMinor = true
      · rw [require_of _ hfit]
        split
        · by_cases hkey : keyTaken dto.idempotencyKey (db.payments.map (·.idempotencyKey)) = true
          · simp only [require, hkey]
            rfl
          · rw [require_of _ hkey]
            rfl
        · rfl
      · simp only [require, if_neg hfit]
        rfl

/-- Drawing stock adds its movements. -/
theorem depleteAtPlacement_eq (db : Db) (r : CreateCall) (o : Order) :
    depleteAtPlacement db r.ctx r.env.now o r.dto = (movementRows db r db o.id).map fun rows =>
      db.withMovements (db.movements ++ rows) := by
  unfold depleteAtPlacement movementRows
  split
  · simp only [Except.map, List.append_nil]
    rfl
  · unfold depleteForOrder
    cases hrows : createMany db.movements
        (depletionRows db r.env.now o.id r.ctx.userId (placementLines db r.dto.items)) with
    | error e => rfl
    | ok movements =>
        obtain ⟨new, -, rfl⟩ := createMany_ok hrows
        simp [Except.map]

/-- The movements are computed from five tables. -/
theorem movementRows_congr {db db' : Db} (r : CreateCall) (orderId : Uuid)
    (hl : placementLines db' r.dto.items = placementLines db r.dto.items)
    (hr : db'.recipeItems = db.recipeItems) (hi : db'.ingredients = db.ingredients)
    (hb : db'.prepBatches = db.prepBatches) (hm : db'.movements = db.movements) :
    movementRows db' r db' orderId = movementRows db r db orderId := by
  unfold movementRows
  rw [depletionRows_congr hr hi hb hm, hm, hl]

/-- The discount's log, the payment and the movements, on top of what came before. -/
theorem lastWrites_eq (db : Db) (r : CreateCall) (p : PricedOrder) (o : Order)
    (redemptions : List CouponRedemption) (spent : List LoyaltyEntry) (logs : List AuditLog)
    {db' : Db} (hdb : db' = (((db.withOrders (db.orders ++ [o])).withCouponRedemptions
      (db.couponRedemptions ++ redemptions)).withLoyaltyLedger
        (db.loyaltyLedger ++ spent)).withAuditLogs (db.auditLogs ++ logs)) :
    (do
      let db₃ ← payAtPlacement (recordDiscount db' r.ctx o r.dto) r.env o r.dto
      let db₄ ← depleteAtPlacement db₃ r.ctx r.env.now o r.dto
      pure (o, db₄.withOrderEvents (db₄.orderEvents ++
        [⟨o.id, .created o.status o.items.length o.totalMinor, r.ctx.userId⟩])) :
        Except ApiError (Order × Db)) = (do
      let paid ← paymentRows db r.env o r.dto
      let moved ← movementRows db r db o.id
      pure (o, (CreateTx.mk db p o redemptions spent (logs ++ discountLogs r.ctx o r.dto) paid
        moved).publish db r.ctx)) := by
  have hlog : recordDiscount db' r.ctx o r.dto
      = db'.withAuditLogs (db.auditLogs ++ (logs ++ discountLogs r.ctx o r.dto)) := by
    subst hdb
    unfold recordDiscount discountLogs
    split
    · rw [← List.append_assoc]
      rfl
    · rw [List.append_nil]
      rfl
  generalize hlogs : db.auditLogs ++ (logs ++ discountLogs r.ctx o r.dto) = logs' at hlog
  -- what the last writes read, the writes before them have left alone
  have hpaid : paymentRows (db'.withAuditLogs logs') r.env o r.dto
      = paymentRows db r.env o r.dto := by
    subst hdb
    rfl
  have hmoved : movementRows db' r db' o.id = movementRows db r db o.id := by
    subst hdb
    exact movementRows_congr r o.id rfl rfl rfl rfl rfl
  have hpayments : db'.payments = db.payments := by
    subst hdb
    rfl
  have hmovements : db'.movements = db.movements := by
    subst hdb
    rfl
  rw [hlog, payAtPlacement_eq, mapped_bind, hpaid]
  refine bind_congr fun paid => ?_
  rw [depleteAtPlacement_eq, mapped_bind]
  have hstage : movementRows ((db'.withAuditLogs logs').withPayments
      ((db'.withAuditLogs logs').payments ++ paid)) r ((db'.withAuditLogs logs').withPayments
      ((db'.withAuditLogs logs').payments ++ paid)) o.id = movementRows db r db o.id := by
    rw [← hmoved]
    exact movementRows_congr r o.id rfl rfl rfl rfl rfl
  rw [hstage]
  refine bind_congr fun moved => ?_
  subst hdb hlogs
  simp only [CreateTx.publish, inserted, Db.withOrders, Db.withCouponRedemptions,
    Db.withLoyaltyLedger, Db.withAuditLogs, Db.withPayments, Db.withMovements,
    Db.withOrderEvents]

/-- The rows of the statements after the order row are those `insert` writes. -/
theorem writes_eq (db : Db) (r : CreateCall) (p : PricedOrder) (o : Order) :
    (do
      let tx ← runAll (write db r) Write.all (.fresh db p o)
      pure (tx.order, tx.publish db r.ctx)) = (do
      let db₁ ← redeemCoupon (db.withOrders (db.orders ++ [o])) o.id p.discount.coupon
      let db₂ ← redeemPointsFor db₁ r.ctx o.id r.dto p.discount
      let db₃ ← payAtPlacement (recordDiscount db₂ r.ctx o r.dto) r.env o r.dto
      let db₄ ← depleteAtPlacement db₃ r.ctx r.env.now o r.dto
      pure (o, db₄.withOrderEvents (db₄.orderEvents ++
        [⟨o.id, .created o.status o.items.length o.totalMinor, r.ctx.userId⟩])) :
        Except ApiError (Order × Db)) := by
  have hcoupon : redeemCoupon (db.withOrders (db.orders ++ [o])) o.id p.discount.coupon
      = (redemptionRows db o.id p.discount.coupon).map fun rows =>
        (db.withOrders (db.orders ++ [o])).withCouponRedemptions
          (db.couponRedemptions ++ rows) := redeemCoupon_eq _ _ _
  rw [hcoupon, mapped_bind]
  simp only [Write.all, runAll, write, CreateTx.fresh, bind_assoc, pure_bind]
  refine bind_congr fun rows => ?_
  rw [redeemPointsFor_eq]
  -- the three statements of a debit ask for the payer each
  cases hp : payer r.dto p.discount with
  | error e => rfl
  | ok customer =>
      cases customer with
      | none =>
          simp only [ok_bind, pure_bind, hp]
          refine (lastWrites_eq db r p o rows [] [] ?_).symm
          rw [List.append_nil, List.append_nil]
          rfl
      | some customerId =>
          simp only [ok_bind, bind_assoc, pure_bind, hp]
          refine bind_congr fun _ => bind_congr fun _ => bind_congr fun e => ?_
          exact (lastWrites_eq db r p o rows [e] _ rfl).symm

/-- An order has as many lines as were priced. -/
theorem withItems_length {o o' : Order} {lines : List NewOrderItem}
    (h : withItems o lines = .ok o') : lines.length = o'.items.length := by
  obtain ⟨items, hitems, h⟩ := bind_ok.mp h
  cases pure_ok.mp h
  show lines.length = items.length
  rw [← storeItems_ok hitems, List.length_map]

/-- **`insert`, statement by statement**, when nothing happens in between. -/
theorem insert_eq (db : Db) (r : CreateCall) :
    insert db r.ctx r.env r.dto = (do
      readMenu db r.dto
      readCustomer db r.dto
      let branchId ← readBranch db
      let p ← price db db r.env.now r.dto branchId
      let o ← orderRow r.env r.dto p (nextOrderNumber db)
      enter db o .id
      enter db o .number
      enter db o .key
      let o ← withItems o p.lines
      let tx ← runAll (write db r) Write.all (.fresh db p o)
      pure (tx.order, tx.publish db r.ctx)) := by
  have hprice : priceOrder db r.env.now r.dto = (do
      readMenu db r.dto
      readCustomer db r.dto
      let branchId ← readBranch db
      price db db r.env.now r.dto branchId) := by
    unfold priceOrder readMenu readCustomer readBranch price
    simp only [bind_assoc, pure_bind]
  unfold insert
  rw [hprice]
  simp only [bind_assoc, insertOrder_eq]
  -- statement by statement the two programs agree, up to the lines
  refine bind_congr fun _ => bind_congr fun _ => bind_congr fun branchId => bind_congr fun p =>
    bind_congr fun o => bind_congr fun _ => bind_congr fun _ => bind_congr fun _ => ?_
  cases hitems : withItems o p.lines with
  | error e => rfl
  | ok o' =>
      simp only [ok_bind]
      rw [writes_eq, withItems_length hitems]

/-! ## §3. The calls, statement by statement. -/

/-- Entries of the unique indexes, and the customer's row. -/
inductive OrderLock where
  | id (id : Uuid)
  | number (orderNumber : ℤ)
  | key (idempotencyKey : String)
  | customer (customerId : Uuid)
  | paymentKey (idempotencyKey : String)
  deriving DecidableEq

/-- The entry of a row in an index; a NULL key has none. -/
def OrderIndex.lock (o : Order) : OrderIndex → Option OrderLock
  | .id => some (.id o.id)
  | .number => some (.number o.orderNumber)
  | .key => o.idempotencyKey.map .key

/-- What a statement waits for.  A redemption and a debit are keyed by their order,
whose own entry the transaction has. -/
def Write.lock (r : CreateCall) (tx : CreateTx) : Write → Option OrderLock
  | .customer => if 0 < tx.priced.discount.redeemPoints then r.dto.customerId.map .customer else none
  | .payment => if r.dto.paymentMethod.isSome then r.dto.idempotencyKey.map .paymentKey else none
  | _ => none

/-- How far a call is; `left` counts the attempts after this one. -/
inductive CreatePhase where
  | asked
  | attempting (left : ℕ)
  | menuRead (left : ℕ) (menu : Db)
  | customerRead (left : ℕ) (menu : Db)
  | branchRead (left : ℕ) (menu : Db) (branchId : Uuid)
  | priced (left : ℕ) (menu : Db) (p : PricedOrder)
  | numbered (left : ℕ) (menu : Db) (p : PricedOrder) (orderNumber : ℤ)
  /-- the order row, and the indexes it is still to enter -/
  | entering (left : ℕ) (tx : CreateTx) (todo : List OrderIndex)
  | writing (left : ℕ) (tx : CreateTx) (todo : List Write)
  | failed (left : ℕ) (e : ApiError)
  | lost (e : ApiError)
  | answered (result : Except ApiError (Order × List Hook))

/-- One turn of a call. -/
abbrev CreateTurn := Turn Db (CreateCall × CreatePhase) OrderLock

/-- The statement waits for its lock, if it needs one. -/
def waiting (k : Option OrderLock) (t : CreateCall × CreatePhase) : CreateTurn :=
  match k with
  | some k => .lock k t
  | none => .go t

/-- Goes on with what a statement returned, or fails. -/
def orFail {α : Type} (left : ℕ) (x : Except ApiError α) (next : α → CreatePhase) : CreatePhase :=
  match x with
  | .ok a => next a
  | .error e => .failed left e

/-- The hook that credits points once the order is committed. -/
def creditHooks (dto : CreateOrderDto) (o : Order) : List Hook :=
  if dto.customerId.isSome && dto.paymentMethod.isSome then [.credit o.id] else []

/-- The `catch` around an attempt. -/
def caught (r : CreateCall) (left : ℕ) : ApiError → CreatePhase
  | .uniqueViolation .orderNumber => .attempting left
  | .uniqueViolation ix =>
      if ix.onIdempotencyKey ∧ (truthy r.dto.idempotencyKey).isSome then
        .lost (.uniqueViolation ix)
      else .answered (.error (.uniqueViolation ix))
  | e => .answered (.error e)

/-- The next statement; which index a row enters next is left to the database. -/
def createTurn (ix : OrderIndex) (db : Db) : CreateCall × CreatePhase → CreateTurn
  | (r, .asked) =>
      match findByIdempotencyKey db r.dto.idempotencyKey with
      | some existing => .rollback (r, .answered (.ok (existing, [])))
      | none => .rollback (r, .attempting 5)
  | (r, .attempting 0) =>
      .rollback (r, .answered (.error (.badRequest "Could not allocate an order number")))
  -- the queries of the menu are taken as one
  | (r, .attempting (left + 1)) =>
      .go (r, orFail left (readMenu db r.dto) fun _ => .menuRead left db)
  | (r, .menuRead left menu) =>
      .go (r, orFail left (readCustomer db r.dto) fun _ => .customerRead left menu)
  | (r, .customerRead left menu) => .go (r, orFail left (readBranch db) (.branchRead left menu))
  | (r, .branchRead left menu branchId) =>
      .go (r, orFail left (price db menu r.env.now r.dto branchId) (.priced left menu))
  | (r, .priced left menu p) => .go (r, .numbered left menu p (nextOrderNumber db))
  | (r, .numbered left menu p orderNumber) =>
      .go (r, orFail left (orderRow r.env r.dto p orderNumber) fun o =>
        .entering left (.fresh menu p o) [.id, .number, .key])
  -- the row waits for whoever has the entry, and looks again then
  | (r, .entering left tx (i :: todo)) =>
      if ix ∈ i :: todo then
        waiting (ix.lock tx.order) (r, orFail left (enter db tx.order ix) fun _ =>
          .entering left tx ((i :: todo).erase ix))
      else .idle
  | (r, .entering left tx []) =>
      .go (r, orFail left (withItems tx.order tx.priced.lines) fun order =>
        .writing left { tx with order } Write.all)
  | (r, .writing left tx (w :: todo)) =>
      waiting (w.lock r tx) (r, orFail left (write db r tx w) fun tx => .writing left tx todo)
  | (r, .writing _ tx []) =>
      .commit (tx.publish db r.ctx) (r, .answered (.ok (tx.order, creditHooks r.dto tx.order)))
  | (r, .failed left e) => .rollback (r, caught r left e)
  | (r, .lost e) =>
      match findByIdempotencyKey db r.dto.idempotencyKey with
      | some existing => .rollback (r, .answered (.ok (existing, [])))
      | none => .rollback (r, .answered (.error e))
  | (_, .answered _) => .idle

/-- Where a call begins: its guards, and whether it looks for its key. -/
def CreateCall.start (r : CreateCall) : CreatePhase :=
  match checkRequest r.ctx r.dto with
  | .error e => .answered (.error e)
  | .ok _ => if (truthy r.dto.idempotencyKey).isSome then .asked else .attempting 5

/-- Any number of calls at once, and what `elsewhere` makes of other requests. -/
def createSession {ε : Type} (elsewhere : Db → ε → Db) :
    Session Db (CreateCall × CreatePhase) CreateCall OrderLock OrderIndex ε where
  start r := (r, r.start)
  turn := createTurn
  env := elsewhere

/-! ## §4. On its own a call is `create`. -/

section Alone

variable {ε : Type} (elsewhere : Db → ε → Db)

/-- Alone, the call gets from one phase to what `out` says. -/
def Reaches (db : Db) (r : CreateCall) (phase : CreatePhase) (out : Db × CreatePhase) : Prop :=
  (createSession elsewhere).Leads db (r, phase) out.1 (r, out.2)

/-- What a call comes to. -/
def settled (db : Db) : Except ApiError (Order × Db × List Hook) → Db × CreatePhase
  | .ok (o, db', hooks) => (db', .answered (.ok (o, hooks)))
  | .error e => (db, .answered (.error e))

/-- What an attempt comes to, and its failures to what `after` says. -/
def attempted (r : CreateCall) (after : ApiError → Db × CreatePhase) :
    Except ApiError (Order × Db) → Db × CreatePhase
  | .ok (o, db') => (db', .answered (.ok (o, creditHooks r.dto o)))
  | .error e => after e

variable {elsewhere} {db : Db} {r : CreateCall} {left : ℕ} {after : ApiError → Db × CreatePhase}

/-- One statement, and the rest of the attempt. -/
theorem reaches_bind {α : Type} {phase : CreatePhase} {x : Except ApiError α}
    {next : α → CreatePhase} {f : α → Except ApiError (Order × Db)} (ix : OrderIndex)
    (k : Option OrderLock)
    (hturn : createTurn ix db (r, phase) = waiting k (r, orFail left x next))
    (hfail : ∀ e, Reaches elsewhere db r (.failed left e) (after e))
    (hnext : ∀ a, x = .ok a → Reaches elsewhere db r (next a) (attempted r after (f a))) :
    Reaches elsewhere db r phase (attempted r after (x >>= f)) := by
  have hgo : Reaches elsewhere db r (orFail left x next) (attempted r after (x >>= f)) := by
    cases hx : x with
    | error e => exact hfail e
    | ok a => exact hnext a hx
  cases k with
  | none => exact .go (o := ix) hturn hgo
  | some k => exact .lock (o := ix) hturn hgo

/-- The writes, one after the other, alone, are those of the serial request. -/
theorem reaches_written (hfail : ∀ e, Reaches elsewhere db r (.failed left e) (after e))
    (todo : List Write) :
    ∀ tx : CreateTx, Reaches elsewhere db r (.writing left tx todo) (attempted r after (do
        let tx ← runAll (write db r) todo tx
        pure (tx.order, tx.publish db r.ctx))) := by
  -- the statements one by one, then the commit
  induction todo with
  | nil => exact fun tx => .commit (o := .id) rfl (.refl _ _)
  | cons w todo ih =>
      intro tx
      show Reaches elsewhere db r _ (attempted r after ((write db r tx w >>= _) >>= _))
      rw [bind_assoc]
      exact reaches_bind .id (w.lock r tx) rfl hfail fun tx' _ => ih tx'

/-- **An attempt on its own is `insert`.** -/
theorem reaches_insert (hfail : ∀ e, Reaches elsewhere db r (.failed left e) (after e)) :
    Reaches elsewhere db r (.attempting (left + 1))
      (attempted r after (insert db r.ctx r.env r.dto)) := by
  rw [insert_eq]
  refine reaches_bind .id none rfl hfail fun _ _ => ?_
  refine reaches_bind .id none rfl hfail fun _ _ => ?_
  refine reaches_bind .id none rfl hfail fun branchId _ => ?_
  refine reaches_bind .id none rfl hfail fun p _ => ?_
  -- the highest number is read, then the row tries its number
  refine .go (o := .id) rfl ?_
  refine reaches_bind .id none rfl hfail fun o _ => ?_
  refine reaches_bind .id (OrderIndex.lock o .id) rfl hfail fun _ _ => ?_
  refine reaches_bind .number (OrderIndex.lock o .number) rfl hfail fun _ _ => ?_
  refine reaches_bind .key (OrderIndex.lock o .key) rfl hfail fun _ _ => ?_
  refine reaches_bind .id none rfl hfail fun o' _ => ?_
  exact reaches_written hfail Write.all _

/-- What `insertAttempts` makes of a failed attempt. -/
def rescued (db : Db) (r : CreateCall) (left : ℕ) :
    ApiError → Except ApiError (Order × Db × List Hook)
  | .uniqueViolation .orderNumber => insertAttempts db r.ctx r.env r.dto left
  | .uniqueViolation ix =>
      match (if ix.onIdempotencyKey then findByIdempotencyKey db r.dto.idempotencyKey
        else none) with
      | some existing => .ok (existing, db, [])
      | none => .error (.uniqueViolation ix)
  | e => .error e

/-- One attempt, and what its failure leads to. -/
theorem insertAttempts_succ (db : Db) (r : CreateCall) (left : ℕ) :
    settled db (insertAttempts db r.ctx r.env r.dto (left + 1))
      = attempted r (fun e => settled db (rescued db r left e))
        (insert db r.ctx r.env r.dto) := by
  unfold insertAttempts
  cases hins : insert db r.ctx r.env r.dto with
  | ok result => rfl
  | error e =>
      cases e with
      | uniqueViolation ix => cases ix <;> rfl
      | _ => rfl

/-- The key that no row has cannot be found. -/
theorem findByIdempotencyKey_falsy {key : Option String} (h : ¬ (truthy key).isSome = true) :
    findByIdempotencyKey db key = none := by
  unfold findByIdempotencyKey
  rw [Option.not_isSome_iff_eq_none.mp h]
  rfl

/-- A lost key leads to the order that has it. -/
theorem reaches_lost (e : ApiError) :
    Reaches elsewhere db r (.lost e) (settled db
      (match findByIdempotencyKey db r.dto.idempotencyKey with
      | some existing => .ok (existing, db, [])
      | none => .error e)) := by
  cases hfind : findByIdempotencyKey db r.dto.idempotencyKey with
  | some existing =>
      have hturn : createTurn .id db (r, .lost e)
          = .rollback (r, .answered (.ok (existing, []))) := by
        simp only [createTurn, hfind]
      exact .rollback (o := .id) hturn (.refl _ _)
  | none =>
      have hturn : createTurn .id db (r, .lost e) = .rollback (r, .answered (.error e)) := by
        simp only [createTurn, hfind]
      exact .rollback (o := .id) hturn (.refl _ _)

/-- An index other than the number's is not tried again. -/
theorem caught_other {ix : UniqueIndex} (h : ix ≠ .orderNumber) :
    caught r left (.uniqueViolation ix)
      = if ix.onIdempotencyKey ∧ (truthy r.dto.idempotencyKey).isSome then
          .lost (.uniqueViolation ix)
        else .answered (.error (.uniqueViolation ix)) := by
  cases ix with
  | orderNumber => exact absurd rfl h
  | _ => rfl

theorem rescued_other {ix : UniqueIndex} (h : ix ≠ .orderNumber) :
    rescued db r left (.uniqueViolation ix)
      = match (if ix.onIdempotencyKey then findByIdempotencyKey db r.dto.idempotencyKey
          else none) with
        | some existing => .ok (existing, db, [])
        | none => .error (.uniqueViolation ix) := by
  cases ix with
  | orderNumber => exact absurd rfl h
  | _ => rfl

/-- A failed attempt, alone, leads to what the serial request makes of it. -/
theorem reaches_failed (ih : Reaches elsewhere db r (.attempting left)
      (settled db (insertAttempts db r.ctx r.env r.dto left))) (e : ApiError) :
    Reaches elsewhere db r (.failed left e) (settled db (rescued db r left e)) := by
  refine .rollback (o := .id) rfl ?_
  cases e with
  | uniqueViolation ix =>
      by_cases hnumber : ix = .orderNumber
      · subst hnumber
        exact ih
      · rw [caught_other hnumber, rescued_other hnumber]
        by_cases hkey : ix.onIdempotencyKey = true
        · by_cases hset : (truthy r.dto.idempotencyKey).isSome = true
          · rw [if_pos ⟨hkey, hset⟩, if_pos hkey]
            exact reaches_lost _
          · rw [if_neg fun h => hset h.2, if_pos hkey, findByIdempotencyKey_falsy hset]
            exact .refl _ _
        · rw [if_neg fun h => hkey h.1, if_neg hkey]
          exact .refl _ _
  | _ => exact .refl _ _

/-- **So are the attempts `insertAttempts`.** -/
theorem reaches_attempts (db : Db) (r : CreateCall) (left : ℕ) :
    Reaches elsewhere db r (.attempting left)
      (settled db (insertAttempts db r.ctx r.env r.dto left)) := by
  induction left with
  | zero => exact .rollback (o := .id) rfl (.refl _ _)
  | succ left ih =>
      rw [insertAttempts_succ]
      exact reaches_insert (reaches_failed ih)

/-- **On its own a call is `create`.** -/
theorem create_alone (db : Db) (r : CreateCall) :
    Reaches elsewhere db r r.start (settled db (create db r.ctx r.env r.dto)) := by
  unfold CreateCall.start create
  cases hcheck : checkRequest r.ctx r.dto with
  | error e => exact .refl _ _
  | ok u =>
      simp only [ok_bind]
      split
      next hset =>
        -- with a key the call looks first whether it has its order
        cases hfind : findByIdempotencyKey db r.dto.idempotencyKey with
        | some existing =>
            have hturn : createTurn .id db (r, .asked)
                = .rollback (r, .answered (.ok (existing, []))) := by
              simp only [createTurn, hfind]
            exact .rollback (o := .id) hturn (.refl _ _)
        | none =>
            have hturn : createTurn .id db (r, .asked) = .rollback (r, .attempting 5) := by
              simp only [createTurn, hfind]
            exact .rollback (o := .id) hturn (reaches_attempts db r 5)
      next hset =>
        rw [findByIdempotencyKey_falsy hset]
        exact reaches_attempts db r 5

end Alone

end OraOS.Orders
