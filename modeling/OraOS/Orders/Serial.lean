/-
  OraOS.Orders.Serial — the API as a machine that serves one request at a time.

  A state is the tenant's database and the loyalty hooks that committed requests
  still have to run.  A request that fails changes nothing, so it is no step.

    * `perform`        — what one request does;
    * `perform_effect` — **the step inversion**: whatever the request, its effect
                         is one of seven, and every invariant is argued over these;
    * `perform_orders` — the orders after it: the same, one more, or one moved;
    * `serial_keeps`   — an order is there for good, and only its status moves.
-/
import OraOS.Orders.Payments
import OraOS.Inventory.Batches
import OraOS.Inventory.StockCounts
import OraOS.Procurement.PurchaseOrders
import OraOS.Lib.Transition

namespace OraOS.Orders

open OraOS.Api
open OraOS.Lib
open OraOS.Inventory
open OraOS.Loyalty

/-! ## §1. Requests that leave the orders alone. -/

/-- The tables that menu and settings screens edit. -/
structure Catalogue where
  products : List Product
  combos : List Combo
  modifierGroups : List ModifierGroup
  branches : List Branch
  customers : List Customer
  coupons : List Coupon
  loyaltySettings : Option LoyaltySettings
  ingredients : List Ingredient
  suppliers : List Uuid

/-- Any edit of the catalogue, as the tables it leaves. -/
def withCatalogue (db : Db) (c : Catalogue) : Db :=
  { db with
    products := c.products
    combos := c.combos
    modifierGroups := c.modifierGroups
    branches := c.branches
    customers := c.customers
    coupons := c.coupons
    loyaltySettings := c.loyaltySettings
    ingredients := c.ingredients
    suppliers := c.suppliers }

/-- The requests of the inventory, prep, stock count and procurement services. -/
inductive StockRequest where
  | catalogue (c : Catalogue)
  | setRecipe (productId : Uuid) (dto : SetRecipeDto)
  | setPrepRecipe (id : Uuid) (dto : SetPrepRecipeDto)
  | createBatch (env : Env) (codes : List String) (id : Uuid) (dto : CreateBatchDto)
  | wasteBatch (batchId : Uuid) (dto : WasteBatchDto)
  | recordMovement (ingredientId : Uuid) (dto : CreateMovementDto)
  | recordAdjustment (ingredientId : Uuid) (dto : CreateAdjustmentDto)
  | startStockCount (env : Env) (codes : List String) (dto : StartStockCountDto)
  | submitStockCount (now : Instant) (id : Uuid) (dto : SubmitStockCountDto)
  | cancelStockCount (id : Uuid)
  | createPurchaseOrder (env : Env) (dto : Procurement.CreatePurchaseOrderDto)
  | movePurchaseOrder (now : Instant) (id : Uuid) (toStatus : PurchaseOrderStatus)

/-- The handler of each stock request. -/
def performStock (db : Db) (ctx : TenantContext) : StockRequest → Except ApiError Db
  | .catalogue c => .ok (withCatalogue db c)
  | .setRecipe productId dto => setRecipe db productId dto
  | .setPrepRecipe id dto => setPrepRecipe db id dto
  | .createBatch env codes id dto => do
      let (_, db) ← createBatch db ctx env codes id dto
      pure db
  | .wasteBatch batchId dto => do
      let (_, db) ← wasteBatch db ctx batchId dto
      pure db
  | .recordMovement ingredientId dto => do
      let (_, db) ← recordMovement db ctx ingredientId dto
      pure db
  | .recordAdjustment ingredientId dto => do
      let (_, db) ← recordAdjustment db ctx ingredientId dto
      pure db
  | .startStockCount env codes dto => do
      let (_, db) ← startStockCount db ctx env codes dto
      pure db
  | .submitStockCount now id dto => submitStockCount db ctx now id dto
  | .cancelStockCount id => cancelStockCount db ctx id
  | .createPurchaseOrder env dto => Procurement.createPurchaseOrder db ctx env dto
  | .movePurchaseOrder now id toStatus => Procurement.transition db ctx now id toStatus

/-- **No stock request writes to an order's rows.** -/
theorem performStock_leavesOrders {db db' : Db} {ctx : TenantContext} {r : StockRequest}
    (h : performStock db ctx r = .ok db') : LeavesOrders db db' := by
  -- request by request, by the frame lemma of its handler
  cases r with
  | catalogue c =>
      cases h
      exact ⟨rfl, rfl, rfl, rfl, rfl, List.prefix_rfl, [], (List.append_nil _).symm,
        List.forall_mem_nil _⟩
  | setRecipe productId dto => exact setRecipe_leavesOrders h
  | setPrepRecipe id dto => exact setPrepRecipe_leavesOrders h
  | createBatch env codes id dto =>
      obtain ⟨_, hok, h⟩ := bind_ok.mp h
      cases pure_ok.mp h
      exact createBatch_leavesOrders hok
  | wasteBatch batchId dto =>
      obtain ⟨_, hok, h⟩ := bind_ok.mp h
      cases pure_ok.mp h
      exact wasteBatch_leavesOrders hok
  | recordMovement ingredientId dto =>
      obtain ⟨_, hok, h⟩ := bind_ok.mp h
      cases pure_ok.mp h
      exact recordMovement_leavesOrders hok
  | recordAdjustment ingredientId dto =>
      obtain ⟨_, hok, h⟩ := bind_ok.mp h
      cases pure_ok.mp h
      exact recordAdjustment_leavesOrders hok
  | startStockCount env codes dto =>
      obtain ⟨_, hok, h⟩ := bind_ok.mp h
      cases pure_ok.mp h
      exact startStockCount_leavesOrders hok
  | submitStockCount now id dto => exact submitStockCount_leavesOrders h
  | cancelStockCount id => exact cancelStockCount_leavesOrders h
  | createPurchaseOrder env dto => exact Procurement.createPurchaseOrder_leavesOrders h
  | movePurchaseOrder now id toStatus => exact Procurement.transition_leavesOrders h

/-! ## §2. The machine. -/

/-- The tables, and the hooks that wait. -/
structure Server where
  db : Db
  /-- The hooks that are still to run. -/
  pending : List Hook

/-- A request of the API, or a hook that gets its turn. -/
inductive Request where
  | create (ctx : TenantContext) (env : Env) (dto : CreateOrderDto)
  | updateStatus (ctx : TenantContext) (now : Instant) (orderId : Uuid)
      (toStatus : OrderStatus) (reason : Option String)
  | recordPayment (ctx : TenantContext) (env : Env) (orderId : Uuid) (dto : RecordPaymentDto)
  | recordRefund (ctx : TenantContext) (env : Env) (orderId : Uuid) (dto : RecordRefundDto)
  | hook (ctx : TenantContext) (h : Hook)
  | stock (ctx : TenantContext) (r : StockRequest)

/-- What a request does; the error is the answer of a request that changes
nothing. -/
def perform (s : Server) : Request → Except ApiError Server
  | .create ctx env dto => do
      let (_, db, hooks) ← create s.db ctx env dto
      pure ⟨db, s.pending ++ hooks⟩
  | .updateStatus ctx now orderId toStatus reason => do
      let db ← updateStatus s.db ctx now orderId toStatus reason
      pure ⟨db, s.pending⟩
  | .recordPayment ctx env orderId dto => do
      let (_, db, hooks) ← recordPayment s.db ctx env orderId dto
      pure ⟨db, s.pending ++ hooks⟩
  | .recordRefund ctx env orderId dto => do
      let (_, db, hooks) ← recordRefund s.db ctx env orderId dto
      pure ⟨db, s.pending ++ hooks⟩
  | .hook ctx h =>
      -- a hook runs once, whenever the process comes to it
      if h ∈ s.pending then .ok ⟨runHook s.db ctx h, s.pending.erase h⟩
      else .error .recordNotFound
  | .stock ctx r => do
      let db ← performStock s.db ctx r
      pure ⟨db, s.pending⟩

/-- Before the first order: any catalogue and any stock, nothing sold. -/
structure Opening (s : Server) : Prop where
  orders : s.db.orders = []
  orderEvents : s.db.orderEvents = []
  payments : s.db.payments = []
  refunds : s.db.refunds = []
  movements : ∀ m ∈ s.db.movements, m.orderId = none
  loyaltyLedger : ∀ e ∈ s.db.loyaltyLedger, e.orderId = none
  pending : s.pending = []

/-- One request after the other. -/
def serial : System Server Request where
  init := Opening
  step s r s' := perform s r = .ok s'

/-! ## §3. What a request does, whichever it is. -/

/-- The effects of the requests that succeed. -/
inductive Effect (s : Server) : Server → Prop where
  /-- a replay, or a button tapped twice -/
  | idle : Effect s s
  | created {ctx : TenantContext} {env : Env} {dto : CreateOrderDto} {o : Order}
      {paid : List Payment} {moved : List StockMovement} {spent : List LoyaltyEntry}
      (redemptions : List CouponRedemption) (logs : List AuditLog) (hooks : List Hook)
      (hcheck : checkRequest ctx dto = .ok ())
      (hins : Inserted s.db ctx env dto o paid moved spent)
      (hhooks : ∀ h ∈ hooks, h = .credit o.id) :
      Effect s ⟨inserted s.db ctx o paid moved spent redemptions (s.db.auditLogs ++ logs),
        s.pending ++ hooks⟩
  | moved {ctx : TenantContext} {now : Instant} {o : Order} {toStatus : OrderStatus}
      (reason : Option String) {moved : List StockMovement} (logs : List AuditLog)
      (ho : s.db.findOrder o.id = some o) (hcan : canTransition o.status toStatus = true)
      (hmoved : MovedOnChange s.db ctx now o toStatus moved) :
      Effect s ⟨statusChanged s.db ctx now o toStatus reason moved (s.db.auditLogs ++ logs),
        s.pending⟩
  | paid {o : Order} {p : Payment} (events : List OrderEvent) (hooks : List Hook)
      (ho : s.db.findOrder o.id = some o) (hlive : isReversed o.status = false)
      (hid : p.orderId = o.id) (hcaptured : p.status = .captured)
      (hle : p.amountMinor ≤ o.totalMinor - capturedOf s.db.payments o.id)
      (hhooks : ∀ h ∈ hooks, h = .credit o.id)
      (hevents : ∀ e ∈ events, ∃ method amount, e.kind = .paymentRecorded method amount) :
      Effect s ⟨(s.db.withPayments (s.db.payments ++ [p])).withOrderEvents
        (s.db.orderEvents ++ events), s.pending ++ hooks⟩
  | refunded {o : Order} {r : Refund} (events : List OrderEvent) (logs : List AuditLog)
      (ho : s.db.findOrder o.id = some o) (hstatus : o.status ∈ refundStatuses)
      (hid : r.orderId = o.id)
      (hle : r.amountMinor ≤ capturedOf s.db.payments o.id - refundedOf s.db.refunds o.id)
      (hevents : ∀ e ∈ events, ∃ method amount reason,
        e.kind = .refundRecorded method amount reason) :
      Effect s ⟨((s.db.withRefunds (s.db.refunds ++ [r])).withOrderEvents
        (s.db.orderEvents ++ events)).withAuditLogs (s.db.auditLogs ++ logs),
        s.pending ++ [.reverse o.id]⟩
  | hooked {ctx : TenantContext} {h : Hook} (hmem : h ∈ s.pending) :
      Effect s ⟨runHook s.db ctx h, s.pending.erase h⟩
  | stocked {db' : Db} (hframe : LeavesOrders s.db db') : Effect s ⟨db', s.pending⟩

/-- **What creating an order does.** -/
theorem create_effect {s : Server} {ctx : TenantContext} {env : Env} {dto : CreateOrderDto}
    {o : Order} {db' : Db} {hooks : List Hook}
    (h : create s.db ctx env dto = .ok (o, db', hooks)) : Effect s ⟨db', s.pending ++ hooks⟩ := by
  obtain ⟨hcheck, ⟨-, rfl, rfl⟩ | ⟨hins, hhooks⟩⟩ := create_ok h
  · rw [List.append_nil]
    exact .idle
  · obtain ⟨paid, moved, spent, redemptions, logs, hi, rfl⟩ := insert_ok hins
    refine .created redemptions logs hooks hcheck hi ?_
    intro k hk
    rw [hhooks] at hk
    split at hk
    · exact List.mem_singleton.mp hk
    · cases hk

/-- **What a change of status does.** -/
theorem updateStatus_effect {s : Server} {ctx : TenantContext} {now : Instant} {orderId : Uuid}
    {toStatus : OrderStatus} {reason : Option String} {db' : Db}
    (h : updateStatus s.db ctx now orderId toStatus reason = .ok db') :
    Effect s ⟨db', s.pending⟩ := by
  obtain ⟨o, ho, ⟨-, rfl⟩ | ⟨hcan, moved, logs, hmoved, rfl⟩⟩ := updateStatus_ok h
  · exact .idle
  · have hid : o.id = orderId := (Db.mem_of_findOrder ho).2
    subst hid
    exact .moved reason logs ho hcan hmoved

/-- **The step inversion.** -/
theorem perform_effect {s s' : Server} {r : Request} (h : perform s r = .ok s') :
    Effect s s' := by
  -- one case for each kind of request; the spec lemma of its service says the rest
  cases r with
  | create ctx env dto =>
      obtain ⟨⟨o, db', hooks⟩, hok, h⟩ := bind_ok.mp h
      cases pure_ok.mp h
      exact create_effect hok
  | updateStatus ctx now orderId toStatus reason =>
      obtain ⟨db', hok, h⟩ := bind_ok.mp h
      cases pure_ok.mp h
      exact updateStatus_effect hok
  | recordPayment ctx env orderId dto =>
      obtain ⟨⟨o, db', hooks⟩, hok, h⟩ := bind_ok.mp h
      cases pure_ok.mp h
      rcases recordPayment_ok hok with ⟨rfl, rfl⟩ |
        ⟨p, ho, hlive, hid, hcaptured, -, hle, hhooks, rfl⟩
      · show Effect s ⟨s.db, s.pending ++ []⟩
        rw [List.append_nil]
        exact .idle
      · have hoid : o.id = orderId := (Db.mem_of_findOrder ho).2
        subst hoid
        refine .paid _ hooks ho hlive hid hcaptured hle hhooks ?_
        intro e he
        rw [List.mem_singleton.mp he]
        exact ⟨_, _, rfl⟩
  | recordRefund ctx env orderId dto =>
      obtain ⟨⟨o, db', hooks⟩, hok, h⟩ := bind_ok.mp h
      cases pure_ok.mp h
      rcases recordRefund_ok hok with ⟨rfl, rfl⟩ |
        ⟨r, logs, ho, hstatus, hid, -, hle, rfl, rfl⟩
      · show Effect s ⟨s.db, s.pending ++ []⟩
        rw [List.append_nil]
        exact .idle
      · have hoid : o.id = orderId := (Db.mem_of_findOrder ho).2
        subst hoid
        refine .refunded _ logs ho hstatus hid hle ?_
        intro e he
        rw [List.mem_singleton.mp he]
        exact ⟨_, _, _, rfl⟩
  | hook ctx k =>
      simp only [perform] at h
      split at h
      next hmem =>
        cases h
        exact .hooked hmem
      next => cases h
  | stock ctx r =>
      obtain ⟨db', hok, h⟩ := bind_ok.mp h
      cases pure_ok.mp h
      exact .stocked (performStock_leavesOrders hok)

/-! ## §4. What every request keeps of the orders. -/

/-- The orders after a request: one more after a creation that wrote, one of them moved
after a status change, and otherwise as they were. -/
inductive OrdersStep (s : Server) : Request → List Order → Prop where
  | kept {r : Request} : OrdersStep s r s.db.orders
  | added {ctx : TenantContext} {env : Env} {dto : CreateOrderDto} {o : Order} {db' : Db}
      (hins : insert s.db ctx env dto = .ok (o, db')) :
      OrdersStep s (.create ctx env dto) (s.db.orders ++ [o])
  | moved {ctx : TenantContext} {now : Instant} {o : Order} {toStatus : OrderStatus}
      {reason : Option String} (placedAt : Option Instant)
      (ho : s.db.findOrder o.id = some o) (hcan : canTransition o.status toStatus = true) :
      OrdersStep s (.updateStatus ctx now o.id toStatus reason)
        (setStatus s.db.orders o.id toStatus placedAt)

/-- What a request does to the orders. -/
theorem perform_orders {s s' : Server} {r : Request} (h : perform s r = .ok s') :
    OrdersStep s r s'.db.orders := by
  cases r with
  | create ctx env dto =>
      obtain ⟨⟨o, db', hooks⟩, hok, h⟩ := bind_ok.mp h
      cases pure_ok.mp h
      obtain ⟨-, ⟨-, rfl, -⟩ | ⟨hins, -⟩⟩ := create_ok hok
      · exact .kept
      · obtain ⟨paid, moved, spent, redemptions, logs, -, rfl⟩ := insert_ok hins
        exact .added hins
  | updateStatus ctx now orderId toStatus reason =>
      obtain ⟨db', hok, h⟩ := bind_ok.mp h
      cases pure_ok.mp h
      obtain ⟨o, ho, ⟨-, rfl⟩ | ⟨hcan, moved, logs, -, rfl⟩⟩ := updateStatus_ok hok
      · exact .kept
      -- a status that was moved; tapped twice, the order is as it was
      · have hid : o.id = orderId := (Db.mem_of_findOrder ho).2
        subst hid
        exact .moved _ ho hcan
  | recordPayment ctx env orderId dto =>
      obtain ⟨⟨o, db', hooks⟩, hok, h⟩ := bind_ok.mp h
      cases pure_ok.mp h
      rcases recordPayment_ok hok with ⟨rfl, -⟩ | ⟨p, -, -, -, -, -, -, -, rfl⟩
      · exact .kept
      · exact .kept
  | recordRefund ctx env orderId dto =>
      obtain ⟨⟨o, db', hooks⟩, hok, h⟩ := bind_ok.mp h
      cases pure_ok.mp h
      rcases recordRefund_ok hok with ⟨rfl, -⟩ | ⟨r, logs, -, -, -, -, -, -, rfl⟩
      · exact .kept
      · exact .kept
  | hook ctx k =>
      simp only [perform] at h
      split at h
      next =>
        cases h
        show OrdersStep s _ (runHook s.db ctx k).orders
        rw [runHook_orders]
        exact .kept
      next => cases h
  | stock ctx r =>
      obtain ⟨db', hok, h⟩ := bind_ok.mp h
      cases pure_ok.mp h
      show OrdersStep s _ db'.orders
      rw [(performStock_leavesOrders hok).orders]
      exact .kept

/-- **What an order's lines and columns say from its creation on**, they say of every order. -/
theorem serial_forall_orders {P : Order → Prop}
    (hinsert : ∀ {db db' : Db} {ctx : TenantContext} {env : Env} {dto : CreateOrderDto} {o : Order},
      insert db ctx env dto = .ok (o, db') → P o)
    (hcolumns : ∀ {x o : Order}, o.items = x.items → o.subtotalMinor = x.subtotalMinor →
      o.taxMinor = x.taxMinor → P x → P o)
    {s : Server} (h : serial.Reachable s) : ∀ o ∈ s.db.orders, P o := by
  refine h.invariant (fun s => ∀ o ∈ s.db.orders, P o) ?_ ?_
  · intro s hopen
    rw [hopen.orders]
    exact List.forall_mem_nil _
  · intro s r s' hs hstep
    have horders := perform_orders hstep
    -- the order is new, or one there was with the same lines
    generalize s'.db.orders = orders at horders ⊢
    cases horders with
    | kept => exact hs
    | added hins =>
        intro o ho
        rcases List.mem_append.mp ho with ho | ho
        · exact hs o ho
        · rw [List.mem_singleton.mp ho]
          exact hinsert hins
    | moved placedAt ho hcan =>
        intro o ho
        rcases mem_setStatus ho with ⟨ho, -⟩ | ⟨x, hx, -, -, -, -, hitems, hsubtotal, -, htax, -⟩
        · exact hs o ho
        · exact hcolumns hitems hsubtotal htax (hs x hx)

/-- No two orders share an id. -/
def UniqueIds (db : Db) : Prop := (db.orders.map (·.id)).Nodup

/-- An order is known by its id. -/
theorem UniqueIds.eq {db : Db} (h : UniqueIds db) {x y : Order} (hx : x ∈ db.orders)
    (hy : y ∈ db.orders) (hid : x.id = y.id) : x = y :=
  List.inj_on_of_nodup_map h hx hy hid

/-- Every request keeps the ids of orders apart. -/
theorem Effect.uniqueIds {s s' : Server} (h : Effect s s') (hs : UniqueIds s.db) :
    UniqueIds s'.db := by
  unfold UniqueIds at hs ⊢
  cases h with
  | idle => exact hs
  | created redemptions logs hooks hcheck hins hhooks =>
      rw [inserted_orders]
      refine nodup_keys_append hs ?_
      rw [hins.id]
      exact hins.fresh
  | moved reason logs ho hcan hmoved =>
      rw [statusChanged_orders, setStatus_ids]
      exact hs
  | paid events hooks ho hlive hid hcaptured hle hhooks hevents => exact hs
  | refunded events logs ho hstatus hid hle hevents => exact hs
  | hooked hmem =>
      rw [runHook_orders]
      exact hs
  | stocked hframe =>
      rw [hframe.orders]
      exact hs

theorem serial_uniqueIds {s : Server} (h : serial.Reachable s) : UniqueIds s.db := by
  refine h.invariant (fun s => UniqueIds s.db) ?_ ?_
  · intro s hopen
    unfold UniqueIds
    rw [hopen.orders]
    exact List.nodup_nil
  · intro s r s' hs hstep
    exact (perform_effect hstep).uniqueIds hs

/-- `o'` is the order `o` at another time: everything but its status and its
`placedAt` is as it was, and a called-off sale stays called off. -/
structure SameOrder (o o' : Order) : Prop where
  id : o'.id = o.id
  customerId : o'.customerId = o.customerId
  items : o'.items = o.items
  subtotal : o'.subtotalMinor = o.subtotalMinor
  discount : o'.discountMinor = o.discountMinor
  tax : o'.taxMinor = o.taxMinor
  total : o'.totalMinor = o.totalMinor
  reversed : isReversed o.status = true → o'.status = o.status

theorem SameOrder.refl (o : Order) : SameOrder o o :=
  ⟨rfl, rfl, rfl, rfl, rfl, rfl, rfl, fun _ => rfl⟩

theorem SameOrder.trans {o o' o'' : Order} (h : SameOrder o o') (h' : SameOrder o' o'') :
    SameOrder o o'' := by
  refine ⟨h'.id.trans h.id, h'.customerId.trans h.customerId, h'.items.trans h.items,
    h'.subtotal.trans h.subtotal, h'.discount.trans h.discount, h'.tax.trans h.tax,
    h'.total.trans h.total, ?_⟩
  intro hrev
  have hmid := h.reversed hrev
  rw [h'.reversed (hmid ▸ hrev), hmid]

/-- An order outlives a status change, its own included. -/
theorem setStatus_keeps {db : Db} (hs : UniqueIds db) {o x : Order} {toStatus : OrderStatus}
    (placedAt : Option Instant) (ho : db.findOrder o.id = some o)
    (hcan : canTransition o.status toStatus = true) (hx : x ∈ db.orders) :
    ∃ x' ∈ setStatus db.orders o.id toStatus placedAt, SameOrder x x' := by
  have hmem := List.mem_map_of_mem (f := fun o' : Order => if o'.id = o.id then
    { o' with status := toStatus, placedAt := placedAt.orElse fun _ => o'.placedAt } else o') hx
  refine ⟨_, hmem, ?_⟩
  by_cases hid : x.id = o.id
  · have hxo : x = o := hs.eq hx (Db.mem_of_findOrder ho).1 hid
    subst hxo
    rw [if_pos rfl]
    refine ⟨rfl, rfl, rfl, rfl, rfl, rfl, rfl, ?_⟩
    intro hrev
    rw [canTransition_of_reversed hrev] at hcan
    cases hcan
  · rw [if_neg hid]
    exact .refl x

/-- **Every request keeps every order**, but for its status. -/
theorem Effect.keeps {s s' : Server} (h : Effect s s') (hs : UniqueIds s.db) {x : Order}
    (hx : x ∈ s.db.orders) : ∃ x' ∈ s'.db.orders, SameOrder x x' := by
  cases h with
  | idle => exact ⟨x, hx, .refl x⟩
  | created redemptions logs hooks hcheck hins hhooks =>
      exact ⟨x, List.mem_append_left _ hx, .refl x⟩
  | moved reason logs ho hcan hmoved => exact setStatus_keeps hs _ ho hcan hx
  | paid events hooks ho hlive hid hcaptured hle hhooks hevents => exact ⟨x, hx, .refl x⟩
  | refunded events logs ho hstatus hid hle hevents => exact ⟨x, hx, .refl x⟩
  | hooked hmem =>
      rw [runHook_orders]
      exact ⟨x, hx, .refl x⟩
  | stocked hframe =>
      rw [hframe.orders]
      exact ⟨x, hx, .refl x⟩

/-- An order of a reachable state is there in every later one. -/
theorem serial_keeps {s s' : Server} {rs : List Request} (h : serial.Reachable s)
    (hrun : serial.Run s rs s') {x : Order} (hx : x ∈ s.db.orders) :
    ∃ x' ∈ s'.db.orders, SameOrder x x' := by
  refine (hrun.preserves (fun t => UniqueIds t.db ∧ ∃ x' ∈ t.db.orders, SameOrder x x') ?_
    ⟨serial_uniqueIds h, x, hx, .refl x⟩).2
  rintro t r t' ⟨hids, x', hx', hsame⟩ hstep
  have heffect := perform_effect hstep
  obtain ⟨x'', hx'', hsame'⟩ := heffect.keeps hids hx'
  exact ⟨heffect.uniqueIds hids, x'', hx'', hsame.trans hsame'⟩

/-! ## §5. Executable runs. -/

/-- A request served, if it succeeds. -/
def serve (s : Server) (r : Request) : Option Server := (perform s r).toOption

theorem serve_step {s s' : Server} {r : Request} (h : serve s r = some s') :
    serial.step s r s' := by
  show perform s r = .ok s'
  unfold serve at h
  cases hp : perform s r with
  | error e =>
      rw [hp] at h
      cases h
  | ok t =>
      rw [hp] at h
      cases h
      rfl

/-- The state after a list of requests that all succeed. -/
def after (rs : List Request) (s : Server) : Server := (System.replay serve rs s).getD s

/-- Requests that all succeed leave `after`. -/
theorem replay_after {rs : List Request} {s : Server}
    (h : (System.replay serve rs s).isSome = true) :
    System.replay serve rs s = some (after rs s) := by
  obtain ⟨t, ht⟩ := Option.isSome_iff_exists.mp h
  unfold after
  rw [ht]
  rfl

theorem after_run {rs : List Request} {s : Server}
    (h : (System.replay serve rs s).isSome = true) : serial.Run s rs (after rs s) :=
  System.replay_run (fun _ _ _ => serve_step) rs s _ (replay_after h)

theorem after_reachable {rs : List Request} {s : Server} (h0 : Opening s)
    (h : (System.replay serve rs s).isSome = true) : serial.Reachable (after rs s) :=
  (System.Reachable.init h0).run (after_run h)

/-- The small menu, open for business. -/
def openBar : Server := ⟨lassiBar, []⟩

theorem openBar_opening : Opening openBar :=
  ⟨rfl, rfl, rfl, rfl, List.forall_mem_nil _, List.forall_mem_nil _, rfl⟩

/-- A lassi sold outright. -/
def placedLassi : List Request := [.create cashier ⟨20, 0⟩ (lassiOrder none none none)]

/-- About half of its price back. -/
def partRefund : RecordRefundDto := ⟨.cash, 500, "Spilt", none, by decide⟩

end OraOS.Orders
