/-
  OraOS.Orders.Lifecycle — `OrdersService.updateStatus`: the whitelist, the
  stock a resume takes and the stock a reversal returns.

    * `updateStatus_ok`     — everything a successful status change wrote;
    * `updateStatus_resume` — a resume is refused only when the ledger refuses
                              its rows.
-/
import OraOS.Orders.Create

namespace OraOS.Orders

open OraOS.Api
open OraOS.Lib
open OraOS.Inventory

/-- Resuming a held order is the moment of its sale. -/
def resuming (fromStatus toStatus : OrderStatus) : Bool :=
  decide (fromStatus = .draft) && decide (toStatus = .placed)

/-- `db.order.update({ where: { id }, data: { status, placedAt? } })`. -/
def setStatus (orders : List Order) (orderId : Uuid) (toStatus : OrderStatus)
    (placedAt : Option Instant) : List Order :=
  orders.map fun o =>
    if o.id = orderId then
      { o with status := toStatus, placedAt := placedAt.orElse fun _ => o.placedAt }
    else o

/-- The stock step of a resume. -/
def depleteOnResume (db : Db) (ctx : TenantContext) (now : Instant) (o : Order)
    (toStatus : OrderStatus) : Except ApiError Db :=
  if resuming o.status toStatus then depleteForOrder db ctx now o.id (resumeLines o.items)
  else .ok db

/-- The audit entry of a void. -/
def recordVoid (db : Db) (ctx : TenantContext) (o : Order) (toStatus : OrderStatus)
    (reason : Option String) : Db :=
  if toStatus ∈ voidStatuses then db.record ctx o.id (.orderVoided o.orderNumber reason)
  else db

/-- The stock step of a reversal. -/
def restockOnReversal (db : Db) (ctx : TenantContext) (orderId : Uuid)
    (toStatus : OrderStatus) : Except ApiError Db :=
  if toStatus ∈ reversingStatuses then restockForReversedOrder db ctx orderId toStatus
  else .ok db

/-- `OrdersService.updateStatus`, with the permission the controller asks for. -/
def updateStatus (db : Db) (ctx : TenantContext) (now : Instant) (orderId : Uuid)
    (toStatus : OrderStatus) (reason : Option String) : Except ApiError Db := do
  require (toStatus ∈ voidStatuses → .orderVoid ∈ ctx.permissions)
    (.forbidden "Missing permission: order.void")
  let o ← found (db.findOrder orderId) (.notFound "Order not found")
  -- a double-tapped button is not an error
  if o.status = toStatus then pure db
  else do
    require (canTransition o.status toStatus = true) (.conflict ("Cannot move an order from "
      ++ statusName o.status ++ " to " ++ statusName toStatus))
    let db := db.withOrders (setStatus db.orders orderId toStatus
      (if resuming o.status toStatus then some now else none))
    -- resuming a held order is the moment of sale
    let db ← depleteOnResume db ctx now o toStatus
    let db := db.withOrderEvents (db.orderEvents ++
      [⟨orderId, .statusChanged o.status toStatus (truthy reason), ctx.userId⟩])
    let db := recordVoid db ctx o toStatus reason
    -- both ways of calling a sale off return what it took
    restockOnReversal db ctx orderId toStatus

/-! ## What a successful status change wrote. -/

/-- A void leaves an audit row. -/
theorem recordVoid_logs (db : Db) (ctx : TenantContext) (o : Order) (toStatus : OrderStatus)
    (reason : Option String) :
    ∃ logs, recordVoid db ctx o toStatus reason = db.withAuditLogs (db.auditLogs ++ logs) := by
  unfold recordVoid
  split
  · exact ⟨_, rfl⟩
  · exact ⟨[], by rw [List.append_nil]; rfl⟩

/-- The movements of a status change: a resume depletes the stored product lines,
a reversal returns what the order's rows say was consumed. -/
def MovedOnChange (db : Db) (ctx : TenantContext) (now : Instant) (o : Order)
    (toStatus : OrderStatus) (moved : List StockMovement) : Prop :=
  moved.map (·.toNewMovement) =
    if resuming o.status toStatus then
      depletionRows db now o.id ctx.userId (resumeLines o.items)
    else if toStatus ∈ reversingStatuses then
      restockRows db.movements o.id ctx.userId toStatus
    else []

/-- The database after a status change. -/
@[simps] def statusChanged (db : Db) (ctx : TenantContext) (now : Instant) (o : Order)
    (toStatus : OrderStatus) (reason : Option String) (moved : List StockMovement)
    (logs : List AuditLog) : Db :=
  { db with
    orders := setStatus db.orders o.id toStatus
      (if resuming o.status toStatus then some now else none)
    movements := db.movements ++ moved
    orderEvents := db.orderEvents ++
      [⟨o.id, .statusChanged o.status toStatus (truthy reason), ctx.userId⟩]
    auditLogs := logs }

/-- Placing a held order reverses nothing. -/
theorem not_reversing_of_resuming {s t : OrderStatus} (h : resuming s t = true) :
    t ∉ reversingStatuses := by
  simp only [resuming, Bool.and_eq_true, decide_eq_true_eq] at h
  rw [h.2]
  decide

/-- **What a successful `updateStatus` does**: nothing when the order is there
already, and otherwise one legal move with its stock. -/
theorem updateStatus_ok {db db' : Db} {ctx : TenantContext} {now : Instant} {orderId : Uuid}
    {toStatus : OrderStatus} {reason : Option String}
    (h : updateStatus db ctx now orderId toStatus reason = .ok db') :
    ∃ o, db.findOrder orderId = some o ∧ ((o.status = toStatus ∧ db' = db)
      ∨ (canTransition o.status toStatus = true ∧ ∃ moved logs,
          MovedOnChange db ctx now o toStatus moved
            ∧ db' = statusChanged db ctx now o toStatus reason moved (db.auditLogs ++ logs))) := by
  simp only [updateStatus, bind_ok, found_ok] at h
  obtain ⟨-, -, o, ho, h⟩ := h
  have hid : o.id = orderId := (Db.mem_of_findOrder ho).2
  subst hid
  refine ⟨o, ho, ?_⟩
  split at h
  next heq => exact .inl ⟨heq, (pure_ok.mp h).symm⟩
  next =>
    obtain ⟨_, hcan, h⟩ := bind_ok.mp h
    obtain ⟨db₁, h1, h⟩ := bind_ok.mp h
    refine .inr ⟨require_ok.mp hcan, ?_⟩
    unfold MovedOnChange statusChanged
    unfold depleteOnResume at h1
    unfold restockOnReversal at h
    by_cases hres : resuming o.status toStatus = true
    · -- a resume: the depletion, and nothing to return
      rw [if_pos hres] at h1
      rw [if_neg (not_reversing_of_resuming hres)] at h
      obtain ⟨new, hnew, rfl⟩ := depleteForOrder_ok h1
      obtain ⟨logs, hlogs⟩ := recordVoid_logs _ ctx o toStatus reason
      rw [hlogs] at h
      cases h
      refine ⟨new, logs, ?_, ?_⟩
      · rw [if_pos hres, hnew]
        refine depletionRows_congr ?_ ?_ ?_ ?_ _ _ _ _ <;> rfl
      · simp only [if_pos hres, Db.withOrders, Db.withMovements, Db.withOrderEvents,
          Db.withAuditLogs]
    · -- any other move: at most the return of the stock
      rw [if_neg hres] at h1
      cases h1
      obtain ⟨logs, hlogs⟩ := recordVoid_logs _ ctx o toStatus reason
      rw [hlogs] at h
      by_cases hrev : toStatus ∈ reversingStatuses
      · rw [if_pos hrev] at h
        obtain ⟨new, hnew, rfl⟩ := restockForReversedOrder_ok h
        refine ⟨new, logs, ?_, ?_⟩
        · rw [if_neg hres, if_pos hrev]
          exact hnew
        · simp only [Db.withOrders, Db.withMovements, Db.withOrderEvents, Db.withAuditLogs]
      · rw [if_neg hrev] at h
        cases h
        refine ⟨[], logs, ?_, ?_⟩
        · rw [if_neg hres, if_neg hrev]
          rfl
        · simp only [List.append_nil, Db.withOrders, Db.withOrderEvents, Db.withAuditLogs]

/-- A resume whose rows the ledger takes is never refused. -/
theorem updateStatus_resume {db : Db} (ctx : TenantContext) (now : Instant) {o : Order}
    (reason : Option String) (ho : db.findOrder o.id = some o) (hdraft : o.status = .draft)
    (hs : ∀ m ∈ depletionRows db now o.id ctx.userId (resumeLines o.items), m.Storable) :
    ∃ db', updateStatus db ctx now o.id .placed reason = .ok db' := by
  set db₁ := db.withOrders (setStatus db.orders o.id .placed (some now)) with hdb₁
  have hrows : depletionRows db₁ now o.id ctx.userId (resumeLines o.items)
      = depletionRows db now o.id ctx.userId (resumeLines o.items) := by
    refine depletionRows_congr ?_ ?_ ?_ ?_ _ _ _ _ <;> rfl
  have hall : ∀ m ∈ depletionRows db now o.id ctx.userId (resumeLines o.items),
      m.Storable ∧ m.idempotencyKey = none := by
    intro m hm
    obtain ⟨i, b, q, hrow⟩ := rowsOfEntries_tagged m hm
    exact ⟨hs m hm, hrow ▸ rfl⟩
  -- depletion rows carry no key, so the unique index refuses none of them
  obtain ⟨new, -, hmany⟩ := createMany_stored (l := db.movements) hall
  have hdeplete : depleteForOrder db₁ ctx now o.id (resumeLines o.items)
      = .ok (db₁.withMovements (db.movements ++ new)) := by
    unfold depleteForOrder
    rw [hrows]
    exact bind_ok.mpr ⟨_, hmany, rfl⟩
  have hne : ¬ o.status = .placed := by
    rw [hdraft]
    decide
  have hcan : canTransition o.status .placed = true := by
    rw [hdraft]
    rfl
  have hvoid : OrderStatus.placed ∈ voidStatuses → Permission.orderVoid ∈ ctx.permissions :=
    fun h => absurd h (by decide)
  have hres : resuming o.status .placed = true := by
    rw [hdraft]
    rfl
  simp only [updateStatus, require_of _ hvoid, found_ok.mpr ho, ok_bind, if_neg hne,
    require_of _ hcan, depleteOnResume, if_pos hres, ← hdb₁, hdeplete]
  exact ⟨_, rfl⟩

/-! ## Orders under a status change. -/

theorem mem_setStatus {orders : List Order} {orderId : Uuid} {toStatus : OrderStatus}
    {placedAt : Option Instant} {o : Order}
    (h : o ∈ setStatus orders orderId toStatus placedAt) :
    (o ∈ orders ∧ o.id ≠ orderId) ∨ ∃ x ∈ orders, x.id = orderId ∧ o.id = orderId
      ∧ o.status = toStatus ∧ o.customerId = x.customerId ∧ o.items = x.items
      ∧ o.subtotalMinor = x.subtotalMinor ∧ o.discountMinor = x.discountMinor
      ∧ o.taxMinor = x.taxMinor ∧ o.totalMinor = x.totalMinor := by
  obtain ⟨x, hx, rfl⟩ := List.mem_map.mp h
  by_cases hid : x.id = orderId
  · rw [if_pos hid]
    exact .inr ⟨x, hx, hid, hid, rfl, rfl, rfl, rfl, rfl, rfl, rfl⟩
  · rw [if_neg hid]
    exact .inl ⟨hx, hid⟩

/-- A status change keeps every order's id. -/
theorem setStatus_ids (orders : List Order) (orderId : Uuid) (toStatus : OrderStatus)
    (placedAt : Option Instant) :
    (setStatus orders orderId toStatus placedAt).map (·.id) = orders.map (·.id) := by
  unfold setStatus
  rw [List.map_map]
  refine List.map_congr_left fun o _ => ?_
  show (if o.id = orderId then _ else o : Order).id = o.id
  split <;> rfl

end OraOS.Orders
