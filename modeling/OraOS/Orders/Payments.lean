/-
  OraOS.Orders.Payments — `recordPayment` and `recordRefund`, with the loyalty
  hooks that run after them.

    * `recordPayment_ok`, `recordRefund_ok` — everything a success wrote.
-/
import OraOS.Orders.Lifecycle

namespace OraOS.Orders

open OraOS.Api
open OraOS.Lib
open OraOS.Inventory
open OraOS.Loyalty

/-! ## §1. Sums over the money rows. -/

/-- `SUM(amount)` of the captured payments of an order. -/
def capturedOf (payments : List Payment) (orderId : Uuid) : ℤ :=
  sumWhere (fun p => decide (p.orderId = orderId) && decide (p.status = .captured))
    (·.amountMinor) payments

/-- `SUM(amount)` of the refunds of an order. -/
def refundedOf (refunds : List Refund) (orderId : Uuid) : ℤ :=
  sumWhere (fun r => decide (r.orderId = orderId)) (·.amountMinor) refunds

/-- What was captured is never negative. -/
theorem capturedOf_nonneg (payments : List Payment) (orderId : Uuid) :
    0 ≤ capturedOf payments orderId :=
  sumWhere_nonneg fun p _ _ => p.amount_pos.le

theorem refundedOf_nonneg (refunds : List Refund) (orderId : Uuid) :
    0 ≤ refundedOf refunds orderId :=
  sumWhere_nonneg fun r _ _ => r.amount_pos.le

/-! ## §2. Payments. -/

/-- A payment as it is sent. -/
structure RecordPaymentDto where
  method : PaymentMethod
  amountMinor : ℤ
  reference : Option String
  idempotencyKey : Option String
  amount_ok : 1 ≤ amountMinor ∧ amountMinor ≤ 100000000

/-- The order a replayed payment key answers with. -/
def replayPayment (db : Db) (key : Option String) : Option (Except ApiError Order) :=
  ((truthy key).bind fun k => db.payments.find? fun p => p.idempotencyKey = some k).map
    fun p => found (db.findOrder p.orderId) .recordNotFound

/-- The transaction of `recordPayment`; the `Bool` says whether the leg settled a
customer's order. -/
def paymentTx (db : Db) (ctx : TenantContext) (env : Env) (orderId : Uuid)
    (dto : RecordPaymentDto) : Except ApiError (Order × Db × Bool) := do
  let o ← found (db.findOrder orderId) (.notFound "Order not found")
  require (o.status ≠ .voided ∧ o.status ≠ .cancelled)
    (.conflict "Cannot record a payment on a reversed order")
  -- refunds do not reopen the balance
  let outstanding := o.totalMinor - capturedOf db.payments orderId
  require (dto.amountMinor ≤ outstanding)
    (.badRequest ("Payment exceeds the outstanding balance (" ++ toString outstanding
      ++ " paise left)"))
  let db ← insertPayment db env orderId dto.method dto.amountMinor dto.reference
    dto.idempotencyKey
  pure (o, db.withOrderEvents (db.orderEvents ++
      [⟨orderId, .paymentRecorded dto.method dto.amountMinor, ctx.userId⟩]),
    o.customerId.isSome && decide (dto.amountMinor = outstanding))

/-- `OrdersService.recordPayment`.  Losing the race for the key is answered by the
same replay, which one request at a time has already made. -/
def recordPayment (db : Db) (ctx : TenantContext) (env : Env) (orderId : Uuid)
    (dto : RecordPaymentDto) : Except ApiError (Order × Db × List Hook) :=
  match replayPayment db dto.idempotencyKey with
  | some existing => existing.map fun o => (o, db, [])
  | none => do
      let (o, db, settled) ← paymentTx db ctx env orderId dto
      pure (o, db, if settled then [.credit orderId] else [])

/-- **What a successful `recordPayment` does**: it replays, or it adds one
captured payment within what is outstanding on an order that is not reversed. -/
theorem recordPayment_ok {db db' : Db} {ctx : TenantContext} {env : Env} {orderId : Uuid}
    {dto : RecordPaymentDto} {o : Order} {hooks : List Hook}
    (h : recordPayment db ctx env orderId dto = .ok (o, db', hooks)) :
    (db' = db ∧ hooks = []) ∨ ∃ p : Payment, db.findOrder orderId = some o
      ∧ isReversed o.status = false ∧ p.orderId = orderId ∧ p.status = .captured
      ∧ p.amountMinor = dto.amountMinor
      ∧ p.amountMinor ≤ o.totalMinor - capturedOf db.payments orderId
      ∧ (∀ k ∈ hooks, k = .credit orderId)
      ∧ db' = (db.withPayments (db.payments ++ [p])).withOrderEvents (db.orderEvents ++
          [⟨orderId, .paymentRecorded dto.method dto.amountMinor, ctx.userId⟩]) := by
  unfold recordPayment at h
  split at h
  next existing _ =>
    -- the key is known: a replay, or a conflict
    cases existing with
    | error e => cases h
    | ok o' =>
        cases h
        exact .inl ⟨rfl, rfl⟩
  next =>
    obtain ⟨⟨o', db₁, settled⟩, htx, h⟩ := bind_ok.mp h
    cases pure_ok.mp h
    simp only [paymentTx, bind_ok, found_ok, require_ok] at htx
    obtain ⟨_, ho, -, hstatus, -, hle, db₂, hins, htx⟩ := htx
    cases pure_ok.mp htx
    obtain ⟨p, hid, hcap, hamount, rfl⟩ := insertPayment_ok hins
    refine .inr ⟨p, ho, ?_, hid, hcap, hamount, by rw [hamount]; exact hle, ?_, rfl⟩
    · cases hrev : isReversed o.status with
      | false => rfl
      | true =>
          rcases isReversed_iff.mp hrev with hv | hc
          · exact absurd hv hstatus.1
          · exact absurd hc hstatus.2
    · intro k hk
      split at hk
      · exact List.mem_singleton.mp hk
      · cases hk

/-! ## §3. Refunds. -/

/-- A refund as it is sent. -/
structure RecordRefundDto where
  method : PaymentMethod
  amountMinor : ℤ
  reason : String
  idempotencyKey : Option String
  amount_ok : 1 ≤ amountMinor ∧ amountMinor ≤ 100000000

/-- Where a refund may be recorded: the order is finished or reversed. -/
def refundStatuses : List OrderStatus := [.completed, .voided, .cancelled]

/-- The order a replayed refund key answers with. -/
def replayRefund (db : Db) (key : Option String) : Option (Except ApiError Order) :=
  ((truthy key).bind fun k => db.refunds.find? fun r => r.idempotencyKey = some k).map
    fun r => found (db.findOrder r.orderId) .recordNotFound

/-- `db.refund.create`; the DTO's bounds keep the amount positive and in range. -/
def insertRefund (db : Db) (ctx : TenantContext) (env : Env) (orderId : Uuid)
    (dto : RecordRefundDto) : Except ApiError Db := do
  require (¬ keyTaken dto.idempotencyKey (db.refunds.map (·.idempotencyKey)))
    (.uniqueViolation .refundIdempotencyKey)
  pure (db.withRefunds (db.refunds ++
    [{ orderId, method := dto.method, amountMinor := dto.amountMinor, reason := dto.reason,
       actorUserId := some ctx.userId, idempotencyKey := dto.idempotencyKey,
       createdAt := env.now, amount_pos := by have := dto.amount_ok.1; omega }]))

/-- The transaction of `recordRefund`. -/
def refundTx (db : Db) (ctx : TenantContext) (env : Env) (orderId : Uuid)
    (dto : RecordRefundDto) : Except ApiError (Order × Db) := do
  let o ← found (db.findOrder orderId) (.notFound "Order not found")
  require (o.status ∈ refundStatuses) (.conflict
    "Refunds apply to completed or reversed orders — void or complete it first")
  -- two aggregates, no lock
  let refundable := capturedOf db.payments orderId - refundedOf db.refunds orderId
  require (dto.amountMinor ≤ refundable)
    (.badRequest ("Refund exceeds captured payments (" ++ toString refundable
      ++ " paise refundable)"))
  let db ← insertRefund db ctx env orderId dto
  let db := db.withOrderEvents (db.orderEvents ++
    [⟨orderId, .refundRecorded dto.method dto.amountMinor dto.reason, ctx.userId⟩])
  pure (o, db.record ctx orderId
    (.orderRefunded o.orderNumber dto.method dto.amountMinor dto.reason))

/-- `OrdersService.recordRefund`: every refund is followed by the loyalty
reversal. -/
def recordRefund (db : Db) (ctx : TenantContext) (env : Env) (orderId : Uuid)
    (dto : RecordRefundDto) : Except ApiError (Order × Db × List Hook) :=
  match replayRefund db dto.idempotencyKey with
  | some existing => existing.map fun o => (o, db, [])
  | none => do
      let (o, db) ← refundTx db ctx env orderId dto
      pure (o, db, [.reverse orderId])

/-- **What a successful `recordRefund` does**: it replays, or it adds one refund
within what is refundable on a finished or reversed order. -/
theorem recordRefund_ok {db db' : Db} {ctx : TenantContext} {env : Env} {orderId : Uuid}
    {dto : RecordRefundDto} {o : Order} {hooks : List Hook}
    (h : recordRefund db ctx env orderId dto = .ok (o, db', hooks)) :
    (db' = db ∧ hooks = []) ∨ ∃ (r : Refund) (logs : List AuditLog),
      db.findOrder orderId = some o ∧ o.status ∈ refundStatuses ∧ r.orderId = orderId
      ∧ r.amountMinor = dto.amountMinor
      ∧ r.amountMinor ≤ capturedOf db.payments orderId - refundedOf db.refunds orderId
      ∧ hooks = [.reverse orderId]
      ∧ db' = ((db.withRefunds (db.refunds ++ [r])).withOrderEvents (db.orderEvents ++
          [⟨orderId, .refundRecorded dto.method dto.amountMinor dto.reason,
            ctx.userId⟩])).withAuditLogs (db.auditLogs ++ logs) := by
  unfold recordRefund at h
  split at h
  next existing _ =>
    cases existing with
    | error e => cases h
    | ok o' =>
        cases h
        exact .inl ⟨rfl, rfl⟩
  next =>
    obtain ⟨⟨o', db₁⟩, htx, h⟩ := bind_ok.mp h
    cases pure_ok.mp h
    simp only [refundTx, bind_ok, found_ok, require_ok] at htx
    obtain ⟨_, ho, -, hstatus, -, hle, db₂, hins, htx⟩ := htx
    cases pure_ok.mp htx
    obtain ⟨-, -, hins⟩ := bind_ok.mp hins
    cases pure_ok.mp hins
    exact .inr ⟨_, _, ho, hstatus, rfl, rfl, hle, rfl, rfl⟩

/-! ## §4. The loyalty hooks. -/

/-- `creditLoyalty`: a failure is logged, never raised. -/
def creditLoyalty (db : Db) (ctx : TenantContext) (orderId : Uuid) : Db :=
  match earnForOrder db ctx orderId with
  | .ok db' => db'
  | .error _ => db

/-- `reverseLoyalty`: the earn reversal, then the restore of redeemed points,
neither stopping the other. -/
def reverseLoyalty (db : Db) (ctx : TenantContext) (orderId : Uuid) : Db :=
  let db := match reverseForOrder db ctx orderId with
    | .ok db' => db'
    | .error _ => db
  match restoreRedeemedForOrder db ctx orderId with
  | .ok db' => db'
  | .error _ => db

/-- What runs after a commit. -/
def runHook (db : Db) (ctx : TenantContext) : Hook → Db
  | .credit orderId => creditLoyalty db ctx orderId
  | .reverse orderId => reverseLoyalty db ctx orderId

/-- **A hook writes to the loyalty ledger only.** -/
theorem runHook_loyaltyOnly (db : Db) (ctx : TenantContext) (h : Hook) :
    ∃ ledger, LoyaltyOnly db (runHook db ctx h) ledger := by
  cases h with
  | credit orderId =>
      show ∃ ledger, LoyaltyOnly db (creditLoyalty db ctx orderId) ledger
      unfold creditLoyalty
      split
      next db' hok =>
        rcases earnForOrder_ok hok with rfl | ⟨_, _, -, -, -, -, -, hdb⟩
        · exact ⟨_, .refl _⟩
        · exact ⟨_, hdb⟩
      next => exact ⟨_, .refl _⟩
  | reverse orderId =>
      -- the two undo steps, each of which may fail on its own
      have hrestore : ∀ db₁ l, LoyaltyOnly db db₁ l →
          ∃ ledger, LoyaltyOnly db (match restoreRedeemedForOrder db₁ ctx orderId with
            | .ok db' => db' | .error _ => db₁) ledger := by
        intro db₁ l hl
        split
        next db' hok =>
          obtain ⟨l', hl'⟩ := restoreRedeemedForOrder_loyaltyOnly hok
          exact ⟨l', hl.trans hl'⟩
        next => exact ⟨l, hl⟩
      show ∃ ledger, LoyaltyOnly db (reverseLoyalty db ctx orderId) ledger
      unfold reverseLoyalty
      cases hok : reverseForOrder db ctx orderId with
      | error e => exact hrestore db _ (.refl db)
      | ok db₁ =>
          obtain ⟨l, hl⟩ := reverseForOrder_loyaltyOnly hok
          exact hrestore db₁ l hl

section runHook

variable (db : Db) (ctx : TenantContext) (h : Hook)

@[simp] theorem runHook_orders : (runHook db ctx h).orders = db.orders := by
  obtain ⟨l, logs, heq⟩ := runHook_loyaltyOnly db ctx h
  rw [heq]
  rfl

@[simp] theorem runHook_orderEvents : (runHook db ctx h).orderEvents = db.orderEvents := by
  obtain ⟨l, logs, heq⟩ := runHook_loyaltyOnly db ctx h
  rw [heq]
  rfl

@[simp] theorem runHook_payments : (runHook db ctx h).payments = db.payments := by
  obtain ⟨l, logs, heq⟩ := runHook_loyaltyOnly db ctx h
  rw [heq]
  rfl

@[simp] theorem runHook_refunds : (runHook db ctx h).refunds = db.refunds := by
  obtain ⟨l, logs, heq⟩ := runHook_loyaltyOnly db ctx h
  rw [heq]
  rfl

@[simp] theorem runHook_movements : (runHook db ctx h).movements = db.movements := by
  obtain ⟨l, logs, heq⟩ := runHook_loyaltyOnly db ctx h
  rw [heq]
  rfl

@[simp] theorem runHook_prepBatches : (runHook db ctx h).prepBatches = db.prepBatches := by
  obtain ⟨l, logs, heq⟩ := runHook_loyaltyOnly db ctx h
  rw [heq]
  rfl

end runHook

end OraOS.Orders
