/-
  OraOS.Orders.KeyedCalls — the calls that carry an idempotency key, under READ
  COMMITTED, any number of them at once.

  Payments, refunds, manual points and manual movements each look their key up in
  their own table, without the target, before the write and again after a lost race
  for the unique index; what is found is answered as a success.

    * `keyed_alone`       — on its own a script is the service's method;
    * `keyed_sound`       — the writes leave the call's row, the lookups hit only
                            where the key is on some row;
    * `keyed_calls_own`   — while every lookup finds the call's own row or none, a
                            success has its row on its own target;
    * `key_of_another_order` — a key used on another order answers for that one.
-/
import OraOS.Orders.RefundRace
import OraOS.Orders.Serial
import OraOS.Loyalty.Manual
import OraOS.Lib.Scripts

namespace OraOS.Orders

open OraOS.Api
open OraOS.Lib
open OraOS.Inventory
open OraOS.Loyalty

/-! ## §1. The calls. -/

/-- The requests that take an idempotency key and add a row for it. -/
inductive KeyedCall where
  | recordPayment (ctx : TenantContext) (env : Env) (orderId : Uuid) (dto : RecordPaymentDto)
  | recordRefund (ctx : TenantContext) (env : Env) (orderId : Uuid) (dto : RecordRefundDto)
  | redeem (ctx : TenantContext) (customerId : Uuid) (dto : RedeemPointsDto)
  | adjust (ctx : TenantContext) (customerId : Uuid) (dto : AdjustPointsDto)
  | recordMovement (ctx : TenantContext) (ingredientId : Uuid) (dto : CreateMovementDto)
  | recordAdjustment (ctx : TenantContext) (ingredientId : Uuid) (dto : CreateAdjustmentDto)

/-- The customer's row and the entries of the four unique indexes. -/
inductive KeyedLock where
  | customer (customerId : Uuid)
  | payment (key : String)
  | refund (key : String)
  | loyalty (key : String)
  | movement (key : String)
  deriving DecidableEq

/-- A request as its statements. -/
abbrev KeyedScript := Script Db KeyedLock ApiError

/-- The order a leg is for. -/
def paymentOrder (db : Db) (orderId : Uuid) : Except ApiError Order := do
  let o ← found (db.findOrder orderId) (.notFound "Order not found")
  require (o.status ≠ .voided ∧ o.status ≠ .cancelled)
    (.conflict "Cannot record a payment on a reversed order")
  pure o

/-- No payment is over what is still owed. -/
def checkOutstanding (db : Db) (o : Order) (orderId : Uuid) (dto : RecordPaymentDto) :
    Except ApiError Unit :=
  let outstanding := o.totalMinor - capturedOf db.payments orderId
  require (dto.amountMinor ≤ outstanding)
    (.badRequest ("Payment exceeds the outstanding balance (" ++ toString outstanding
      ++ " paise left)"))

/-- The payment and its event. -/
def publishPayment (db : Db) (ctx : TenantContext) (env : Env) (orderId : Uuid)
    (dto : RecordPaymentDto) : Except ApiError Db := do
  let db ← insertPayment db env orderId dto.method dto.amountMinor dto.reference
    dto.idempotencyKey
  pure (db.withOrderEvents (db.orderEvents ++
    [⟨orderId, .paymentRecorded dto.method dto.amountMinor, ctx.userId⟩]))

/-- What follows a failed insert: a request with a key that lost the race for it looks
again, and if nothing is there the failure stands. -/
def afterLoss (key : Option String) (lost : UniqueIndex → Bool)
    (again : Db → Option (Except ApiError Unit)) (e : ApiError) : KeyedScript :=
  match e with
  | .uniqueViolation ix =>
      if (truthy key).isSome && lost ix then .lookup again (.answer (.error e))
      else .answer (.error e)
  | e => .answer (.error e)

/-- The replay of a payment, as a request that wrote nothing. -/
def replayedPayment (key : Option String) (db : Db) : Option (Except ApiError Unit) :=
  (replayPayment db key).map fun x => x.map fun _ => ()

/-- `recordPayment`, up to its loyalty hook. -/
def paymentScript (ctx : TenantContext) (env : Env) (orderId : Uuid) (dto : RecordPaymentDto) :
    KeyedScript :=
  .lookup (replayedPayment dto.idempotencyKey) <|
  .read fun db => .orRefuse (paymentOrder db orderId) fun o =>
  .read fun db => .orRefuse (checkOutstanding db o orderId dto) fun _ =>
  .lockAny (dto.idempotencyKey.map .payment) <|
  .write (fun db => publishPayment db ctx env orderId dto)
    (afterLoss dto.idempotencyKey UniqueIndex.onIdempotencyKey
      (replayedPayment dto.idempotencyKey))

/-- The order a refund is for. -/
def refundOrder (db : Db) (orderId : Uuid) : Except ApiError Order := do
  let o ← found (db.findOrder orderId) (.notFound "Order not found")
  require (o.status ∈ refundStatuses) (.conflict
    "Refunds apply to completed or reversed orders — void or complete it first")
  pure o

/-- No refund is over what was captured and not refunded yet. -/
def checkRefundable (db : Db) (captured : ℤ) (orderId : Uuid) (dto : RecordRefundDto) :
    Except ApiError Unit :=
  let refundable := captured - refundedOf db.refunds orderId
  require (dto.amountMinor ≤ refundable)
    (.badRequest ("Refund exceeds captured payments (" ++ toString refundable
      ++ " paise refundable)"))

/-- The replay of a refund. -/
def replayedRefund (key : Option String) (db : Db) : Option (Except ApiError Unit) :=
  (replayRefund db key).map fun x => x.map fun _ => ()

/-- `recordRefund`, up to its loyalty hook. -/
def refundScript (ctx : TenantContext) (env : Env) (orderId : Uuid) (dto : RecordRefundDto) :
    KeyedScript :=
  .lookup (replayedRefund dto.idempotencyKey) <|
  .read fun db => .orRefuse (refundOrder db orderId) fun o =>
  .read fun db => let captured := capturedOf db.payments orderId
  .read fun db => .orRefuse (checkRefundable db captured orderId dto) fun _ =>
  .lockAny (dto.idempotencyKey.map .refund) <|
  .write (fun db => publishRefund db orderId ⟨ctx, env, dto⟩ o)
    (afterLoss dto.idempotencyKey UniqueIndex.onIdempotencyKey
      (replayedRefund dto.idempotencyKey))

/-- The replay of a change of points. -/
def replayedPoints (key : Option String) (db : Db) : Option (Except ApiError Unit) :=
  (replay db key).map fun _ => .ok ()

/-- The recovery of both is the summary, whatever the key is on. -/
def pointsSummary (customerId : Uuid) (db : Db) : Option (Except ApiError Unit) :=
  some (assertCustomer db customerId)

/-- `LoyaltyService.redeem` -/
def redeemScript (ctx : TenantContext) (customerId : Uuid) (dto : RedeemPointsDto) :
    KeyedScript :=
  .read fun db => .orRefuse (lockCustomer db customerId) fun _ =>
  .lock (.customer customerId) <|
  .lookup (replayedPoints dto.idempotencyKey) <|
  .read fun db => let config := getConfig db; .orRefuse (checkRedeem config dto.points) fun _ =>
  .read fun db => .orRefuse (checkBalance db customerId dto.points) fun _ =>
  .lockAny (dto.idempotencyKey.map .loyalty) <|
  .write (fun db => append db ctx (redeemEntry ctx customerId dto config))
    (afterLoss dto.idempotencyKey (fun _ => true) (pointsSummary customerId))

/-- `LoyaltyService.adjust` -/
def adjustScript (ctx : TenantContext) (customerId : Uuid) (dto : AdjustPointsDto) :
    KeyedScript :=
  .read fun db => .orRefuse (lockCustomer db customerId) fun _ =>
  .lock (.customer customerId) <|
  .lookup (replayedPoints dto.idempotencyKey) <|
  .read fun db => .orRefuse (checkAdjust db customerId dto.points) fun _ =>
  .lockAny (dto.idempotencyKey.map .loyalty) <|
  .write (fun db => append db ctx (adjustEntry ctx customerId dto))
    (afterLoss dto.idempotencyKey (fun _ => true) (pointsSummary customerId))

/-- The replay of a stock movement. -/
def replayedMovement (key : Option String) (db : Db) : Option (Except ApiError Unit) :=
  (findMovementByKey db key).map fun _ => .ok ()

/-- The ingredient of a movement must be there. -/
def requireIngredient (db : Db) (ingredientId : Uuid) : Except ApiError Unit :=
  require (∃ i ∈ db.ingredients, i.id = ingredientId) (.notFound "Ingredient not found")

/-- A purchase names a supplier that is known, or none. -/
def checkSupplier (db : Db) (type : StockMovementType) (dto : CreateMovementDto) :
    Except ApiError Unit :=
  require (type = .purchase → ∀ s ∈ dto.supplierId, s ∈ db.suppliers)
    (.badRequest "Unknown supplier")

/-- The insert both manual movements end in, and `writeOnce` around it. -/
def movementTail (key : Option String) (m : NewMovement) : KeyedScript :=
  .lockAny (key.map .movement) <|
  .write (fun db => (writeMovement db m).map Prod.snd)
    (afterLoss key (fun _ => true) (replayedMovement key))

/-- The row of a movement by hand. -/
def movementRow (ctx : TenantContext) (ingredientId : Uuid) (dto : CreateMovementDto)
    (type : StockMovementType) (sign : ℤ) : NewMovement :=
  { ingredientId, type, quantity := sign * dto.quantity, orderId := none,
    prepBatchId := none, supplierId := if type = .purchase then dto.supplierId else none,
    totalCostMinor := if type = .purchase then dto.totalCostMinor else none,
    note := dto.note, actorUserId := some ctx.userId, idempotencyKey := dto.idempotencyKey }

/-- The row of an adjustment. -/
def adjustmentRow (ctx : TenantContext) (ingredientId : Uuid) (dto : CreateAdjustmentDto) :
    NewMovement :=
  { ingredientId, type := .adjustment, quantity := dto.quantity, orderId := none,
    prepBatchId := none, supplierId := none, totalCostMinor := none, note := dto.note,
    actorUserId := some ctx.userId, idempotencyKey := dto.idempotencyKey }

/-- `InventoryService.recordMovement` -/
def movementScript (ctx : TenantContext) (ingredientId : Uuid) (dto : CreateMovementDto) :
    KeyedScript :=
  .orRefuse (found dto.type.signed (.badRequest "Unsupported movement type")) fun (type, sign) =>
  .lookup (replayedMovement dto.idempotencyKey) <|
  .read fun db => .orRefuse (requireIngredient db ingredientId) fun _ =>
  .read fun db => .orRefuse (checkSupplier db type dto) fun _ =>
  movementTail dto.idempotencyKey (movementRow ctx ingredientId dto type sign)

/-- `InventoryService.recordAdjustment` -/
def adjustmentScript (ctx : TenantContext) (ingredientId : Uuid) (dto : CreateAdjustmentDto) :
    KeyedScript :=
  .orRefuse (require (dto.quantity ≠ 0) (.badRequest "An adjustment of zero records nothing"))
    fun _ =>
  .lookup (replayedMovement dto.idempotencyKey) <|
  .read fun db => .orRefuse (requireIngredient db ingredientId) fun _ =>
  movementTail dto.idempotencyKey (adjustmentRow ctx ingredientId dto)

namespace KeyedCall

/-- The idempotency key of a request. -/
def key : KeyedCall → Option String
  | .recordPayment _ _ _ dto => dto.idempotencyKey
  | .recordRefund _ _ _ dto => dto.idempotencyKey
  | .redeem _ _ dto => dto.idempotencyKey
  | .adjust _ _ dto => dto.idempotencyKey
  | .recordMovement _ _ dto => dto.idempotencyKey
  | .recordAdjustment _ _ dto => dto.idempotencyKey

/-- The statements of each request. -/
def script : KeyedCall → KeyedScript
  | .recordPayment ctx env orderId dto => paymentScript ctx env orderId dto
  | .recordRefund ctx env orderId dto => refundScript ctx env orderId dto
  | .redeem ctx customerId dto => redeemScript ctx customerId dto
  | .adjust ctx customerId dto => adjustScript ctx customerId dto
  | .recordMovement ctx ingredientId dto => movementScript ctx ingredientId dto
  | .recordAdjustment ctx ingredientId dto => adjustmentScript ctx ingredientId dto

/-- The service's method, one request at a time. -/
def serial (db : Db) : KeyedCall → Except ApiError Db
  | .recordPayment ctx env orderId dto =>
      (Orders.recordPayment db ctx env orderId dto).map fun r => r.2.1
  | .recordRefund ctx env orderId dto =>
      (Orders.recordRefund db ctx env orderId dto).map fun r => r.2.1
  | .redeem ctx customerId dto => Loyalty.redeem db ctx customerId dto
  | .adjust ctx customerId dto => Loyalty.adjust db ctx customerId dto
  | .recordMovement ctx ingredientId dto =>
      (Inventory.recordMovement db ctx ingredientId dto).map Prod.snd
  | .recordAdjustment ctx ingredientId dto =>
      (Inventory.recordAdjustment db ctx ingredientId dto).map Prod.snd

/-- A row of the call's operation with the key, on the call's own target. -/
def RowOn (c : KeyedCall) (db : Db) (k : String) : Prop :=
  match c with
  | .recordPayment _ _ orderId _ =>
      ∃ p ∈ db.payments, p.idempotencyKey = some k ∧ p.orderId = orderId
  | .recordRefund _ _ orderId _ =>
      ∃ r ∈ db.refunds, r.idempotencyKey = some k ∧ r.orderId = orderId
  | .redeem _ customerId _ =>
      ∃ e ∈ db.loyaltyLedger, e.idempotencyKey = some k ∧ e.customerId = customerId
        ∧ e.type = .redeem
  | .adjust _ customerId _ =>
      ∃ e ∈ db.loyaltyLedger, e.idempotencyKey = some k ∧ e.customerId = customerId
        ∧ e.type = .adjust
  | .recordMovement _ ingredientId _ =>
      ∃ m ∈ db.movements, m.idempotencyKey = some k ∧ m.ingredientId = ingredientId
        ∧ m.prepBatchId = none ∧ (m.type = .purchase ∨ m.type = .waste)
  | .recordAdjustment _ ingredientId _ =>
      ∃ m ∈ db.movements, m.idempotencyKey = some k ∧ m.ingredientId = ingredientId
        ∧ m.prepBatchId = none ∧ m.type = .adjustment

/-- The key is on a row of the call's table, whatever its target. -/
def KeyOn (c : KeyedCall) (db : Db) (k : String) : Prop :=
  match c with
  | .recordPayment .. => ∃ p ∈ db.payments, p.idempotencyKey = some k
  | .recordRefund .. => ∃ r ∈ db.refunds, r.idempotencyKey = some k
  | .redeem .. | .adjust .. => ∃ e ∈ db.loyaltyLedger, e.idempotencyKey = some k
  | .recordMovement .. | .recordAdjustment .. => ∃ m ∈ db.movements, m.idempotencyKey = some k

/-- The call's key is in use. -/
def Known (c : KeyedCall) (db : Db) : Prop := ∃ k, truthy c.key = some k ∧ c.KeyOn db k

/-- The call's row is there. -/
def Own (c : KeyedCall) (db : Db) : Prop := ∀ k ∈ c.key, c.RowOn db k

end KeyedCall

/-- The four tables only grow. -/
structure Grows (db db' : Db) : Prop where
  payments : ∀ p ∈ db.payments, p ∈ db'.payments
  refunds : ∀ r ∈ db.refunds, r ∈ db'.refunds
  loyaltyLedger : ∀ e ∈ db.loyaltyLedger, e ∈ db'.loyaltyLedger
  movements : ∀ m ∈ db.movements, m ∈ db'.movements

/-- Any number of keyed calls at once, and whatever else keeps the rows there are. -/
def keyedSession := Script.session KeyedCall.script Grows

/-! ## §2. On its own a script is the service's method. -/

/-- With nothing to be found again, a failed insert is the failure it was. -/
theorem run_afterLoss {db : Db} {key : Option String} {lost : UniqueIndex → Bool}
    {again : Db → Option (Except ApiError Unit)} {e : ApiError} (h : again db = none) :
    Script.run db (afterLoss key lost again e) = (db, .error e) := by
  unfold afterLoss
  split
  · split
    · simp only [Script.run, h]
    · rfl
  · rfl

/-- A write whose failure nothing recovers from. -/
theorem run_write {db : Db} {f : Db → Except ApiError Db} {key : Option String}
    {lost : UniqueIndex → Bool} {again : Db → Option (Except ApiError Unit)}
    (h : again db = none) :
    Script.run db (.write f (afterLoss key lost again)) = Script.outcome db (f db) := by
  cases hf : f db with
  | ok db' => simp only [Script.run, hf, Script.outcome]
  | error e => simp only [Script.run, hf, Script.outcome, run_afterLoss h]

/-- The transaction of a leg, as the statements of its script. -/
theorem paymentTx_statements (db : Db) (ctx : TenantContext) (env : Env) (orderId : Uuid)
    (dto : RecordPaymentDto) :
    (do
      let (o, db, settled) ← paymentTx db ctx env orderId dto
      pure (o, db, if settled then [Hook.credit orderId] else [])).map
        (fun r : Order × Db × List Hook => r.2.1) = (do
      let o ← paymentOrder db orderId
      checkOutstanding db o orderId dto
      publishPayment db ctx env orderId dto) := by
  unfold paymentTx paymentOrder checkOutstanding publishPayment
  simp only [bind_assoc, pure_bind, bind_map]
  rfl

/-- **The statements of a payment, alone, are `recordPayment`.** -/
theorem run_paymentScript (db : Db) (ctx : TenantContext) (env : Env) (orderId : Uuid)
    (dto : RecordPaymentDto) :
    Script.run db (paymentScript ctx env orderId dto)
      = Script.outcome db ((recordPayment db ctx env orderId dto).map fun r => r.2.1) := by
  unfold paymentScript recordPayment
  cases hreplay : replayPayment db dto.idempotencyKey with
  | some existing =>
      have hhit : replayedPayment dto.idempotencyKey db = some (existing.map fun _ => ()) := by
        simp only [replayedPayment, hreplay, Option.map_some]
      simp only [Script.run, hhit]
      cases existing <;> rfl
  | none =>
      have hmiss : replayedPayment dto.idempotencyKey db = none := by
        simp only [replayedPayment, hreplay, Option.map_none]
      simp only [Script.run, hmiss]
      refine Eq.trans ?_ (congrArg (Script.outcome db)
        (paymentTx_statements db ctx env orderId dto).symm)
      -- the checks of the transaction, statement by statement
      apply Script.run_orRefuse
      intro o _
      apply Script.run_orRefuse
      intro _ _
      rw [Script.run_lockAny, run_write hmiss]

/-- The transaction of a refund, statement by statement. -/
theorem refundTx_statements (db : Db) (ctx : TenantContext) (env : Env) (orderId : Uuid)
    (dto : RecordRefundDto) :
    (do
      let (o, db) ← refundTx db ctx env orderId dto
      pure (o, db, [Hook.reverse orderId])).map
        (fun r : Order × Db × List Hook => r.2.1) = (do
      let o ← refundOrder db orderId
      checkRefundable db (capturedOf db.payments orderId) orderId dto
      publishRefund db orderId ⟨ctx, env, dto⟩ o) := by
  unfold refundTx refundOrder checkRefundable publishRefund
  simp only [bind_assoc, pure_bind, bind_map]
  rfl

/-- **Those of a refund are `recordRefund`.** -/
theorem run_refundScript (db : Db) (ctx : TenantContext) (env : Env) (orderId : Uuid)
    (dto : RecordRefundDto) :
    Script.run db (refundScript ctx env orderId dto)
      = Script.outcome db ((recordRefund db ctx env orderId dto).map fun r => r.2.1) := by
  unfold refundScript recordRefund
  cases hreplay : replayRefund db dto.idempotencyKey with
  | some existing =>
      have hhit : replayedRefund dto.idempotencyKey db = some (existing.map fun _ => ()) := by
        simp only [replayedRefund, hreplay, Option.map_some]
      simp only [Script.run, hhit]
      cases existing <;> rfl
  | none =>
      have hmiss : replayedRefund dto.idempotencyKey db = none := by
        simp only [replayedRefund, hreplay, Option.map_none]
      simp only [Script.run, hmiss]
      refine Eq.trans ?_ (congrArg (Script.outcome db)
        (refundTx_statements db ctx env orderId dto).symm)
      apply Script.run_orRefuse
      intro o _
      -- the two aggregates, the second with its check
      show Script.run db (.orRefuse (checkRefundable db (capturedOf db.payments orderId) orderId dto)
        _) = _
      apply Script.run_orRefuse
      intro _ _
      rw [Script.run_lockAny, run_write hmiss]

/-- The append of both manual entries, with its recovery. -/
theorem run_appendPoints (db : Db) (ctx : TenantContext) (e : NewLoyaltyEntry) :
    Script.run db (.lockAny (e.idempotencyKey.map .loyalty) (.write (fun db => append db ctx e)
        (afterLoss e.idempotencyKey (fun _ => true) (pointsSummary e.customerId))))
      = Script.outcome db
        (orSummaryKeyed db e.customerId e.idempotencyKey (append db ctx e)) := by
  rw [Script.run_lockAny]
  cases happend : append db ctx e with
  | ok db' =>
      simp only [Script.run, happend]
      unfold orSummaryKeyed
      split <;> rfl
  | error err =>
      simp only [Script.run, happend]
      unfold afterLoss orSummaryKeyed
      split
      next ix =>
        -- only with a key is a lost index answered with the summary
        by_cases hkey : (truthy e.idempotencyKey).isSome = true
        · simp only [hkey, Bool.and_true, if_true]
          show (db, assertCustomer db e.customerId)
            = Script.outcome db (assertCustomer db e.customerId >>= fun _ => pure db)
          cases assertCustomer db e.customerId <;> rfl
        · simp only [hkey, Bool.false_and, Bool.false_eq_true, if_false]
          rfl
      next hother =>
        split
        · cases err with
          | uniqueViolation ix => exact absurd rfl (hother ix)
          | _ => rfl
        · rfl

theorem run_redeemScript (db : Db) (ctx : TenantContext) (customerId : Uuid)
    (dto : RedeemPointsDto) :
    Script.run db (redeemScript ctx customerId dto)
      = Script.outcome db (Loyalty.redeem db ctx customerId dto) := by
  rw [redeem_eq]
  apply Script.run_orRefuse
  intro _ _
  simp only [Script.run, replayedPoints]
  cases hreplay : replay db dto.idempotencyKey with
  | some e => rfl
  | none =>
      apply Script.run_orRefuse
      intro _ _
      apply Script.run_orRefuse
      intro _ _
      exact run_appendPoints db ctx (redeemEntry ctx customerId dto (getConfig db))

theorem run_adjustScript (db : Db) (ctx : TenantContext) (customerId : Uuid)
    (dto : AdjustPointsDto) :
    Script.run db (adjustScript ctx customerId dto)
      = Script.outcome db (Loyalty.adjust db ctx customerId dto) := by
  rw [adjust_eq]
  apply Script.run_orRefuse
  intro _ _
  simp only [Script.run, replayedPoints]
  cases hreplay : replay db dto.idempotencyKey with
  | some e => rfl
  | none =>
      apply Script.run_orRefuse
      intro _ _
      exact run_appendPoints db ctx (adjustEntry ctx customerId dto)

/-- With a new key, a movement is written. -/
theorem run_movementTail {db : Db} {key : Option String} (m : NewMovement)
    (hmiss : findMovementByKey db key = none) :
    Script.run db (movementTail key m)
      = Script.outcome db ((writeMovement db m).map Prod.snd) := by
  have hnone : replayedMovement key db = none := by
    simp only [replayedMovement, hmiss, Option.map_none]
  unfold movementTail
  rw [Script.run_lockAny, run_write hnone]

theorem run_movementScript (db : Db) (ctx : TenantContext) (ingredientId : Uuid)
    (dto : CreateMovementDto) :
    Script.run db (movementScript ctx ingredientId dto)
      = Script.outcome db ((Inventory.recordMovement db ctx ingredientId dto).map Prod.snd) := by
  unfold movementScript Inventory.recordMovement
  rw [bind_map]
  apply Script.run_orRefuse
  intro signed _
  obtain ⟨type, sign⟩ := signed
  simp only [Script.run, replayedMovement, writeOnce]
  cases hfind : findMovementByKey db dto.idempotencyKey with
  | some m => rfl
  | none =>
      simp only [Option.map_none, bind_map]
      apply Script.run_orRefuse
      intro _ _
      apply Script.run_orRefuse
      intro _ _
      exact run_movementTail (movementRow ctx ingredientId dto type sign) hfind

theorem run_adjustmentScript (db : Db) (ctx : TenantContext) (ingredientId : Uuid)
    (dto : CreateAdjustmentDto) :
    Script.run db (adjustmentScript ctx ingredientId dto)
      = Script.outcome db ((Inventory.recordAdjustment db ctx ingredientId dto).map Prod.snd) := by
  unfold adjustmentScript Inventory.recordAdjustment
  rw [bind_map]
  apply Script.run_orRefuse
  intro _ _
  simp only [Script.run, replayedMovement, writeOnce]
  cases hfind : findMovementByKey db dto.idempotencyKey with
  | some m => rfl
  | none =>
      simp only [Option.map_none, bind_map]
      apply Script.run_orRefuse
      intro _ _
      exact run_movementTail (adjustmentRow ctx ingredientId dto) hfind

/-- **On its own a keyed call does what the service's method does.** -/
theorem keyed_alone (db : Db) (c : KeyedCall) :
    Script.run db c.script = Script.outcome db (c.serial db) := by
  cases c with
  | recordPayment ctx env orderId dto => exact run_paymentScript db ctx env orderId dto
  | recordRefund ctx env orderId dto => exact run_refundScript db ctx env orderId dto
  | redeem ctx customerId dto => exact run_redeemScript db ctx customerId dto
  | adjust ctx customerId dto => exact run_adjustScript db ctx customerId dto
  | recordMovement ctx ingredientId dto => exact run_movementScript db ctx ingredientId dto
  | recordAdjustment ctx ingredientId dto => exact run_adjustmentScript db ctx ingredientId dto

/-! ## §3. The scripts are sound. -/

theorem Grows.refl (db : Db) : Grows db db :=
  ⟨fun _ h => h, fun _ h => h, fun _ h => h, fun _ h => h⟩

theorem Grows.trans (a b c : Db) (h : Grows a b) (h' : Grows b c) : Grows a c :=
  ⟨fun p hp => h'.payments p (h.payments p hp), fun r hr => h'.refunds r (h.refunds r hr),
    fun e he => h'.loyaltyLedger e (h.loyaltyLedger e he),
    fun m hm => h'.movements m (h.movements m hm)⟩

/-- A row that is there stays. -/
theorem KeyedCall.Own.mono (c : KeyedCall) (db db' : Db) (hle : Grows db db') (h : c.Own db) :
    c.Own db' := by
  intro k hk
  have hrow := h k hk
  -- each kind of row has its own table, which only grows
  cases c with
  | recordPayment ctx env orderId dto =>
      obtain ⟨p, hp, hrest⟩ := hrow
      exact ⟨p, hle.payments p hp, hrest⟩
  | recordRefund ctx env orderId dto =>
      obtain ⟨r, hr, hrest⟩ := hrow
      exact ⟨r, hle.refunds r hr, hrest⟩
  | redeem ctx customerId dto =>
      obtain ⟨e, he, hrest⟩ := hrow
      exact ⟨e, hle.loyaltyLedger e he, hrest⟩
  | adjust ctx customerId dto =>
      obtain ⟨e, he, hrest⟩ := hrow
      exact ⟨e, hle.loyaltyLedger e he, hrest⟩
  | recordMovement ctx ingredientId dto =>
      obtain ⟨m, hm, hrest⟩ := hrow
      exact ⟨m, hle.movements m hm, hrest⟩
  | recordAdjustment ctx ingredientId dto =>
      obtain ⟨m, hm, hrest⟩ := hrow
      exact ⟨m, hle.movements m hm, hrest⟩

/-- What a lookup by key finds is a row with the key. -/
theorem mem_of_findKey {α : Type} {key : Option String} {rows : List α}
    {keyOf : α → Option String} {a : α}
    (h : (truthy key).bind (fun k => rows.find? fun r => keyOf r = some k) = some a) :
    ∃ k, truthy key = some k ∧ ∃ r ∈ rows, keyOf r = some k := by
  obtain ⟨k, hk, hfound⟩ := Option.bind_eq_some_iff.mp h
  exact ⟨k, hk, a, List.mem_of_find?_eq_some hfound, by simpa using List.find?_some hfound⟩

/-- Soundness of the last part of a script: the write leaves the call's row, and what
is looked up after a loss is known by then. -/
theorem sound_write {c : KeyedCall} {db : Db} {f : Db → Except ApiError Db} {key : Option String}
    {lost : UniqueIndex → Bool} {again : Db → Option (Except ApiError Unit)}
    (hwrite : ∀ db₁ db₂, f db₁ = .ok db₂ → c.Own db₂ ∧ Grows db₁ db₂)
    (hagain : ∀ db₁ ix db₂, f db₁ = .error (.uniqueViolation ix) → (truthy key).isSome = true →
      Grows db₁ db₂ → again db₂ = some (.ok ()) → c.Known db₂) :
    Script.Sound Grows c.Known c.Own db (.write f (afterLoss key lost again)) := by
  intro db₁ _
  refine ⟨fun db₂ hok => hwrite db₁ db₂ hok, ?_⟩
  intro e he
  unfold afterLoss
  split
  next ix =>
    split
    next hkey =>
      simp only [Bool.and_eq_true] at hkey
      exact ⟨fun db₂ hle hhit => hagain db₁ ix db₂ he hkey.1 hle hhit, nofun⟩
    next => exact nofun
  next => exact nofun

/-- A replayed payment found a row with its key. -/
theorem replayedPayment_known {db : Db} {key : Option String} {x : Except ApiError Unit}
    (h : replayedPayment key db = some x) :
    ∃ k, truthy key = some k ∧ ∃ p ∈ db.payments, p.idempotencyKey = some k := by
  obtain ⟨x', hx', -⟩ := Option.map_eq_some_iff.mp h
  obtain ⟨p, hp, -⟩ := Option.map_eq_some_iff.mp hx'
  exact mem_of_findKey hp

theorem replayedRefund_known {db : Db} {key : Option String} {x : Except ApiError Unit}
    (h : replayedRefund key db = some x) :
    ∃ k, truthy key = some k ∧ ∃ r ∈ db.refunds, r.idempotencyKey = some k := by
  obtain ⟨x', hx', -⟩ := Option.map_eq_some_iff.mp h
  obtain ⟨r, hr, -⟩ := Option.map_eq_some_iff.mp hx'
  exact mem_of_findKey hr

/-- A payment is written with its key. -/
theorem publishPayment_grows {db db' : Db} {ctx : TenantContext} {env : Env} {orderId : Uuid}
    {dto : RecordPaymentDto} (h : publishPayment db ctx env orderId dto = .ok db') :
    Grows db db' ∧ ∃ p ∈ db'.payments, p.idempotencyKey = dto.idempotencyKey
      ∧ p.orderId = orderId := by
  obtain ⟨db₁, hins, hdb⟩ := bind_ok.mp h
  cases pure_ok.mp hdb
  obtain ⟨-, -, hins⟩ := bind_ok.mp hins
  split at hins
  next =>
    obtain ⟨-, -, hins⟩ := bind_ok.mp hins
    cases pure_ok.mp hins
    exact ⟨⟨fun p hp => List.mem_append_left _ hp, fun _ h => h, fun _ h => h, fun _ h => h⟩,
      _, List.mem_append_right _ (List.mem_singleton.mpr rfl), rfl, rfl⟩
  next => cases hins

/-- And so is a refund. -/
theorem publishRefund_grows {db db' : Db} {orderId : Uuid} {tx : RefundTx} {o : Order}
    (h : publishRefund db orderId tx o = .ok db') :
    Grows db db' ∧ ∃ r ∈ db'.refunds, r.idempotencyKey = tx.dto.idempotencyKey
      ∧ r.orderId = orderId := by
  obtain ⟨db₁, hins, hdb⟩ := bind_ok.mp h
  cases pure_ok.mp hdb
  obtain ⟨-, -, hins⟩ := bind_ok.mp hins
  cases pure_ok.mp hins
  exact ⟨⟨fun _ h => h, fun r hr => List.mem_append_left _ hr, fun _ h => h, fun _ h => h⟩,
    _, List.mem_append_right _ (List.mem_singleton.mpr rfl), rfl, rfl⟩

/-- **A payment that succeeds has found its key or written its own row.** -/
theorem sound_paymentScript (ctx : TenantContext) (env : Env) (orderId : Uuid)
    (dto : RecordPaymentDto) (db : Db) :
    Script.Sound Grows (KeyedCall.recordPayment ctx env orderId dto).Known
      (KeyedCall.recordPayment ctx env orderId dto).Own db
      (paymentScript ctx env orderId dto) := by
  unfold paymentScript
  refine ⟨fun db' _ hhit => replayedPayment_known hhit, ?_⟩
  intro _ _
  apply Script.Sound.orRefuse
  intro o _ _ _
  apply Script.Sound.orRefuse
  intro _ _
  apply Script.Sound.lockAny
  apply sound_write
  · intro db₁ db₂ hpublish
    obtain ⟨hgrows, p, hp, hkey, horder⟩ := publishPayment_grows hpublish
    exact ⟨fun k hk => ⟨p, hp, hkey.trans hk, horder⟩, hgrows⟩
  · intro _ _ db' _ _ _ hhit
    exact replayedPayment_known hhit

theorem sound_refundScript (ctx : TenantContext) (env : Env) (orderId : Uuid)
    (dto : RecordRefundDto) (db : Db) :
    Script.Sound Grows (KeyedCall.recordRefund ctx env orderId dto).Known
      (KeyedCall.recordRefund ctx env orderId dto).Own db
      (refundScript ctx env orderId dto) := by
  unfold refundScript
  refine ⟨fun db' _ hhit => replayedRefund_known hhit, ?_⟩
  intro _ _
  apply Script.Sound.orRefuse
  intro o _ _ _ _ _
  apply Script.Sound.orRefuse
  intro _ _
  apply Script.Sound.lockAny
  apply sound_write
  · intro db₁ db₂ hpublish
    obtain ⟨hgrows, r, hr, hkey, horder⟩ := publishRefund_grows hpublish
    exact ⟨fun k hk => ⟨r, hr, hkey.trans hk, horder⟩, hgrows⟩
  · intro _ _ db' _ _ _ hhit
    exact replayedRefund_known hhit

/-- A key on an entry stays on it. -/
theorem keyKnown_mono {db db' : Db} {key : Option String} (hle : Grows db db')
    (h : KeyKnown db key) : KeyKnown db' key := by
  obtain ⟨k, hk, e, he, hkey⟩ := h
  exact ⟨k, hk, e, hle.loyaltyLedger e he, hkey⟩

/-- An entry of the ledger is added to the others. -/
theorem append_grows {db db' : Db} {ctx : TenantContext} {e : NewLoyaltyEntry}
    (h : append db ctx e = .ok db') :
    Grows db db' ∧ ∃ r ∈ db'.loyaltyLedger, r.toNewLoyaltyEntry = e := by
  obtain ⟨-, r, hr, logs, rfl⟩ := append_ok h
  exact ⟨⟨fun _ h => h, fun _ h => h, fun e he => List.mem_append_left _ he, fun _ h => h⟩,
    r, List.mem_append_right _ (List.mem_singleton.mpr rfl), hr⟩

/-- The append of both manual entries.  The summary after a loss looks nothing up, but
then the key is on the entry that won. -/
theorem sound_appendPoints {c : KeyedCall} {ctx : TenantContext} {e : NewLoyaltyEntry} {db : Db}
    (horder : e.orderId = none)
    (hknown : ∀ db', KeyKnown db' e.idempotencyKey → c.Known db')
    (hown : ∀ db', (∃ r ∈ db'.loyaltyLedger, r.toNewLoyaltyEntry = e) → c.Own db') :
    Script.Sound Grows c.Known c.Own db
      (.lockAny (e.idempotencyKey.map .loyalty) (.write (fun db => append db ctx e)
        (afterLoss e.idempotencyKey (fun _ => true) (pointsSummary e.customerId)))) := by
  apply Script.Sound.lockAny
  apply sound_write
  · intro db₁ db₂ happend
    obtain ⟨hgrows, hrow⟩ := append_grows happend
    exact ⟨hown db₂ hrow, hgrows⟩
  · intro db₁ ix db₂ hlost hset hle _
    exact hknown db₂ (keyKnown_mono hle (append_violation horder hset hlost))

theorem sound_redeemScript (ctx : TenantContext) (customerId : Uuid) (dto : RedeemPointsDto)
    (db : Db) :
    Script.Sound Grows (KeyedCall.redeem ctx customerId dto).Known
      (KeyedCall.redeem ctx customerId dto).Own db (redeemScript ctx customerId dto) := by
  unfold redeemScript
  intro _ _
  apply Script.Sound.orRefuse
  intro _ _
  refine ⟨?_, ?_⟩
  -- a replay: the entry that was found has the key
  · intro db' _ hhit
    obtain ⟨e, he, -⟩ := Option.map_eq_some_iff.mp hhit
    exact replay_some he
  · intro db' _
    apply Script.Sound.orRefuse
    intro _ _ _ _
    apply Script.Sound.orRefuse
    intro _ _
    refine sound_appendPoints (e := redeemEntry ctx customerId dto (getConfig db')) rfl
      (fun _ h => h) ?_
    intro db'' hrow k hk
    obtain ⟨r, hr, heq⟩ := hrow
    exact ⟨r, hr, by rw [heq]; exact hk, by rw [heq]; rfl, by rw [heq]; rfl⟩

theorem sound_adjustScript (ctx : TenantContext) (customerId : Uuid) (dto : AdjustPointsDto)
    (db : Db) :
    Script.Sound Grows (KeyedCall.adjust ctx customerId dto).Known
      (KeyedCall.adjust ctx customerId dto).Own db (adjustScript ctx customerId dto) := by
  unfold adjustScript
  intro _ _
  apply Script.Sound.orRefuse
  intro _ _
  refine ⟨?_, ?_⟩
  · intro db' _ hhit
    obtain ⟨e, he, -⟩ := Option.map_eq_some_iff.mp hhit
    exact replay_some he
  · intro db' _
    apply Script.Sound.orRefuse
    intro _ _
    refine sound_appendPoints (e := adjustEntry ctx customerId dto) rfl (fun _ h => h) ?_
    intro db'' hrow k hk
    obtain ⟨r, hr, heq⟩ := hrow
    exact ⟨r, hr, by rw [heq]; exact hk, by rw [heq]; rfl, by rw [heq]; rfl⟩

/-- The key of a manual movement is on some movement. -/
def MovementKnown (db : Db) (key : Option String) : Prop :=
  ∃ k, truthy key = some k ∧ ∃ m ∈ db.movements, m.idempotencyKey = some k

/-- A replayed movement found a row with its key. -/
theorem replayedMovement_known {db : Db} {key : Option String} {x : Except ApiError Unit}
    (h : replayedMovement key db = some x) : MovementKnown db key := by
  obtain ⟨m, hm, -⟩ := Option.map_eq_some_iff.mp h
  exact mem_of_findKey hm

/-- A write behind a key has found it or written its row. -/
theorem sound_movementTail {c : KeyedCall} {key : Option String} {m : NewMovement} {db : Db}
    (hknown : ∀ db', MovementKnown db' key → c.Known db')
    (hown : ∀ db', (∃ r ∈ db'.movements, r.toNewMovement = m) → c.Own db') :
    Script.Sound Grows c.Known c.Own db (movementTail key m) := by
  unfold movementTail
  apply Script.Sound.lockAny
  apply sound_write
  · intro db₁ db₂ hwrite
    -- the write that went through has added the row itself
    cases hw : writeMovement db₁ m with
    | error e =>
        rw [hw] at hwrite
        cases hwrite
    | ok r =>
        rw [hw] at hwrite
        cases hwrite
        simp only [writeMovement, bind_ok, pure_ok] at hw
        obtain ⟨movements, hins, _, -, hdb⟩ := hw
        obtain ⟨row, hrow, rfl⟩ := insertMovement_ok hins
        cases hdb
        refine ⟨hown _ ⟨row, List.mem_append_right _ (List.mem_singleton.mpr rfl), hrow⟩,
          fun _ h => h, fun _ h => h, fun _ h => h, fun m hm => List.mem_append_left _ hm⟩
  · intro _ _ db' _ _ _ hhit
    exact hknown db' (replayedMovement_known hhit)

theorem sound_movementScript (ctx : TenantContext) (ingredientId : Uuid)
    (dto : CreateMovementDto) (db : Db) :
    Script.Sound Grows (KeyedCall.recordMovement ctx ingredientId dto).Known
      (KeyedCall.recordMovement ctx ingredientId dto).Own db
      (movementScript ctx ingredientId dto) := by
  unfold movementScript
  apply Script.Sound.orRefuse
  intro signed hsigned
  obtain ⟨type, sign⟩ := signed
  -- an opening balance is refused before anything is read
  have htype : type = .purchase ∨ type = .waste := by
    have hs := found_ok.mp hsigned
    unfold ManualMovementType.signed at hs
    split at hs
    · cases hs
      exact .inl rfl
    · cases hs
      exact .inr rfl
    · cases hs
  refine ⟨fun db' _ hhit => replayedMovement_known hhit, ?_⟩
  intro _ _
  apply Script.Sound.orRefuse
  intro _ _ _ _
  apply Script.Sound.orRefuse
  intro _ _
  apply sound_movementTail
  · exact fun _ h => h
  · intro db' hrow k hk
    obtain ⟨r, hr, heq⟩ := hrow
    exact ⟨r, hr, by rw [heq]; exact hk, by rw [heq]; rfl, by rw [heq]; rfl,
      by rw [heq]; exact htype⟩

theorem sound_adjustmentScript (ctx : TenantContext) (ingredientId : Uuid)
    (dto : CreateAdjustmentDto) (db : Db) :
    Script.Sound Grows (KeyedCall.recordAdjustment ctx ingredientId dto).Known
      (KeyedCall.recordAdjustment ctx ingredientId dto).Own db
      (adjustmentScript ctx ingredientId dto) := by
  unfold adjustmentScript
  apply Script.Sound.orRefuse
  intro _ _
  refine ⟨fun db' _ hhit => replayedMovement_known hhit, ?_⟩
  intro _ _
  apply Script.Sound.orRefuse
  intro _ _
  apply sound_movementTail
  · exact fun _ h => h
  · intro db' hrow k hk
    obtain ⟨r, hr, heq⟩ := hrow
    exact ⟨r, hr, by rw [heq]; exact hk, by rw [heq]; rfl, by rw [heq]; rfl, by rw [heq]; rfl⟩

/-- **Every keyed call writes its own row and looks up by its key.** -/
theorem keyed_sound (c : KeyedCall) (db : Db) :
    Script.Sound Grows c.Known c.Own db c.script := by
  cases c with
  | recordPayment ctx env orderId dto => exact sound_paymentScript ctx env orderId dto db
  | recordRefund ctx env orderId dto => exact sound_refundScript ctx env orderId dto db
  | redeem ctx customerId dto => exact sound_redeemScript ctx customerId dto db
  | adjust ctx customerId dto => exact sound_adjustScript ctx customerId dto db
  | recordMovement ctx ingredientId dto => exact sound_movementScript ctx ingredientId dto db
  | recordAdjustment ctx ingredientId dto => exact sound_adjustmentScript ctx ingredientId dto db

/-! ## §4. A replayed key answers for its own target. -/

/-- Whatever row of the call's table carries the key, it is the call's own. -/
def KeyedCall.OnlyOn (c : KeyedCall) (db : Db) (k : String) : Prop :=
  match c with
  | .recordPayment _ _ orderId _ =>
      ∀ p ∈ db.payments, p.idempotencyKey = some k → p.orderId = orderId
  | .recordRefund _ _ orderId _ =>
      ∀ r ∈ db.refunds, r.idempotencyKey = some k → r.orderId = orderId
  | .redeem _ customerId _ =>
      ∀ e ∈ db.loyaltyLedger, e.idempotencyKey = some k →
        e.customerId = customerId ∧ e.type = .redeem
  | .adjust _ customerId _ =>
      ∀ e ∈ db.loyaltyLedger, e.idempotencyKey = some k →
        e.customerId = customerId ∧ e.type = .adjust
  | .recordMovement _ ingredientId _ =>
      ∀ m ∈ db.movements, m.idempotencyKey = some k → m.ingredientId = ingredientId
        ∧ m.prepBatchId = none ∧ (m.type = .purchase ∨ m.type = .waste)
  | .recordAdjustment _ ingredientId _ =>
      ∀ m ∈ db.movements, m.idempotencyKey = some k → m.ingredientId = ingredientId
        ∧ m.prepBatchId = none ∧ m.type = .adjustment

/-- A key that only this request has used stands on its row. -/
theorem KeyedCall.OnlyOn.rowOn {c : KeyedCall} {db : Db} {k : String} (h : c.OnlyOn db k)
    (hkey : c.KeyOn db k) : c.RowOn db k := by
  cases c with
  | recordPayment ctx env orderId dto =>
      obtain ⟨p, hp, hpk⟩ := hkey
      exact ⟨p, hp, hpk, h p hp hpk⟩
  | recordRefund ctx env orderId dto =>
      obtain ⟨r, hr, hrk⟩ := hkey
      exact ⟨r, hr, hrk, h r hr hrk⟩
  | redeem ctx customerId dto =>
      obtain ⟨e, he, hek⟩ := hkey
      exact ⟨e, he, hek, h e he hek⟩
  | adjust ctx customerId dto =>
      obtain ⟨e, he, hek⟩ := hkey
      exact ⟨e, he, hek, h e he hek⟩
  | recordMovement ctx ingredientId dto =>
      obtain ⟨m, hm, hmk⟩ := hkey
      exact ⟨m, hm, hmk, h m hm hmk⟩
  | recordAdjustment ctx ingredientId dto =>
      obtain ⟨m, hm, hmk⟩ := hkey
      exact ⟨m, hm, hmk, h m hm hmk⟩

/-- One event of requests side by side. -/
abbrev KeyedEvent := SessionEvent KeyedCall Unit {w : Db → Db // ∀ s, Grows s (w s)}

/-- At each lookup, the key of the call is on no row of another target or operation. -/
def OwnKeys (s : Sessions Db (KeyedCall × KeyedScript) KeyedLock) : KeyedEvent → Prop
  | .run i _ => ∀ c find next, s.running i = some (c, .lookup find next) →
      ∀ k ∈ c.key, c.OnlyOn s.shared k
  | _ => True

/-- A lookup that finds only its own rows is a lookup of its own. -/
theorem OwnKeys.lookups {s : Sessions Db (KeyedCall × KeyedScript) KeyedLock} {a : KeyedEvent}
    (h : OwnKeys s a) : Script.OwnLookups KeyedCall.Known KeyedCall.Own s a := by
  cases a with
  | run i o =>
      intro c find next hrun hknown k hk
      obtain ⟨k', hset, hon⟩ := hknown
      have hsame : k' = k := by
        rw [truthy_some hset] at hk
        cases hk
        rfl
      exact (h c find next hrun k hk).rowOn (hsame ▸ hon)
  | _ => trivial

/-- **A success has its row on its own target**, in every run whose lookups meet the
key on no other. -/
theorem keyed_calls_own {init : Db → Prop} {s : Sessions Db (KeyedCall × KeyedScript) KeyedLock}
    (h : ((keyedSession.interleaved init).restrict OwnKeys).Reachable s) {i : ℕ} {c : KeyedCall}
    (hi : s.running i = some (c, .answer (.ok ()))) : ∀ k ∈ c.key, c.RowOn s.shared k :=
  Script.answered_owned Grows.refl Grows.trans KeyedCall.Own.mono keyed_sound
    (System.restrict_mono (fun _ _ _ => OwnKeys.lookups) h) hi

/-- A lookup that hits where the call has no row of its own breaks it: the call is
answered with success and nothing is written. -/
theorem foreign_key_answers {s : Sessions Db (KeyedCall × KeyedScript) KeyedLock} {i : ℕ}
    {c : KeyedCall} {find : Db → Option (Except ApiError Unit)} {next : KeyedScript}
    (hrun : s.running i = some (c, .lookup find next)) (hhit : find s.shared = some (.ok ()))
    (hforeign : ¬ c.Own s.shared) :
    ∃ s', keyedSession.act s (.run i ()) = some s' ∧ s'.shared = s.shared
      ∧ s'.running i = some (c, .answer (.ok ())) ∧ ¬ ∀ k ∈ c.key, c.RowOn s'.shared k := by
  have hturn : keyedSession.turn () s.shared (c, .lookup find next)
      = .rollback (c, .answer (.ok ())) := by
    show Script.callTurn s.shared (c, .lookup find next) = _
    simp only [Script.callTurn, Script.turn, hhit]
  simp only [Session.act, hrun, hturn]
  exact ⟨_, rfl, rfl, Function.update_self _ _ _, hforeign⟩

/-- Two lassis placed and not yet paid. -/
def twoUnpaid : Db :=
  (after [.create cashier ⟨20, 0⟩ (lassiOrder none none none),
    .create cashier ⟨21, 1⟩ (lassiOrder none none none)] openBar).db

theorem lassiLeg_ok : (1 : ℤ) ≤ 1050 ∧ (1050 : ℤ) ≤ 100000000 := by decide

/-- A leg for the price of a lassi, under a key. -/
def payLassi (orderId : Uuid) : KeyedCall :=
  .recordPayment cashier ⟨30, 2⟩ orderId ⟨.cash, 1050, none, some "leg", lassiLeg_ok⟩

/-- A leg with a new key, whose lookup finds nothing, and the same leg sent again, whose
lookup finds the payment of the first: both are answered with success, for one payment. -/
theorem keyed_calls_own_leg :
    ∃ s, ((keyedSession.interleaved fun db => db = twoUnpaid).restrict OwnKeys).Reachable s
      ∧ s.running 0 = some (payLassi 20, .answer (.ok ()))
      ∧ s.running 1 = some (payLassi 20, .answer (.ok ()))
      ∧ s.shared.payments.map (fun p => (p.orderId, p.amountMinor)) = [(20, 1050)]
      ∧ ∀ k ∈ (payLassi 20).key, (payLassi 20).RowOn s.shared k := by
  have h0 : ((keyedSession.interleaved fun db => db = twoUnpaid).restrict OwnKeys).Reachable
      (Session.quiet twoUnpaid) := .init ⟨rfl, fun _ => rfl, fun _ => rfl⟩
  have hstep : ∀ {s : Sessions Db (KeyedCall × KeyedScript) KeyedLock} (a : KeyedEvent)
      {s' : Sessions Db (KeyedCall × KeyedScript) KeyedLock},
      ((keyedSession.interleaved fun db => db = twoUnpaid).restrict OwnKeys).Reachable s →
      OwnKeys s a → keyedSession.act s a = some s' →
      ((keyedSession.interleaved fun db => db = twoUnpaid).restrict OwnKeys).Reachable s' :=
    fun _ _ hs hown hact => hs.step ⟨hown, hact⟩
  have h1 := hstep (.begin 0 (payLassi 20)) h0 trivial rfl
  have hnew : ∀ k, (payLassi 20).OnlyOn twoUnpaid k := fun _ => List.forall_mem_nil _
  -- the one lookup, then the two reads, the key and the write
  have h2 := hstep (.run 0 ()) h1 (fun c find next hrun k _ => by cases hrun; exact hnew k) rfl
  have h3 := hstep (.run 0 ()) h2 (fun c find next hrun => by cases hrun) rfl
  have h4 := hstep (.run 0 ()) h3 (fun c find next hrun => by cases hrun) rfl
  have h5 := hstep (.run 0 ()) h4 (fun c find next hrun => by cases hrun) rfl
  have h6 := hstep (.run 0 ()) h5 (fun c find next hrun => by cases hrun) rfl
  -- the replay: whatever payment it can hit is of its own order
  have h7 := hstep (.begin 1 (payLassi 20)) h6 trivial rfl
  have h8 := hstep (.run 1 ()) h7 (fun c find next hrun k _ => by
    cases hrun
    exact fun p hp _ => (by decide : ∀ p ∈ _, p.orderId = 20) p hp) rfl
  exact ⟨_, h8, rfl, rfl, rfl, keyed_calls_own (i := 1) (c := payLassi 20) h8 rfl⟩

/-- The key that paid the first order is sent again for the second. -/
def legTwice : List KeyedEvent :=
  [.begin 0 (payLassi 20), .run 0 (), .run 0 (), .run 0 (), .run 0 (), .run 0 (),
    .begin 1 (payLassi 21), .run 1 ()]

/-- **A key of another order is answered with success**, and nothing is paid. -/
theorem key_of_another_order :
    ∃ s, (keyedSession.interleaved fun db => db = twoUnpaid).Reachable s
      ∧ s.running 1 = some (payLassi 21, .answer (.ok ()))
      ∧ ¬ ∀ k ∈ (payLassi 21).key, (payLassi 21).RowOn s.shared k := by
  have hreached : (keyedSession.interleaved fun db => db = twoUnpaid).Reachable _ :=
    Session.replay_reached (s := twoUnpaid) (by rfl) legTwice rfl
  refine ⟨_, hreached, rfl, ?_⟩
  intro hown
  obtain ⟨p, hp, -, horder⟩ := hown "leg" rfl
  exact (by decide : ∀ p ∈ _, p.orderId ≠ 21) p hp horder

end OraOS.Orders
