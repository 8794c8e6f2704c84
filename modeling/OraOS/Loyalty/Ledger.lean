/-
  OraOS.Loyalty.Ledger — the loyalty rules and the ledger's write paths
  (`loyalty.rules.ts`, `LoyaltyService`).

  Points are the sum of immutable rows.  Earning and its reversal, redeeming and
  its restore are tied to an order and unique per (order, type).

    * `append_ok`       — what a successful append adds;
    * `earnForOrder_ok`, `redeemForOrder_ok` — each adds at most its one row;
    * `reverseForOrder_earned`, `restoreRedeemedForOrder_spec` — the undo paths
                          always succeed, and what they leave is `Undone`.
-/
import OraOS.Api.Tables
import OraOS.Lib.Tally

namespace OraOS.Loyalty

open OraOS.Api
open OraOS.Lib

/-! ## §1. The rules. -/

/-- `DEFAULT_LOYALTY_CONFIG`: a point per ₹10, ₹1 per point. -/
def defaultLoyaltyConfig : LoyaltyConfig :=
  { isEnabled := true, earnAmountMinor := 1000, earnPoints := 1, redeemPoints := 1,
    redeemAmountMinor := 100, minimumRedeemPoints := 0,
    maximumRedeemPointsPerOrder := none }

/-- The rates a restaurant starts with are in order. -/
theorem defaultLoyaltyConfig_valid : defaultLoyaltyConfig.Valid := by
  refine ⟨?_, ?_, ?_, ?_, ?_, ?_, nofun⟩ <;> decide

/-- `getConfig`: the tenant's row, or the defaults. -/
def getConfig (db : Db) : LoyaltyConfig :=
  match db.loyaltySettings with
  | some s => s.config
  | none => defaultLoyaltyConfig

theorem getConfig_valid (db : Db) : (getConfig db).Valid := by
  unfold getConfig
  split
  next s _ => exact s.valid
  next => exact defaultLoyaltyConfig_valid

/-- The earn rate a credit was given at. -/
def earnSnapshot (c : LoyaltyConfig) : ConfigSnapshot :=
  .earn c.earnAmountMinor c.earnPoints

/-- The redeem rate a discount was given at. -/
def redeemSnapshot (c : LoyaltyConfig) : ConfigSnapshot :=
  .redeem c.redeemPoints c.redeemAmountMinor

/-- `pointsForOrder`: floored at the point, on the net sale value. -/
def pointsForOrder (subtotalMinor discountMinor : ℤ) (config : LoyaltyConfig) : ℤ :=
  if config.isEnabled then
    let net := subtotalMinor - discountMinor
    if net ≤ 0 then 0 else net * config.earnPoints / config.earnAmountMinor
  else 0

/-- Points given up, and the discount they buy. -/
structure Redemption where
  points : ℤ
  discountMinor : ℤ
  deriving DecidableEq, Repr

/-- `redemptionFor`: the priced redemption, or the reason it is refused. -/
def redemptionFor (points subtotalMinor : ℤ) (config : LoyaltyConfig) :
    Except String Redemption := do
  require (config.isEnabled = true) "Loyalty is turned off"
  require (0 < points) "Enter a whole number of points to redeem"
  require (points % config.redeemPoints = 0)
    ("Redeem points in multiples of " ++ toString config.redeemPoints)
  require (config.minimumRedeemPoints ≤ points)
    ("Redeem at least " ++ toString config.minimumRedeemPoints ++ " points")
  require (∀ m ∈ config.maximumRedeemPointsPerOrder, points ≤ m)
    ("Redeem at most " ++ toString (config.maximumRedeemPointsPerOrder.getD 0)
      ++ " points per order")
  -- whole rewards only
  let discountMinor := points / config.redeemPoints * config.redeemAmountMinor
  require (0 < discountMinor) "These points are worth no discount"
  require (discountMinor ≤ subtotalMinor) "The order is too small for this reward"
  pure ⟨points, discountMinor⟩

/-- A redemption buys something, and never more than the subtotal. -/
theorem redemptionFor_ok {points subtotalMinor : ℤ} {config : LoyaltyConfig}
    {r : Redemption} (h : redemptionFor points subtotalMinor config = .ok r) :
    r.points = points ∧ 0 < points ∧ 0 < r.discountMinor
      ∧ r.discountMinor ≤ subtotalMinor := by
  simp only [redemptionFor, bind_ok, require_ok] at h
  obtain ⟨-, -, -, hpos, -, -, -, -, -, -, -, hdisc, -, hsub, h⟩ := h
  cases pure_ok.mp h
  exact ⟨rfl, hpos, hdisc, hsub⟩

/-! ## §2. Appending an entry. -/

/-- `balance`: the sum of the customer's entries. -/
def balance (l : List LoyaltyEntry) (customerId : Uuid) : ℤ :=
  sumWhere (fun e => decide (e.customerId = customerId)) (·.points) l

/-- The entry of an order of one type, if there is one. -/
def entryOf (l : List LoyaltyEntry) (orderId : Uuid) (type : LoyaltyEntryType) :
    Option LoyaltyEntry :=
  l.find? fun e => decide (e.orderId = some orderId) && decide (e.type = type)

/-- `append`: the ledger's constraints, then the row and its audit entry. -/
def append (db : Db) (ctx : TenantContext) (e : NewLoyaltyEntry) : Except ApiError Db :=
  if hf : fitsInt4 e.points = true then
    if hs : e.type.signOk e.points = true then do
      require (∀ o ∈ e.orderId, entryOf db.loyaltyLedger o e.type = none)
        (.uniqueViolation .loyaltyOrderType)
      require (∀ k ∈ e.idempotencyKey, ∀ r ∈ db.loyaltyLedger, r.idempotencyKey ≠ some k)
        (.uniqueViolation .loyaltyIdempotencyKey)
      let db := db.withLoyaltyLedger (db.loyaltyLedger ++ [⟨e, hf, hs⟩])
      pure (db.record ctx e.customerId (.loyalty e.type e.points e.orderId))
    else .error (.checkViolation "loyalty_ledger_points_sign")
  else .error .outOfRange

/-- `db'` is `db` but for the loyalty ledger and what is added to the audit log. -/
def LoyaltyOnly (db db' : Db) (ledger : List LoyaltyEntry) : Prop :=
  ∃ logs, db' = (db.withLoyaltyLedger ledger).withAuditLogs (db.auditLogs ++ logs)

theorem LoyaltyOnly.refl (db : Db) : LoyaltyOnly db db db.loyaltyLedger := by
  refine ⟨[], ?_⟩
  rw [List.append_nil]
  rfl

theorem LoyaltyOnly.trans {db db' db'' : Db} {l l' : List LoyaltyEntry}
    (h : LoyaltyOnly db db' l) (h' : LoyaltyOnly db' db'' l') : LoyaltyOnly db db'' l' := by
  obtain ⟨logs, rfl⟩ := h
  obtain ⟨logs', rfl⟩ := h'
  refine ⟨logs ++ logs', ?_⟩
  simp only [Db.withLoyaltyLedger, Db.withAuditLogs, List.append_assoc]

/-- **An entry is appended only if its order has none of its kind.** -/
theorem append_ok {db db' : Db} {ctx : TenantContext} {e : NewLoyaltyEntry}
    (h : append db ctx e = .ok db') :
    (∀ o ∈ e.orderId, entryOf db.loyaltyLedger o e.type = none)
      ∧ ∃ r : LoyaltyEntry, r.toNewLoyaltyEntry = e
        ∧ LoyaltyOnly db db' (db.loyaltyLedger ++ [r]) := by
  unfold append at h
  split at h
  next hfit =>
    split at h
    next hsign =>
      simp only [bind_ok, require_ok] at h
      obtain ⟨-, hfree, -, -, h⟩ := h
      cases pure_ok.mp h
      exact ⟨hfree, ⟨e, hfit, hsign⟩, rfl, _, rfl⟩
    next => cases h
  next => cases h

/-- An entry that meets the constraints, of a type the order has none of yet and
without a key, is always appended. -/
theorem append_stored (db : Db) (ctx : TenantContext) (e : NewLoyaltyEntry)
    (hfit : fitsInt4 e.points = true) (hsign : e.type.signOk e.points = true)
    (hfree : ∀ o ∈ e.orderId, entryOf db.loyaltyLedger o e.type = none)
    (hkey : e.idempotencyKey = none) : ∃ db', append db ctx e = .ok db' := by
  have hkeys : ∀ k ∈ e.idempotencyKey, ∀ r ∈ db.loyaltyLedger, r.idempotencyKey ≠ some k := by
    rw [hkey]
    exact nofun
  simp only [append, dif_pos hfit, dif_pos hsign, require_of _ hfree, require_of _ hkeys]
  exact ⟨_, rfl⟩

/-! ## §3. The write paths tied to an order. -/

/-- `assertCustomer`, behind `getSummary`. -/
def assertCustomer (db : Db) (customerId : Uuid) : Except ApiError Unit :=
  require (∃ c ∈ db.customers, c.id = customerId) (.notFound "Customer not found")

/-- A lost race for a unique index is answered with the customer's summary. -/
def orSummary (db : Db) (customerId : Uuid) (write : Except ApiError Db) :
    Except ApiError Db :=
  match write with
  | .error (.uniqueViolation _) => do
      assertCustomer db customerId
      pure db
  | result => result

/-- An order-tied entry without an actor or a key. -/
def orderEntry (customerId : Uuid) (type : LoyaltyEntryType) (points : ℤ) (orderId : Uuid)
    (configSnapshot : Option ConfigSnapshot) : NewLoyaltyEntry :=
  { customerId, type, points, orderId := some orderId, reason := none,
    actorUserId := none, idempotencyKey := none, configSnapshot }

/-- `earnForOrder`: credits the points an order earned, once. -/
def earnForOrder (db : Db) (ctx : TenantContext) (orderId : Uuid) : Except ApiError Db := do
  let order ← found (db.findOrder orderId) (.notFound "Order not found")
  let customerId ← found order.customerId (.badRequest "Order has no customer to credit")
  require (order.status ≠ .voided ∧ order.status ≠ .cancelled)
    (.badRequest "A voided or cancelled order earns no points")
  -- the programme as it is now, not as it was at the sale
  let config := getConfig db
  let points := pointsForOrder order.subtotalMinor order.discountMinor config
  if (entryOf db.loyaltyLedger orderId .earn).isSome ∨ config.isEnabled = false ∨ points ≤ 0 then
    pure db
  else
    orSummary db customerId
      (append db ctx (orderEntry customerId .earn points orderId (some (earnSnapshot config))))

/-- `reverseForOrder`: takes the earned points back, once. -/
def reverseForOrder (db : Db) (ctx : TenantContext) (orderId : Uuid) :
    Except ApiError Db := do
  let earn ← found (entryOf db.loyaltyLedger orderId .earn)
    (.notFound "No earned points to reverse for this order")
  -- once per order, whatever the number of refunds
  if (entryOf db.loyaltyLedger orderId .refundReversal).isSome then pure db
  else
    orSummary db earn.customerId
      (append db ctx (orderEntry earn.customerId .refundReversal (-earn.points) orderId none))

/-- `redeemForOrder`: the debit of a redemption, inside the order transaction. -/
def redeemForOrder (db : Db) (ctx : TenantContext) (customerId orderId : Uuid) (points : ℤ)
    (configSnapshot : Option ConfigSnapshot) : Except ApiError Db := do
  require (∃ c ∈ db.customers, c.id = customerId) (.notFound "Customer not found")
  require (points ≤ balance db.loyaltyLedger customerId)
    (.badRequest "Not enough points to redeem")
  append db ctx { orderEntry customerId .redeem (-points) orderId configSnapshot with
    actorUserId := some ctx.userId }

/-- `restoreRedeemedForOrder`: gives the redeemed points back, once. -/
def restoreRedeemedForOrder (db : Db) (ctx : TenantContext) (orderId : Uuid) :
    Except ApiError Db :=
  match entryOf db.loyaltyLedger orderId .redeem with
  | none => .ok db
  | some redeem =>
      if (entryOf db.loyaltyLedger orderId .redeemReversal).isSome then .ok db
      else
        orSummary db redeem.customerId
          (append db ctx (orderEntry redeem.customerId .redeemReversal (-redeem.points)
            orderId none))

/-! ## §4. What the write paths add. -/

/-- What lost the race of the index answers with the summary and writes nothing. -/
theorem orSummary_ok {db db' : Db} {customerId : Uuid} {write : Except ApiError Db}
    (h : orSummary db customerId write = .ok db') : write = .ok db' ∨ db' = db := by
  unfold orSummary at h
  split at h
  next =>
    obtain ⟨-, -, h⟩ := bind_ok.mp h
    exact .inr (pure_ok.mp h).symm
  next => exact .inl h

/-- Whatever an append answers, only the ledger and its audit trail can differ. -/
theorem orSummary_append {db db' : Db} {ctx : TenantContext} {customerId : Uuid}
    {e : NewLoyaltyEntry} (h : orSummary db customerId (append db ctx e) = .ok db') :
    ∃ ledger, LoyaltyOnly db db' ledger := by
  rcases orSummary_ok h with h | rfl
  · obtain ⟨-, r, -, hdb⟩ := append_ok h
    exact ⟨_, hdb⟩
  · exact ⟨_, .refl _⟩

/-- A reversal writes the ledger only. -/
theorem reverseForOrder_loyaltyOnly {db db' : Db} {ctx : TenantContext} {orderId : Uuid}
    (h : reverseForOrder db ctx orderId = .ok db') : ∃ ledger, LoyaltyOnly db db' ledger := by
  obtain ⟨earn, -, h⟩ := bind_ok.mp h
  split at h
  · cases pure_ok.mp h
    exact ⟨_, .refl _⟩
  · exact orSummary_append h

theorem restoreRedeemedForOrder_loyaltyOnly {db db' : Db} {ctx : TenantContext} {orderId : Uuid}
    (h : restoreRedeemedForOrder db ctx orderId = .ok db') :
    ∃ ledger, LoyaltyOnly db db' ledger := by
  unfold restoreRedeemedForOrder at h
  split at h
  · cases h
    exact ⟨_, .refl _⟩
  · split at h
    · cases h
      exact ⟨_, .refl _⟩
    · exact orSummary_append h

/-- `r` is a new entry of the order `orderId`, the first of its type there. -/
structure Fresh (l : List LoyaltyEntry) (orderId : Uuid) (r : LoyaltyEntry) : Prop where
  order : r.orderId = some orderId
  first : entryOf l orderId r.type = none

/-- Earning adds at most one EARN, and only to a sale that is not reversed. -/
theorem earnForOrder_ok {db db' : Db} {ctx : TenantContext} {orderId : Uuid}
    (h : earnForOrder db ctx orderId = .ok db') :
    db' = db ∨ ∃ o r, db.findOrder orderId = some o ∧ o.status ≠ .voided
      ∧ o.status ≠ .cancelled ∧ r.type = .earn ∧ Fresh db.loyaltyLedger orderId r
      ∧ LoyaltyOnly db db' (db.loyaltyLedger ++ [r]) := by
  simp only [earnForOrder, bind_ok, found_ok, require_ok] at h
  obtain ⟨o, ho, customerId, -, -, hstatus, h⟩ := h
  split at h
  next => exact .inl (pure_ok.mp h).symm
  next =>
    rcases orSummary_ok h with h | rfl
    · obtain ⟨hfree, r, hr, hdb⟩ := append_ok h
      have htype : r.type = .earn := by rw [hr]; rfl
      refine .inr ⟨o, r, ho, hstatus.1, hstatus.2, htype, ⟨by rw [hr]; rfl, ?_⟩, hdb⟩
      rw [htype]
      exact hfree orderId rfl
    · exact .inl rfl

/-- Redeeming adds exactly one REDEEM of minus the points. -/
theorem redeemForOrder_ok {db db' : Db} {ctx : TenantContext} {customerId orderId : Uuid}
    {points : ℤ} {snapshot : Option ConfigSnapshot}
    (h : redeemForOrder db ctx customerId orderId points snapshot = .ok db') :
    ∃ r, r.type = .redeem ∧ r.points = -points ∧ Fresh db.loyaltyLedger orderId r
      ∧ LoyaltyOnly db db' (db.loyaltyLedger ++ [r]) := by
  simp only [redeemForOrder, bind_ok] at h
  obtain ⟨-, -, -, -, h⟩ := h
  obtain ⟨hfree, r, hr, hdb⟩ := append_ok h
  have htype : r.type = .redeem := by rw [hr]; rfl
  refine ⟨r, htype, by rw [hr]; rfl, ⟨by rw [hr]; rfl, ?_⟩, hdb⟩
  rw [htype]
  exact hfree orderId rfl

/-- Undoing an entry of one type by one of another: nothing to undo, undone
already, or undone now by a row of the opposite points for the same customer. -/
inductive Undone (db : Db) (orderId : Uuid) (type undo : LoyaltyEntryType) (db' : Db) :
    Prop where
  | nothing : entryOf db.loyaltyLedger orderId type = none → db' = db →
      Undone db orderId type undo db'
  | already : (entryOf db.loyaltyLedger orderId undo).isSome → db' = db →
      Undone db orderId type undo db'
  | now {e r : LoyaltyEntry} : entryOf db.loyaltyLedger orderId type = some e →
      r.type = undo → r.points = -e.points → r.customerId = e.customerId →
      Fresh db.loyaltyLedger orderId r →
      LoyaltyOnly db db' (db.loyaltyLedger ++ [r]) → Undone db orderId type undo db'

/-- The append both undo paths end in, when the order has no undo row yet: with
points that fit and a sign the type allows, the row goes in. -/
theorem undo_append {db : Db} {ctx : TenantContext} {orderId : Uuid}
    {type undo : LoyaltyEntryType} {e : LoyaltyEntry}
    (he : entryOf db.loyaltyLedger orderId type = some e)
    (hno : ¬ (entryOf db.loyaltyLedger orderId undo).isSome = true)
    (hfit : fitsInt4 (-e.points) = true) (hsign : undo.signOk (-e.points) = true) :
    ∃ db', orSummary db e.customerId
        (append db ctx (orderEntry e.customerId undo (-e.points) orderId none)) = .ok db'
      ∧ Undone db orderId type undo db' := by
  have hfree : ∀ o ∈ (some orderId : Option Uuid), entryOf db.loyaltyLedger o undo = none := by
    rintro o ⟨rfl⟩
    exact Option.not_isSome_iff_eq_none.mp hno
  obtain ⟨db', hdb'⟩ := append_stored db ctx
    (orderEntry e.customerId undo (-e.points) orderId none) hfit hsign hfree rfl
  refine ⟨db', ?_, ?_⟩
  · rw [hdb']
    rfl
  · obtain ⟨-, r, hr, hrest⟩ := append_ok hdb'
    have htype : r.type = undo := by rw [hr]; rfl
    refine .now he htype (by rw [hr]; rfl) (by rw [hr]; rfl) ⟨by rw [hr]; rfl, ?_⟩ hrest
    rw [htype]
    exact hfree orderId rfl

/-- The entry found is of the kind asked for. -/
theorem type_of_entryOf {l : List LoyaltyEntry} {orderId : Uuid} {type : LoyaltyEntryType}
    {e : LoyaltyEntry} (h : entryOf l orderId type = some e) : e.type = type := by
  have := List.find?_some h
  simp only [Bool.and_eq_true, decide_eq_true_eq] at this
  exact this.2

/-- Nothing was earned: refused, and nothing happens. -/
theorem reverseForOrder_nothing {db : Db} {ctx : TenantContext} {orderId : Uuid}
    (h : entryOf db.loyaltyLedger orderId .earn = none) :
    reverseForOrder db ctx orderId
      = .error (.notFound "No earned points to reverse for this order") := by
  simp only [reverseForOrder, h]
  rfl

/-- **Reversing earned points** never fails: minus a positive integer fits where
the integer does. -/
theorem reverseForOrder_earned {db : Db} (ctx : TenantContext) {orderId : Uuid}
    {e : LoyaltyEntry} (he : entryOf db.loyaltyLedger orderId .earn = some e) :
    ∃ db', reverseForOrder db ctx orderId = .ok db'
      ∧ Undone db orderId .earn .refundReversal db' := by
  have hpos : 0 < e.points := by
    have := e.sign_ok
    rw [type_of_entryOf he] at this
    simpa [LoyaltyEntryType.signOk] using this
  have hfit : fitsInt4 (-e.points) = true := by
    have := e.points_fits
    simp only [fitsInt4, decide_eq_true_eq] at this ⊢
    omega
  have hsign : LoyaltyEntryType.refundReversal.signOk (-e.points) = true := by
    simp only [LoyaltyEntryType.signOk, decide_eq_true_eq]
    omega
  have hunfold : reverseForOrder db ctx orderId
      = if (entryOf db.loyaltyLedger orderId .refundReversal).isSome then pure db
        else orSummary db e.customerId (append db ctx
          (orderEntry e.customerId .refundReversal (-e.points) orderId none)) := by
    simp only [reverseForOrder, he]
    rfl
  rw [hunfold]
  split
  next hyes => exact ⟨db, rfl, .already hyes rfl⟩
  next hno => exact undo_append he hno hfit hsign

/-- **Restoring redeemed points** never fails. -/
theorem restoreRedeemedForOrder_spec (db : Db) (ctx : TenantContext) (orderId : Uuid)
    (hfit : ∀ e, entryOf db.loyaltyLedger orderId .redeem = some e →
      fitsInt4 (-e.points) = true) :
    ∃ db', restoreRedeemedForOrder db ctx orderId = .ok db'
      ∧ Undone db orderId .redeem .redeemReversal db' := by
  unfold restoreRedeemedForOrder
  cases he : entryOf db.loyaltyLedger orderId .redeem with
  | none => exact ⟨db, rfl, .nothing he rfl⟩
  | some e =>
      have hsign : LoyaltyEntryType.redeemReversal.signOk (-e.points) = true := by
        have hneg := e.sign_ok
        rw [type_of_entryOf he] at hneg
        simp only [LoyaltyEntryType.signOk, decide_eq_true_eq] at hneg ⊢
        omega
      show ∃ db', (if (entryOf db.loyaltyLedger orderId .redeemReversal).isSome then _ else _)
        = _ ∧ _
      split
      next hyes => exact ⟨db, rfl, .already hyes rfl⟩
      next hno => exact undo_append he hno (hfit e he) hsign

end OraOS.Loyalty
