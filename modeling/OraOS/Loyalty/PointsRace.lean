/-
  OraOS.Loyalty.PointsRace — everything that writes points, under READ COMMITTED,
  any number of calls at once.

  The debits take the customer's row lock, read the balance and append; the credits
  and the reversals append without it.  Reversals may push a balance below zero, so
  what is protected is the sum of the other entries:

    * `points_alone`            — on its own each call is the service's method;
    * `pointsSession_knows`     — the debit in flight stays covered by that sum;
    * `points_never_overspent`  — so it is never negative.
-/
import OraOS.Loyalty.Manual
import OraOS.Lib.Sessions

namespace OraOS.Loyalty

open OraOS.Api
open OraOS.Lib
open OraOS.Inventory

/-! ## §1. What may be spent. -/

/-- The entries of a customer that a spender has to see. -/
def spends (customerId : Uuid) (e : LoyaltyEntry) : Bool :=
  decide (e.customerId = customerId) && decide (e.type ≠ .refundReversal)

/-- The entries that take back what a refunded order had earned. -/
def reverses (customerId : Uuid) (e : LoyaltyEntry) : Bool :=
  decide (e.customerId = customerId) && decide (e.type = .refundReversal)

/-- The customer's entries other than refund reversals. -/
def spendable (l : List LoyaltyEntry) (customerId : Uuid) : ℤ :=
  sumWhere (spends customerId) (·.points) l

/-- The customer's refund reversals. -/
def reversed (l : List LoyaltyEntry) (customerId : Uuid) : ℤ :=
  sumWhere (reverses customerId) (·.points) l

/-- A balance is what can be spent and what was taken back. -/
theorem balance_split (l : List LoyaltyEntry) (customerId : Uuid) :
    balance l customerId = spendable l customerId + reversed l customerId := by
  unfold balance spendable reversed
  induction l with
  | nil => rfl
  | cons e l ih =>
      simp only [sumWhere_cons, ih, spends, reverses]
      by_cases hc : e.customerId = customerId
      · by_cases ht : e.type = .refundReversal
        · simp [hc, ht]
          omega
        · simp [hc, ht]
          omega
      · simp [hc]

/-- A reversal takes points. -/
theorem reversed_nonpos (l : List LoyaltyEntry) (customerId : Uuid) :
    reversed l customerId ≤ 0 := by
  have hneg : 0 ≤ sumWhere (reverses customerId) (fun e : LoyaltyEntry => -e.points) l := by
    apply sumWhere_nonneg
    intro e _ he
    have htype : e.type = .refundReversal := by
      simp only [reverses, Bool.and_eq_true, decide_eq_true_eq] at he
      exact he.2
    have hsign := e.sign_ok
    rw [htype] at hsign
    simp only [LoyaltyEntryType.signOk, decide_eq_true_eq] at hsign
    omega
  rw [sumWhere_neg] at hneg
  unfold reversed
  omega

/-- **A reversal only takes away**, so what can be spent is never less than the balance. -/
theorem balance_le_spendable (l : List LoyaltyEntry) (customerId : Uuid) :
    balance l customerId ≤ spendable l customerId := by
  have := reversed_nonpos l customerId
  rw [balance_split]
  omega

theorem spendable_append (l : List LoyaltyEntry) (r : LoyaltyEntry) (customerId : Uuid) :
    spendable (l ++ [r]) customerId
      = spendable l customerId + if spends customerId r then r.points else 0 := by
  unfold spendable
  rw [sumWhere_append, sumWhere_cons, sumWhere_nil, add_zero]

/-! ## §2. The calls, statement by statement. -/

/-- Writes of a transaction that is not the ledger's business. -/
structure OtherWrites where
  write : Db → Db
  ledger : ∀ db, (write db).loyaltyLedger = db.loyaltyLedger

/-- Nothing else is written. -/
def OtherWrites.none : OtherWrites := ⟨id, fun _ => rfl⟩

/-- An order transaction as `redeemForOrder` sees it. -/
structure OrderDebit where
  ctx : TenantContext
  customerId : Uuid
  orderId : Uuid
  points : ℤ
  configSnapshot : Option ConfigSnapshot
  /-- what the order itself commits with the debit -/
  rest : OtherWrites

/-- The requests that write a customer's points. -/
inductive PointsCall where
  | earn (ctx : TenantContext) (orderId : Uuid)
  | reverse (ctx : TenantContext) (orderId : Uuid)
  | restore (ctx : TenantContext) (orderId : Uuid)
  | redeem (ctx : TenantContext) (customerId : Uuid) (dto : RedeemPointsDto)
  | adjust (ctx : TenantContext) (customerId : Uuid) (dto : AdjustPointsDto)
  | order (d : OrderDebit)

/-- An entry about to be appended, and its transaction. -/
structure Appending where
  ctx : TenantContext
  entry : NewLoyaltyEntry
  /-- the customer's row is locked -/
  locked : Bool
  /-- a lost race for a unique index is answered with the summary -/
  recovers : Bool
  rest : OtherWrites

/-- How far a call is, with what its statements returned. -/
inductive PointsPhase where
  | asked
  | orderRead (customerId : Uuid) (subtotalMinor discountMinor : ℤ)
  | priced (entry : NewLoyaltyEntry) (isEnabled : Bool)
  | entryRead (e : LoyaltyEntry)
  | locked
  | notReplayed
  | checked (config : LoyaltyConfig)
  | appending (a : Appending)
  | inserting (a : Appending)
  | staged (a : Appending) (row : LoyaltyEntry)
  | lost (customerId : Uuid)
  | answered (result : Except ApiError Unit)

/-- The customer's row and the entries of the ledger's unique indexes. -/
inductive PointsLock where
  | customer (customerId : Uuid)
  | orderType (orderId : Uuid) (type : LoyaltyEntryType)
  | key (idempotencyKey : String)
  deriving DecidableEq

/-- The index entry of a row; no row is in both indexes. -/
def entryLock (e : NewLoyaltyEntry) : Option PointsLock :=
  match e.orderId, e.idempotencyKey with
  | some orderId, _ => some (.orderType orderId e.type)
  | none, some k => some (.key k)
  | none, none => none

/-- The INSERT of `append`: the constraints and the unique indexes. -/
def insertEntry (db : Db) (e : NewLoyaltyEntry) : Except ApiError LoyaltyEntry :=
  if hf : fitsInt4 e.points = true then
    if hs : e.type.signOk e.points = true then do
      require (∀ o ∈ e.orderId, entryOf db.loyaltyLedger o e.type = none)
        (.uniqueViolation .loyaltyOrderType)
      require (∀ k ∈ e.idempotencyKey, ∀ r ∈ db.loyaltyLedger, r.idempotencyKey ≠ some k)
        (.uniqueViolation .loyaltyIdempotencyKey)
      pure ⟨e, hf, hs⟩
    else .error (.checkViolation "loyalty_ledger_points_sign")
  else .error .outOfRange

/-- The row and its audit entry, as the commit publishes them. -/
def publishEntry (db : Db) (ctx : TenantContext) (r : LoyaltyEntry) : Db :=
  (db.withLoyaltyLedger (db.loyaltyLedger ++ [r])).record ctx r.customerId
    (.loyalty r.type r.points r.orderId)

/-- An append inserts the entry and announces it. -/
theorem append_eq (db : Db) (ctx : TenantContext) (e : NewLoyaltyEntry) :
    append db ctx e = (insertEntry db e).map (publishEntry db ctx) := by
  unfold append insertEntry
  split
  · split
    · by_cases horder : ∀ o ∈ e.orderId, entryOf db.loyaltyLedger o e.type = none
      · by_cases hkey : ∀ k ∈ e.idempotencyKey, ∀ r ∈ db.loyaltyLedger, r.idempotencyKey ≠ some k
        · rw [require_of _ horder, require_of _ hkey]
          rfl
        · rw [require_of _ horder]
          simp only [require, if_neg hkey]
          rfl
      · simp only [require, if_neg horder]
        rfl
    · rfl
  · rfl

/-- The first transaction of `earnForOrder`. -/
def orderToCredit (db : Db) (orderId : Uuid) : Except ApiError (Uuid × Order) := do
  let order ← found (db.findOrder orderId) (.notFound "Order not found")
  let customerId ← found order.customerId (.badRequest "Order has no customer to credit")
  require (order.status ≠ .voided ∧ order.status ≠ .cancelled)
    (.badRequest "A voided or cancelled order earns no points")
  pure (customerId, order)

/-- The entries the calls append. -/
def OrderDebit.entry (d : OrderDebit) : NewLoyaltyEntry :=
  { orderEntry d.customerId .redeem (-d.points) d.orderId d.configSnapshot with
    actorUserId := some d.ctx.userId }

/-- The entry of a credit. -/
def earnEntry (orderId customerId : Uuid) (subtotalMinor discountMinor : ℤ)
    (config : LoyaltyConfig) : NewLoyaltyEntry :=
  orderEntry customerId .earn (pointsForOrder subtotalMinor discountMinor config) orderId
    (some (earnSnapshot config))

/-- The entry that takes another one back. -/
def undoEntry (e : LoyaltyEntry) (undo : LoyaltyEntryType) (orderId : Uuid) : NewLoyaltyEntry :=
  orderEntry e.customerId undo (-e.points) orderId none

/-- One turn of a call: a statement, a lock, a commit or an answer. -/
abbrev PointsTurn := Turn Db (PointsCall × PointsPhase) PointsLock

/-- Goes on with what a check returned, or answers with its error. -/
def orAnswer {α : Type} (r : PointsCall) (x : Except ApiError α) (next : α → PointsTurn) :
    PointsTurn :=
  match x with
  | .ok a => next a
  | .error e => .rollback (r, .answered (.error e))

/-- `earnForOrder`, up to its append. -/
def nextEarn (db : Db) (ctx : TenantContext) (orderId : Uuid) : PointsPhase → PointsTurn
  | .asked => orAnswer (.earn ctx orderId) (orderToCredit db orderId) fun (customerId, o) =>
      .go (.earn ctx orderId, .orderRead customerId o.subtotalMinor o.discountMinor)
  -- the second transaction: rate, existing row, append
  | .orderRead customerId subtotalMinor discountMinor =>
      .go (.earn ctx orderId,
        .priced (earnEntry orderId customerId subtotalMinor discountMinor (getConfig db))
          (getConfig db).isEnabled)
  | .priced entry isEnabled =>
      if (entryOf db.loyaltyLedger orderId .earn).isSome ∨ isEnabled = false
          ∨ entry.points ≤ 0 then
        .rollback (.earn ctx orderId, .answered (.ok ()))
      else .go (.earn ctx orderId, .appending ⟨ctx, entry, false, true, .none⟩)
  | _ => .idle

/-- What `reverseForOrder` and `restoreRedeemedForOrder` share, up to the append. -/
def nextUndo (db : Db) (r : PointsCall) (ctx : TenantContext) (orderId : Uuid)
    (type undo : LoyaltyEntryType) (nothing : Except ApiError Unit) : PointsPhase → PointsTurn
  | .asked =>
      match entryOf db.loyaltyLedger orderId type with
      | some e => .go (r, .entryRead e)
      | none => .rollback (r, .answered nothing)
  | .entryRead e =>
      if (entryOf db.loyaltyLedger orderId undo).isSome then .rollback (r, .answered (.ok ()))
      else .go (r, .appending ⟨ctx, undoEntry e undo orderId, false, true, .none⟩)
  | _ => .idle

/-- `redeem`, up to its append. -/
def nextRedeem (db : Db) (ctx : TenantContext) (customerId : Uuid) (dto : RedeemPointsDto) :
    PointsPhase → PointsTurn
  | .asked => orAnswer (.redeem ctx customerId dto) (lockCustomer db customerId) fun _ =>
      .lock (.customer customerId) (.redeem ctx customerId dto, .locked)
  | .locked =>
      -- read under the row lock: a replay answers with the entry that is there
      match replay db dto.idempotencyKey with
      | some _ => .rollback (.redeem ctx customerId dto, .answered (.ok ()))
      | none => .go (.redeem ctx customerId dto, .notReplayed)
  | .notReplayed =>
      orAnswer (.redeem ctx customerId dto) (checkRedeem (getConfig db) dto.points) fun _ =>
        .go (.redeem ctx customerId dto, .checked (getConfig db))
  | .checked config =>
      orAnswer (.redeem ctx customerId dto) (checkBalance db customerId dto.points) fun _ =>
        .go (.redeem ctx customerId dto, .appending ⟨ctx, redeemEntry ctx customerId dto config,
          true, (truthy dto.idempotencyKey).isSome, .none⟩)
  | _ => .idle

/-- `adjust`, up to its append. -/
def nextAdjust (db : Db) (ctx : TenantContext) (customerId : Uuid) (dto : AdjustPointsDto) :
    PointsPhase → PointsTurn
  | .asked => orAnswer (.adjust ctx customerId dto) (lockCustomer db customerId) fun _ =>
      .lock (.customer customerId) (.adjust ctx customerId dto, .locked)
  | .locked =>
      -- read under the row lock
      match replay db dto.idempotencyKey with
      | some _ => .rollback (.adjust ctx customerId dto, .answered (.ok ()))
      | none => .go (.adjust ctx customerId dto, .notReplayed)
  | .notReplayed =>
      orAnswer (.adjust ctx customerId dto) (checkAdjust db customerId dto.points) fun _ =>
        .go (.adjust ctx customerId dto, .appending ⟨ctx, adjustEntry ctx customerId dto, true,
          (truthy dto.idempotencyKey).isSome, .none⟩)
  | _ => .idle

/-- `redeemForOrder`, inside an order transaction, up to its append. -/
def nextOrder (db : Db) (d : OrderDebit) : PointsPhase → PointsTurn
  | .asked => orAnswer (.order d) (lockCustomer db d.customerId) fun _ =>
      .lock (.customer d.customerId) (.order d, .locked)
  | .locked => orAnswer (.order d) (checkBalance db d.customerId d.points) fun _ =>
      .go (.order d, .appending ⟨d.ctx, d.entry, true, false, d.rest⟩)
  | _ => .idle

/-- The append, the commit and the recovery, the same for all. -/
def nextAppend (db : Db) (r : PointsCall) : PointsPhase → PointsTurn
  -- the INSERT waits for the transaction that has the index entry
  | .appending a =>
      match entryLock a.entry with
      | some k => .lock k (r, .inserting a)
      | none => .go (r, .inserting a)
  | .inserting a =>
      match insertEntry db a.entry with
      | .ok row => .go (r, .staged a row)
      | .error (.uniqueViolation ix) =>
          if a.recovers then .rollback (r, .lost a.entry.customerId)
          else .rollback (r, .answered (.error (.uniqueViolation ix)))
      | .error e => .rollback (r, .answered (.error e))
  | .staged a row => .commit (a.rest.write (publishEntry db a.ctx row)) (r, .answered (.ok ()))
  -- `getSummary`
  | .lost customerId => .rollback (r, .answered (assertCustomer db customerId))
  | _ => .idle

/-- The next statement of each call, where it stands. -/
def nextPoints (db : Db) : PointsCall × PointsPhase → PointsTurn
  | (r, .appending a) => nextAppend db r (.appending a)
  | (r, .inserting a) => nextAppend db r (.inserting a)
  | (r, .staged a row) => nextAppend db r (.staged a row)
  | (r, .lost customerId) => nextAppend db r (.lost customerId)
  | (.earn ctx orderId, p) => nextEarn db ctx orderId p
  | (.reverse ctx orderId, p) =>
      nextUndo db (.reverse ctx orderId) ctx orderId .earn .refundReversal
        (.error (.notFound "No earned points to reverse for this order")) p
  | (.restore ctx orderId, p) =>
      nextUndo db (.restore ctx orderId) ctx orderId .redeem .redeemReversal (.ok ()) p
  | (.redeem ctx customerId dto, p) => nextRedeem db ctx customerId dto p
  | (.adjust ctx customerId dto, p) => nextAdjust db ctx customerId dto p
  | (.order d, p) => nextOrder db d p

/-- Any number of calls at once, and whatever else does not write points. -/
def pointsSession : Session Db (PointsCall × PointsPhase) PointsCall PointsLock Unit OtherWrites where
  start r := (r, .asked)
  turn _ := nextPoints
  env db w := w.write db

/-! ## §3. On its own each call is the service's method. -/

/-- The request of a call, made alone. -/
def PointsCall.serial (db : Db) : PointsCall → Except ApiError Db
  | .earn ctx orderId => earnForOrder db ctx orderId
  | .reverse ctx orderId => reverseForOrder db ctx orderId
  | .restore ctx orderId => restoreRedeemedForOrder db ctx orderId
  | .redeem ctx customerId dto => Loyalty.redeem db ctx customerId dto
  | .adjust ctx customerId dto => Loyalty.adjust db ctx customerId dto
  | .order d =>
      (redeemForOrder db d.ctx d.customerId d.orderId d.points d.configSnapshot).map d.rest.write

/-- Where a call with that outcome stands at its end. -/
def settled (db : Db) (r : PointsCall) : Except ApiError Db → Db × (PointsCall × PointsPhase)
  | .ok db' => (db', (r, .answered (.ok ())))
  | .error e => (db, (r, .answered (.error e)))

/-- An answered call does nothing more. -/
theorem alone_answered (db : Db) (r : PointsCall) (x : Except ApiError Unit) (os : List Unit) :
    pointsSession.alone os db (r, .answered x) = (db, (r, .answered x)) := by
  apply Session.alone_idle
  intro _
  cases r <;> rfl

/-- The end of the transaction, with its recovery. -/
def Appending.serial (a : Appending) (db : Db) : Except ApiError Db :=
  if a.recovers then orSummary db a.entry.customerId ((append db a.ctx a.entry).map a.rest.write)
  else (append db a.ctx a.entry).map a.rest.write

/-- An insert, alone, is the append. -/
theorem alone_inserting (db : Db) (r : PointsCall) (a : Appending) (os : List Unit) :
    pointsSession.alone (() :: () :: os) db (r, .inserting a) = settled db r (a.serial db) := by
  have hserial : a.serial db = if a.recovers
      then orSummary db a.entry.customerId
        ((insertEntry db a.entry).map fun row => a.rest.write (publishEntry db a.ctx row))
      else (insertEntry db a.entry).map fun row => a.rest.write (publishEntry db a.ctx row) := by
    unfold Appending.serial
    rw [append_eq]
    cases insertEntry db a.entry <;> rfl
  have hturn : nextPoints db (r, .inserting a) = nextAppend db r (.inserting a) := by
    cases r <;> rfl
  rw [hserial]
  cases hins : insertEntry db a.entry with
  | ok row =>
      have hinsert : pointsSession.turn () db (r, .inserting a) = .go (r, .staged a row) := by
        show nextPoints db (r, .inserting a) = _
        rw [hturn]
        simp only [nextAppend, hins]
      have hcommit : pointsSession.turn () db (r, .staged a row)
          = .commit (a.rest.write (publishEntry db a.ctx row)) (r, .answered (.ok ())) := by
        cases r <;> rfl
      rw [Session.alone_go hinsert, Session.alone_commit hcommit, alone_answered]
      split <;> rfl
  | error e =>
      -- a lost index is answered with the summary, any other error as it is
      by_cases hlost : a.recovers = true ∧ ∃ ix, e = .uniqueViolation ix
      · obtain ⟨hrec, ix, rfl⟩ := hlost
        have hrecover : pointsSession.turn () db (r, .inserting a)
            = .rollback (r, .lost a.entry.customerId) := by
          show nextPoints db (r, .inserting a) = _
          rw [hturn]
          simp only [nextAppend, hins, if_pos hrec]
        have hsummary : pointsSession.turn () db (r, .lost a.entry.customerId)
            = .rollback (r, .answered (assertCustomer db a.entry.customerId)) := by
          cases r <;> rfl
        rw [Session.alone_rollback hrecover, Session.alone_rollback hsummary, alone_answered,
          if_pos hrec]
        show _ = settled db r (assertCustomer db a.entry.customerId >>= fun _ => pure db)
        cases assertCustomer db a.entry.customerId <;> rfl
      · have hfail : pointsSession.turn () db (r, .inserting a)
            = .rollback (r, .answered (.error e)) := by
          show nextPoints db (r, .inserting a) = _
          rw [hturn]
          simp only [nextAppend, hins]
          split
          next heq => cases heq
          next ix heq =>
            cases heq
            rw [if_neg fun hrec => hlost ⟨hrec, ix, rfl⟩]
          next heq =>
            cases heq
            rfl
        rw [Session.alone_rollback hfail, alone_answered]
        split
        next hrec =>
          cases e with
          | uniqueViolation ix => exact absurd ⟨hrec, ix, rfl⟩ hlost
          | _ => rfl
        next => rfl

/-- The append of a call, alone, is the serial one. -/
theorem alone_appending (db : Db) (r : PointsCall) (a : Appending) (os : List Unit) :
    pointsSession.alone (() :: () :: () :: os) db (r, .appending a)
      = settled db r (a.serial db) := by
  have hturn : nextPoints db (r, .appending a) = nextAppend db r (.appending a) := by
    cases r <;> rfl
  cases hlock : entryLock a.entry with
  | none =>
      have hgo : pointsSession.turn () db (r, .appending a) = .go (r, .inserting a) := by
        show nextPoints db (r, .appending a) = _
        rw [hturn]
        simp only [nextAppend, hlock]
      rw [Session.alone_go hgo, alone_inserting]
  | some k =>
      have hgo : pointsSession.turn () db (r, .appending a) = .lock k (r, .inserting a) := by
        show nextPoints db (r, .appending a) = _
        rw [hturn]
        simp only [nextAppend, hlock]
      rw [Session.alone_lock hgo, alone_inserting]

/-- A check that fails ends the call with its error. -/
theorem alone_orAnswer {α : Type} {db : Db} {r : PointsCall} {t : PointsCall × PointsPhase}
    {x : Except ApiError α} {next : α → PointsTurn} {os : List Unit} {f : α → Except ApiError Db}
    (hturn : nextPoints db t = orAnswer r x next)
    (hok : ∀ a, x = .ok a → pointsSession.alone (() :: os) db t = settled db r (f a)) :
    pointsSession.alone (() :: os) db t = settled db r (x >>= f) := by
  cases hx : x with
  | ok a => exact hok a hx
  | error e =>
      have hfail : pointsSession.turn () db t = .rollback (r, .answered (.error e)) := by
        show nextPoints db t = _
        rw [hturn, hx]
        rfl
      rw [Session.alone_rollback hfail, alone_answered]
      rfl

/-- A credit, alone, is `earnForOrder`. -/
theorem alone_earn (db : Db) (ctx : TenantContext) (orderId : Uuid) (os : List Unit) :
    pointsSession.alone (() :: () :: () :: () :: () :: () :: os) db (.earn ctx orderId, .asked)
      = settled db (.earn ctx orderId) (earnForOrder db ctx orderId) := by
  have hserial : earnForOrder db ctx orderId = orderToCredit db orderId >>= fun (customerId, o) =>
      let entry := earnEntry orderId customerId o.subtotalMinor o.discountMinor (getConfig db)
      if (entryOf db.loyaltyLedger orderId .earn).isSome ∨ (getConfig db).isEnabled = false
          ∨ entry.points ≤ 0 then pure db
      else orSummary db customerId (append db ctx entry) := by
    unfold earnForOrder orderToCredit
    simp only [bind_assoc, pure_bind]
    rfl
  rw [hserial]
  refine alone_orAnswer rfl ?_
  intro credit hcredit
  obtain ⟨customerId, o⟩ := credit
  have hread : pointsSession.turn () db (.earn ctx orderId, .asked)
      = .go (.earn ctx orderId, .orderRead customerId o.subtotalMinor o.discountMinor) := by
    show nextEarn db ctx orderId .asked = _
    simp only [nextEarn, hcredit, orAnswer]
  have hrate : pointsSession.turn () db
        (.earn ctx orderId, .orderRead customerId o.subtotalMinor o.discountMinor)
      = .go (.earn ctx orderId, .priced
        (earnEntry orderId customerId o.subtotalMinor o.discountMinor (getConfig db))
        (getConfig db).isEnabled) := rfl
  rw [Session.alone_go hread, Session.alone_go hrate]
  dsimp only
  -- credited before, switched off, or worth no point: nothing is written
  by_cases hskip : (entryOf db.loyaltyLedger orderId .earn).isSome ∨
      (getConfig db).isEnabled = false
      ∨ (earnEntry orderId customerId o.subtotalMinor o.discountMinor (getConfig db)).points ≤ 0
  · rw [if_pos hskip, Session.alone_rollback (if_pos hskip), alone_answered]
    rfl
  · rw [if_neg hskip, Session.alone_go (if_neg hskip), alone_appending]
    show settled db _ (orSummary db customerId ((append db ctx _).map id)) = _
    rw [Except.map_id]
    rfl

/-- A reversal, alone, is the request that undoes. -/
theorem alone_undo (db : Db) (r : PointsCall) (ctx : TenantContext) (orderId : Uuid)
    (type undo : LoyaltyEntryType) (nothing : Except ApiError Unit) (os : List Unit)
    (hasked : nextPoints db (r, .asked) = nextUndo db r ctx orderId type undo nothing .asked)
    (hread : ∀ e, nextPoints db (r, .entryRead e)
      = nextUndo db r ctx orderId type undo nothing (.entryRead e)) :
    pointsSession.alone (() :: () :: () :: () :: () :: os) db (r, .asked)
      = settled db r (match entryOf db.loyaltyLedger orderId type with
        | none => nothing.map fun _ => db
        | some e =>
            if (entryOf db.loyaltyLedger orderId undo).isSome then .ok db
            else orSummary db e.customerId (append db ctx (undoEntry e undo orderId))) := by
  cases hentry : entryOf db.loyaltyLedger orderId type with
  | none =>
      have hnothing : pointsSession.turn () db (r, .asked)
          = .rollback (r, .answered nothing) := by
        refine hasked.trans ?_
        simp only [nextUndo, hentry]
      rw [Session.alone_rollback hnothing, alone_answered]
      cases nothing <;> rfl
  | some e =>
      have hfound : pointsSession.turn () db (r, .asked) = .go (r, .entryRead e) := by
        refine hasked.trans ?_
        simp only [nextUndo, hentry]
      rw [Session.alone_go hfound]
      dsimp only
      -- taken back before: the second reversal writes nothing
      by_cases hdone : (entryOf db.loyaltyLedger orderId undo).isSome = true
      · rw [if_pos hdone, Session.alone_rollback ((hread e).trans (if_pos hdone)),
          alone_answered]
        rfl
      · rw [if_neg hdone, Session.alone_go ((hread e).trans (if_neg hdone)), alone_appending]
        show settled db _ (orSummary db e.customerId ((append db ctx _).map id)) = _
        rw [Except.map_id]
        rfl

/-- An append behind a key, alone, falls back on the summary. -/
theorem alone_keyed (db : Db) (r : PointsCall) (ctx : TenantContext) (e : NewLoyaltyEntry)
    (os : List Unit) :
    pointsSession.alone (() :: () :: () :: os) db
        (r, .appending ⟨ctx, e, true, (truthy e.idempotencyKey).isSome, .none⟩)
      = settled db r (orSummaryKeyed db e.customerId e.idempotencyKey (append db ctx e)) := by
  rw [alone_appending]
  have hid : (append db ctx e).map OtherWrites.none.write = append db ctx e := by
    cases append db ctx e <;> rfl
  unfold Appending.serial orSummaryKeyed
  simp only [hid]

/-- A redemption, alone, is `redeem`. -/
theorem alone_redeem (db : Db) (ctx : TenantContext) (customerId : Uuid) (dto : RedeemPointsDto)
    (os : List Unit) :
    pointsSession.alone (() :: () :: () :: () :: () :: () :: () :: os) db
        (.redeem ctx customerId dto, .asked)
      = settled db (.redeem ctx customerId dto) (Loyalty.redeem db ctx customerId dto) := by
  rw [redeem_eq]
  -- the checks in their order, each of which may be the answer
  refine alone_orAnswer rfl ?_
  intro _ hlock
  have htaken : pointsSession.turn () db (.redeem ctx customerId dto, .asked)
      = .lock (.customer customerId) (.redeem ctx customerId dto, .locked) := by
    show nextRedeem db ctx customerId dto .asked = _
    simp only [nextRedeem, hlock, orAnswer]
  rw [Session.alone_lock htaken]
  cases hreplay : replay db dto.idempotencyKey with
  | some e =>
      have hend : pointsSession.turn () db (.redeem ctx customerId dto, .locked)
          = .rollback (.redeem ctx customerId dto, .answered (.ok ())) := by
        show nextRedeem db ctx customerId dto .locked = _
        simp only [nextRedeem, hreplay]
      rw [Session.alone_rollback hend, alone_answered]
      rfl
  | none =>
      have hnew : pointsSession.turn () db (.redeem ctx customerId dto, .locked)
          = .go (.redeem ctx customerId dto, .notReplayed) := by
        show nextRedeem db ctx customerId dto .locked = _
        simp only [nextRedeem, hreplay]
      rw [Session.alone_go hnew]
      refine alone_orAnswer rfl ?_
      intro _ hrules
      have hchecked : pointsSession.turn () db (.redeem ctx customerId dto, .notReplayed)
          = .go (.redeem ctx customerId dto, .checked (getConfig db)) := by
        show nextRedeem db ctx customerId dto .notReplayed = _
        simp only [nextRedeem, hrules, orAnswer]
      rw [Session.alone_go hchecked]
      refine alone_orAnswer rfl ?_
      intro _ hbalance
      have hcovered : pointsSession.turn () db (.redeem ctx customerId dto, .checked (getConfig db))
          = .go (.redeem ctx customerId dto, .appending ⟨ctx,
            redeemEntry ctx customerId dto (getConfig db), true,
            (truthy dto.idempotencyKey).isSome, .none⟩) := by
        show nextRedeem db ctx customerId dto (.checked (getConfig db)) = _
        simp only [nextRedeem, hbalance, orAnswer]
      rw [Session.alone_go hcovered]
      exact alone_keyed db _ ctx (redeemEntry ctx customerId dto (getConfig db)) os

/-- An adjustment, alone, is `adjust`. -/
theorem alone_adjust (db : Db) (ctx : TenantContext) (customerId : Uuid) (dto : AdjustPointsDto)
    (os : List Unit) :
    pointsSession.alone (() :: () :: () :: () :: () :: () :: os) db
        (.adjust ctx customerId dto, .asked)
      = settled db (.adjust ctx customerId dto) (Loyalty.adjust db ctx customerId dto) := by
  rw [adjust_eq]
  -- the checks in their order, each of which may be the answer
  refine alone_orAnswer rfl ?_
  intro _ hlock
  have htaken : pointsSession.turn () db (.adjust ctx customerId dto, .asked)
      = .lock (.customer customerId) (.adjust ctx customerId dto, .locked) := by
    show nextAdjust db ctx customerId dto .asked = _
    simp only [nextAdjust, hlock, orAnswer]
  rw [Session.alone_lock htaken]
  cases hreplay : replay db dto.idempotencyKey with
  | some e =>
      have hend : pointsSession.turn () db (.adjust ctx customerId dto, .locked)
          = .rollback (.adjust ctx customerId dto, .answered (.ok ())) := by
        show nextAdjust db ctx customerId dto .locked = _
        simp only [nextAdjust, hreplay]
      rw [Session.alone_rollback hend, alone_answered]
      rfl
  | none =>
      have hnew : pointsSession.turn () db (.adjust ctx customerId dto, .locked)
          = .go (.adjust ctx customerId dto, .notReplayed) := by
        show nextAdjust db ctx customerId dto .locked = _
        simp only [nextAdjust, hreplay]
      rw [Session.alone_go hnew]
      refine alone_orAnswer rfl ?_
      intro _ hcheck
      have hcovered : pointsSession.turn () db (.adjust ctx customerId dto, .notReplayed)
          = .go (.adjust ctx customerId dto, .appending ⟨ctx, adjustEntry ctx customerId dto, true,
            (truthy dto.idempotencyKey).isSome, .none⟩) := by
        show nextAdjust db ctx customerId dto .notReplayed = _
        simp only [nextAdjust, hcheck, orAnswer]
      rw [Session.alone_go hcovered]
      exact alone_keyed db _ ctx (adjustEntry ctx customerId dto) os

/-- The debit of an order, alone, is `redeemForOrder` and the rest of the order. -/
theorem alone_order (db : Db) (d : OrderDebit) (os : List Unit) :
    pointsSession.alone (() :: () :: () :: () :: () :: os) db (.order d, .asked)
      = settled db (.order d) ((redeemForOrder db d.ctx d.customerId d.orderId d.points
          d.configSnapshot).map d.rest.write) := by
  have hserial : (redeemForOrder db d.ctx d.customerId d.orderId d.points
      d.configSnapshot).map d.rest.write = (do
        lockCustomer db d.customerId
        checkBalance db d.customerId d.points
        (append db d.ctx d.entry).map d.rest.write) := by
    unfold redeemForOrder lockCustomer checkBalance require
    split
    · split <;> rfl
    · rfl
  rw [hserial]
  -- the lock, the balance and the entry, as for a redemption by hand
  refine alone_orAnswer rfl ?_
  intro _ hlock
  have htaken : pointsSession.turn () db (.order d, .asked)
      = .lock (.customer d.customerId) (.order d, .locked) := by
    show nextOrder db d .asked = _
    simp only [nextOrder, hlock, orAnswer]
  rw [Session.alone_lock htaken]
  refine alone_orAnswer rfl ?_
  intro _ hbalance
  have hcovered : pointsSession.turn () db (.order d, .locked)
      = .go (.order d, .appending ⟨d.ctx, d.entry, true, false, d.rest⟩) := by
    show nextOrder db d .locked = _
    simp only [nextOrder, hbalance, orAnswer]
  rw [Session.alone_go hcovered, alone_appending]
  rfl

/-- **On its own a call does what the service's method does.** -/
theorem points_alone (db : Db) (r : PointsCall) :
    pointsSession.alone (List.replicate 7 ()) db (r, .asked) = settled db r (r.serial db) := by
  cases r with
  | earn ctx orderId => exact alone_earn db ctx orderId [()]
  | reverse ctx orderId =>
      refine (alone_undo db _ ctx orderId .earn .refundReversal _ [(), ()] rfl fun _ => rfl).trans ?_
      show settled db _ _ = settled db _ (reverseForOrder db ctx orderId)
      unfold reverseForOrder
      cases entryOf db.loyaltyLedger orderId .earn <;> rfl
  | restore ctx orderId =>
      refine (alone_undo db _ ctx orderId .redeem .redeemReversal _ [(), ()] rfl
        fun _ => rfl).trans ?_
      show settled db _ _ = settled db _ (restoreRedeemedForOrder db ctx orderId)
      unfold restoreRedeemedForOrder
      cases entryOf db.loyaltyLedger orderId .redeem <;> rfl
  | redeem ctx customerId dto => exact alone_redeem db ctx customerId dto []
  | adjust ctx customerId dto => exact alone_adjust db ctx customerId dto [()]
  | order d => exact alone_order db d [(), ()]

/-! ## §4. What a call in flight knows. -/

/-- Nobody has spent more than there was. -/
def Unspent (db : Db) : Prop := ∀ customerId, 0 ≤ spendable db.loyaltyLedger customerId

/-- The entry about to be appended leaves something or nothing: it is a reversal, a
credit, or a debit of a locked customer that what may be spent covers. -/
def Covered (db : Db) (a : Appending) : Prop :=
  a.entry.type = .refundReversal ∨ 0 ≤ a.entry.points
    ∨ (a.locked = true ∧ 0 ≤ spendable db.loyaltyLedger a.entry.customerId + a.entry.points)

/-- The type of the entry a call undoes. -/
def PointsCall.undoes : PointsCall → Option LoyaltyEntryType
  | .reverse _ _ => some .earn
  | .restore _ _ => some .redeem
  | _ => none

/-- What a call in flight still knows: its entry is covered by what can be spent. -/
def Known (db : Db) : PointsCall × PointsPhase → Prop
  | (r, .entryRead e) => ∀ type ∈ r.undoes, e.type = type
  | (_, .appending a) => Covered db a
  | (_, .inserting a) => Covered db a
  | (_, .staged a row) => row.toNewLoyaltyEntry = a.entry ∧ Covered db a
  | _ => True

/-- The customer a call locks. -/
def PointsCall.customer : PointsCall → Option Uuid
  | .redeem _ customerId _ => some customerId
  | .adjust _ customerId _ => some customerId
  | .order d => some d.customerId
  | _ => none

/-- The customer's row is locked while an entry is appended to it. -/
def Appending.holds (a : Appending) (k : PointsLock) : Prop :=
  a.locked = true ∧ k = .customer a.entry.customerId

/-- The locks a call holds where it stands. -/
def Holds : PointsCall × PointsPhase → PointsLock → Prop
  | (r, .locked), k => ∃ c ∈ r.customer, k = .customer c
  | (r, .notReplayed), k => ∃ c ∈ r.customer, k = .customer c
  | (r, .checked _), k => ∃ c ∈ r.customer, k = .customer c
  | (_, .appending a), k => a.holds k
  | (_, .inserting a), k => a.holds k ∨ entryLock a.entry = some k
  | (_, .staged a _), k => a.holds k ∨ entryLock a.entry = some k
  | _, _ => False

/-- Points that the balance covers are covered by what may be spent. -/
theorem covered_of_balance {db : Db} {a : Appending} (hlocked : a.locked = true)
    (h : 0 ≤ balance db.loyaltyLedger a.entry.customerId + a.entry.points) : Covered db a := by
  have := balance_le_spendable db.loyaltyLedger a.entry.customerId
  exact .inr (.inr ⟨hlocked, by omega⟩)

/-- A commit of another call leaves a covered debit covered: it takes nothing from a
customer it has not locked. -/
theorem covered_after {db : Db} {a b : Appending} {row : LoyaltyEntry}
    (hrow : row.toNewLoyaltyEntry = b.entry) (hb : Covered db b) (ha : Covered db a)
    (hapart : ∀ k, b.holds k → ¬ a.holds k) {db' : Db}
    (hledger : db'.loyaltyLedger = db.loyaltyLedger ++ [row]) : Covered db' a := by
  rcases ha with ha | ha | ⟨hlocked, ha⟩
  · exact .inl ha
  · exact .inr (.inl ha)
  · refine .inr (.inr ⟨hlocked, ?_⟩)
    rw [hledger, spendable_append]
    split
    next hspends =>
      simp only [spends, hrow, Bool.and_eq_true, decide_eq_true_eq] at hspends
      obtain ⟨hsame, htype⟩ := hspends
      rw [hrow]
      rcases hb with hb | hb | ⟨hlocked', -⟩
      · exact absurd hb htype
      · omega
      · exact absurd ⟨hlocked, by rw [hsame]⟩ (hapart _ ⟨hlocked', rfl⟩)
    next => omega

/-- The commit itself leaves something or nothing. -/
theorem unspent_after {db : Db} {a : Appending} {row : LoyaltyEntry}
    (hrow : row.toNewLoyaltyEntry = a.entry) (ha : Covered db a) (hdb : Unspent db) {db' : Db}
    (hledger : db'.loyaltyLedger = db.loyaltyLedger ++ [row]) : Unspent db' := by
  intro customerId
  have hbefore := hdb customerId
  rw [hledger, spendable_append]
  split
  next hspends =>
    simp only [spends, hrow, Bool.and_eq_true, decide_eq_true_eq] at hspends
    obtain ⟨rfl, htype⟩ := hspends
    rw [hrow]
    rcases ha with ha | ha | ⟨-, ha⟩
    · exact absurd ha htype
    · omega
    · exact ha
  next => omega

/-- What the next statement can be, whatever the call and the phase. -/
inductive Statement (db : Db) : PointsCall × PointsPhase → PointsTurn → Prop where
  | go {t t' : PointsCall × PointsPhase} : Known db t' → (∀ k, Holds t' k → Holds t k) →
      Statement db t (.go t')
  | lock {t t' : PointsCall × PointsPhase} {k : PointsLock} : Known db t' →
      (∀ k', Holds t' k' → k' = k ∨ Holds t k') → Statement db t (.lock k t')
  | commit {r : PointsCall} {a : Appending} {row : LoyaltyEntry} :
      Statement db (r, .staged a row)
        (.commit (a.rest.write (publishEntry db a.ctx row)) (r, .answered (.ok ())))
  | answer {t : PointsCall × PointsPhase} {r : PointsCall} {x : Except ApiError Unit} :
      Statement db t (.rollback (r, .answered x))
  | lose {t : PointsCall × PointsPhase} {r : PointsCall} {customerId : Uuid} :
      Statement db t (.rollback (r, .lost customerId))
  | idle {t : PointsCall × PointsPhase} : Statement db t .idle

/-- A check either goes on or answers. -/
theorem Statement.orAnswer {α : Type} {db : Db} {r : PointsCall} {t : PointsCall × PointsPhase}
    {x : Except ApiError α} {next : α → PointsTurn}
    (h : ∀ a, x = .ok a → Statement db t (next a)) : Statement db t (orAnswer r x next) := by
  unfold Loyalty.orAnswer
  split
  next a => exact h a rfl
  next => exact .answer

/-- Every statement of a credit is one of the moves. -/
theorem nextEarn_statement (db : Db) (ctx : TenantContext) (orderId : Uuid) (p : PointsPhase) :
    Statement db (.earn ctx orderId, p) (nextEarn db ctx orderId p) := by
  unfold nextEarn
  split
  next =>
    apply Statement.orAnswer
    intro credit _
    exact .go trivial fun _ h => h
  next => exact .go trivial fun _ h => h
  next entry isEnabled =>
    split
    next => exact .answer
    next hpositive =>
      push Not at hpositive
      refine .go (.inr (.inl hpositive.2.2.le)) ?_
      intro k hk
      exact absurd hk.1 Bool.false_ne_true
  next => exact .idle

/-- A redemption took points, so its restore is a credit. -/
theorem redeem_points_neg {e : LoyaltyEntry} (h : e.type = .redeem) : e.points < 0 := by
  have hsign := e.sign_ok
  rw [h] at hsign
  simpa [LoyaltyEntryType.signOk] using hsign

/-- Every statement of a reversal is one of the moves. -/
theorem nextUndo_statement {db : Db} {r : PointsCall} {p : PointsPhase} (ctx : TenantContext)
    (orderId : Uuid) {type undo : LoyaltyEntryType} (nothing : Except ApiError Unit)
    (hundoes : r.undoes = some type) (hpair : undo = .refundReversal ∨ type = .redeem)
    (h : Known db (r, p)) :
    Statement db (r, p) (nextUndo db r ctx orderId type undo nothing p) := by
  unfold nextUndo
  split
  next =>
    split
    next e hentry =>
      refine .go ?_ fun _ h => h
      show ∀ type ∈ r.undoes, e.type = type
      rw [hundoes]
      intro type' htype'
      cases htype'
      exact type_of_entryOf hentry
    next => exact .answer
  next e =>
    split
    next => exact .answer
    next =>
      refine .go ?_ ?_
      · show Covered db _
        -- a reversal may go below; giving redeemed points back only adds
        rcases hpair with rfl | rfl
        · exact .inl rfl
        · have hneg := redeem_points_neg (h .redeem hundoes)
          refine .inr (.inl ?_)
          show 0 ≤ -e.points
          omega
      · intro k hk
        exact absurd hk.1 Bool.false_ne_true
  next => exact .idle

/-- Every statement of a redemption is one of the moves. -/
theorem nextRedeem_statement (db : Db) (ctx : TenantContext) (customerId : Uuid)
    (dto : RedeemPointsDto) (p : PointsPhase) :
    Statement db (.redeem ctx customerId dto, p) (nextRedeem db ctx customerId dto p) := by
  unfold nextRedeem
  split
  next =>
    apply Statement.orAnswer
    intro _ _
    refine .lock trivial ?_
    rintro k ⟨c, hc, rfl⟩
    cases hc
    exact .inl rfl
  next =>
    split
    next => exact .answer
    next => exact .go trivial fun _ h => h
  next =>
    apply Statement.orAnswer
    intro _ _
    exact .go trivial fun _ h => h
  next config =>
    apply Statement.orAnswer
    intro _ hbalance
    -- the balance was read under the lock that is still held
    refine .go (covered_of_balance rfl ?_) ?_
    · have := require_ok.mp hbalance
      show 0 ≤ balance db.loyaltyLedger customerId + -dto.points
      omega
    · intro k hk
      exact ⟨customerId, rfl, hk.2⟩
  next => exact .idle

/-- Every statement of an adjustment is one of the moves. -/
theorem nextAdjust_statement (db : Db) (ctx : TenantContext) (customerId : Uuid)
    (dto : AdjustPointsDto) (p : PointsPhase) :
    Statement db (.adjust ctx customerId dto, p) (nextAdjust db ctx customerId dto p) := by
  unfold nextAdjust
  split
  next =>
    apply Statement.orAnswer
    intro _ _
    refine .lock trivial ?_
    rintro k ⟨c, hc, rfl⟩
    cases hc
    exact .inl rfl
  next =>
    split
    next => exact .answer
    next => exact .go trivial fun _ h => h
  next =>
    apply Statement.orAnswer
    intro _ hcheck
    unfold checkAdjust at hcheck
    refine .go ?_ ?_
    · split at hcheck
      next => exact covered_of_balance rfl (require_ok.mp hcheck)
      -- points that are given need no cover
      next hneg => exact .inr (.inl (not_lt.mp hneg))
    · intro k hk
      exact ⟨customerId, rfl, hk.2⟩
  next => exact .idle

/-- Every statement of an order's debit is one of the moves. -/
theorem nextOrder_statement (db : Db) (d : OrderDebit) (p : PointsPhase) :
    Statement db (.order d, p) (nextOrder db d p) := by
  unfold nextOrder
  split
  next =>
    apply Statement.orAnswer
    intro _ _
    refine .lock trivial ?_
    rintro k ⟨c, hc, rfl⟩
    cases hc
    exact .inl rfl
  next =>
    apply Statement.orAnswer
    intro _ hbalance
    -- the balance was read under the lock that is still held
    refine .go (covered_of_balance rfl ?_) ?_
    · have := require_ok.mp hbalance
      show 0 ≤ balance db.loyaltyLedger d.customerId + -d.points
      omega
    · intro k hk
      exact ⟨d.customerId, rfl, hk.2⟩
  next => exact .idle

/-- The row inserted is the entry that was given. -/
theorem insertEntry_ok {db : Db} {e : NewLoyaltyEntry} {row : LoyaltyEntry}
    (h : insertEntry db e = .ok row) : row.toNewLoyaltyEntry = e := by
  unfold insertEntry at h
  split at h
  next =>
    split at h
    next =>
      simp only [bind_ok] at h
      obtain ⟨-, -, -, -, h⟩ := h
      cases pure_ok.mp h
      rfl
    next => cases h
  next => cases h

/-- **An append writes an entry that is covered, and only under the lock.** -/
theorem nextAppend_statement {db : Db} {r : PointsCall} {p : PointsPhase}
    (h : Known db (r, p)) : Statement db (r, p) (nextAppend db r p) := by
  unfold nextAppend
  split
  next a =>
    split
    next k hlock =>
      -- the lock of the customer is the one that is held from here on
      refine .lock h ?_
      intro k' hk'
      rcases hk' with hk' | hk'
      · exact .inr hk'
      · rw [hlock] at hk'
        exact .inl (Option.some.inj hk').symm
    next hlock =>
      refine .go h ?_
      intro k hk
      rcases hk with hk | hk
      · exact hk
      · rw [hlock] at hk
        cases hk
  next a =>
    split
    next row hrow => exact .go ⟨insertEntry_ok hrow, h⟩ fun _ hk => hk
    next =>
      split
      · exact .lose
      · exact .answer
    next => exact .answer
  next => exact .commit
  next => exact .answer
  next => exact .idle

/-- **The statement inversion.** -/
theorem nextPoints_statement {db : Db} {t : PointsCall × PointsPhase} (h : Known db t) :
    Statement db t (nextPoints db t) := by
  unfold nextPoints
  split
  next => exact nextAppend_statement h
  next => exact nextAppend_statement h
  next => exact nextAppend_statement h
  next => exact nextAppend_statement h
  next => exact nextEarn_statement db _ _ _
  next => exact nextUndo_statement _ _ _ rfl (.inl rfl) h
  next => exact nextUndo_statement _ _ _ rfl (.inr rfl) h
  next => exact nextRedeem_statement db _ _ _ _
  next => exact nextAdjust_statement db _ _ _ _
  next => exact nextOrder_statement db _ _

/-- What is known of a covered debit depends on the ledger and on other commits only
as far as the locks allow. -/
theorem Known.after {db db' : Db} {a : Appending} {row : LoyaltyEntry}
    (hrow : row.toNewLoyaltyEntry = a.entry) (ha : Covered db a)
    (hledger : db'.loyaltyLedger = db.loyaltyLedger ++ [row]) {u : PointsCall × PointsPhase}
    (hu : Known db u) (hapart : ∀ k, a.holds k → ¬ Holds u k) : Known db' u := by
  obtain ⟨r, p⟩ := u
  cases p with
  | entryRead e => exact hu
  | appending b => exact covered_after hrow ha hu hapart hledger
  | inserting b =>
      exact covered_after hrow ha hu (fun k hk hb => hapart k hk (.inl hb)) hledger
  | staged b row' =>
      exact ⟨hu.1, covered_after hrow ha hu.2 (fun k hk hb => hapart k hk (.inl hb)) hledger⟩
  | _ => trivial

/-- Writes elsewhere leave the ledger, and what is known of it. -/
theorem Known.congr {db db' : Db} (hledger : db'.loyaltyLedger = db.loyaltyLedger)
    {u : PointsCall × PointsPhase} (hu : Known db u) : Known db' u := by
  obtain ⟨r, p⟩ := u
  cases p with
  | entryRead e => exact hu
  | appending b =>
      show Covered db' b
      unfold Covered
      rw [hledger]
      exact hu
  | inserting b =>
      show Covered db' b
      unfold Covered
      rw [hledger]
      exact hu
  | staged b row =>
      refine ⟨hu.1, ?_⟩
      unfold Covered
      rw [hledger]
      exact hu.2
  | _ => trivial

/-- **What the calls keep true**, whatever the order of their statements. -/
theorem pointsSession_knows : pointsSession.Knows Unspent Known Holds := by
  refine ⟨?_, ?_, ?_, ?_, ?_, ?_⟩
  · intro db r _
    exact ⟨trivial, fun _ h => h⟩
  · intro _ db t t' _ hknown hturn
    have hst := nextPoints_statement hknown
    rw [show nextPoints db t = .go t' from hturn] at hst
    cases hst with
    | go hknown' hheld => exact ⟨hknown', hheld⟩
  · intro _ db t t' k _ hknown hturn
    have hst := nextPoints_statement hknown
    rw [show nextPoints db t = .lock k t' from hturn] at hst
    cases hst with
    | lock hknown' hheld => exact ⟨hknown', hheld⟩
  · intro _ db t db' t' hunspent hknown hturn
    have hst := nextPoints_statement hknown
    rw [show nextPoints db t = .commit db' t' from hturn] at hst
    cases hst with
    -- the one statement that writes: its entry is covered, and the others hold other locks
    | @commit r a row =>
        have hledger : (a.rest.write (publishEntry db a.ctx row)).loyaltyLedger
            = db.loyaltyLedger ++ [row] := a.rest.ledger _
        refine ⟨unspent_after hknown.1 hknown.2 hunspent hledger, trivial, fun _ h => h, ?_⟩
        intro u hu hapart
        exact hu.after hknown.1 hknown.2 hledger fun k hk => hapart k (.inl hk)
  · intro _ db t t' _ hknown hturn
    have hst := nextPoints_statement hknown
    rw [show nextPoints db t = .rollback t' from hturn] at hst
    cases hst with
    | answer => exact ⟨trivial, fun _ h => h⟩
    | lose => exact ⟨trivial, fun _ h => h⟩
  · intro db w hunspent
    have hledger : (w.write db).loyaltyLedger = db.loyaltyLedger := w.ledger db
    refine ⟨?_, fun u hu => hu.congr hledger⟩
    intro customerId
    show 0 ≤ spendable (w.write db).loyaltyLedger customerId
    rw [hledger]
    exact hunspent customerId

/-! ## §5. Points are never overspent. -/

/-- **Points are never overspent**: in every committed state what is left without
the refund reversals is not negative, so a balance is at worst the reversals. -/
theorem points_never_overspent {c : Sessions Db (PointsCall × PointsPhase) PointsLock}
    (h : (pointsSession.interleaved Unspent).Reachable c) (customerId : Uuid) :
    0 ≤ spendable c.shared.loyaltyLedger customerId
      ∧ balance c.shared.loyaltyLedger customerId
        = spendable c.shared.loyaltyLedger customerId + reversed c.shared.loyaltyLedger customerId
      ∧ reversed c.shared.loyaltyLedger customerId
        ≤ balance c.shared.loyaltyLedger customerId := by
  have hinv := Session.invariant pointsSession_knows (fun _ hs => hs) h
  have hspendable := hinv.1 customerId
  have hsplit := balance_split c.shared.loyaltyLedger customerId
  exact ⟨hspendable, hsplit, by omega⟩

/-- A customer with 10 points earned on an order. -/
def tenPoints : Db :=
  { Db.empty with
    customers := [⟨5⟩]
    loyaltyLedger := [⟨orderEntry 5 .earn 10 20 none, rfl, rfl⟩] }

theorem tenPoints_unspent : Unspent tenPoints := by
  intro customerId
  apply sumWhere_nonneg
  intro e he _
  cases List.mem_singleton.mp he
  decide

/-- Who may redeem in the runs below. -/
def loyaltyManager : TenantContext := ⟨10, 11, 12, [.loyaltyRedeem]⟩

/-- Eight points are redeemed while the sale that earned the ten is reversed: the
reversal commits between the balance and the debit. -/
def redeemDuringReversal : List (SessionEvent PointsCall Unit OtherWrites) :=
  [.begin 0 (.redeem loyaltyManager 5 ⟨8, none, none, by decide⟩),
    .begin 1 (.reverse loyaltyManager 20),
    .run 0 (), .run 0 (), .run 0 (), .run 0 (),
    .run 1 (), .run 1 (), .run 1 (), .run 1 (), .run 1 (),
    .run 0 (), .run 0 (), .run 0 ()]

/-- The balance ends at 10 - 8 - 10, by no more than the reversal. -/
theorem points_never_overspent_reversal :
    ∃ c, (pointsSession.interleaved Unspent).Reachable c
      ∧ balance c.shared.loyaltyLedger 5 = -8
      ∧ 0 ≤ spendable c.shared.loyaltyLedger 5
      ∧ balance c.shared.loyaltyLedger 5
        = spendable c.shared.loyaltyLedger 5 + reversed c.shared.loyaltyLedger 5
      ∧ reversed c.shared.loyaltyLedger 5 ≤ balance c.shared.loyaltyLedger 5 := by
  have hreached := Session.replay_reached (P := pointsSession) tenPoints_unspent
    redeemDuringReversal rfl
  exact ⟨_, hreached, rfl, points_never_overspent hreached 5⟩

end OraOS.Loyalty
