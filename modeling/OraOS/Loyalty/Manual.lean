/-
  OraOS.Loyalty.Manual — points spent and corrected by hand (`LoyaltyService.redeem`,
  `adjust`, `replay`).

  Both lock the customer, look for a replay, check, and append one entry that
  belongs to no order.

    * `redeem_ok`, `adjust_ok` — a success is a replay or the one entry written.
-/
import OraOS.Loyalty.Ledger
import OraOS.Inventory.Movements

namespace OraOS.Loyalty

open OraOS.Api
open OraOS.Lib
open OraOS.Inventory

/-! ## §1. The requests. -/

/-- `MAX_POINTS` -/
def maxPoints : ℤ := 10000000

/-- Points redeemed at the counter, outside any order. -/
structure RedeemPointsDto where
  points : ℤ
  reason : Option String
  idempotencyKey : Option String
  points_ok : 1 ≤ points ∧ points ≤ maxPoints

/-- Points given or taken by hand, with a reason. -/
structure AdjustPointsDto where
  points : ℤ
  reason : String
  idempotencyKey : Option String
  points_ok : points ≠ 0 ∧ -maxPoints ≤ points ∧ points ≤ maxPoints
  reason_ok : 1 ≤ reason.length

/-! ## §2. The steps of the two transactions. -/

/-- `lockCustomer`: no row means no customer of this tenant. -/
def lockCustomer (db : Db) (customerId : Uuid) : Except ApiError Unit :=
  require (∃ c ∈ db.customers, c.id = customerId) (.notFound "Customer not found")

/-- `replay`: the entry with the key, whoever it belongs to. -/
def replay (db : Db) (key : Option String) : Option LoyaltyEntry :=
  (truthy key).bind fun k => db.loyaltyLedger.find? fun e => e.idempotencyKey = some k

/-- The configured rules of a redemption. -/
def checkRedeem (config : LoyaltyConfig) (points : ℤ) : Except ApiError Unit := do
  require (config.isEnabled = true) (.badRequest "Loyalty is turned off")
  require (points % config.redeemPoints = 0)
    (.badRequest ("Redeem points in multiples of " ++ toString config.redeemPoints))
  require (config.minimumRedeemPoints ≤ points)
    (.badRequest ("Redeem at least " ++ toString config.minimumRedeemPoints ++ " points"))
  require (∀ m ∈ config.maximumRedeemPointsPerOrder, points ≤ m)
    (.badRequest ("Redeem at most " ++ toString (config.maximumRedeemPointsPerOrder.getD 0)
      ++ " points"))

/-- The balance check of every redemption. -/
def checkBalance (db : Db) (customerId : Uuid) (points : ℤ) : Except ApiError Unit :=
  require (points ≤ balance db.loyaltyLedger customerId)
    (.badRequest "Not enough points to redeem")

/-- Only a deduction is checked. -/
def checkAdjust (db : Db) (customerId : Uuid) (points : ℤ) : Except ApiError Unit :=
  if points < 0 then
    require (0 ≤ balance db.loyaltyLedger customerId + points)
      (.badRequest "Adjustment would drive the balance below zero")
  else pure ()

/-- The entry of a redemption. -/
def redeemEntry (ctx : TenantContext) (customerId : Uuid) (dto : RedeemPointsDto)
    (config : LoyaltyConfig) : NewLoyaltyEntry :=
  { customerId, type := .redeem, points := -dto.points, orderId := none, reason := dto.reason,
    actorUserId := some ctx.userId, idempotencyKey := dto.idempotencyKey,
    configSnapshot := some (redeemSnapshot config) }

/-- The entry of an adjustment. -/
def adjustEntry (ctx : TenantContext) (customerId : Uuid) (dto : AdjustPointsDto) :
    NewLoyaltyEntry :=
  { customerId, type := .adjust, points := dto.points, orderId := none,
    reason := some dto.reason, actorUserId := some ctx.userId,
    idempotencyKey := dto.idempotencyKey, configSnapshot := none }

/-! ## §3. The two endpoints. -/

/-- The transaction of `redeem`. -/
def redeemTx (db : Db) (ctx : TenantContext) (customerId : Uuid) (dto : RedeemPointsDto) :
    Except ApiError Db := do
  lockCustomer db customerId
  match replay db dto.idempotencyKey with
  | some _ => pure db
  | none => do
      let config := getConfig db
      checkRedeem config dto.points
      checkBalance db customerId dto.points
      append db ctx (redeemEntry ctx customerId dto config)

/-- The transaction of `adjust`. -/
def adjustTx (db : Db) (ctx : TenantContext) (customerId : Uuid) (dto : AdjustPointsDto) :
    Except ApiError Db := do
  lockCustomer db customerId
  match replay db dto.idempotencyKey with
  | some _ => pure db
  | none => do
      checkAdjust db customerId dto.points
      append db ctx (adjustEntry ctx customerId dto)

/-- A request with a key that lost the race for it gets the summary. -/
def orSummaryKeyed (db : Db) (customerId : Uuid) (key : Option String)
    (write : Except ApiError Db) : Except ApiError Db :=
  if (truthy key).isSome then orSummary db customerId write else write

/-- Redeeming at the counter; a key that lost its race answers with the summary. -/
def redeem (db : Db) (ctx : TenantContext) (customerId : Uuid) (dto : RedeemPointsDto) :
    Except ApiError Db :=
  orSummaryKeyed db customerId dto.idempotencyKey (redeemTx db ctx customerId dto)

/-- Adjusting by hand; a key that lost its race answers with the summary. -/
def adjust (db : Db) (ctx : TenantContext) (customerId : Uuid) (dto : AdjustPointsDto) :
    Except ApiError Db :=
  orSummaryKeyed db customerId dto.idempotencyKey (adjustTx db ctx customerId dto)

/-! ## §4. What a success means. -/

/-- `key` is set and on an entry already. -/
def KeyKnown (db : Db) (key : Option String) : Prop :=
  ∃ k, truthy key = some k ∧ ∃ e ∈ db.loyaltyLedger, e.idempotencyKey = some k

/-- A replay found an entry with its key. -/
theorem replay_some {db : Db} {key : Option String} {e : LoyaltyEntry}
    (h : replay db key = some e) : KeyKnown db key := by
  unfold replay at h
  obtain ⟨k, hk, hfound⟩ := Option.bind_eq_some_iff.mp h
  refine ⟨k, hk, e, List.mem_of_find?_eq_some hfound, ?_⟩
  simpa using List.find?_some hfound

/-- An entry of no order collides on its key only. -/
theorem append_violation {db : Db} {ctx : TenantContext} {e : NewLoyaltyEntry} {ix : UniqueIndex}
    (horder : e.orderId = none) (hkey : (truthy e.idempotencyKey).isSome = true)
    (h : append db ctx e = .error (.uniqueViolation ix)) : KeyKnown db e.idempotencyKey := by
  obtain ⟨k, hk⟩ := Option.isSome_iff_exists.mp hkey
  refine ⟨k, hk, ?_⟩
  -- a fresh key, and no order: neither index could refuse the row
  by_contra hnone
  push Not at hnone
  have hfree : ∀ o ∈ e.orderId, entryOf db.loyaltyLedger o e.type = none := by
    rw [horder]
    exact nofun
  have hkeys : ∀ k' ∈ e.idempotencyKey, ∀ r ∈ db.loyaltyLedger, r.idempotencyKey ≠ some k' := by
    rw [truthy_some hk]
    intro k' hk'
    cases hk'
    exact hnone
  unfold append at h
  split at h
  next =>
    split at h
    next =>
      rw [require_of _ hfree, ok_bind, require_of _ hkeys, ok_bind] at h
      cases h
    next => cases h
  next => cases h

/-- A manual entry was written, or its key was known and nothing was. -/
inductive Written (db : Db) (e : NewLoyaltyEntry) (db' : Db) : Prop where
  | replayed : KeyKnown db e.idempotencyKey → db' = db → Written db e db'
  | now {r : LoyaltyEntry} : r.toNewLoyaltyEntry = e →
      LoyaltyOnly db db' (db.loyaltyLedger ++ [r]) → Written db e db'

/-- The recovery adds nothing to what the transaction does. -/
theorem written_of_append {db db' : Db} {ctx : TenantContext} {customerId : Uuid}
    {e : NewLoyaltyEntry} (horder : e.orderId = none)
    (h : orSummaryKeyed db customerId e.idempotencyKey (append db ctx e) = .ok db') :
    Written db e db' := by
  unfold orSummaryKeyed at h
  split at h
  next hkey =>
    cases happend : append db ctx e with
    | ok db₁ =>
        rw [happend] at h
        cases h
        obtain ⟨-, r, hr, hdb⟩ := append_ok happend
        exact .now hr hdb
    | error err =>
        rw [happend] at h
        cases err with
        -- the race was lost, the answer is that of the entry with the key
        | uniqueViolation ix =>
            obtain ⟨-, -, h⟩ := bind_ok.mp h
            exact .replayed (append_violation horder hkey happend) (pure_ok.mp h).symm
        | _ => cases h
  next =>
    obtain ⟨-, r, hr, hdb⟩ := append_ok h
    exact .now hr hdb

/-- The check fails with an answer of the service, not of the database. -/
abbrev Refuses {α : Type} (x : Except ApiError α) : Prop :=
  FailsWith (fun e => ∀ ix, e ≠ .uniqueViolation ix) x

theorem ne_violation {e : ApiError} (h : e.fromDatabase = false) (ix : UniqueIndex) :
    e ≠ .uniqueViolation ix := by
  rintro rfl
  cases h

/-- A customer nobody knows is refused by the request itself. -/
theorem lockCustomer_refuses (db : Db) (customerId : Uuid) :
    Refuses (lockCustomer db customerId) :=
  .require (ne_violation rfl)

/-- Points that are no whole blocks are refused by the request itself. -/
theorem checkRedeem_refuses (config : LoyaltyConfig) (points : ℤ) :
    Refuses (checkRedeem config points) := by
  unfold checkRedeem
  refine .bind (.require (ne_violation rfl)) fun _ _ => ?_
  refine .bind (.require (ne_violation rfl)) fun _ _ => ?_
  refine .bind (.require (ne_violation rfl)) fun _ _ => ?_
  exact .require (ne_violation rfl)

/-- Points that are not there are refused by the request itself. -/
theorem checkBalance_refuses (db : Db) (customerId : Uuid) (points : ℤ) :
    Refuses (checkBalance db customerId points) :=
  .require (ne_violation rfl)

theorem checkAdjust_refuses (db : Db) (customerId : Uuid) (points : ℤ) :
    Refuses (checkAdjust db customerId points) := by
  unfold checkAdjust
  split
  · exact .require (ne_violation rfl)
  · exact .ok _

/-- A refusal is not recovered from. -/
theorem orSummaryKeyed_bind {db : Db} {customerId : Uuid} {key : Option String}
    {x : Except ApiError Unit} {f : Unit → Except ApiError Db} (hx : Refuses x) :
    orSummaryKeyed db customerId key (x >>= f)
      = x >>= fun u => orSummaryKeyed db customerId key (f u) := by
  cases x with
  | ok u => rfl
  | error e =>
      show orSummaryKeyed db customerId key (.error e) = .error e
      unfold orSummaryKeyed
      split
      -- only a unique violation is caught, and the first part raises none
      · cases e with
        | uniqueViolation ix => exact absurd rfl (hx _ rfl ix)
        | _ => rfl
      · rfl

/-- Nor is a replay, which ends both transactions before their checks. -/
theorem orSummaryKeyed_replay {db : Db} {customerId : Uuid} {key : Option String}
    {hit : Option LoyaltyEntry} {write : Except ApiError Db} :
    orSummaryKeyed db customerId key (match hit with
        | some _ => pure db
        | none => write)
      = match hit with
        | some _ => pure db
        | none => orSummaryKeyed db customerId key write := by
  cases hit with
  | none => rfl
  | some e =>
      unfold orSummaryKeyed
      split <;> rfl

/-- `redeem` with its recovery at the append. -/
theorem redeem_eq (db : Db) (ctx : TenantContext) (customerId : Uuid) (dto : RedeemPointsDto) :
    redeem db ctx customerId dto = (do
      lockCustomer db customerId
      match replay db dto.idempotencyKey with
      | some _ => pure db
      | none => do
          checkRedeem (getConfig db) dto.points
          checkBalance db customerId dto.points
          orSummaryKeyed db customerId dto.idempotencyKey
            (append db ctx (redeemEntry ctx customerId dto (getConfig db)))) := by
  unfold redeem redeemTx
  -- the recovery is pushed down past the checks to the one insert
  rw [orSummaryKeyed_bind (lockCustomer_refuses db customerId)]
  simp only [orSummaryKeyed_replay]
  rw [orSummaryKeyed_bind (checkRedeem_refuses _ _)]
  simp only [orSummaryKeyed_bind (checkBalance_refuses _ _ _)]

/-- `adjust` with its recovery at the append. -/
theorem adjust_eq (db : Db) (ctx : TenantContext) (customerId : Uuid) (dto : AdjustPointsDto) :
    adjust db ctx customerId dto = (do
      lockCustomer db customerId
      match replay db dto.idempotencyKey with
      | some _ => pure db
      | none => do
          checkAdjust db customerId dto.points
          orSummaryKeyed db customerId dto.idempotencyKey
            (append db ctx (adjustEntry ctx customerId dto))) := by
  unfold adjust adjustTx
  rw [orSummaryKeyed_bind (lockCustomer_refuses db customerId)]
  simp only [orSummaryKeyed_replay]
  rw [orSummaryKeyed_bind (checkAdjust_refuses _ _ _)]

/-- Behind the lock of the customer, a manual entry is a replay, or what comes of its checks. -/
theorem behindLock_ok {db db' : Db} {customerId : Uuid} {key : Option String}
    {write : Except ApiError Db}
    (h : (do
      lockCustomer db customerId
      match replay db key with
      | some _ => pure db
      | none => write) = .ok db') :
    KeyKnown db key ∧ db' = db ∨ write = .ok db' := by
  obtain ⟨-, -, h⟩ := bind_ok.mp h
  split at h
  next r hreplay => exact .inl ⟨replay_some hreplay, (pure_ok.mp h).symm⟩
  next => exact .inr h

/-- **A redemption** that writes spends at most the balance. -/
theorem redeem_ok {db db' : Db} {ctx : TenantContext} {customerId : Uuid} {dto : RedeemPointsDto}
    (h : redeem db ctx customerId dto = .ok db') :
    Written db (redeemEntry ctx customerId dto (getConfig db)) db'
      ∧ (db' = db ∨ dto.points ≤ balance db.loyaltyLedger customerId) := by
  rw [redeem_eq] at h
  rcases behindLock_ok h with ⟨hkey, hdb⟩ | h
  · exact ⟨.replayed hkey hdb, .inl hdb⟩
  · obtain ⟨-, -, h⟩ := bind_ok.mp h
    obtain ⟨_, hbalance, h⟩ := bind_ok.mp h
    exact ⟨written_of_append (e := redeemEntry ctx customerId dto (getConfig db)) rfl h,
      .inr (require_ok.mp hbalance)⟩

/-- **An adjustment** that writes leaves no less than nothing. -/
theorem adjust_ok {db db' : Db} {ctx : TenantContext} {customerId : Uuid} {dto : AdjustPointsDto}
    (h : adjust db ctx customerId dto = .ok db') :
    Written db (adjustEntry ctx customerId dto) db'
      ∧ (db' = db ∨ 0 ≤ dto.points
        ∨ 0 ≤ balance db.loyaltyLedger customerId + dto.points) := by
  rw [adjust_eq] at h
  rcases behindLock_ok h with ⟨hkey, hdb⟩ | h
  · exact ⟨.replayed hkey hdb, .inl hdb⟩
  · obtain ⟨u, hcheck, h⟩ := bind_ok.mp h
    refine ⟨written_of_append (e := adjustEntry ctx customerId dto) rfl h, .inr ?_⟩
    unfold checkAdjust at hcheck
    split at hcheck
    -- only points that are taken away are checked against the balance
    next => exact .inr (require_ok.mp hcheck)
    next hneg => exact .inl (not_lt.mp hneg)

end OraOS.Loyalty
