/-
  OraOS.Marketing.Coupons — validating a coupon and pricing its discount inside
  the order transaction, and the coupons themselves (`MarketingService`).
-/
import OraOS.Api.Tables

namespace OraOS.Marketing

open OraOS.Api
open OraOS.Lib

/-- `${minor / 100}`: JavaScript prints no trailing zeros. -/
def minorText (minor : ℤ) : String :=
  let cents := minor % 100
  let whole := toString (minor / 100)
  if cents = 0 then whole
  else if cents % 10 = 0 then whole ++ "." ++ toString (cents / 10)
  else if cents < 10 then whole ++ ".0" ++ toString cents
  else whole ++ "." ++ toString cents

/-- `code.trim().toUpperCase()`; stored codes are upper-case letters and digits. -/
def normaliseCode (code : String) : String :=
  code.trimAscii.toString.toUpper

/-- What a coupon takes off an order. -/
structure CouponDiscount where
  couponId : Uuid
  discountMinor : ℤ
  deriving DecidableEq, Repr

/-- `Math.floor(subtotal * percentBp / 10000)`, or the flat amount. -/
def CouponValue.on (subtotalMinor : ℤ) : CouponValue → ℤ
  | .percent percentBp _ => subtotalMinor * percentBp / 10000
  | .fixed amountMinor _ => amountMinor

/-- The coupon's value under its cap and under the subtotal. -/
def discountOf (coupon : Coupon) (subtotalMinor : ℤ) : ℤ :=
  let discount := CouponValue.on subtotalMinor coupon.value
  let capped := match coupon.maxDiscountMinor with
    | some cap => min discount cap
    | none => discount
  min capped subtotalMinor

/-- `validateAndComputeDiscount`: every refusal is a 400 with its reason. -/
def validateAndComputeDiscount (db : Db) (now : Instant) (code : String)
    (subtotalMinor : ℤ) : Except ApiError CouponDiscount := do
  let coupon ← found (db.coupons.find? fun c => c.code = normaliseCode code)
    (.badRequest "Coupon is not valid")
  require (coupon.isActive = true) (.badRequest "Coupon is not valid")
  require (∀ t ∈ coupon.validFrom, t ≤ now) (.badRequest "Coupon is not active yet")
  require (∀ t ∈ coupon.validUntil, now ≤ t) (.badRequest "Coupon has expired")
  require (coupon.minSubtotalMinor ≤ subtotalMinor)
    (.badRequest ("Order must be at least " ++ minorText coupon.minSubtotalMinor
      ++ " to use this coupon"))
  -- counted, not locked
  let used := (db.couponRedemptions.filter fun r => r.couponId = coupon.id).length
  require (∀ n ∈ coupon.maxRedemptions, (used : ℤ) < n)
    (.badRequest "Coupon has been fully redeemed")
  let discount := discountOf coupon subtotalMinor
  require (0 < discount) (.badRequest "Coupon gives no discount on this order")
  pure ⟨coupon.id, discount⟩

/-- `recordRedemption`: append-only, one per order. -/
def recordRedemption (db : Db) (couponId orderId : Uuid) (discountMinor : ℤ) :
    Except ApiError Db :=
  if h : 0 < discountMinor then do
    require (∀ r ∈ db.couponRedemptions, r.orderId ≠ orderId)
      (.uniqueViolation .couponRedemptionOrder)
    pure (db.withCouponRedemptions
      (db.couponRedemptions ++ [⟨couponId, orderId, discountMinor, h⟩]))
  else .error (.checkViolation "coupon_redemptions_discount_positive")

/-- An accepted coupon takes something off, and never more than the subtotal. -/
theorem validateAndComputeDiscount_bounds {db : Db} {now : Instant} {code : String}
    {subtotalMinor : ℤ} {r : CouponDiscount}
    (h : validateAndComputeDiscount db now code subtotalMinor = .ok r) :
    0 < r.discountMinor ∧ r.discountMinor ≤ subtotalMinor := by
  simp only [validateAndComputeDiscount, bind_ok, require_ok] at h
  obtain ⟨coupon, -, -, -, -, -, -, -, -, -, -, -, -, hpos, h⟩ := h
  cases pure_ok.mp h
  refine ⟨hpos, ?_⟩
  show discountOf coupon subtotalMinor ≤ subtotalMinor
  exact min_le_right _ _

/-- Redeeming a coupon writes its redemptions only. -/
theorem recordRedemption_ok {db db' : Db} {couponId orderId : Uuid} {discountMinor : ℤ}
    (h : recordRedemption db couponId orderId discountMinor = .ok db') :
    ∃ redemptions, db' = db.withCouponRedemptions redemptions := by
  unfold recordRedemption at h
  split at h
  next =>
    obtain ⟨-, -, h⟩ := bind_ok.mp h
    exact ⟨_, (pure_ok.mp h).symm⟩
  next => cases h

/-! ## The owner's coupons. -/

/-- How the value of a coupon is read: in percent, or in paise. -/
inductive CouponType where
  | percent
  | fixed
  deriving DecidableEq, Repr

/-- The code is trimmed and upper-cased before it is validated. -/
structure CreateCouponDto where
  code : String
  type : CouponType
  percentBp : Option ℤ
  amountMinor : Option ℤ
  maxDiscountMinor : Option ℤ
  minSubtotalMinor : Option ℤ
  maxRedemptions : Option ℤ
  validFrom : Option Instant
  validUntil : Option Instant
  code_ok : (3 ≤ code.length ∧ code.length ≤ 32) ∧ ∀ ch ∈ code.toList, ch.isUpper ∨ ch.isDigit
  percentBp_ok : ∀ b ∈ percentBp, 1 ≤ b ∧ b ≤ 10000
  amountMinor_ok : ∀ a ∈ amountMinor, 1 ≤ a ∧ a ≤ 10000000
  maxDiscountMinor_ok : ∀ d ∈ maxDiscountMinor, 1 ≤ d ∧ d ≤ 10000000
  minSubtotalMinor_ok : ∀ m ∈ minSubtotalMinor, 0 ≤ m ∧ m ≤ 10000000
  maxRedemptions_ok : ∀ n ∈ maxRedemptions, 1 ≤ n

/-- The value of the coupon's type; a value of the other type is dropped. -/
def couponValue (dto : CreateCouponDto) : Except ApiError CouponValue :=
  match dto.type with
  | .percent => do
      let percentBp ← found dto.percentBp (.badRequest "PERCENT coupon needs percentBp")
      if h : 0 < percentBp ∧ percentBp ≤ 10000 then pure (.percent percentBp h)
      else .error (.checkViolation "coupons_value_shape")
  | .fixed => do
      let amountMinor ← found dto.amountMinor (.badRequest "FIXED coupon needs amountMinor")
      if h : 0 < amountMinor then pure (.fixed amountMinor h)
      else .error (.checkViolation "coupons_value_shape")

/-- Only a percentage is capped. -/
def couponCap (dto : CreateCouponDto) : Option ℤ :=
  match dto.type with
  | .percent => dto.maxDiscountMinor
  | .fixed => none

/-- `createCoupon`: a coupon is born active, with a code of its own. -/
def createCoupon (db : Db) (newId : Uuid) (dto : CreateCouponDto) : Except ApiError Db := do
  let value ← couponValue dto
  let minSubtotalMinor := dto.minSubtotalMinor.getD 0
  require (∀ n ∈ dto.maxRedemptions, fitsInt4 n = true) .outOfRange
  if h : 0 ≤ minSubtotalMinor ∧ (∀ d ∈ couponCap dto, 0 < d)
      ∧ ∀ n ∈ dto.maxRedemptions, 0 < n then do
    -- the columns' checks and the unique code come after the service's own checks
    require (∀ f ∈ dto.validFrom, ∀ u ∈ dto.validUntil, f < u)
      (.checkViolation "coupons_valid_window")
    require (∀ c ∈ db.coupons, c.id ≠ newId ∧ c.code ≠ dto.code)
      (.conflict "A coupon with that code already exists")
    pure (db.withCoupons (db.coupons ++
      [{ id := newId, code := dto.code, value, maxDiscountMinor := couponCap dto,
         minSubtotalMinor, maxRedemptions := dto.maxRedemptions, validFrom := dto.validFrom,
         validUntil := dto.validUntil, isActive := true, non_negative := h }]))
  else .error (.checkViolation "coupons_non_negative")

/-- `setCouponActive`; without a value the row is written as it is. -/
def setCouponActive (db : Db) (id : Uuid) (isActive : Option Bool) : Except ApiError Db := do
  let coupon ← found (db.coupons.find? fun c => c.id = id) (.notFound "Coupon not found")
  pure (db.withCoupons (db.coupons.map fun c =>
    if c.id = coupon.id then { c with isActive := isActive.getD c.isActive } else c))

/-- A coupon is created beside those there are. -/
theorem createCoupon_ok {db db' : Db} {newId : Uuid} {dto : CreateCouponDto}
    (h : createCoupon db newId dto = .ok db') :
    ∃ coupon, (∀ c ∈ db.coupons, c.id ≠ coupon.id ∧ c.code ≠ coupon.code)
      ∧ db' = db.withCoupons (db.coupons ++ [coupon]) := by
  unfold createCoupon at h
  obtain ⟨value, -, h⟩ := bind_ok.mp h
  obtain ⟨-, -, h⟩ := bind_ok.mp h
  split at h
  next =>
    obtain ⟨-, -, h⟩ := bind_ok.mp h
    obtain ⟨_, hnew, h⟩ := bind_ok.mp h
    exact ⟨_, require_ok.mp hnew, (pure_ok.mp h).symm⟩
  next => cases h

/-- A coupon that is switched on or off keeps its code and its terms. -/
theorem setCouponActive_ok {db db' : Db} {id : Uuid} {isActive : Option Bool}
    (h : setCouponActive db id isActive = .ok db') :
    ∃ f : Coupon → Coupon, db' = db.withCoupons (db.coupons.map f)
      ∧ ∀ c, (f c).id = c.id ∧ (f c).code = c.code ∧ (f c).maxRedemptions = c.maxRedemptions := by
  obtain ⟨coupon, -, h⟩ := bind_ok.mp h
  refine ⟨_, (pure_ok.mp h).symm, fun c => ?_⟩
  split
  · exact ⟨rfl, rfl, rfl⟩
  · exact ⟨rfl, rfl, rfl⟩

end OraOS.Marketing
