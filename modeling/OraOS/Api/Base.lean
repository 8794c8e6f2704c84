/-
  OraOS.Api.Base — what every service of the API shares: ids, instants, the
  errors a request can end in, the request context and the 32-bit columns.

  Ids are UUIDs, compared for equality only.  An instant is a `Date` in
  milliseconds.  A request that fails commits nothing, so a service method is a
  function into `Except ApiError`.
-/
import OraOS.Lib.Outcome

namespace OraOS.Api

/-- An id; only equality is asked of it. -/
abbrev Uuid := ℕ

/-- Milliseconds since the epoch. -/
abbrev Instant := ℤ

/-- The unique indexes a modelled insert can collide with. -/
inductive UniqueIndex where
  | primaryKey
  | orderNumber
  | orderIdempotencyKey
  | paymentIdempotencyKey
  | refundIdempotencyKey
  | movementIdempotencyKey
  | prepBatchIdempotencyKey
  | couponRedemptionOrder
  | loyaltyOrderType
  | loyaltyIdempotencyKey
  | userEmail
  | restaurantSlug
  | membershipUser
  | pendingInvite
  | categoryName
  | productName
  deriving DecidableEq, Repr

/-- What a request that does not succeed is answered with. -/
inductive ApiError where
  | badRequest (message : String)
  | forbidden (message : String)
  | notFound (message : String)
  | conflict (message : String)
  | unauthorized (message : String)
  | internalServerError (message : String)
  /-- `findFirstOrThrow` found nothing (P2025). -/
  | recordNotFound
  /-- A unique index refused the row (P2002). -/
  | uniqueViolation (index : UniqueIndex)
  /-- A CHECK constraint refused the row. -/
  | checkViolation (constraint : String)
  /-- A value does not fit its INTEGER column. -/
  | outOfRange
  deriving DecidableEq, Repr

/-- `isUniqueViolation(e, 'idempotency_key')`: the index's name has the field. -/
def UniqueIndex.onIdempotencyKey : UniqueIndex → Bool
  | .orderIdempotencyKey | .paymentIdempotencyKey | .refundIdempotencyKey
  | .movementIdempotencyKey | .prepBatchIdempotencyKey | .loyaltyIdempotencyKey => true
  | _ => false

/-- Refused by a constraint, an index or a column, not by the service. -/
def ApiError.fromDatabase : ApiError → Bool
  | .uniqueViolation _ | .checkViolation _ | .outOfRange => true
  | _ => false

/-- What `int4` holds. -/
def fitsInt4 (n : ℤ) : Bool := decide (-2147483648 ≤ n ∧ n ≤ 2147483647)

/-- The permissions the modelled handlers look at. -/
inductive Permission where
  | orderDiscount
  | orderVoid
  | loyaltyRedeem
  | attendanceManage
  deriving DecidableEq, Repr

/-- The request's tenant, user and rights (`prisma.requireContext()`). -/
structure TenantContext where
  restaurantId : Uuid
  userId : Uuid
  membershipId : Uuid
  permissions : List Permission
  deriving DecidableEq, Repr

/-- What a request takes from outside: the id Prisma generates for the row it
creates and the clock it reads. -/
structure Env where
  newId : Uuid
  now : Instant
  deriving DecidableEq, Repr

/-- `Math.round(x / d)` for `d > 0`: the nearest integer, halves upwards. -/
def roundDiv (x d : ℤ) : ℤ := (2 * x + d) / (2 * d)

example : roundDiv 12345 10000 = 1 := by decide
example : roundDiv 15000 10000 = 2 := by decide

end OraOS.Api
