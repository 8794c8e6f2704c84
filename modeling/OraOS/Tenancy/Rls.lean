/-
  OraOS.Tenancy.Rls — the tables that span restaurants, and the policies on them.

  Everything else of the API sees one tenant's rows; memberships, restaurants and
  attendance are read by people who belong to several.  `prisma.tx` sets the user
  and the restaurant of the request's token, and the policies read them back:

    * `sees_membership` — the token's restaurant, or the user's own;
    * `sees_restaurant` — the token's restaurant, or one the user works in.
-/
import OraOS.Api.Base
import OraOS.Lib.RowSecurity

namespace OraOS.Tenancy

open OraOS.Api
open OraOS.Lib

/-! ## §1. Rows. -/

/-- What the staff pages read of an account. -/
structure User where
  id : Uuid
  name : String
  email : String
  deriving DecidableEq, Repr

/-- `RoleKey`. -/
inductive RoleKey where
  | owner
  | manager
  | cashier
  | kitchen
  deriving DecidableEq, Repr

/-- A role with its permissions. -/
structure Role where
  key : RoleKey
  name : String
  permissions : List Permission
  deriving DecidableEq, Repr

/-- A membership with its user and its role. -/
structure Membership where
  id : Uuid
  user : User
  restaurantId : Uuid
  role : Role
  isActive : Bool
  createdAt : Instant
  deriving DecidableEq, Repr

/-- A row of `restaurants`. -/
structure Restaurant where
  id : Uuid
  name : String
  slug : String
  address : Option String
  phone : Option String
  gstin : Option String
  fssai : Option String
  receiptHeader : Option String
  receiptFooter : Option String
  createdAt : Instant
  deriving DecidableEq, Repr

/-- In or out. -/
inductive AttendanceEventType where
  | clockIn
  | clockOut
  deriving DecidableEq, Repr

/-- `at_` is when it happened, by whoever recorded it. -/
structure AttendanceEvent where
  id : Uuid
  restaurantId : Uuid
  membershipId : Uuid
  type : AttendanceEventType
  at_ : Instant
  recordedBy : Option Uuid
  note : Option String
  deriving DecidableEq, Repr

/-- The tables of all restaurants, with the primary key and the foreign key of
`memberships`. -/
structure Directory where
  memberships : List Membership
  restaurants : List Restaurant
  attendanceEvents : List AttendanceEvent
  memberships_ids : (memberships.map (·.id)).Nodup
  memberships_restaurant : ∀ m ∈ memberships, ∃ r ∈ restaurants, r.id = m.restaurantId

/-- A membership is known by its id. -/
theorem Directory.membership_ext (db : Directory) {m m' : Membership} (h : m ∈ db.memberships)
    (h' : m' ∈ db.memberships) (hid : m.id = m'.id) : m = m' :=
  List.inj_on_of_nodup_map db.memberships_ids h h' hid

/-! ## §2. The request and its settings. -/

/-- The request's user, tenant and rights, from the token; a token without a
restaurant has no membership either. -/
structure RequestContext where
  userId : Uuid
  restaurantId : Option Uuid
  membershipId : Option Uuid
  permissions : List Permission
  deriving DecidableEq, Repr

/-- `app.user_id` and `app.restaurant_id` as the policies read them back: NULL
when empty. -/
structure Settings where
  currentUserId : Option Uuid
  currentRestaurantId : Option Uuid
  deriving DecidableEq, Repr

/-- `prisma.txAs`. -/
def txAs (userId restaurantId : Option Uuid) : Settings := ⟨userId, restaurantId⟩

/-- `prisma.tx`: the settings of the request's own context. -/
def tx (ctx : RequestContext) : Settings := txAs (some ctx.userId) ctx.restaurantId

/-- `prisma.requireContext`. -/
def requireContext (ctx : RequestContext) : Except ApiError Uuid :=
  found ctx.restaurantId (.internalServerError "No restaurant in context")

/-! ## §3. The policies. -/

/-- `memberships`: a tenant reads its own, a user reads theirs; `= NULL` is not
true. -/
def membershipsPolicy : Policy Settings Membership where
  sees s m := decide (s.currentRestaurantId = some m.restaurantId)
    || decide (s.currentUserId = some m.user.id)
  admits s m := decide (s.currentRestaurantId = some m.restaurantId)

/-- `restaurants` since restaurants_member_read; the EXISTS reads memberships under
their own policy. -/
def restaurantsPolicy (memberships : List Membership) : Policy Settings Restaurant where
  sees s r := decide (s.currentRestaurantId = some r.id)
    || (membershipsPolicy.visible s memberships).any fun m =>
        decide (m.restaurantId = r.id) && decide (s.currentUserId = some m.user.id) && m.isActive
  admits s r := decide (s.currentRestaurantId = some r.id)

/-- The standard tenant policy, here on `attendance_events`. -/
def attendancePolicy : Policy Settings AttendanceEvent where
  sees s e := decide (s.currentRestaurantId = some e.restaurantId)
  admits s e := decide (s.currentRestaurantId = some e.restaurantId)

/-- **The policy shows the memberships of the restaurant and those of the user.** -/
theorem sees_membership {s : Settings} {m : Membership} :
    membershipsPolicy.sees s m = true
      ↔ s.currentRestaurantId = some m.restaurantId ∨ s.currentUserId = some m.user.id := by
  simp [membershipsPolicy]

/-- The user's memberships are visible to them anyway, so the policy of
`memberships` takes nothing from the EXISTS. -/
theorem sees_restaurant {memberships : List Membership} {s : Settings} {r : Restaurant} :
    (restaurantsPolicy memberships).sees s r = true
      ↔ s.currentRestaurantId = some r.id ∨ ∃ m ∈ memberships,
          m.restaurantId = r.id ∧ s.currentUserId = some m.user.id ∧ m.isActive = true := by
  simp only [restaurantsPolicy, Bool.or_eq_true, decide_eq_true_eq, List.any_eq_true,
    Policy.mem_visible, sees_membership, Bool.and_eq_true]
  constructor
  · rintro (hid | ⟨m, ⟨hm, -⟩, ⟨hr, hu⟩, hactive⟩)
    · exact .inl hid
    · exact .inr ⟨m, hm, hr, hu, hactive⟩
  · rintro (hid | ⟨m, hm, hr, hu, hactive⟩)
    · exact .inl hid
    · exact .inr ⟨m, ⟨hm, .inr hu⟩, ⟨hr, hu⟩, hactive⟩

/-! ## §4. A user of two restaurants. -/

/-- The role of an owner. -/
def ownerRole : Role := ⟨.owner, "Owner", [.attendanceManage]⟩

/-- The first restaurant. -/
def momoHouse : Restaurant := ⟨1, "Momo House", "momo-house", none, none, none, none, none, none, 0⟩

/-- The second. -/
def chaiCorner : Restaurant :=
  ⟨2, "Chai Corner", "chai-corner", none, none, none, none, none, none, 1⟩

/-- One owner of two restaurants. -/
def twoRestaurants : Directory where
  memberships := [⟨31, ⟨11, "Asha", "asha@example.com"⟩, 1, ownerRole, true, 0⟩,
    ⟨32, ⟨11, "Asha", "asha@example.com"⟩, 2, ownerRole, true, 1⟩]
  restaurants := [momoHouse, chaiCorner]
  attendanceEvents := []
  memberships_ids := by decide
  memberships_restaurant := by decide

/-- The owner's token of one restaurant. -/
def atChaiCorner : RequestContext := ⟨11, some 2, some 32, [.attendanceManage]⟩

end OraOS.Tenancy
