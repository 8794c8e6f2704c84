/-
  OraOS.Tenancy.Owners — every restaurant has one owner.

  Memberships are created with a restaurant and by accepting an invite, and changed by
  `updateMember`; only the first makes an owner, and nothing makes one of somebody else
  or takes the role away.  Who created a restaurant is on its audit trail.

    * `Owned`             — one owner, active, who created the restaurant;
    * `createRestaurant_ok`, `acceptInvite_effect`, …
                          — what each operation wrote;
    * `officeInv_step`    — every operation keeps the owners, pending invites included;
    * `exactly_one_owner` — in every run.
-/
import OraOS.Tenancy.Invites
import OraOS.Auth.SignOut
import OraOS.Api.Text
import OraOS.Lib.Transition
import OraOS.Lib.Tally

namespace OraOS.Tenancy

open OraOS.Api
open OraOS.Lib
open OraOS.Auth

/-! ## §1. Restaurants. -/

/-- A restaurant as it is sent. -/
structure CreateRestaurantDto where
  name : String
  branchName : Option String
  branchAddress : Option String

/-- `slugify`. -/
def slugify (U : Unicode) (name : String) : String :=
  let slug := ((trimChar '-' (replaceRuns '-' false
    (U.normalizeNFKD (U.toLowerCase name.toList)))).take 40)
  if slug.isEmpty then "restaurant" else String.ofList slug

/-- `restaurant.create`: the policy and the indexes on the id and on the slug. -/
def addRestaurant (a : Accounts) (s : Settings) (r : Restaurant) : Except ApiError Accounts := do
  require ((restaurantsPolicy a.world.directory.memberships).admits s r)
    (.internalServerError "new row violates row-level security policy")
  -- a taken id is a failure, a taken slug is tried again under another one
  require (∀ r' ∈ a.world.directory.restaurants, r'.id ≠ r.id) (.uniqueViolation .primaryKey)
  require (∀ r' ∈ a.world.directory.restaurants, r'.slug ≠ r.slug) (.uniqueViolation .restaurantSlug)
  let directory := { a.world.directory with
    restaurants := a.world.directory.restaurants ++ [r]
    memberships_restaurant := by
      intro m hm
      obtain ⟨r', hr', hid⟩ := a.world.directory.memberships_restaurant m hm
      exact ⟨r', List.mem_append_left _ hr', hid⟩ }
  pure { a with world := { a.world with directory, fresh := a.world.fresh + 1 } }

/-- `RestaurantsService.insert`: the restaurant, its first branch, its owner and the first
entry of its audit trail, or nothing. -/
def insertRestaurant (a : Accounts) (userId : Uuid) (dto : CreateRestaurantDto) (slug : String)
    (ownerRole : Role) : Except ApiError (Restaurant × Accounts) := do
  let restaurantId := a.world.fresh
  let s := txAs (some userId) (some restaurantId)
  let r : Restaurant :=
    ⟨restaurantId, dto.name, slug, none, none, none, none, none, none, a.world.now⟩
  let a₁ ← addRestaurant a s r
  let branch : Branch :=
    { id := a₁.world.fresh, restaurantId
      -- an empty name or address counts as none
      name := match dto.branchName with
        | some name => if name.isEmpty then "Main" else name
        | none => "Main"
      address := dto.branchAddress.filter fun address => !address.isEmpty }
  let a₂ := { a₁ with
    world := { a₁.world with fresh := a₁.world.fresh + 1 }
    branches := a₁.branches ++ [branch] }
  let user ← found (a₂.profiles.find? fun u => decide (u.id = userId))
    (.internalServerError "Foreign key constraint violated")
  let (_, a₃) ← createMembership a₂ s user restaurantId ownerRole
  pure (r, { a₃ with auditLogs := a₃.auditLogs ++
    [⟨restaurantId, some userId, "restaurant.created", "restaurant", some restaurantId⟩] })

/-- The loop over the slugs: a slug that is taken is answered with the next one. -/
def insertWithSlug (a : Accounts) (userId : Uuid) (dto : CreateRestaurantDto) (ownerRole : Role) :
    List String → Except ApiError (Restaurant × Accounts)
  | [] => .error (.conflict "Could not generate a unique slug")
  | slug :: slugs =>
      match insertRestaurant a userId dto slug ownerRole with
      | .ok result => .ok result
      | .error (.uniqueViolation .restaurantSlug) => insertWithSlug a userId dto ownerRole slugs
      | .error e => .error e

/-- `RestaurantsService.create`; the suffixes are the random ones of the attempts after
the first. -/
def createRestaurant (U : Unicode) (a : Accounts) (userId : Uuid) (dto : CreateRestaurantDto)
    (suffixes : Fin 4 → String) : Except ApiError (Restaurant × Accounts) := do
  let ownerRole ← found (a.roles.find? fun r => decide (r.key = .owner))
    (.internalServerError "OWNER role is not seeded")
  let base := slugify U dto.name
  insertWithSlug a userId dto ownerRole
    (base :: (List.finRange 4).map fun i => base ++ "-" ++ suffixes i)

/-! ## §2. Invites and members. -/

/-- OWNER is deliberately absent. -/
inductive InvitableRole where
  | manager
  | cashier
  | kitchen
  deriving DecidableEq, Repr

/-- An invitable role is a role. -/
def InvitableRole.key : InvitableRole → RoleKey
  | .manager => .manager
  | .cashier => .cashier
  | .kitchen => .kitchen

/-- **Nobody is invited as an owner.** -/
theorem InvitableRole.key_ne_owner (r : InvitableRole) : r.key ≠ .owner := by
  cases r <;> decide

/-- An invite as it is sent. -/
structure CreateInviteDto where
  email : String
  role : InvitableRole

/-- How long an invite lasts. -/
def INVITE_TTL_DAYS : ℤ := 7

/-- `prisma.tx`, for a table whose policy also looks at an invite's token. -/
def txInvites (ctx : RequestContext) : InviteSettings := ⟨tx ctx, none⟩

/-- `EventsService.record`. -/
def record (a : Accounts) (ctx : RequestContext) (action entityType : String)
    (entityId : Option Uuid) : Except ApiError Accounts := do
  let restaurantId ← requireContext ctx
  pure { a with auditLogs := a.auditLogs ++
    [⟨restaurantId, some ctx.userId, action, entityType, entityId⟩] }

/-- `StaffService.createInvite`. -/
def createInvite (a : Accounts) (ctx : RequestContext) (dto : CreateInviteDto) :
    Except ApiError (StaffInvite × Accounts) := do
  let restaurantId ← requireContext ctx
  let role ← found (a.roles.find? fun r => decide (r.key = dto.role.key))
    (.badRequest "Unknown role")
  require (∀ m ∈ membershipsPolicy.visible (tx ctx) a.world.directory.memberships,
    m.user.email ≠ dto.email) (.conflict "That person is already on your team")
  let invite : StaffInvite :=
    { id := a.world.fresh, restaurantId, email := dto.email, role, token := a.world.fresh + 1
      expiresAt := a.world.now + INVITE_TTL_DAYS * 86400000, acceptedAt := none
      revokedAt := none, invitedBy := some ctx.userId }
  require (∃ r ∈ a.world.directory.restaurants, r.id = restaurantId)
    (.internalServerError "Foreign key constraint violated")
  -- staff_invites_one_pending
  require (∀ i ∈ a.staffInvites,
    ¬ (i.restaurantId = restaurantId ∧ i.email = dto.email ∧ i.pending = true))
    (.conflict "An invite for that email is already pending")
  let staffInvites ← found (invitesPolicy.insert (txInvites ctx) a.staffInvites invite)
    (.internalServerError "new row violates row-level security policy")
  let a' ← record { a with world := { a.world with fresh := a.world.fresh + 2 }, staffInvites } ctx
    "staff.invited" "staff_invite" (some invite.id)
  pure (invite, a')

/-- `StaffService.revokeInvite`. -/
def revokeInvite (a : Accounts) (ctx : RequestContext) (id : Uuid) : Except ApiError Accounts := do
  let _ ← found ((invitesPolicy.visible (txInvites ctx) a.staffInvites).find? fun i =>
    decide (i.id = id) && i.pending) (.notFound "Invite not found")
  record { a with staffInvites := a.staffInvites.map fun i =>
      if i.id = id then { i with revokedAt := some a.world.now } else i }
    ctx "staff.invite_revoked" "staff_invite" (some id)

/-- `StaffService.acceptInvite`: the user is signed straight in. -/
def acceptInvite (cfg : AuthConfig) (a : Accounts) (token : Uuid) (dto : AcceptInviteDto) :
    Except ApiError Accounts := do
  let invite ← findValidInvite a token
  requireNoAccount a invite
  let (m, a') ← join a invite dto
  let claims : Claims := .ofMembership m.user.id invite.email m
  let world := a'.world.issue cfg claims none (a'.world.now / 1000)
    (a'.world.revocations m.user.id) false
  pure { a' with world }

/-- An edit of a member. -/
structure UpdateMemberDto where
  role : Option InvitableRole
  isActive : Option Bool

/-- The role a member has afterwards. -/
def UpdateMemberDto.newRole (dto : UpdateMemberDto) (a : Accounts) (member : Membership) :
    Except ApiError Role :=
  match dto.role with
  | some role => found (a.roles.find? fun r => decide (r.key = role.key)) (.badRequest "Unknown role")
  | none => pure member.role

/-- `membership.update`, for one row. -/
def Membership.updated (membershipId : Uuid) (role : Role) (isActive : Bool) (m : Membership) :
    Membership :=
  if m.id = membershipId then { m with role, isActive } else m

@[simp] theorem updated_id (membershipId : Uuid) (role : Role) (isActive : Bool) (m : Membership) :
    (m.updated membershipId role isActive).id = m.id := by
  unfold Membership.updated
  split <;> rfl

@[simp] theorem updated_restaurantId (membershipId : Uuid) (role : Role) (isActive : Bool)
    (m : Membership) : (m.updated membershipId role isActive).restaurantId = m.restaurantId := by
  unfold Membership.updated
  split <;> rfl

/-- One membership is edited. -/
def Directory.updateMembership (db : Directory) (membershipId : Uuid) (role : Role)
    (isActive : Bool) : Directory :=
  { db with
    memberships := db.memberships.map (·.updated membershipId role isActive)
    memberships_ids := by
      have hids : (db.memberships.map (·.updated membershipId role isActive)).map (·.id)
          = db.memberships.map (·.id) := by
        rw [List.map_map]
        exact List.map_congr_left fun m _ => updated_id membershipId role isActive m
      rw [hids]
      exact db.memberships_ids
    memberships_restaurant := by
      intro m' hm'
      obtain ⟨m, hm, rfl⟩ := List.mem_map.mp hm'
      rw [updated_restaurantId]
      exact db.memberships_restaurant m hm }

/-- `StaffService.updateMemberRecord`. -/
def updateMemberRecord (a : Accounts) (ctx : RequestContext) (membershipId : Uuid)
    (dto : UpdateMemberDto) : Except ApiError (Membership × Accounts) := do
  let member ← found ((membershipsPolicy.visible (tx ctx) a.world.directory.memberships).find?
    fun m => decide (m.id = membershipId)) (.notFound "Staff member not found")
  require (member.role.key ≠ .owner) (.forbidden "The owner cannot be changed here")
  require (member.user.id ≠ ctx.userId) (.forbidden "You cannot change your own access")
  let role ← dto.newRole a member
  require (dto.role.isSome ∨ dto.isActive.isSome) (.badRequest "Nothing to change")
  let updated := { member with role, isActive := dto.isActive.getD member.isActive }
  require (membershipsPolicy.admits (tx ctx) updated)
    (.internalServerError "new row violates row-level security policy")
  let directory := a.world.directory.updateMembership membershipId role updated.isActive
  let a' ← record { a with world := { a.world with directory } } ctx
    (if dto.isActive = some false then "staff.deactivated" else "staff.updated") "membership"
    (some membershipId)
  pure (updated, a')

/-- `TokenService.revokeAllForUser`, undisturbed; on nobody it rolls back. -/
def revokeAllForUser (w : World) (userId : Uuid) : World :=
  if (w.findUser userId).isSome then w.revokeAll userId w.now (w.sweep userId) else w

/-- `StaffService.updateMember`: a deactivation also ends the sessions, once it has
committed. -/
def updateMember (a : Accounts) (ctx : RequestContext) (membershipId : Uuid)
    (dto : UpdateMemberDto) : Except ApiError Accounts := do
  let _ ← requireContext ctx
  let (updated, a') ← updateMemberRecord a ctx membershipId dto
  pure (if dto.isActive = some false then
    { a' with world := revokeAllForUser a'.world updated.user.id } else a')

/-! ## §3. Any sequence of them. -/

/-- What the staff pages do, and what a new account does. -/
inductive OfficeAction where
  | createRestaurant (userId : Uuid) (dto : CreateRestaurantDto) (suffixes : Fin 4 → String)
  | createInvite (ctx : RequestContext) (dto : CreateInviteDto)
  | revokeInvite (ctx : RequestContext) (id : Uuid)
  | acceptInvite (token : Uuid) (dto : AcceptInviteDto)
  | updateMember (ctx : RequestContext) (membershipId : Uuid) (dto : UpdateMemberDto)
  /-- Time, sessions and registrations, and what else writes to the audit trail. -/
  | others

/-- A request that fails commits nothing. -/
def orElse (a : Accounts) : Except ApiError Accounts → Accounts
  | .ok a' => a'
  | .error _ => a

/-- What it leaves; a request that fails leaves everything. -/
def Accounts.act (cfg : AuthConfig) (U : Unicode) (a : Accounts) : OfficeAction → Accounts
  | .createRestaurant userId dto suffixes =>
      orElse a ((createRestaurant U a userId dto suffixes).map Prod.snd)
  | .createInvite ctx dto => orElse a ((createInvite a ctx dto).map Prod.snd)
  | .revokeInvite ctx id => orElse a (revokeInvite a ctx id)
  | .acceptInvite token dto => orElse a (acceptInvite cfg a token dto)
  | .updateMember ctx membershipId dto => orElse a (updateMember a ctx membershipId dto)
  | .others => a

/-- The action of the audit row of a creation. -/
def RESTAURANT_CREATED : String := "restaurant.created"

/-- What happens elsewhere leaves members, restaurants and invites alone, and does not
claim that a restaurant was created. -/
structure Elsewhere (a a' : Accounts) : Prop where
  directory : a'.world.directory = a.world.directory
  staffInvites : a'.staffInvites = a.staffInvites
  auditLogs : ∃ ls, a'.auditLogs = a.auditLogs ++ ls ∧ ∀ l ∈ ls, l.action ≠ RESTAURANT_CREATED
  fresh : a.world.fresh ≤ a'.world.fresh

/-- Any sequence of the operations, by any callers, from a start without restaurants. -/
def office (cfg : AuthConfig) (U : Unicode) : System Accounts OfficeAction where
  init a := a.world.directory.restaurants = [] ∧ a.staffInvites = [] ∧ a.auditLogs = []
  step a x a' := match x with
    | .others => Elsewhere a a'
    | x => a' = a.act cfg U x

/-! ## §4. Owners. -/

/-- The memberships of a restaurant with the role OWNER. -/
def Directory.ownersOf (db : Directory) (restaurantId : Uuid) : List Membership :=
  db.memberships.filter fun m => decide (m.restaurantId = restaurantId)
    && decide (m.role.key = .owner)

/-- The entry says that this restaurant was created. -/
def AuditLog.createdRestaurant (l : AuditLog) (restaurantId : Uuid) : Prop :=
  l.action = RESTAURANT_CREATED ∧ l.entityId = some restaurantId

/-- The restaurant has one owner, who is active and created it. -/
def Accounts.Owned (a : Accounts) (restaurantId : Uuid) : Prop :=
  ∃ m, a.world.directory.ownersOf restaurantId = [m] ∧ m.isActive = true
    ∧ (∃ l ∈ a.auditLogs, l.createdRestaurant restaurantId)
    ∧ ∀ l ∈ a.auditLogs, l.createdRestaurant restaurantId → l.userId = some m.user.id

/-- No invite, pending or not, makes an owner. -/
structure OfficeInv (a : Accounts) : Prop where
  owned : ∀ r ∈ a.world.directory.restaurants, a.Owned r.id
  invites : ∀ i ∈ a.staffInvites, i.role.key ≠ .owner
  fresh : ∀ r ∈ a.world.directory.restaurants, r.id < a.world.fresh
  created : ∀ l ∈ a.auditLogs, l.action = RESTAURANT_CREATED →
    ∃ r ∈ a.world.directory.restaurants, l.entityId = some r.id

/-- What the staff module writes: no restaurant, no owner, and no invite for one. -/
structure StaffEffect (a a' : Accounts) : Prop where
  restaurants : a'.world.directory.restaurants = a.world.directory.restaurants
  owners : (∀ i ∈ a.staffInvites, i.role.key ≠ .owner) → ∀ restaurantId,
    a'.world.directory.ownersOf restaurantId = a.world.directory.ownersOf restaurantId
  invites : ∀ i' ∈ a'.staffInvites, i'.role.key = .owner →
    ∃ i ∈ a.staffInvites, i.role.key = .owner
  logs : ∃ ls, a'.auditLogs = a.auditLogs ++ ls ∧ ∀ l ∈ ls, l.action ≠ RESTAURANT_CREATED
  fresh : a.world.fresh ≤ a'.world.fresh

/-- What a creation writes: a restaurant that is new, and the membership of its creator. -/
structure Created (a a' : Accounts) (userId : Uuid) (r : Restaurant) (m : Membership) : Prop where
  id : r.id = a.world.fresh
  restaurantId : m.restaurantId = r.id
  owner : m.role.key = .owner
  active : m.isActive = true
  user : m.user.id = userId
  restaurants : a'.world.directory.restaurants = a.world.directory.restaurants ++ [r]
  memberships : a'.world.directory.memberships = a.world.directory.memberships ++ [m]
  invites : a'.staffInvites = a.staffInvites
  logs : a'.auditLogs = a.auditLogs ++
    [⟨r.id, some userId, RESTAURANT_CREATED, "restaurant", some r.id⟩]
  fresh : a.world.fresh < a'.world.fresh

section

variable {a a' : Accounts}

theorem StaffEffect.refl (a : Accounts) : StaffEffect a a where
  restaurants := rfl
  owners _ _ := rfl
  invites i hi h := ⟨i, hi, h⟩
  logs := ⟨[], (List.append_nil _).symm, nofun⟩
  fresh := le_refl _

theorem Elsewhere.refl (a : Accounts) : Elsewhere a a where
  directory := rfl
  staffInvites := rfl
  auditLogs := ⟨[], (List.append_nil _).symm, nofun⟩
  fresh := le_refl _

/-- Every action can be taken. -/
theorem office_act {cfg : AuthConfig} {U : Unicode} (a : Accounts) (x : OfficeAction)
    (a' : Accounts) (h : some (a.act cfg U x) = some a') : (office cfg U).step a x a' := by
  cases x with
  | others =>
      cases h
      exact .refl a
  | createRestaurant | createInvite | revokeInvite | acceptInvite | updateMember =>
      exact (Option.some.inj h).symm

/-- What is elsewhere touches no owner. -/
theorem Elsewhere.staffEffect (h : Elsewhere a a') : StaffEffect a a' where
  restaurants := by rw [h.directory]
  owners _ _ := by rw [h.directory]
  invites i hi hrole := ⟨i, h.staffInvites ▸ hi, hrole⟩
  logs := h.auditLogs
  fresh := h.fresh

/-- **The staff module keeps the owners.** -/
theorem StaffEffect.officeInv (h : StaffEffect a a') (ha : OfficeInv a) : OfficeInv a' where
  owned r hr := by
    rw [h.restaurants] at hr
    obtain ⟨m, howners, hactive, hlog, hlogs⟩ := ha.owned r hr
    -- the audit rows that come are of other actions than a creation
    obtain ⟨ls, happended, hothers⟩ := h.logs
    refine ⟨m, (h.owners ha.invites r.id).trans howners, hactive, ?_, ?_⟩
    · obtain ⟨l, hl, hcreated⟩ := hlog
      exact ⟨l, happended ▸ List.mem_append_left ls hl, hcreated⟩
    · intro l hl hcreated
      rw [happended] at hl
      rcases List.mem_append.mp hl with hold | hnew
      · exact hlogs l hold hcreated
      · exact absurd hcreated.1 (hothers l hnew)
  invites i hi hrole := by
    obtain ⟨i₀, hi₀, hrole₀⟩ := h.invites i hi hrole
    exact ha.invites i₀ hi₀ hrole₀
  fresh r hr := lt_of_lt_of_le (ha.fresh r (h.restaurants ▸ hr)) h.fresh
  created l hl haction := by
    obtain ⟨ls, happended, hothers⟩ := h.logs
    rw [happended] at hl
    rw [h.restaurants]
    rcases List.mem_append.mp hl with hold | hnew
    · exact ha.created l hold haction
    · exact absurd haction (hothers l hnew)

theorem ownersOf_append {db db' : Directory} {m : Membership}
    (h : db'.memberships = db.memberships ++ [m]) (restaurantId : Uuid) :
    db'.ownersOf restaurantId = db.ownersOf restaurantId
      ++ if m.restaurantId = restaurantId ∧ m.role.key = .owner then [m] else [] := by
  unfold Directory.ownersOf
  rw [h, List.filter_append]
  congr 1
  by_cases hm : m.restaurantId = restaurantId ∧ m.role.key = .owner
  · simp [hm]
  · rw [if_neg hm]
    simpa using hm

/-- **A creation gives the restaurant its owner**, and takes no other's. -/
theorem Created.officeInv {userId : Uuid} {r : Restaurant} {m : Membership}
    (h : Created a a' userId r m) (ha : OfficeInv a) : OfficeInv a' where
  owned r' hr' := by
    have hnew : ∀ x ∈ a.world.directory.restaurants, x.id ≠ r.id := fun x hx =>
      h.id ▸ (ha.fresh x hx).ne
    rw [h.restaurants] at hr'
    rcases List.mem_append.mp hr' with hold | hr'
    · -- a restaurant of before: neither the membership nor the entry is its own
      obtain ⟨m', howners, hactive, ⟨l, hl, hcreated⟩, hlogs⟩ := ha.owned r' hold
      have hother : ¬ (m.restaurantId = r'.id ∧ m.role.key = .owner) := fun hm =>
        hnew r' hold (hm.1.symm.trans h.restaurantId)
      refine ⟨m', ?_, hactive, ⟨l, ?_, hcreated⟩, ?_⟩
      · rw [ownersOf_append h.memberships, if_neg hother, List.append_nil]
        exact howners
      · rw [h.logs]
        exact List.mem_append_left _ hl
      · intro l' hl' hcreated'
        rw [h.logs] at hl'
        rcases List.mem_append.mp hl' with hl' | hl'
        · exact hlogs l' hl' hcreated'
        · rw [List.mem_singleton.mp hl'] at hcreated'
          exact absurd (Option.some.inj hcreated'.2).symm (hnew r' hold)
    · rw [List.mem_singleton.mp hr']
      refine ⟨m, ?_, h.active, ⟨⟨r.id, some userId, RESTAURANT_CREATED, "restaurant", some r.id⟩,
        ?_, rfl, rfl⟩, ?_⟩
      · -- nobody belonged to a restaurant that did not exist
        have hnone : a.world.directory.ownersOf r.id = [] := by
          refine List.filter_eq_nil_iff.mpr ?_
          intro x hx hcond
          obtain ⟨x', hx', hid⟩ := a.world.directory.memberships_restaurant x hx
          have hrest : x.restaurantId = r.id := by
            simpa using (Bool.and_eq_true_iff.mp hcond).1
          exact hnew x' hx' (hid.trans hrest)
        rw [ownersOf_append h.memberships, hnone, if_pos ⟨h.restaurantId, h.owner⟩]
        rfl
      · rw [h.logs]
        exact List.mem_append_right _ (List.mem_singleton_self _)
      · intro l hl hcreated
        rw [h.logs] at hl
        rcases List.mem_append.mp hl with hl | hl
        · obtain ⟨x, hx, hentity⟩ := ha.created l hl hcreated.1
          rw [hcreated.2] at hentity
          exact absurd (Option.some.inj hentity).symm (hnew x hx)
        · rw [List.mem_singleton.mp hl, h.user]
  invites i hi := ha.invites i (h.invites ▸ hi)
  fresh x hx := by
    rw [h.restaurants] at hx
    rcases List.mem_append.mp hx with hx | hx
    · exact (ha.fresh x hx).trans h.fresh
    · rw [List.mem_singleton.mp hx, h.id]
      exact h.fresh
  created l hl haction := by
    rw [h.logs] at hl
    rw [h.restaurants]
    rcases List.mem_append.mp hl with hl | hl
    · obtain ⟨x, hx, hentity⟩ := ha.created l hl haction
      exact ⟨x, List.mem_append_left _ hx, hentity⟩
    · rw [List.mem_singleton.mp hl]
      exact ⟨r, List.mem_append_right _ (List.mem_singleton_self r), rfl⟩

/-! ## §5. What each operation wrote. -/

/-- A restaurant is added to the others. -/
theorem addRestaurant_ok {s : Settings} {r : Restaurant} (h : addRestaurant a s r = .ok a') :
    a'.world.directory.restaurants = a.world.directory.restaurants ++ [r]
      ∧ a'.world.directory.memberships = a.world.directory.memberships
      ∧ a'.world.fresh = a.world.fresh + 1 ∧ a'.staffInvites = a.staffInvites
      ∧ a'.auditLogs = a.auditLogs ∧ a'.profiles = a.profiles := by
  simp only [addRestaurant, bind_ok, require_ok] at h
  obtain ⟨-, -, -, -, -, -, h⟩ := h
  cases pure_ok.mp h
  exact ⟨rfl, rfl, rfl, rfl, rfl, rfl⟩

/-- **A restaurant is created with the membership of its owner.** -/
theorem insertRestaurant_ok {userId : Uuid} {dto : CreateRestaurantDto} {slug : String}
    {ownerRole : Role} {r : Restaurant} (howner : ownerRole.key = .owner)
    (h : insertRestaurant a userId dto slug ownerRole = .ok (r, a')) :
    ∃ m, Created a a' userId r m := by
  simp only [insertRestaurant, bind_ok, found_ok] at h
  obtain ⟨a₁, hadd, user, huser, ⟨m, a₃⟩, hmember, h⟩ := h
  cases pure_ok.mp h
  obtain ⟨hrestaurants, hmemberships, hfresh, hinvites, hlogs, -⟩ := addRestaurant_ok hadd
  obtain ⟨hm, -, directory, hkeys, ha₃⟩ := createMembership_ok hmember
  obtain ⟨-, -, hmemberships', hrestaurants', -⟩ := addMembership_eq_some hkeys
  have huserId : user.id = userId := by simpa using List.find?_some huser
  exact ⟨m, {
    id := rfl
    restaurantId := by rw [hm]
    owner := by rw [hm]; exact howner
    active := by rw [hm]
    user := by rw [hm]; exact huserId
    restaurants := by rw [ha₃]; exact hrestaurants'.trans hrestaurants
    memberships := by rw [ha₃]; exact hmemberships'.trans (congrArg (· ++ [m]) hmemberships)
    invites := by rw [ha₃]; exact hinvites
    logs := by rw [ha₃]; exact congrArg (· ++ [_]) hlogs
    fresh := by
      -- a restaurant, a branch and a membership
      have hthree : a₃.world.fresh = a.world.fresh + 3 := by
        rw [ha₃]
        exact congrArg (· + 2) hfresh
      show a.world.fresh < a₃.world.fresh
      rw [hthree]
      exact Nat.lt_add_of_pos_right (Nat.succ_pos 2) }⟩

/-- Whichever attempt succeeds, nothing is left of those before. -/
theorem insertWithSlug_ok {userId : Uuid} {dto : CreateRestaurantDto} {ownerRole : Role}
    {r : Restaurant} : ∀ {slugs : List String},
    insertWithSlug a userId dto ownerRole slugs = .ok (r, a') →
      ∃ slug ∈ slugs, insertRestaurant a userId dto slug ownerRole = .ok (r, a')
  | [], h => nomatch h
  | slug :: slugs, h => by
      simp only [insertWithSlug] at h
      split at h
      next result hok =>
        cases h
        exact ⟨slug, List.mem_cons_self, hok⟩
      next =>
        -- the slug was taken, the next one is tried
        obtain ⟨slug', hmem, hok⟩ := insertWithSlug_ok h
        exact ⟨slug', List.mem_cons_of_mem slug hmem, hok⟩
      next => cases h

theorem createRestaurant_ok {U : Unicode} {userId : Uuid} {dto : CreateRestaurantDto}
    {suffixes : Fin 4 → String} {r : Restaurant}
    (h : createRestaurant U a userId dto suffixes = .ok (r, a')) : ∃ m, Created a a' userId r m := by
  simp only [createRestaurant, bind_ok, found_ok] at h
  obtain ⟨ownerRole, hrole, h⟩ := h
  obtain ⟨slug, -, hok⟩ := insertWithSlug_ok h
  exact insertRestaurant_ok (by simpa using List.find?_some hrole) hok

theorem record_ok {ctx : RequestContext} {action entityType : String} {entityId : Option Uuid}
    (h : record a ctx action entityType entityId = .ok a') :
    ∃ restaurantId, a' = { a with auditLogs := a.auditLogs ++
      [⟨restaurantId, some ctx.userId, action, entityType, entityId⟩] } := by
  simp only [record, requireContext, bind_ok, found_ok] at h
  obtain ⟨restaurantId, -, h⟩ := h
  cases pure_ok.mp h
  exact ⟨restaurantId, rfl⟩

theorem one_log {ls : List AuditLog} {restaurantId : Uuid} {userId entityId : Option Uuid}
    {action entityType : String} (h : action ≠ RESTAURANT_CREATED) :
    ∃ ls', ls ++ [⟨restaurantId, userId, action, entityType, entityId⟩] = ls ++ ls'
      ∧ ∀ l' ∈ ls', l'.action ≠ RESTAURANT_CREATED := by
  refine ⟨_, rfl, ?_⟩
  intro l' hl'
  rw [List.mem_singleton.mp hl']
  exact h

/-- An invite touches no owner. -/
theorem createInvite_effect {ctx : RequestContext} {dto : CreateInviteDto} {invite : StaffInvite}
    (h : createInvite a ctx dto = .ok (invite, a')) : StaffEffect a a' := by
  simp only [createInvite, bind_ok, found_ok, require_ok] at h
  obtain ⟨restaurantId, -, role, hrole, -, -, -, -, -, -, staffInvites, hinsert, a₁, hrecord, h⟩ := h
  cases pure_ok.mp h
  obtain ⟨-, rfl⟩ := Policy.insert_eq_some hinsert
  obtain ⟨_, rfl⟩ := record_ok hrecord
  refine ⟨rfl, fun _ _ => rfl, ?_, one_log (by decide), Nat.le_add_right _ 2⟩
  intro i hi howner
  rcases List.mem_append.mp hi with hold | hnew
  · exact ⟨i, hold, howner⟩
  · -- the role of the new invite is one that may be handed out
    rw [List.mem_singleton.mp hnew] at howner
    have hkey : role.key = dto.role.key := by simpa using List.find?_some hrole
    exact absurd (hkey.symm.trans howner) dto.role.key_ne_owner

theorem revokeInvite_effect {ctx : RequestContext} {id : Uuid}
    (h : revokeInvite a ctx id = .ok a') : StaffEffect a a' := by
  simp only [revokeInvite, bind_ok] at h
  obtain ⟨_, -, hrecord⟩ := h
  obtain ⟨_, rfl⟩ := record_ok hrecord
  refine ⟨rfl, fun _ _ => rfl, ?_, one_log (by decide), le_refl _⟩
  intro i' hi' howner
  obtain ⟨i, hi, rfl⟩ := List.mem_map.mp hi'
  refine ⟨i, hi, ?_⟩
  split at howner
  · exact howner
  · exact howner

/-- Who joins has the role of an invite. -/
theorem acceptInvite_effect {cfg : AuthConfig} {token : Uuid} {dto : AcceptInviteDto}
    (h : acceptInvite cfg a token dto = .ok a') : StaffEffect a a' := by
  simp only [acceptInvite, bind_ok] at h
  obtain ⟨invite, hinvite, -, -, ⟨m, a₁⟩, hjoin, h⟩ := h
  cases pure_ok.mp h
  obtain ⟨hmem, -, -⟩ := findValidInvite_ok hinvite
  obtain ⟨-, rfl, directory, hkeys, hworld, hinvites, hlogs⟩ := join_ok hjoin
  obtain ⟨-, -, hmemberships, hrestaurants, -⟩ := addMembership_eq_some hkeys
  refine ⟨?_, ?_, ?_, ?_, ?_⟩
  · show a₁.world.directory.restaurants = _
    rw [hworld]
    exact hrestaurants
  · intro hroles restaurantId
    show a₁.world.directory.ownersOf restaurantId = _
    rw [hworld]
    refine (ownersOf_append hmemberships restaurantId).trans ?_
    -- the invite is of a role that was checked, and no invite makes an owner
    rw [if_neg fun hm => hroles invite hmem hm.2, List.append_nil]
  · intro i' hi' howner
    obtain ⟨i, hi, rfl | rfl⟩ := hinvites i' hi'
    · exact ⟨i', hi, howner⟩
    · exact ⟨i, hi, howner⟩
  · show ∃ ls, a₁.auditLogs = _ ∧ _
    rw [hlogs]
    exact one_log (by decide)
  · show a.world.fresh ≤ a₁.world.fresh + 2
    rw [hworld]
    exact Nat.le_add_right _ 4

/-- An update that gives a member who is no owner a role that is none. -/
theorem ownersOf_updateMembership {db : Directory} {membershipId : Uuid} {role : Role}
    {isActive : Bool} (hbefore : ∀ m ∈ db.memberships, m.id = membershipId → m.role.key ≠ .owner)
    (hafter : role.key ≠ .owner) (restaurantId : Uuid) :
    (db.updateMembership membershipId role isActive).ownersOf restaurantId
      = db.ownersOf restaurantId := by
  refine filter_map_fixed ?_
  intro m hm
  unfold Membership.updated
  by_cases hid : m.id = membershipId
  · right
    rw [if_pos hid]
    simp [hbefore m hm hid, hafter]
  · exact .inl (if_neg hid)

/-- **No edit makes an owner.** -/
theorem newRole_ne_owner {dto : UpdateMemberDto} {member : Membership} {role : Role}
    (h : dto.newRole a member = .ok role) (howner : member.role.key ≠ .owner) :
    role.key ≠ .owner := by
  unfold UpdateMemberDto.newRole at h
  split at h
  next r _ =>
    have hkey : role.key = r.key := by simpa using List.find?_some (found_ok.mp h)
    rw [hkey]
    exact r.key_ne_owner
  next =>
    rw [← pure_ok.mp h]
    exact howner

@[simp] theorem revokeAllForUser_directory (w : World) (userId : Uuid) :
    (revokeAllForUser w userId).directory = w.directory := by
  unfold revokeAllForUser
  split <;> rfl

@[simp] theorem revokeAllForUser_fresh (w : World) (userId : Uuid) :
    (revokeAllForUser w userId).fresh = w.fresh := by
  unfold revokeAllForUser
  split <;> rfl

/-- **An edit touches no owner**, neither the role nor whether it is active. -/
theorem updateMember_effect {ctx : RequestContext} {membershipId : Uuid} {dto : UpdateMemberDto}
    (h : updateMember a ctx membershipId dto = .ok a') : StaffEffect a a' := by
  simp only [updateMember, updateMemberRecord, bind_ok, found_ok, require_ok] at h
  obtain ⟨-, -, ⟨updated, a₂⟩, ⟨member, hfind, -, howner, -, -, role, hrole, -, -, -, -, a₁, hrecord,
    hdone⟩, h⟩ := h
  cases pure_ok.mp hdone
  obtain ⟨restaurantId, rfl⟩ := record_ok hrecord
  -- the row found is the only one with the id
  have hbefore : ∀ m ∈ a.world.directory.memberships, m.id = membershipId →
      m.role.key ≠ .owner := by
    intro m hm hid
    have hmember := (Policy.mem_visible.mp (List.mem_of_find?_eq_some hfind)).1
    have hid' : member.id = membershipId := by simpa using List.find?_some hfind
    rw [a.world.directory.membership_ext hm hmember (hid.trans hid'.symm)]
    exact howner
  have hafter : role.key ≠ .owner := newRole_ne_owner hrole howner
  -- whether or not the sessions were ended after it
  have heffect : ∀ a'' : Accounts, a''.world.directory
      = a.world.directory.updateMembership membershipId role (dto.isActive.getD member.isActive) →
      a''.world.fresh = a.world.fresh → a''.staffInvites = a.staffInvites →
      (∃ ls, a''.auditLogs = a.auditLogs ++ ls ∧ ∀ l ∈ ls, l.action ≠ RESTAURANT_CREATED) →
      StaffEffect a a'' := by
    intro a'' hdirectory hfresh hinvites hlogs
    refine ⟨?_, ?_, fun i hi hrole => ⟨i, hinvites ▸ hi, hrole⟩, hlogs, hfresh.ge⟩
    · rw [hdirectory]
      rfl
    · intro _ restaurantId
      rw [hdirectory]
      exact ownersOf_updateMembership hbefore hafter restaurantId
  cases pure_ok.mp h
  split
  next =>
    exact heffect _ (revokeAllForUser_directory _ _) (revokeAllForUser_fresh _ _) rfl
      (one_log (by decide))
  next => exact heffect _ rfl rfl rfl (one_log (by decide))

/-! ## §6. Every operation, and every run. -/

/-- A request that fails touches none. -/
theorem orElse_effect {result : Except ApiError Accounts}
    (h : ∀ a', result = .ok a' → StaffEffect a a') : StaffEffect a (orElse a result) := by
  cases hresult : result with
  | ok a' => exact h a' hresult
  | error e => exact .refl a

/-- A creation either wrote everything or nothing. -/
theorem act_createRestaurant (cfg : AuthConfig) (U : Unicode) (a : Accounts) (userId : Uuid)
    (dto : CreateRestaurantDto) (suffixes : Fin 4 → String) :
    (∃ r m, Created a (a.act cfg U (.createRestaurant userId dto suffixes)) userId r m)
      ∨ a.act cfg U (.createRestaurant userId dto suffixes) = a := by
  cases hresult : createRestaurant U a userId dto suffixes with
  | ok result =>
      obtain ⟨m, hcreated⟩ := createRestaurant_ok hresult
      refine .inl ⟨result.1, m, ?_⟩
      simp only [Accounts.act, hresult]
      exact hcreated
  | error e =>
      right
      simp only [Accounts.act, hresult]
      rfl

/-- **Every operation keeps the owners**, and lets no pending invite make one. -/
theorem officeInv_step (cfg : AuthConfig) (U : Unicode) {x : OfficeAction} (ha : OfficeInv a)
    (h : (office cfg U).step a x a') : OfficeInv a' := by
  cases x with
  | createRestaurant userId dto suffixes =>
      rw [show a' = _ from h]
      -- a creation that fails leaves nothing
      rcases act_createRestaurant cfg U a userId dto suffixes with ⟨r, m, hcreated⟩ | hnothing
      · exact hcreated.officeInv ha
      · rw [hnothing]
        exact ha
  | createInvite ctx dto =>
      rw [show a' = _ from h]
      refine (orElse_effect ?_).officeInv ha
      intro a₁ hok
      obtain ⟨⟨invite, a₂⟩, hcreate, rfl⟩ := mapped_ok.mp hok
      exact createInvite_effect hcreate
  | revokeInvite ctx id =>
      rw [show a' = _ from h]
      exact (orElse_effect fun _ => revokeInvite_effect).officeInv ha
  | acceptInvite token dto =>
      rw [show a' = _ from h]
      exact (orElse_effect fun _ => acceptInvite_effect).officeInv ha
  | updateMember ctx membershipId dto =>
      rw [show a' = _ from h]
      exact (orElse_effect fun _ => updateMember_effect).officeInv ha
  | others => exact (Elsewhere.staffEffect h).officeInv ha

theorem officeInv_init {cfg : AuthConfig} {U : Unicode} (h : (office cfg U).init a) :
    OfficeInv a := by
  obtain ⟨hrestaurants, hinvites, hlogs⟩ := h
  refine ⟨?_, ?_, ?_, ?_⟩
  · simp [hrestaurants]
  · simp [hinvites]
  · simp [hrestaurants]
  · simp [hlogs]

/-- **Every restaurant has one owner, in every state.** -/
theorem officeInv_reachable {cfg : AuthConfig} {U : Unicode} (h : (office cfg U).Reachable a) :
    OfficeInv a :=
  h.invariant OfficeInv (fun _ => officeInv_init) fun _ _ _ ha hstep => officeInv_step cfg U ha hstep

/-- **Every restaurant has one owner, who is active and created it**, and a creation that
fails leaves nothing behind. -/
theorem exactly_one_owner (cfg : AuthConfig) (U : Unicode) (h : (office cfg U).Reachable a) :
    (∀ r ∈ a.world.directory.restaurants, a.Owned r.id)
      ∧ ∀ userId dto suffixes e, createRestaurant U a userId dto suffixes = .error e →
          a.act cfg U (.createRestaurant userId dto suffixes) = a := by
  refine ⟨(officeInv_reachable h).owned, ?_⟩
  intro userId dto suffixes e herror
  simp only [Accounts.act, herror]
  rfl

end

/-- Asha has signed up; the roles are seeded. -/
def openingDay : Accounts where
  world := oneUser
  profiles := [⟨1, "Asha", "asha@example.com"⟩]
  roles := [⟨.owner, "Owner", [.orderVoid]⟩, ⟨.manager, "Manager", [.orderVoid]⟩,
    ⟨.cashier, "Cashier", []⟩]
  staffInvites := []
  branches := []
  auditLogs := []

/-- The owner's token, once there is a restaurant. -/
def atMomoCo : RequestContext := ⟨1, some 100, some 102, [.orderVoid]⟩

/-- She opens a restaurant, takes on a cashier, promotes her and lets her go; she tries
to let herself go as well. -/
def firstWeek : List OfficeAction :=
  [.createRestaurant 1 ⟨"Momo & Co.", none, some ""⟩ fun _ => "ab12",
    .createInvite atMomoCo ⟨"bina@example.com", .cashier⟩, .acceptInvite 104 ⟨"Bina", "bcrypt:chai"⟩,
    .updateMember atMomoCo 106 ⟨some .manager, none⟩, .updateMember atMomoCo 106 ⟨none, some false⟩,
    .updateMember atMomoCo 102 ⟨some .cashier, some false⟩]

theorem firstWeek_runs :
    (System.replay (fun a x => some (Accounts.act demoConfig .ascii a x)) firstWeek openingDay).isSome
      = true :=
  rfl

/-- Asha creates Momo & Co and Bina joins as its manager. -/
theorem exactly_one_owner_firstWeek :
    ∃ a : Accounts, (a.world.directory.restaurants.map (·.slug) = ["momo-co"]
      ∧ a.world.directory.memberships.map (fun m => (m.user.name, m.role.key, m.isActive))
        = [("Asha", .owner, true), ("Bina", .manager, false)])
      ∧ ∀ r ∈ a.world.directory.restaurants, a.Owned r.id := by
  have h := System.replay_reachable (M := office demoConfig .ascii)
    (f := fun a x => some (Accounts.act demoConfig .ascii a x)) office_act firstWeek openingDay
    ⟨rfl, rfl, rfl⟩ (Option.some_get firstWeek_runs).symm
  exact ⟨_, by decide +kernel, (exactly_one_owner demoConfig .ascii h).1⟩

end OraOS.Tenancy
