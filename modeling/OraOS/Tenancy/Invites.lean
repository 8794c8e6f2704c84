/-
  OraOS.Tenancy.Invites — accounts, and the invitations that create them.

  Beside the tables of the sessions an account has its name in `profiles`; invites,
  branches and the audit trail belong to restaurants.  `join` is the transaction of
  `acceptInvite`: the invite is spent, a user and their membership are created, and
  if anything refuses a row nothing of it happens.

    * `findValidInvite_ok` — an invite that is accepted is in the table, and unspent;
    * `join_ok`            — everything a successful `join` wrote.
-/
import OraOS.Auth.Tables

namespace OraOS.Tenancy

open OraOS.Api
open OraOS.Lib
open OraOS.Auth

/-! ## §1. Rows. -/

/-- An invite with its role; `token` stands for its hash. -/
structure StaffInvite where
  id : Uuid
  restaurantId : Uuid
  email : String
  role : Role
  token : Uuid
  expiresAt : Instant
  acceptedAt : Option Instant
  revokedAt : Option Instant
  invitedBy : Option Uuid
  deriving DecidableEq, Repr

/-- A row of `branches`. -/
structure Branch where
  id : Uuid
  restaurantId : Uuid
  name : String
  address : Option String
  deriving DecidableEq, Repr

/-- A row of `audit_logs`. -/
structure AuditLog where
  restaurantId : Uuid
  userId : Option Uuid
  action : String
  entityType : String
  entityId : Option Uuid
  deriving DecidableEq, Repr

/-- Everything about people: `roles` is reference data, and `profiles` has the name
that belongs to a row of `users`. -/
structure Accounts where
  world : World
  profiles : List User
  roles : List Role
  staffInvites : List StaffInvite
  branches : List Branch
  auditLogs : List AuditLog

/-- The settings of a transaction that may carry an invite's token. -/
structure InviteSettings extends Settings where
  currentInviteToken : Option Uuid
  deriving DecidableEq, Repr

/-- `prisma.txWithInvite`: neither a user nor a restaurant. -/
def txWithInvite (token : Uuid) : InviteSettings := ⟨txAs none none, some token⟩

/-- `staff_invites` since invite_token_policy: the tenant's own, or the one whose token
is presented. -/
def invitesPolicy : Policy InviteSettings StaffInvite where
  sees s i := decide (s.currentRestaurantId = some i.restaurantId)
    || decide (s.currentInviteToken = some i.token)
  admits s i := decide (s.currentRestaurantId = some i.restaurantId)

/-- Neither accepted nor revoked. -/
def StaffInvite.pending (i : StaffInvite) : Bool := i.acceptedAt.isNone && i.revokedAt.isNone

/-! ## §2. The rows a user consists of. -/

/-- `user.create`; the index on the email may refuse it. -/
def createUser (a : Accounts) (email name passwordHash : String) :
    Except ApiError (User × Accounts) := do
  require (∀ u ∈ a.world.users, u.email ≠ email) (.uniqueViolation .userEmail)
  let user : User := ⟨a.world.fresh, name, email⟩
  let world := { a.world with
    users := a.world.users ++ [⟨user.id, email, passwordHash, true, none⟩]
    fresh := a.world.fresh + 1 }
  pure (user, { a with world, profiles := a.profiles ++ [user] })

/-- A row into `memberships`, if its keys allow it. -/
def Directory.addMembership (db : Directory) (m : Membership) : Option Directory :=
  if h : m.id ∉ db.memberships.map (·.id) ∧ ∃ r ∈ db.restaurants, r.id = m.restaurantId then
    some { db with
      memberships := db.memberships ++ [m]
      memberships_ids := by
        rw [List.map_append]
        exact List.Nodup.append db.memberships_ids (List.nodup_singleton _)
          (List.disjoint_singleton.mpr h.1)
      memberships_restaurant := by
        intro x hx
        rcases List.mem_append.mp hx with hold | hnew
        · exact db.memberships_restaurant x hold
        · rw [List.mem_singleton.mp hnew]
          exact h.2 }
  else none

/-- `membership.create`, in a transaction with these settings. -/
def createMembership (a : Accounts) (s : Settings) (user : User) (restaurantId : Uuid)
    (role : Role) : Except ApiError (Membership × Accounts) := do
  let m : Membership := ⟨a.world.fresh, user, restaurantId, role, true, a.world.now⟩
  require (membershipsPolicy.admits s m)
    (.internalServerError "new row violates row-level security policy")
  require (∀ m' ∈ a.world.directory.memberships,
    ¬ (m'.user.id = user.id ∧ m'.restaurantId = restaurantId)) (.uniqueViolation .membershipUser)
  let directory ← found (a.world.directory.addMembership m)
    (.internalServerError "Foreign key constraint violated")
  pure (m, { a with world := { a.world with directory, fresh := a.world.fresh + 1 } })

/-! ## §3. Accepting an invite. -/

/-- The invitee's name and the hash of the password they chose. -/
structure AcceptInviteDto where
  name : String
  passwordHash : String

/-- `StaffService.findValidInvite`: one error for every reason. -/
def findValidInvite (a : Accounts) (token : Uuid) : Except ApiError StaffInvite := do
  let invite ← found ((invitesPolicy.visible (txWithInvite token) a.staffInvites).find?
    fun i => decide (i.token = token)) (.notFound "This invitation is no longer valid")
  require (invite.pending ∧ ¬ invite.expiresAt < a.world.now)
    (.notFound "This invitation is no longer valid")
  pure invite

/-- `acceptInvite` stops here when the address has an account. -/
def requireNoAccount (a : Accounts) (invite : StaffInvite) : Except ApiError Unit :=
  require (∀ u ∈ a.world.users, u.email ≠ invite.email)
    (.conflict "An account with that email already exists. Sign in first.")

/-- The transaction of `acceptInvite`. -/
def join (a : Accounts) (invite : StaffInvite) (dto : AcceptInviteDto) :
    Except ApiError (Membership × Accounts) := do
  let s := txAs none (some invite.restaurantId)
  -- the invite is consumed by whoever still finds it pending
  let consumes := fun i : StaffInvite =>
    invitesPolicy.sees ⟨s, none⟩ i && decide (i.id = invite.id) && i.pending
  require (a.staffInvites.any consumes) (.notFound "This invitation is no longer valid")
  let consumed := { a with
    staffInvites := a.staffInvites.map fun i =>
      if consumes i then { i with acceptedAt := some a.world.now } else i }
  let (user, created) ← createUser consumed invite.email dto.name dto.passwordHash
  let (m, joined) ← createMembership created s user invite.restaurantId invite.role
  pure (m, { joined with auditLogs := joined.auditLogs ++
    [⟨invite.restaurantId, some user.id, "staff.joined", "membership", some m.id⟩] })

/-! ## §4. What they wrote. -/

/-- A new account has an email of its own. -/
theorem createUser_ok {a a' : Accounts} {email name passwordHash : String} {user : User}
    (h : createUser a email name passwordHash = .ok (user, a')) :
    (∀ u ∈ a.world.users, u.email ≠ email) ∧ user = ⟨a.world.fresh, name, email⟩
      ∧ a' = { a with
          world := { a.world with
            users := a.world.users ++ [⟨a.world.fresh, email, passwordHash, true, none⟩]
            fresh := a.world.fresh + 1 }
          profiles := a.profiles ++ [⟨a.world.fresh, name, email⟩] } := by
  simp only [createUser, bind_ok, require_ok] at h
  obtain ⟨-, hfree, h⟩ := h
  cases pure_ok.mp h
  exact ⟨hfree, rfl, rfl⟩

/-- A membership is added under a new id, to a restaurant there is. -/
theorem addMembership_eq_some {db db' : Directory} {m : Membership}
    (h : db.addMembership m = some db') :
    m.id ∉ db.memberships.map (·.id) ∧ (∃ r ∈ db.restaurants, r.id = m.restaurantId)
      ∧ db'.memberships = db.memberships ++ [m] ∧ db'.restaurants = db.restaurants
      ∧ db'.attendanceEvents = db.attendanceEvents := by
  unfold Directory.addMembership at h
  split at h
  next hkeys =>
    cases h
    exact ⟨hkeys.1, hkeys.2, rfl, rfl, rfl⟩
  next => cases h

/-- A new membership is the one asked for. -/
theorem createMembership_ok {a a' : Accounts} {s : Settings} {user : User} {restaurantId : Uuid}
    {role : Role} {m : Membership}
    (h : createMembership a s user restaurantId role = .ok (m, a')) :
    m = ⟨a.world.fresh, user, restaurantId, role, true, a.world.now⟩
      ∧ (∀ m' ∈ a.world.directory.memberships,
          ¬ (m'.user.id = user.id ∧ m'.restaurantId = restaurantId))
      ∧ ∃ directory, a.world.directory.addMembership m = some directory
          ∧ a' = { a with world := { a.world with directory, fresh := a.world.fresh + 1 } } := by
  simp only [createMembership, bind_ok, require_ok, found_ok] at h
  obtain ⟨-, -, -, hunique, directory, hadd, h⟩ := h
  cases pure_ok.mp h
  exact ⟨rfl, hunique, directory, hadd, rfl⟩

/-- The invite of a token is there and pending. -/
theorem findValidInvite_ok {a : Accounts} {token : Uuid} {invite : StaffInvite}
    (h : findValidInvite a token = .ok invite) :
    invite ∈ a.staffInvites ∧ invite.token = token ∧ invite.pending = true := by
  simp only [findValidInvite, bind_ok, require_ok, found_ok] at h
  obtain ⟨i, hfind, -, ⟨hpending, -⟩, h⟩ := h
  cases pure_ok.mp h
  refine ⟨(Policy.mem_visible.mp (List.mem_of_find?_eq_some hfind)).1, ?_, hpending⟩
  simpa using List.find?_some hfind

/-- **What a successful `join` wrote**: the invite was pending and is spent; the user and
the membership are new, and the membership has the role of the invite. -/
theorem join_ok {a a' : Accounts} {invite : StaffInvite} {dto : AcceptInviteDto} {m : Membership}
    (h : join a invite dto = .ok (m, a')) :
    (∃ i ∈ a.staffInvites, i.id = invite.id ∧ i.pending = true)
      ∧ m = ⟨a.world.fresh + 1, ⟨a.world.fresh, dto.name, invite.email⟩, invite.restaurantId,
          invite.role, true, a.world.now⟩
      ∧ ∃ directory, a.world.directory.addMembership m = some directory
          ∧ a'.world = { a.world with
              directory
              users := a.world.users ++ [⟨a.world.fresh, invite.email, dto.passwordHash, true, none⟩]
              fresh := a.world.fresh + 2 }
          ∧ (∀ i' ∈ a'.staffInvites, ∃ i ∈ a.staffInvites,
              i' = i ∨ i' = { i with acceptedAt := some a.world.now })
          ∧ a'.auditLogs = a.auditLogs ++
              [⟨invite.restaurantId, some a.world.fresh, "staff.joined", "membership", some m.id⟩] := by
  simp only [join, bind_ok, require_ok] at h
  obtain ⟨-, hany, ⟨user, created⟩, hcreate, ⟨m', joined⟩, hmember, h⟩ := h
  cases pure_ok.mp h
  obtain ⟨-, rfl, rfl⟩ := createUser_ok hcreate
  obtain ⟨rfl, -, directory, hadd, rfl⟩ := createMembership_ok hmember
  refine ⟨?_, rfl, directory, hadd, rfl, ?_, rfl⟩
  · obtain ⟨i, hi, hconsumes⟩ := List.any_eq_true.mp hany
    simp only [Bool.and_eq_true, decide_eq_true_eq] at hconsumes
    exact ⟨i, hi, hconsumes.1.2, hconsumes.2⟩
  · intro i' hi'
    obtain ⟨i, hi, rfl⟩ := List.mem_map.mp hi'
    refine ⟨i, hi, ?_⟩
    split
    · exact .inr rfl
    · exact .inl rfl

end OraOS.Tenancy
