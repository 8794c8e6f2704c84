/-
  OraOS.Auth.Claims — what an access token says, and what it says it from.

    * `buildClaims_scoped`, `ofMembership_scoped` — the restaurant in a token is that
      of an active membership of its user.
-/
import OraOS.Tenancy.Rls

namespace OraOS.Auth

open OraOS.Api
open OraOS.Tenancy

/-- `AccessTokenPayload` before it is signed. -/
structure Claims where
  sub : Uuid
  email : String
  rid : Option Uuid
  mid : Option Uuid
  role : Option RoleKey
  perms : List Permission
  deriving DecidableEq, Repr

/-- The claims of a user at work in one restaurant. -/
def Claims.ofMembership (userId : Uuid) (email : String) (m : Membership) : Claims :=
  ⟨userId, email, some m.restaurantId, some m.id, some m.role.key, m.role.permissions⟩

/-- The memberships a user reads before there is a tenant. -/
def ownMemberships (db : Directory) (userId : Uuid) : List Membership :=
  membershipsPolicy.visible (txAs (some userId) none) db.memberships

/-- `AuthService.buildClaims`: the only active membership, if there is exactly one. -/
def buildClaims (db : Directory) (userId : Uuid) (email : String) : Claims :=
  match (ownMemberships db userId).filter fun m => decide (m.user.id = userId) && m.isActive with
  | [m] => .ofMembership userId email m
  | _ => ⟨userId, email, none, none, none, []⟩

/-- The membership `selectRestaurant` asks for. -/
def findMembership (db : Directory) (userId restaurantId : Uuid) : Option Membership :=
  (ownMemberships db userId).find? fun m =>
    decide (m.user.id = userId) && decide (m.restaurantId = restaurantId) && m.isActive

/-- `TenantContextInterceptor`: the request's context is the token's claims. -/
def contextOf (c : Claims) : RequestContext := ⟨c.sub, c.rid, c.mid, c.perms⟩

/-- The restaurant in the claims, if any, is one the user is active in. -/
def Claims.Scoped (db : Directory) (c : Claims) : Prop :=
  ∀ r, (contextOf c).restaurantId = some r → ∃ m ∈ db.memberships, m.user.id = c.sub
    ∧ m.isActive = true ∧ m.restaurantId = r ∧ (contextOf c).membershipId = some m.id

/-- Claims are of the user they are built for. -/
theorem buildClaims_sub (db : Directory) (userId : Uuid) (email : String) :
    (buildClaims db userId email).sub = userId := by
  unfold buildClaims
  split
  · rfl
  · rfl

/-- At login and at a refresh the claims name one of the user's memberships, or none. -/
theorem buildClaims_scoped (db : Directory) (userId : Uuid) (email : String) :
    (buildClaims db userId email).Scoped db := by
  intro r hr
  unfold buildClaims at hr ⊢
  split at hr
  next m hone =>
    have hm : m ∈ (ownMemberships db userId).filter
        fun m => decide (m.user.id = userId) && m.isActive := by
      rw [hone]
      exact List.mem_singleton_self m
    obtain ⟨hvisible, hcond⟩ := List.mem_filter.mp hm
    simp only [Bool.and_eq_true, decide_eq_true_eq] at hcond
    cases hr
    exact ⟨m, (Lib.Policy.mem_visible.mp hvisible).1, hcond.1, hcond.2, rfl, rfl⟩
  next => cases hr

theorem ofMembership_scoped {db : Directory} {userId restaurantId : Uuid} {email : String}
    {m : Membership} (h : findMembership db userId restaurantId = some m) :
    (Claims.ofMembership userId email m).Scoped db ∧ m.restaurantId = restaurantId := by
  have hcond := List.find?_some h
  simp only [Bool.and_eq_true, decide_eq_true_eq] at hcond
  obtain ⟨⟨huser, hrest⟩, hactive⟩ := hcond
  refine ⟨?_, hrest⟩
  intro r hr
  cases hr
  have hm := (Lib.Policy.mem_visible.mp (List.mem_of_find?_eq_some h)).1
  exact ⟨m, hm, huser, hactive, rfl, rfl⟩

end OraOS.Auth
