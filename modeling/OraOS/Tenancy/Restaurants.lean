/-
  OraOS.Tenancy.Restaurants — `RestaurantsService`: the current tenant's profile.

    * `getCurrent_iff` — the profile is the token's restaurant, whichever visible
                         row the database takes, exactly when the user works in no
                         other restaurant.
-/
import OraOS.Tenancy.Rls

namespace OraOS.Tenancy

open OraOS.Api
open OraOS.Lib

/-- `RestaurantsService.getCurrent`: `findFirstOrThrow` with neither a filter nor an
order. -/
def getCurrent (any : AnyRow Restaurant) (db : Directory) (ctx : RequestContext) :
    Except ApiError Restaurant :=
  found (any.pick ((restaurantsPolicy db.memberships).visible (tx ctx) db.restaurants))
    .recordNotFound

/-- `RestaurantsService.listForUser`, the memberships: filtered by the user besides
the policy. -/
def listForUser (db : Directory) (userId : Uuid) : List Membership :=
  orderBy (·.createdAt) ((membershipsPolicy.visible (txAs (some userId) none) db.memberships).filter
    fun m => decide (m.user.id = userId) && m.isActive)

/-- What the switcher lists is what the user may read of `restaurants` without
having chosen one. -/
theorem listForUser_visible (db : Directory) (userId : Uuid) (r : Restaurant) :
    (restaurantsPolicy db.memberships).sees (txAs (some userId) none) r = true
      ↔ ∃ m ∈ listForUser db userId, m.restaurantId = r.id := by
  simp only [sees_restaurant, listForUser, mem_orderBy, List.mem_filter, Policy.mem_visible,
    sees_membership, txAs, Bool.and_eq_true, decide_eq_true_eq, reduceCtorEq, false_or,
    Option.some.injEq]
  constructor
  · rintro ⟨m, hm, hr, hu, hactive⟩
    exact ⟨m, ⟨⟨hm, hu⟩, hu.symm, hactive⟩, hr⟩
  · rintro ⟨m, ⟨⟨hm, hu⟩, -, hactive⟩, hr⟩
    exact ⟨m, hm, hr, hu, hactive⟩

/-- A row of another restaurant is hidden exactly when the user does not work there. -/
theorem hidden_restaurant {memberships : List Membership} {ctx : RequestContext} {r : Restaurant}
    (h : ctx.restaurantId ≠ some r.id) :
    (restaurantsPolicy memberships).sees (tx ctx) r = false
      ↔ ∀ m ∈ memberships, m.user.id = ctx.userId → m.isActive = true → m.restaurantId ≠ r.id := by
  rw [← Bool.not_eq_true, sees_restaurant]
  simp only [tx, txAs, Option.some.injEq]
  constructor
  · intro hnot m hm hu hactive hrest
    exact hnot (.inr ⟨m, hm, hrest, hu.symm, hactive⟩)
  · rintro hnone (hid | ⟨m, hm, hrest, hu, hactive⟩)
    · exact h hid
    · exact hnone m hm hu.symm hactive hrest

/-- **The profile of the current tenant**: it is the row of the token's restaurant
for every choice of the database, if and only if there is such a row and the user
has no active membership in another restaurant. -/
theorem getCurrent_iff (db : Directory) (userId restaurantId : Uuid) (membershipId : Option Uuid)
    (permissions : List Permission) :
    (∀ any : AnyRow Restaurant, ∃ r,
        getCurrent any db ⟨userId, some restaurantId, membershipId, permissions⟩ = .ok r
          ∧ r.id = restaurantId)
      ↔ (∃ r ∈ db.restaurants, r.id = restaurantId) ∧ ∀ m ∈ db.memberships,
          m.user.id = userId → m.isActive = true → m.restaurantId = restaurantId := by
  simp only [getCurrent, found_ok]
  rw [AnyRow.forall_pick_iff]
  constructor
  · rintro ⟨hne, hall⟩
    obtain ⟨r, hr⟩ := List.exists_mem_of_ne_nil _ hne
    refine ⟨⟨r, (Policy.mem_visible.mp hr).1, hall r hr⟩, ?_⟩
    intro m hm hu hactive
    obtain ⟨r', hr', hid⟩ := db.memberships_restaurant m hm
    -- an active membership elsewhere makes that restaurant a second visible row
    by_contra hother
    have hne' : r'.id ≠ restaurantId := by rwa [hid]
    have hhidden := Policy.confined_iff.mp hall r' hr' hne'
    rw [hidden_restaurant fun heq => hne' (Option.some.inj heq).symm] at hhidden
    exact hhidden m hm hu hactive hid.symm
  · rintro ⟨⟨r, hr, hid⟩, hnone⟩
    refine ⟨?_, Policy.confined_iff.mpr ?_⟩
    · refine List.ne_nil_of_mem (Policy.mem_visible.mpr ⟨hr, sees_restaurant.mpr (.inl ?_)⟩)
      rw [hid]
      rfl
    -- every other restaurant is hidden, so any choice is the right one
    · intro r' hr' hother
      refine (hidden_restaurant fun heq => hother (Option.some.inj heq).symm).mpr ?_
      intro m hm hu hactive hrest
      rw [hnone m hm hu hactive] at hrest
      exact hother hrest.symm

/-- A token of Chai Corner reads the profile of Momo House. -/
theorem getCurrent_other_restaurant :
    getCurrent .first twoRestaurants atChaiCorner = .ok momoHouse ∧ momoHouse.id ≠ 2 := by
  decide

end OraOS.Tenancy
