/-
  OraOS.Tenancy.Staff — `StaffService`: the team, the clock and the timesheet.

  None of the queries names a restaurant; the policy of `memberships` is all that
  stands between the tenants, and it lets a user read their own rows everywhere.

    * `clock_ok`           — everything a successful clocking checked and wrote;
    * `staff_isolated_iff` — the operations stay within the token's restaurant exactly
                         when the user has no membership in another one.
-/
import OraOS.Tenancy.Rls

namespace OraOS.Tenancy

open OraOS.Api
open OraOS.Lib

/-! ## §1. The team. -/

/-- The latest event of each of the memberships. -/
def latestEventByMembership (db : Directory) (s : Settings) (membershipIds : List Uuid)
    (membershipId : Uuid) : Option AttendanceEvent :=
  let events := orderBy (fun e => -e.at_)
    ((attendancePolicy.visible s db.attendanceEvents).filter
      fun e => decide (e.membershipId ∈ membershipIds))
  events.find? fun e => decide (e.membershipId = membershipId)

/-- One row of the staff page. -/
structure StaffMember where
  id : Uuid
  isActive : Bool
  createdAt : Instant
  user : User
  roleKey : RoleKey
  roleName : String
  onShift : Bool
  lastEventAt : Option Instant
  deriving DecidableEq, Repr

/-- `StaffService.list`; on-shift is derived from the latest event. -/
def list (db : Directory) (ctx : RequestContext) : List StaffMember :=
  let members := orderBy (·.createdAt) (membershipsPolicy.visible (tx ctx) db.memberships)
  let latest := latestEventByMembership db (tx ctx) (members.map (·.id))
  members.map fun m =>
    { id := m.id, isActive := m.isActive, createdAt := m.createdAt, user := m.user,
      roleKey := m.role.key, roleName := m.role.name,
      onShift := decide ((latest m.id).map (·.type) = some .clockIn),
      lastEventAt := (latest m.id).map (·.at_) }

/-! ## §2. The clock. -/

/-- The body of a clock request. -/
structure ClockDto where
  type : AttendanceEventType
  at_ : Option Instant
  note : Option String

/-- `StaffService.clock`: for oneself, or with attendance.manage for another. -/
def clock (db : Directory) (ctx : RequestContext) (targetMembershipId : Option Uuid)
    (dto : ClockDto) (env : Env) : Except ApiError (AttendanceEvent × Directory) := do
  let restaurantId ← requireContext ctx
  let forSelf := targetMembershipId.isNone || decide (targetMembershipId = ctx.membershipId)
  let canManage := decide (.attendanceManage ∈ ctx.permissions)
  require (forSelf || canManage) (.forbidden "Missing permission: attendance.manage")
  -- backdating one's own hours is editing a receipt
  require (dto.at_.isNone || canManage) (.forbidden "Cannot backdate your own attendance")
  let membershipId ← found (targetMembershipId.orElse fun _ => ctx.membershipId)
    (.badRequest "No membership in context")
  let at_ := dto.at_.getD env.now
  require (at_ ≤ env.now + 60000) (.badRequest "Attendance cannot be recorded in the future")
  -- no restaurant in the `where`: the policy is all there is
  let membership ← found ((membershipsPolicy.visible (tx ctx) db.memberships).find?
    fun m => decide (m.id = membershipId)) (.notFound "Staff member not found")
  require membership.isActive (.badRequest "That staff member is not active")
  -- the last event this tenant recorded for the membership
  let last := (orderBy (fun e => -e.at_) ((attendancePolicy.visible (tx ctx) db.attendanceEvents).filter
    fun e => decide (e.membershipId = membershipId))).head?
  require (last.map (·.type) ≠ some dto.type) (.conflict (match dto.type with
    | .clockIn => "Already clocked in"
    | .clockOut => "Already clocked out"))
  require (last.isSome ∨ dto.type ≠ .clockOut) (.conflict "Not clocked in")
  let event : AttendanceEvent :=
    { id := env.newId, restaurantId, membershipId, type := dto.type, at_,
      recordedBy := if forSelf then none else some ctx.userId, note := dto.note }
  let attendanceEvents ← found (attendancePolicy.insert (tx ctx) db.attendanceEvents event)
    (.internalServerError "new row violates row-level security policy")
  pure (event, { db with attendanceEvents })

/-- **What a successful `clock` checked and wrote.** -/
theorem clock_ok {db db' : Directory} {ctx : RequestContext} {targetMembershipId : Option Uuid}
    {dto : ClockDto} {env : Env} {e : AttendanceEvent}
    (h : clock db ctx targetMembershipId dto env = .ok (e, db')) :
    ctx.restaurantId = some e.restaurantId ∧ e.type = dto.type
      ∧ (∃ m ∈ db.memberships, m.id = e.membershipId ∧ m.isActive = true
          ∧ membershipsPolicy.sees (tx ctx) m = true)
      ∧ db' = { db with attendanceEvents := db.attendanceEvents ++ [e] } := by
  simp only [clock, requireContext, bind_ok, found_ok, require_ok] at h
  obtain ⟨restaurantId, hctx, -, -, -, -, membershipId, -, -, -, m, hfind, -, hactive, -, -, -, -,
    attendanceEvents, hinsert, h⟩ := h
  cases pure_ok.mp h
  obtain ⟨hm, hsees⟩ := Policy.mem_visible.mp (List.mem_of_find?_eq_some hfind)
  have hid : m.id = membershipId := by simpa using List.find?_some hfind
  obtain ⟨-, rfl⟩ := Policy.insert_eq_some hinsert
  exact ⟨hctx, rfl, ⟨m, hm, hid, hactive, hsees⟩, rfl⟩

/-! ## §3. The timesheet. -/

/-- One stretch of work; `clockedOut` and `minutes` are null while it lasts. -/
structure Session where
  clockedIn : Instant
  clockedOut : Option Instant
  minutes : Option ℤ
  deriving DecidableEq, Repr

/-- The pairing loop: the sessions so far and the CLOCK_IN that is open. -/
def pairEvent : List Session × Option Instant → AttendanceEvent → List Session × Option Instant
  | (sessions, openIn), e =>
      match e.type, openIn with
      | .clockIn, _ => (sessions, some e.at_)
      | .clockOut, some since =>
          (sessions ++ [⟨since, some e.at_, some (roundDiv (e.at_ - since) 60000)⟩], none)
      | .clockOut, none => (sessions, none)

/-- The sessions of one member; one still open is reported without an end. -/
def sessionsOf (events : List AttendanceEvent) : List Session :=
  let (sessions, openIn) := events.foldl pairEvent ([], none)
  match openIn with
  | some since => sessions ++ [⟨since, none, none⟩]
  | none => sessions

/-- The query of the timesheet. -/
structure TimesheetQuery where
  from_ : Option Instant
  to_ : Option Instant
  membershipId : Option Uuid

/-- One member's sessions. -/
structure TimesheetRow where
  membershipId : Uuid
  name : String
  role : RoleKey
  sessions : List Session
  totalMinutes : ℤ
  openSession : Bool
  deriving DecidableEq, Repr

/-- `StaffService.timesheet`: the last seven days unless the query says otherwise. -/
def timesheet (db : Directory) (ctx : RequestContext) (query : TimesheetQuery) (now : Instant) :
    List TimesheetRow :=
  let fromAt := query.from_.getD (now - 7 * 86400000)
  let toAt := query.to_.getD now
  let events := orderBy (·.at_) ((attendancePolicy.visible (tx ctx) db.attendanceEvents).filter
    fun e => decide (fromAt ≤ e.at_ ∧ e.at_ ≤ toAt)
      && query.membershipId.all fun id => decide (e.membershipId = id))
  -- the members the policy shows, with the events of the window
  let members := (membershipsPolicy.visible (tx ctx) db.memberships).filter
    fun m => query.membershipId.all fun id => decide (m.id = id)
  members.map fun m =>
    let sessions := sessionsOf (events.filter fun e => decide (e.membershipId = m.id))
    { membershipId := m.id, name := m.user.name, role := m.role.key, sessions,
      totalMinutes := (sessions.map fun s => s.minutes.getD 0).sum,
      openSession := sessions.any fun s => s.clockedOut.isNone }

/-! ## §4. Isolation. -/

/-- The membership with this id belongs to the restaurant. -/
def Directory.OfRestaurant (db : Directory) (restaurantId id : Uuid) : Prop :=
  ∃ m ∈ db.memberships, m.id = id ∧ m.restaurantId = restaurantId

/-- The staff operations of one request stay within one restaurant. -/
structure StaffIsolated (db : Directory) (ctx : RequestContext) (restaurantId : Uuid) : Prop where
  list : ∀ row ∈ list db ctx, db.OfRestaurant restaurantId row.id
  timesheet : ∀ query now, ∀ row ∈ timesheet db ctx query now,
    db.OfRestaurant restaurantId row.membershipId
  clock : ∀ target dto env e db', clock db ctx target dto env = .ok (e, db') →
    db.OfRestaurant restaurantId e.membershipId

/-- The rows of the team are the visible memberships. -/
theorem mem_list {db : Directory} {ctx : RequestContext} {id : Uuid} :
    (∃ row ∈ list db ctx, row.id = id)
      ↔ ∃ m ∈ db.memberships, m.id = id ∧ membershipsPolicy.sees (tx ctx) m = true := by
  simp only [list, List.mem_map, mem_orderBy, Policy.mem_visible]
  constructor
  · rintro ⟨row, ⟨m, ⟨hm, hsees⟩, rfl⟩, rfl⟩
    exact ⟨m, hm, rfl, hsees⟩
  · rintro ⟨m, hm, rfl, hsees⟩
    exact ⟨_, ⟨m, ⟨hm, hsees⟩, rfl⟩, rfl⟩

/-- A row of the timesheet is that of a membership the policy shows. -/
theorem timesheet_visible {db : Directory} {ctx : RequestContext} {query : TimesheetQuery}
    {now : Instant} {row : TimesheetRow} (h : row ∈ timesheet db ctx query now) :
    ∃ m ∈ db.memberships, m.id = row.membershipId
      ∧ membershipsPolicy.sees (tx ctx) m = true := by
  simp only [timesheet, List.mem_map, List.mem_filter, Policy.mem_visible] at h
  obtain ⟨m, ⟨⟨hm, hsees⟩, -⟩, rfl⟩ := h
  exact ⟨m, hm, rfl, hsees⟩

/-- **Tenant isolation of the staff operations**: they stay within the token's
restaurant if and only if the user has no membership, active or not, in another. -/
theorem staff_isolated_iff (db : Directory) (userId restaurantId : Uuid)
    (membershipId : Option Uuid) (permissions : List Permission) :
    StaffIsolated db ⟨userId, some restaurantId, membershipId, permissions⟩ restaurantId
      ↔ ∀ m ∈ db.memberships, m.user.id = userId → m.restaurantId = restaurantId := by
  constructor
  · intro h m hm hu
    -- a membership of the user's is on the list, whatever its restaurant
    have hsees : membershipsPolicy.sees
        (tx ⟨userId, some restaurantId, membershipId, permissions⟩) m = true :=
      sees_membership.mpr (.inr (congrArg some hu.symm))
    obtain ⟨row, hrow, hid⟩ := mem_list.mpr ⟨m, hm, rfl, hsees⟩
    obtain ⟨m', hm', hid', hrest⟩ := h.list row hrow
    rw [← db.membership_ext hm' hm (hid'.trans hid)]
    exact hrest
  · intro hown
    have hvisible : ∀ m ∈ db.memberships, membershipsPolicy.sees
        (tx ⟨userId, some restaurantId, membershipId, permissions⟩) m = true →
          m.restaurantId = restaurantId := by
      intro m hm hsees
      rcases sees_membership.mp hsees with hrest | huser
      · exact (Option.some.inj hrest).symm
      · exact hown m hm (Option.some.inj huser).symm
    refine ⟨?_, ?_, ?_⟩
    · intro row hrow
      obtain ⟨m, hm, hid, hsees⟩ := mem_list.mp ⟨row, hrow, rfl⟩
      exact ⟨m, hm, hid, hvisible m hm hsees⟩
    · intro query now row hrow
      obtain ⟨m, hm, hid, hsees⟩ := timesheet_visible hrow
      exact ⟨m, hm, hid, hvisible m hm hsees⟩
    · intro target dto env e db' hok
      obtain ⟨-, -, ⟨m, hm, hid, -, hsees⟩, -⟩ := clock_ok hok
      exact ⟨m, hm, hid, hvisible m hm hsees⟩

/-- With a token of Chai Corner: the membership of Momo House is on the list, and
the clock records an attendance of Chai Corner for it. -/
theorem staff_not_isolated :
    (∃ row ∈ list twoRestaurants atChaiCorner, row.id = 31 ∧ ¬ twoRestaurants.OfRestaurant 2 row.id)
      ∧ ∃ e db', clock twoRestaurants atChaiCorner (some 31) ⟨.clockIn, none, none⟩ ⟨40, 5⟩
          = .ok (e, db') ∧ e.restaurantId = 2 ∧ ¬ twoRestaurants.OfRestaurant 2 e.membershipId := by
  have hforeign : ¬ twoRestaurants.OfRestaurant 2 31 := by
    unfold Directory.OfRestaurant
    decide
  exact ⟨⟨_, List.mem_cons_self, rfl, hforeign⟩, _, _, rfl, rfl, hforeign⟩

end OraOS.Tenancy
