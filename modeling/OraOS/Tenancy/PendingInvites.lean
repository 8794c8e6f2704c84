/-
  OraOS.Tenancy.PendingInvites — three notions of a pending invite.

  `listInvites` shows an invite until it is accepted, revoked or expired, and
  `findValidInvite` lets it be used as long; but staff_invites_one_pending counts it, in
  the words of its migration, as the one live invite of its email, and does not look at
  the clock.

    * `createInvite_succeeds_iff`
                        — for an outsider, an invite is refused for a pending one alone;
    * `invitable_iff`   — so the uninvited can be invited exactly in the states without
                        an expired invite that is still pending;
    * `uninvited_can_be_invited`
                        — and in the runs in which no pending invite expires.
-/
import OraOS.Tenancy.Owners

namespace OraOS.Tenancy

open OraOS.Api
open OraOS.Lib
open OraOS.Auth

/-! ## §1. The list. -/

/-- One row of the list of invites. -/
structure ListedInvite where
  id : Uuid
  email : String
  expiresAt : Instant
  roleKey : RoleKey
  roleName : String
  deriving DecidableEq, Repr

/-- `StaffService.listInvites`, the newest first. -/
def listInvites (a : Accounts) (ctx : RequestContext) : List ListedInvite :=
  let invites := (invitesPolicy.visible (txInvites ctx) a.staffInvites).filter
    fun i => i.pending && decide (a.world.now < i.expiresAt)
  invites.reverse.map fun i => ⟨i.id, i.email, i.expiresAt, i.role.key, i.role.name⟩

/-- The request's user has a membership of the restaurant in the token: without one no
token names it, and memberships are never deleted. -/
def Accounts.Caller (a : Accounts) (ctx : RequestContext) : Prop :=
  ∃ m ∈ a.world.directory.memberships,
    ctx.restaurantId = some m.restaurantId ∧ m.user.id = ctx.userId

instance (a : Accounts) (ctx : RequestContext) : Decidable (a.Caller ctx) :=
  inferInstanceAs (Decidable (∃ m ∈ a.world.directory.memberships, _))

/-- Nobody with this email works in the restaurant. -/
def Accounts.Outsider (a : Accounts) (restaurantId : Option Uuid) (email : String) : Prop :=
  ∀ m ∈ a.world.directory.memberships, restaurantId = some m.restaurantId → m.user.email ≠ email

/-- Every outsider without an invite on the list can be invited. -/
def Accounts.Invitable (a : Accounts) : Prop :=
  ∀ ctx dto, a.Caller ctx → a.Outsider ctx.restaurantId dto.email →
    (∀ row ∈ listInvites a ctx, row.email ≠ dto.email) →
      ∃ invite a', createInvite a ctx dto = .ok (invite, a')

/-! ## §2. Any sequence of requests, as time passes. -/

/-- What happens to invites, and what happens beside them. -/
inductive InviteAction where
  | createInvite (ctx : RequestContext) (dto : CreateInviteDto)
  | revokeInvite (ctx : RequestContext) (id : Uuid)
  | acceptInvite (token : Uuid) (dto : AcceptInviteDto)
  | passTime (now : Instant)

/-- What it leaves; `none` if the caller is no member. -/
def Accounts.actInvite (cfg : AuthConfig) (a : Accounts) : InviteAction → Option Accounts
  | .createInvite ctx dto =>
      if a.Caller ctx then some (orElse a ((createInvite a ctx dto).map Prod.snd)) else none
  | .revokeInvite ctx id =>
      if a.Caller ctx then some (orElse a (revokeInvite a ctx id)) else none
  | .acceptInvite token dto => some (orElse a (acceptInvite cfg a token dto))
  | .passTime now =>
      if a.world.now ≤ now then some { a with world := { a.world with now } } else none

/-- The roles are seeded and nobody is invited yet; a membership has the email of its
user's account. -/
structure Uninvited (a : Accounts) : Prop where
  roles : ∀ r : InvitableRole, ∃ role ∈ a.roles, role.key = r.key
  users : ∀ m ∈ a.world.directory.memberships, ∀ m' ∈ a.world.directory.memberships,
    m.user.id = m'.user.id → m.user.email = m'.user.email
  fresh : ∀ m ∈ a.world.directory.memberships, m.user.id < a.world.fresh
  invites : a.staffInvites = []

/-- The runs that start before the first invite. -/
def invitations (cfg : AuthConfig) : System Accounts InviteAction where
  init := Uninvited
  step a x a' := a.actInvite cfg x = some a'

/-- No pending invite has expired. -/
def Accounts.Timely (a : Accounts) : Prop :=
  ∀ i ∈ a.staffInvites, i.pending = true → a.world.now < i.expiresAt

/-- Time does not pass the expiry of an invite that is neither accepted nor revoked. -/
def InTime (a : Accounts) : InviteAction → Prop
  | .passTime now => ∀ i ∈ a.staffInvites, i.pending = true → now < i.expiresAt
  | _ => True

instance (a : Accounts) (x : InviteAction) : Decidable (InTime a x) := by
  unfold InTime
  split <;> infer_instance

/-- A pending invite is the only one for its email in its restaurant, where somebody else
works. -/
structure InvitesInv (a : Accounts) : Prop where
  roles : ∀ r : InvitableRole, ∃ role ∈ a.roles, role.key = r.key
  users : ∀ m ∈ a.world.directory.memberships, ∀ m' ∈ a.world.directory.memberships,
    m.user.id = m'.user.id → m.user.email = m'.user.email
  fresh : ∀ m ∈ a.world.directory.memberships, m.user.id < a.world.fresh
  unique : ∀ i ∈ a.staffInvites, ∀ j ∈ a.staffInvites, i.pending = true → j.pending = true →
    i.restaurantId = j.restaurantId → i.email = j.email → i = j
  outside : ∀ i ∈ a.staffInvites, i.pending = true → a.Outsider (some i.restaurantId) i.email
  staffed : ∀ i ∈ a.staffInvites, i.pending = true →
    ∃ m ∈ a.world.directory.memberships, m.restaurantId = i.restaurantId

section

variable {a a' : Accounts} {ctx : RequestContext} {dto : CreateInviteDto}

/-! ## §3. When an invite can be created. -/

theorem mem_listInvites {i : StaffInvite} (hi : i ∈ a.staffInvites)
    (hrest : ctx.restaurantId = some i.restaurantId) (hpending : i.pending = true)
    (hnow : a.world.now < i.expiresAt) :
    ∃ row ∈ listInvites a ctx, row.email = i.email := by
  refine ⟨⟨i.id, i.email, i.expiresAt, i.role.key, i.role.name⟩, List.mem_map.mpr ⟨i, ?_, rfl⟩, rfl⟩
  rw [List.mem_reverse, List.mem_filter, Policy.mem_visible]
  refine ⟨⟨hi, ?_⟩, ?_⟩
  · show (decide (ctx.restaurantId = some i.restaurantId) || _) = true
    rw [hrest, decide_eq_true rfl, Bool.true_or]
  · rw [hpending, decide_eq_true hnow]
    rfl

/-- What is listed is such an invite. -/
theorem listInvites_mem {row : ListedInvite} (h : row ∈ listInvites a ctx) :
    ∃ i ∈ a.staffInvites, ctx.restaurantId = some i.restaurantId ∧ i.pending = true
      ∧ a.world.now < i.expiresAt ∧ row.email = i.email := by
  obtain ⟨i, hi, rfl⟩ := List.mem_map.mp h
  rw [List.mem_reverse, List.mem_filter, Policy.mem_visible] at hi
  obtain ⟨⟨hmem, hsees⟩, hlive⟩ := hi
  rw [Bool.and_eq_true, decide_eq_true_eq] at hlive
  refine ⟨i, hmem, ?_, hlive.1, hlive.2, rfl⟩
  simpa [invitesPolicy, txInvites, tx, txAs] using hsees

/-- What the caller sees of the team are rows of the restaurant, and their own elsewhere. -/
theorem visible_outsider (ha : InvitesInv a) (hcaller : a.Caller ctx) {email : String}
    (hout : a.Outsider ctx.restaurantId email) :
    ∀ m ∈ membershipsPolicy.visible (tx ctx) a.world.directory.memberships, m.user.email ≠ email := by
  obtain ⟨own, hown, hrest, huser⟩ := hcaller
  intro m hm
  obtain ⟨hm, hsees⟩ := Policy.mem_visible.mp hm
  rcases sees_membership.mp hsees with hhere | hself
  · exact hout m hm hhere
  · have hid : m.user.id = own.user.id := (Option.some.inj hself).symm.trans huser.symm
    rw [ha.users m hm own hown hid]
    exact hout own hown hrest

/-- **For an outsider, `createInvite` succeeds if and only if** no invite for the email
is pending, expired or not. -/
theorem createInvite_succeeds_iff (ha : InvitesInv a) (hcaller : a.Caller ctx)
    (hout : a.Outsider ctx.restaurantId dto.email) :
    (∃ invite a', createInvite a ctx dto = .ok (invite, a'))
      ↔ ∀ i ∈ a.staffInvites, ctx.restaurantId = some i.restaurantId → i.email = dto.email →
          i.pending = false := by
  have hvisible := visible_outsider ha hcaller hout
  obtain ⟨own, hown, hrest, -⟩ := hcaller
  constructor
  · rintro ⟨invite, a', h⟩ i hi hhere hemail
    simp only [createInvite, requireContext, bind_ok, found_ok, require_ok] at h
    obtain ⟨restaurantId, hctx, -, -, -, -, -, -, -, hone, -⟩ := h
    have hid : i.restaurantId = restaurantId := Option.some.inj (hhere.symm.trans hctx)
    exact Bool.eq_false_iff.mpr fun hpending => hone i hi ⟨hid, hemail, hpending⟩
  · intro hnone
    simp only [createInvite, record, requireContext, bind_ok, found_ok, require_ok]
    obtain ⟨role, hrole, hkey⟩ := ha.roles dto.role
    obtain ⟨role', hfind⟩ : ∃ role', a.roles.find? (fun r => decide (r.key = dto.role.key))
        = some role' := by
      refine Option.isSome_iff_exists.mp (List.find?_isSome.mpr ⟨role, hrole, ?_⟩)
      exact decide_eq_true hkey
    obtain ⟨r, hr, hid⟩ := a.world.directory.memberships_restaurant own hown
    have hone : ∀ i ∈ a.staffInvites,
        ¬ (i.restaurantId = own.restaurantId ∧ i.email = dto.email ∧ i.pending = true) := by
      rintro i hi ⟨hhere, hemail, hpending⟩
      rw [hnone i hi (hrest.trans (congrArg some hhere.symm)) hemail] at hpending
      cases hpending
    refine ⟨_, _, own.restaurantId, hrest, role', hfind, (), hvisible, (), ⟨r, hr, hid⟩, (), hone,
      _, if_pos ?_, _, ⟨own.restaurantId, hrest, rfl⟩, rfl⟩
    exact decide_eq_true hrest

/-- **The uninvited can be invited if and only if** no pending invite has expired. -/
theorem invitable_iff (ha : InvitesInv a) : a.Invitable ↔ a.Timely := by
  constructor
  · intro h i hi hpending
    by_contra hexpired
    -- a colleague tries again, and the list is no longer in the way
    obtain ⟨m, hm, hrest⟩ := ha.staffed i hi hpending
    have hcaller : a.Caller ⟨m.user.id, some i.restaurantId, none, []⟩ :=
      ⟨m, hm, congrArg some hrest.symm, rfl⟩
    have hout := ha.outside i hi hpending
    have hunlisted : ∀ row ∈ listInvites a ⟨m.user.id, some i.restaurantId, none, []⟩,
        row.email ≠ i.email := by
      intro row hrow hemail
      obtain ⟨j, hj, hhere, hlisted, hlive, hrow⟩ := listInvites_mem hrow
      have hsame := ha.unique i hi j hj hpending hlisted (Option.some.inj hhere)
        (hemail.symm.trans hrow)
      rw [← hsame] at hlive
      exact hexpired hlive
    have hcreated := h _ ⟨i.email, .cashier⟩ hcaller hout hunlisted
    have hnone := (createInvite_succeeds_iff ha hcaller hout).mp hcreated i hi rfl rfl
    rw [hpending] at hnone
    cases hnone
  · intro htimely ctx dto hcaller hout hlist
    refine (createInvite_succeeds_iff ha hcaller hout).mpr ?_
    intro i hi hhere hemail
    refine Bool.eq_false_iff.mpr fun hpending => ?_
    obtain ⟨row, hrow, hrowEmail⟩ := mem_listInvites hi hhere hpending (htimely i hi hpending)
    exact hlist row hrow (hrowEmail.trans hemail)

/-! ## §4. What the operations wrote. -/

/-- No new invites, and at most one new member, who is new everywhere and holds no invite. -/
structure Fewer (a a' : Accounts) (joined : Option Membership) : Prop where
  roles : a'.roles = a.roles
  memberships : a'.world.directory.memberships = a.world.directory.memberships ++ joined.toList
  fresh : a.world.fresh ≤ a'.world.fresh
  invites : ∀ i ∈ a'.staffInvites, i.pending = true → i ∈ a.staffInvites
  newcomer : ∀ m ∈ joined, m.user.id = a.world.fresh ∧ a.world.fresh < a'.world.fresh
    ∧ ∀ i ∈ a'.staffInvites, i.pending = true → i.restaurantId = m.restaurantId →
        m.user.email ≠ i.email

/-- Whoever is a member was one, or has joined. -/
theorem Fewer.mem {joined : Option Membership} (h : Fewer a a' joined) {m : Membership}
    (hm : m ∈ a'.world.directory.memberships) :
    m ∈ a.world.directory.memberships ∨ m ∈ joined := by
  rw [h.memberships] at hm
  exact (List.mem_append.mp hm).imp_right Option.mem_toList.mp

/-- **Fewer invites and one member more** keep the invariant. -/
theorem Fewer.invitesInv {joined : Option Membership} (h : Fewer a a' joined) (ha : InvitesInv a) :
    InvitesInv a' where
  roles r := by
    rw [h.roles]
    exact ha.roles r
  users m hm m' hm' hid := by
    rcases h.mem hm with hold | hnew
    · rcases h.mem hm' with hold' | hnew'
      · exact ha.users m hold m' hold' hid
      · exact absurd (hid.trans (h.newcomer m' hnew').1) (ha.fresh m hold).ne
    · rcases h.mem hm' with hold' | hnew'
      · exact absurd (hid.symm.trans (h.newcomer m hnew).1) (ha.fresh m' hold').ne
      · rw [Option.mem_unique hnew hnew']
  fresh m hm := by
    rcases h.mem hm with hold | hnew
    · exact lt_of_lt_of_le (ha.fresh m hold) h.fresh
    · obtain ⟨hid, hlt, -⟩ := h.newcomer m hnew
      rw [hid]
      exact hlt
  unique i hi j hj hpi hpj hrest hemail :=
    ha.unique i (h.invites i hi hpi) j (h.invites j hj hpj) hpi hpj hrest hemail
  outside i hi hpending m hm hrest := by
    rcases h.mem hm with hold | hnew
    · exact ha.outside i (h.invites i hi hpending) hpending m hold hrest
    · exact (h.newcomer m hnew).2.2 i hi hpending (Option.some.inj hrest)
  staffed i hi hpending := by
    obtain ⟨m, hm, hrest⟩ := ha.staffed i (h.invites i hi hpending) hpending
    refine ⟨m, ?_, hrest⟩
    rw [h.memberships]
    exact List.mem_append_left _ hm

/-- Fewer invites are no later. -/
theorem Fewer.timely {joined : Option Membership} (h : Fewer a a' joined)
    (hnow : a'.world.now = a.world.now) (ha : a.Timely) : a'.Timely := by
  intro i hi hpending
  rw [hnow]
  exact ha i (h.invites i hi hpending) hpending

/-- **What a successful `createInvite` checked and wrote.** -/
theorem createInvite_wrote {invite : StaffInvite} (h : createInvite a ctx dto = .ok (invite, a')) :
    ctx.restaurantId = some invite.restaurantId ∧ invite.email = dto.email
      ∧ invite.expiresAt = a.world.now + INVITE_TTL_DAYS * 86400000
      ∧ (∀ m ∈ membershipsPolicy.visible (tx ctx) a.world.directory.memberships,
          m.user.email ≠ dto.email)
      ∧ (∀ i ∈ a.staffInvites,
          ¬ (i.restaurantId = invite.restaurantId ∧ i.email = dto.email ∧ i.pending = true))
      ∧ a'.staffInvites = a.staffInvites ++ [invite] ∧ a'.roles = a.roles
      ∧ a'.world = { a.world with fresh := a.world.fresh + 2 } := by
  simp only [createInvite, requireContext, bind_ok, found_ok, require_ok] at h
  obtain ⟨restaurantId, hctx, role, -, -, hteam, -, -, -, hone, staffInvites, hinsert, a₁, hrecord,
    h⟩ := h
  cases pure_ok.mp h
  obtain ⟨-, rfl⟩ := Policy.insert_eq_some hinsert
  obtain ⟨_, rfl⟩ := record_ok hrecord
  exact ⟨hctx, rfl, rfl, hteam, hone, rfl, rfl, rfl⟩

/-- The invite that is new is the only one pending for its email. -/
theorem createInvite_invitesInv {invite : StaffInvite} (ha : InvitesInv a) (hcaller : a.Caller ctx)
    (h : createInvite a ctx dto = .ok (invite, a')) : InvitesInv a' := by
  obtain ⟨hctx, hemail, -, hteam, hone, hinvites, hroles, hworld⟩ := createInvite_wrote h
  have hmem : ∀ {i}, i ∈ a'.staffInvites → i ∈ a.staffInvites ∨ i = invite := by
    intro i hi
    rw [hinvites] at hi
    exact (List.mem_append.mp hi).imp_right List.mem_singleton.mp
  have hother : ∀ i ∈ a.staffInvites, i.pending = true → i.restaurantId = invite.restaurantId →
      i.email ≠ invite.email := fun i hi hpending hrest he =>
    hone i hi ⟨hrest, he.trans hemail, hpending⟩
  refine ⟨?_, ?_, ?_, ?_, ?_, ?_⟩
  · rw [hroles]
    exact ha.roles
  · rw [hworld]
    exact ha.users
  · rw [hworld]
    exact fun m hm => (ha.fresh m hm).trans (Nat.lt_add_of_pos_right Nat.two_pos)
  · intro i hi j hj hpi hpj hrest he
    rcases hmem hi with hold | rfl
    · rcases hmem hj with hold' | rfl
      · exact ha.unique i hold j hold' hpi hpj hrest he
      · exact absurd he (hother i hold hpi hrest)
    · rcases hmem hj with hold' | rfl
      · exact absurd he.symm (hother j hold' hpj hrest.symm)
      · rfl
  · intro i hi hpending m hm hrest
    rw [hworld] at hm
    rcases hmem hi with hold | rfl
    · exact ha.outside i hold hpending m hm hrest
    · rw [hemail]
      exact hteam m (Policy.mem_visible.mpr ⟨hm, sees_membership.mpr (.inl (hctx.trans hrest))⟩)
  · intro i hi hpending
    rw [hworld]
    rcases hmem hi with hold | rfl
    · exact ha.staffed i hold hpending
    · -- who invites works there
      obtain ⟨own, hown, hrest, -⟩ := hcaller
      exact ⟨own, hown, Option.some.inj (hrest.symm.trans hctx)⟩

/-- A new invite has its time before it. -/
theorem createInvite_timely {invite : StaffInvite} (ha : a.Timely)
    (h : createInvite a ctx dto = .ok (invite, a')) : a'.Timely := by
  obtain ⟨-, -, hexpires, -, -, hinvites, -, hworld⟩ := createInvite_wrote h
  intro i hi hpending
  rw [hworld]
  rw [hinvites] at hi
  rcases List.mem_append.mp hi with hold | hnew
  · exact ha i hold hpending
  · rw [List.mem_singleton.mp hnew, hexpires]
    exact lt_add_of_pos_right a.world.now (by decide)

/-- A revoked invite is pending no more. -/
theorem revokeInvite_fewer {id : Uuid} (h : revokeInvite a ctx id = .ok a') :
    Fewer a a' none ∧ a'.world = a.world := by
  simp only [revokeInvite, bind_ok] at h
  obtain ⟨_, -, hrecord⟩ := h
  obtain ⟨_, rfl⟩ := record_ok hrecord
  refine ⟨⟨rfl, (List.append_nil _).symm, le_refl _, ?_, forall_mem_none⟩, rfl⟩
  intro i' hi' hpending
  obtain ⟨i, hi, rfl⟩ := List.mem_map.mp hi'
  split at hpending
  next =>
    -- the revoked one is pending no more
    simp [StaffInvite.pending] at hpending
  next hid =>
    rw [if_neg hid]
    exact hi

/-- The invites that `join` leaves pending are none of the invite's. -/
theorem join_pending {invite : StaffInvite} {dto : AcceptInviteDto} {m : Membership}
    (h : join a invite dto = .ok (m, a')) :
    a'.roles = a.roles ∧ ∀ i ∈ a'.staffInvites, i.pending = true →
      i ∈ a.staffInvites ∧ ¬ (i.restaurantId = invite.restaurantId ∧ i.id = invite.id) := by
  simp only [join, bind_ok, require_ok] at h
  obtain ⟨-, -, ⟨user, created⟩, hcreate, ⟨m', joined⟩, hmember, h⟩ := h
  cases pure_ok.mp h
  obtain ⟨-, rfl, rfl⟩ := createUser_ok hcreate
  obtain ⟨rfl, -, directory, -, rfl⟩ := createMembership_ok hmember
  refine ⟨rfl, ?_⟩
  intro i' hi' hpending
  obtain ⟨i, hi, rfl⟩ := List.mem_map.mp hi'
  split at hpending
  next => simp [StaffInvite.pending] at hpending
  next hconsumes =>
    rw [if_neg hconsumes]
    refine ⟨hi, ?_⟩
    rintro ⟨hrest, hid⟩
    exact hconsumes (by simp [invitesPolicy, txAs, hrest, hid, hpending])

theorem acceptInvite_fewer {cfg : AuthConfig} {token : Uuid} {dto : AcceptInviteDto}
    (ha : InvitesInv a) (h : acceptInvite cfg a token dto = .ok a') :
    ∃ m, Fewer a a' (some m) ∧ a'.world.now = a.world.now := by
  simp only [acceptInvite, bind_ok] at h
  obtain ⟨invite, hinvite, -, -, ⟨m, a₁⟩, hjoin, h⟩ := h
  cases pure_ok.mp h
  obtain ⟨hmem, -, hvalid⟩ := findValidInvite_ok hinvite
  obtain ⟨hroles, hleft⟩ := join_pending hjoin
  obtain ⟨-, hm, directory, hkeys, hworld, -, -⟩ := join_ok hjoin
  obtain ⟨-, -, hmemberships, -, -⟩ := addMembership_eq_some hkeys
  refine ⟨m, ⟨hroles, ?_, ?_, fun i hi hpending => (hleft i hi hpending).1, ?_⟩, ?_⟩
  · show a₁.world.directory.memberships = _
    rw [hworld]
    exact hmemberships
  · show a.world.fresh ≤ a₁.world.fresh + 2
    rw [hworld]
    exact Nat.le_add_right _ 4
  · rintro _ ⟨⟩
    rw [hm]
    refine ⟨rfl, ?_, ?_⟩
    · show a.world.fresh < a₁.world.fresh + 2
      rw [hworld]
      exact Nat.lt_add_of_pos_right (Nat.succ_pos 3)
    · -- the only invite of the newcomer's was the one they accepted
      intro i hi hpending hrest hemail
      obtain ⟨hold, hother⟩ := hleft i hi hpending
      have hsame := ha.unique i hold invite hmem hpending hvalid hrest hemail.symm
      exact hother ⟨hrest, congrArg StaffInvite.id hsame⟩
  · show a₁.world.now = _
    rw [hworld]

/-! ## §5. Every run. -/

/-- A request that fails leaves everything as it was. -/
theorem orElse_step {result : Except ApiError Accounts} (ha : InvitesInv a)
    (h : ∀ a', result = .ok a' → InvitesInv a' ∧ (a.Timely → a'.Timely)) :
    InvitesInv (orElse a result) ∧ (a.Timely → (orElse a result).Timely) := by
  cases hresult : result with
  | ok a' => exact h a' hresult
  | error e => exact ⟨ha, id⟩

/-- **What one step does to the invites**: the invariant is kept, and as long as no pending
invite has expired, that is kept exactly by the steps that are in time. -/
theorem invitations_step {cfg : AuthConfig} {x : InviteAction} (ha : InvitesInv a)
    (h : (invitations cfg).step a x a') :
    InvitesInv a' ∧ (a.Timely → (a'.Timely ↔ InTime a x)) := by
  -- a request takes no time
  have hrequest : (InvitesInv a' ∧ (a.Timely → a'.Timely)) → InTime a x →
      InvitesInv a' ∧ (a.Timely → (a'.Timely ↔ InTime a x)) :=
    fun hkept hx => ⟨hkept.1, fun htimely => iff_of_true (hkept.2 htimely) hx⟩
  replace h : a.actInvite cfg x = some a' := h
  cases x with
  | createInvite ctx dto =>
      simp only [Accounts.actInvite, Option.ite_none_right_eq_some, Option.some.injEq] at h
      obtain ⟨hcaller, rfl⟩ := h
      refine hrequest (orElse_step ha ?_) trivial
      intro a₁ hok
      obtain ⟨⟨invite, a₂⟩, hcreate, rfl⟩ := mapped_ok.mp hok
      exact ⟨createInvite_invitesInv ha hcaller hcreate,
        fun htimely => createInvite_timely htimely hcreate⟩
  | revokeInvite ctx id =>
      simp only [Accounts.actInvite, Option.ite_none_right_eq_some, Option.some.injEq] at h
      obtain ⟨-, rfl⟩ := h
      refine hrequest (orElse_step ha ?_) trivial
      intro a₁ hok
      obtain ⟨hfewer, hworld⟩ := revokeInvite_fewer hok
      exact ⟨hfewer.invitesInv ha, hfewer.timely (congrArg World.now hworld)⟩
  | acceptInvite token dto =>
      cases h
      refine hrequest (orElse_step ha ?_) trivial
      intro a₁ hok
      obtain ⟨m, hfewer, hnow⟩ := acceptInvite_fewer ha hok
      exact ⟨hfewer.invitesInv ha, hfewer.timely hnow⟩
  | passTime now =>
      simp only [Accounts.actInvite, Option.ite_none_right_eq_some, Option.some.injEq] at h
      obtain ⟨-, rfl⟩ := h
      exact ⟨⟨ha.roles, ha.users, ha.fresh, ha.unique, ha.outside, ha.staffed⟩, fun _ => Iff.rfl⟩

/-- Before the first invite there is none. -/
theorem Uninvited.not_mem (h : Uninvited a) (i : StaffInvite) : i ∉ a.staffInvites := by
  rw [h.invites]
  exact List.not_mem_nil

theorem Uninvited.invitesInv (h : Uninvited a) : InvitesInv a where
  roles := h.roles
  users := h.users
  fresh := h.fresh
  unique i hi := absurd hi (h.not_mem i)
  outside i hi := absurd hi (h.not_mem i)
  staffed i hi := absurd hi (h.not_mem i)

/-- **They are in every state.** -/
theorem invitesInv_reachable {cfg : AuthConfig} (h : (invitations cfg).Reachable a) :
    InvitesInv a :=
  h.invariant InvitesInv (fun _ => Uninvited.invitesInv)
    fun _ _ _ ha hstep => (invitations_step ha hstep).1

/-- **The uninvited can be invited** in every state of the runs in which no pending invite
expires, and the passage of time that expires one is what ends that. -/
theorem uninvited_can_be_invited {cfg : AuthConfig}
    (h : ((invitations cfg).restrict InTime).Reachable a) :
    a.Invitable ∧ ∀ x a', (invitations cfg).step a x a' → (a'.Invitable ↔ InTime a x) := by
  have htimely : a.Timely := by
    induction h with
    | init h0 => exact fun i hi => absurd hi (h0.not_mem i)
    | step hprev hstep ih =>
        have hinv := invitesInv_reachable (System.restrict_reachable hprev)
        exact ((invitations_step hinv hstep.2).2 ih).mpr hstep.1
  have ha := invitesInv_reachable (System.restrict_reachable h)
  refine ⟨(invitable_iff ha).mpr htimely, ?_⟩
  intro x a' hstep
  obtain ⟨ha', hiff⟩ := invitations_step ha hstep
  exact (invitable_iff ha').trans (hiff htimely)

end

/-- Asha has two restaurants and nobody to help; the roles are seeded. -/
def shortHanded : Accounts where
  world := { oneUser with
    directory := twoRestaurants
    users := [⟨11, "asha@example.com", "bcrypt:momo", true, none⟩] }
  profiles := [⟨11, "Asha", "asha@example.com"⟩]
  roles := [ownerRole, ⟨.manager, "Manager", []⟩, ⟨.cashier, "Cashier", []⟩,
    ⟨.kitchen, "Kitchen", []⟩]
  staffInvites := []
  branches := []
  auditLogs := []

/-- A restaurant that has invited nobody. -/
theorem shortHanded_uninvited : Uninvited shortHanded where
  roles r := by
    cases r
    · decide
    · decide
    · decide
  users := by decide
  fresh := by decide
  invites := rfl

/-- She asks Bina, changes her mind the next day, and half a month passes. -/
def changedMind : List InviteAction :=
  [.createInvite atChaiCorner ⟨"bina@example.com", .cashier⟩, .passTime 87400000,
    .revokeInvite atChaiCorner 100, .passTime 1400000000]

theorem changedMind_runs :
    (System.replay (System.guarded InTime (Accounts.actInvite demoConfig)) changedMind
      shortHanded).isSome = true := by
  decide +kernel

/-- The invite was revoked, and can be sent again. -/
theorem uninvited_can_be_invited_changedMind :
    ∃ a : Accounts, a.staffInvites.map (·.revokedAt) = [some 87400000] ∧ a.Invitable := by
  have h := System.replay_restricted (M := invitations demoConfig) (C := InTime)
    (f := Accounts.actInvite demoConfig) (fun _ _ _ h => h) changedMind shortHanded
    shortHanded_uninvited (Option.some_get changedMind_runs).symm
  exact ⟨_, by decide +kernel, (uninvited_can_be_invited h).1⟩

/-- She asks Bina, who does not answer for a week. -/
def unanswered : List InviteAction :=
  [.createInvite atChaiCorner ⟨"bina@example.com", .cashier⟩, .passTime 605800000]

theorem unanswered_runs :
    (System.replay (Accounts.actInvite demoConfig) unanswered shortHanded).isSome = true := by
  decide +kernel

/-- Bina is not on the team and no invite is on the list, and she cannot be asked again. -/
theorem uninvited_refused :
    ∃ a, (invitations demoConfig).Reachable a ∧ listInvites a atChaiCorner = []
      ∧ createInvite a atChaiCorner ⟨"bina@example.com", .cashier⟩
          = .error (.conflict "An invite for that email is already pending")
      ∧ ¬ a.Invitable := by
  have h := System.replay_reachable (M := invitations demoConfig)
    (f := Accounts.actInvite demoConfig) (fun _ _ _ h => h) unanswered shortHanded
    shortHanded_uninvited (Option.some_get unanswered_runs).symm
  refine ⟨_, h, by decide +kernel, rfl, ?_⟩
  intro hinvitable
  have hexpired := (invitable_iff (invitesInv_reachable h)).mp hinvitable
  exact absurd hexpired (by unfold Accounts.Timely; decide +kernel)

end OraOS.Tenancy
