/-
  OraOS.Auth.Accounts — every request that starts or continues a session.

  Besides the requests of `OraOS.Auth.Sessions` these are `register`, `acceptInvite`
  and `requestPasswordReset`, again one statement at a time.  What the staff of a
  restaurant do meanwhile is of the environment.

  The family of a new token comes from the cookie, its user from the access token:

    * `Owns`                 — what ties the two in a request in flight;
    * `family_has_one_owner` — the tokens of a family have one user, as long as no
                               request consumes the cookie of another user;
    * `two_owners`           — and two users when one does.
-/
import OraOS.Tenancy.Invites
import OraOS.Auth.OneLive

namespace OraOS.Auth

open OraOS.Api
open OraOS.Lib
open OraOS.Tenancy

/-! ## §1. The requests. -/

/-- `RegisterDto`, with the hash of the password. -/
structure RegisterDto where
  email : String
  name : String
  passwordHash : String

/-- The requests of `OraOS.Auth.Sessions`, and those that make accounts and links. -/
inductive AccountRequest where
  | session (r : Request)
  | register (dto : RegisterDto)
  | acceptInvite (token : Uuid) (dto : AcceptInviteDto)
  | requestPasswordReset (email : String)

/-- The statement a request is at; `since` is the next id when the links were
invalidated. -/
inductive AccountTask where
  | session (t : Task)
  -- register
  | findEmail (dto : RegisterDto)
  | createUser (dto : RegisterDto)
  -- acceptInvite
  | findInvite (token : Uuid) (dto : AcceptInviteDto)
  | findInvitee (invite : StaffInvite) (dto : AcceptInviteDto)
  | join (invite : StaffInvite) (dto : AcceptInviteDto)
  -- requestPasswordReset
  | findAccount (email : String)
  | invalidateLinks (userId : Uuid)
  | createLink (userId : Uuid) (since : Uuid)

/-- What happens outside these requests: time, and what the staff module does. -/
inductive Outside where
  | elapses (elapsed : ℕ)
  | staff (directory : Directory) (staffInvites : List StaffInvite) (branches : List Tenancy.Branch)
      (auditLogs : List Tenancy.AuditLog)

/-- How long a link is good for. -/
def PASSWORD_RESET_TTL_MINUTES : ℤ := 30

/-- Every outstanding link of the user is spent. -/
def World.invalidateLinks (w : World) (userId : Uuid) : World :=
  { w with resetTokens := w.resetTokens.map fun r =>
      if decide (r.userId = userId) && r.usedAt.isNone then { r with usedAt := some w.now } else r }

/-- `passwordResetToken.create`. -/
def World.createLink (w : World) (userId : Uuid) : World :=
  { w with
    resetTokens := w.resetTokens ++
      [⟨w.fresh, userId, none, w.now + PASSWORD_RESET_TTL_MINUTES * 60000⟩]
    fresh := w.fresh + 1 }

/-- Who has just got an account is signed in, in a session of their own. -/
def signedUp (w : World) (claims : Claims) : AccountTask :=
  .session (.sign ⟨.login, claims, none, w.revocations claims.sub, w.revocations claims.sub⟩)

/-- The statement of a task, and what the request does next. -/
def nextAccount (cfg : AuthConfig) (a : Accounts) : AccountTask → Accounts × Option AccountTask
  | .session t => ({ a with world := (next cfg a.world t).1 }, (next cfg a.world t).2.map .session)
  | .findEmail dto =>
      if a.world.users.any fun u => decide (u.email = dto.email) then (a, none)
      else (a, some (.createUser dto))
  -- the unique index on the email answers a second sign-up of one address
  | .createUser dto =>
      match createUser a dto.email dto.name dto.passwordHash with
      | .ok (user, a') => (a', some (signedUp a'.world ⟨user.id, user.email, none, none, none, []⟩))
      | .error _ => (a, none)
  | .findInvite token dto =>
      match findValidInvite a token with
      | .ok invite => (a, some (.findInvitee invite dto))
      | .error _ => (a, none)
  | .findInvitee invite dto =>
      match requireNoAccount a invite with
      | .ok _ => (a, some (.join invite dto))
      | .error _ => (a, none)
  | .join invite dto =>
      match join a invite dto with
      | .ok (m, a') => (a', some (signedUp a'.world (.ofMembership m.user.id invite.email m)))
      | .error _ => (a, none)
  -- an unknown or inactive account gets the same answer, and no link
  | .findAccount email =>
      match a.world.users.find? fun u => decide (u.email = email) with
      | some u => (a, if u.isActive then some (.invalidateLinks u.id) else none)
      | none => (a, none)
  | .invalidateLinks userId =>
      ({ a with world := a.world.invalidateLinks userId }, some (.createLink userId a.world.fresh))
  | .createLink userId _ => ({ a with world := a.world.createLink userId }, none)

/-- Who is let in. -/
def receiveAccount (cfg : AuthConfig) (a : Accounts) : AccountRequest → Option AccountTask
  | .session r => (receive cfg a.world r).map .session
  | .register dto => some (.findEmail dto)
  | .acceptInvite token dto => some (.findInvite token dto)
  | .requestPasswordReset email => some (.findAccount email)

/-- What happens around the requests. -/
def outside (a : Accounts) : Outside → Accounts
  | .elapses elapsed => { a with world := tick a.world elapsed }
  | .staff directory staffInvites branches auditLogs =>
      { a with world := { a.world with directory }, staffInvites, branches, auditLogs }

/-- All of them over the tables. -/
def accountService (cfg : AuthConfig) : Service Accounts AccountTask AccountRequest Outside where
  receive := receiveAccount cfg
  next := nextAccount cfg
  env := outside

variable {cfg : AuthConfig}

/-- A statement that is not of the session requests touches no refresh token. -/
theorem nextAccount_tokens (cfg : AuthConfig) (a : Accounts) {t : AccountTask} (hnot : ∀ s, t ≠ .session s) :
    (nextAccount cfg a t).1.world.refreshTokens = a.world.refreshTokens
      ∧ a.world.fresh ≤ (nextAccount cfg a t).1.world.fresh := by
  cases t with
  | session s => exact absurd rfl (hnot s)
  | createUser dto =>
      simp only [nextAccount]
      split
      -- an account is made, without a token
      next user a' h =>
        obtain ⟨-, -, rfl⟩ := createUser_ok h
        exact ⟨rfl, Nat.le_succ _⟩
      next => exact ⟨rfl, le_refl _⟩
  | join invite dto =>
      simp only [nextAccount]
      split
      next m a' h =>
        obtain ⟨-, -, directory, -, hworld, -⟩ := join_ok h
        rw [hworld]
        exact ⟨rfl, Nat.le_add_right _ 2⟩
      next => exact ⟨rfl, le_refl _⟩
  | createLink userId since => exact ⟨rfl, Nat.le_succ _⟩
  | invalidateLinks userId => exact ⟨rfl, le_refl _⟩
  | findEmail | findInvite | findInvitee | findAccount =>
      simp only [nextAccount]
      split
      · exact ⟨rfl, le_refl _⟩
      · exact ⟨rfl, le_refl _⟩

/-- What a request does next, and on what grounds. -/
inductive NextAccount (cfg : AuthConfig) (a : Accounts) : AccountTask → AccountTask → Prop where
  | session {s s' : Task} (hnext : (next cfg a.world s).2 = some s') :
      NextAccount cfg a (.session s) (.session s')
  | newEmail {dto : RegisterDto}
      (hnew : (a.world.users.any fun u => decide (u.email = dto.email)) = false) :
      NextAccount cfg a (.findEmail dto) (.createUser dto)
  | registered {dto : RegisterDto} {user : User} {a' : Accounts}
      (hcreate : createUser a dto.email dto.name dto.passwordHash = .ok (user, a')) :
      NextAccount cfg a (.createUser dto)
        (signedUp a'.world ⟨user.id, user.email, none, none, none, []⟩)
  | invited {token : Uuid} {dto : AcceptInviteDto} {invite : StaffInvite}
      (hvalid : findValidInvite a token = .ok invite) :
      NextAccount cfg a (.findInvite token dto) (.findInvitee invite dto)
  | unknown {invite : StaffInvite} {dto : AcceptInviteDto}
      (hnone : requireNoAccount a invite = .ok ()) :
      NextAccount cfg a (.findInvitee invite dto) (.join invite dto)
  | joined {invite : StaffInvite} {dto : AcceptInviteDto} {m : Membership} {a' : Accounts}
      (hjoin : join a invite dto = .ok (m, a')) :
      NextAccount cfg a (.join invite dto)
        (signedUp a'.world (.ofMembership m.user.id invite.email m))
  | account {email : String} {u : UserRow}
      (hu : (a.world.users.find? fun u => decide (u.email = email)) = some u)
      (hactive : u.isActive = true) :
      NextAccount cfg a (.findAccount email) (.invalidateLinks u.id)
  | invalidated {userId : Uuid} :
      NextAccount cfg a (.invalidateLinks userId) (.createLink userId a.world.fresh)

/-- **The step inversion**, for the request: what `nextAccount` does next. -/
theorem nextAccount_task {a : Accounts} {t t' : AccountTask}
    (h : (nextAccount cfg a t).2 = some t') : NextAccount cfg a t t' := by
  cases t with
  | session s =>
      obtain ⟨s', hs', rfl⟩ := Option.map_eq_some_iff.mp h
      exact .session hs'
  | findEmail dto =>
      simp only [nextAccount] at h
      split at h
      next => cases h
      next hnew =>
        cases h
        exact .newEmail (Bool.eq_false_of_not_eq_true hnew)
  | createUser dto =>
      simp only [nextAccount] at h
      split at h
      next user a' hcreate =>
        cases h
        exact .registered hcreate
      next => cases h
  | findInvite token dto =>
      simp only [nextAccount] at h
      split at h
      next invite hvalid =>
        cases h
        exact .invited hvalid
      next => cases h
  | findInvitee invite dto =>
      simp only [nextAccount] at h
      split at h
      next hnone =>
        cases h
        exact .unknown hnone
      next => cases h
  | join invite dto =>
      simp only [nextAccount] at h
      split at h
      next m a' hjoin =>
        cases h
        exact .joined hjoin
      next => cases h
  | findAccount email =>
      simp only [nextAccount] at h
      split at h
      next u hu =>
        split at h
        next hactive =>
          cases h
          exact .account hu hactive
        next => cases h
      next => cases h
  | invalidateLinks userId =>
      cases h
      exact .invalidated
  | createLink => cases h

/-- The session a request goes on with is one that it has just signed up for. -/
theorem nextAccount_signs {a : Accounts} {t : AccountTask} {s : Task} (hnot : ∀ s, t ≠ .session s)
    (hnext : (nextAccount cfg a t).2 = some (.session s)) :
    ∃ ticket : Ticket, s = .sign ticket ∧ ticket.familyId = none := by
  cases nextAccount_task hnext with
  | session => exact absurd rfl (hnot _)
  | registered | joined => exact ⟨_, rfl, rfl⟩

/-! ## §2. Whose family. -/

/-- The tokens of a family belong to one user. -/
def World.OneOwner (w : World) : Prop :=
  ∀ t ∈ w.refreshTokens, ∀ t' ∈ w.refreshTokens, t.familyId = t'.familyId → t.userId = t'.userId

/-- The family a ticket names has a token of the ticket's user. -/
def World.Owns (w : World) (ticket : Ticket) : Prop :=
  ∀ f ∈ ticket.familyId, ∃ t ∈ w.refreshTokens, t.familyId = f ∧ t.userId = ticket.claims.sub

/-- The user of a session in flight is that of its family. -/
def Owns (w : World) : Task → Prop
  | .refreshClaims user existing _ => user.id = existing.userId
  | .sign ticket => w.Owns ticket
  | .insert ticket _ => w.Owns ticket
  | _ => True

/-- The cookie that `selectRestaurant` consumes belongs to the user of its access token. -/
def OwnCookie (_ : Accounts) : AccountTask → Prop
  | .session (.consumeCookie ticket existing) => existing.userId = ticket.claims.sub
  | _ => True

/-- What is known of the tokens and of whose they are. -/
structure OwnerInv (w : World) : Prop extends TokenInv w where
  owner : w.OneOwner

/-- What a request in flight relies on. -/
def KnowsOwner (a : Accounts) : AccountTask → Prop
  | .session t => KnowsToken a.world t ∧ Owns a.world t
  | _ => True

section

variable {w w' : World}

/-- Whose family it is does not change. -/
theorem World.Owns.grown {ticket : Ticket} (h : w.Owns ticket) (hg : Grown w w') :
    w'.Owns ticket := by
  intro f hf
  obtain ⟨t, ht, hfamily, huser⟩ := h f hf
  obtain ⟨t', ht', hb⟩ := hg.kept t ht
  exact ⟨t', ht', hb.familyId.trans hfamily, hb.userId.trans huser⟩

/-- A ticket without a family names nobody else's. -/
theorem owns_none {ticket : Ticket} (h : ticket.familyId = none) : w.Owns ticket := by
  intro f hf
  rw [h] at hf
  cases hf

/-- A ticket that goes back to a row is of that row's user. -/
theorem World.Row.owns {existing : RefreshToken} (h : w.Row existing) {ticket : Ticket}
    (hfamily : ticket.familyId = some existing.familyId)
    (huser : ticket.claims.sub = existing.userId) : w.Owns ticket := by
  intro f hf
  rw [hfamily] at hf
  cases hf
  obtain ⟨t, ht, hb⟩ := h.present
  exact ⟨t, ht, hb.familyId, hb.userId.trans huser.symm⟩

/-- What a request relies on stands, whatever others do. -/
theorem owns_grown {t : Task} (hg : Grown w w') (h : Owns w t) : Owns w' t := by
  cases t with
  | refreshClaims => exact h
  | sign | insert => exact World.Owns.grown h hg
  | _ => trivial

/-- A request stays with its user, if the cookie it consumes is theirs. -/
theorem owns_next {t t' : Task} (hknow : KnowsToken w t) (h : Owns w t)
    (hcookie : ∀ ticket existing, t = .consumeCookie ticket existing →
      existing.userId = ticket.claims.sub)
    (hnext : (next cfg w t).2 = some t') : Owns (next cfg w t).1 t' := by
  refine owns_grown (next_tokenStep cfg w t).grown ?_
  cases next_task hnext with
  | @active existing since u hu =>
      -- the account was looked up by the owner of the token
      have hid : u.id = existing.userId := by simpa using List.find?_some hu
      exact hid
  | refreshed => exact World.Row.owns hknow rfl ((buildClaims_sub _ _ _).trans h)
  | login | member => exact owns_none rfl
  | spentCookie => exact owns_none hknow
  -- here the cookie could be of somebody else
  | consumed => exact hknow.2.owns rfl (hcookie _ _ rfl).symm
  | signed => exact h
  | _ => trivial

/-- Revoking changes no owner. -/
theorem World.OneOwner.revoked (h : w.OneOwner) {g : RefreshToken → RefreshToken}
    (hg : ∀ t : RefreshToken, t.Becomes (g t)) (htokens : w'.refreshTokens = w.refreshTokens.map g) :
    w'.OneOwner := by
  intro x hx y hy hfamily
  rw [htokens] at hx hy
  obtain ⟨t, ht, rfl⟩ := List.mem_map.mp hx
  obtain ⟨t', ht', rfl⟩ := List.mem_map.mp hy
  rw [(hg t).familyId, (hg t').familyId] at hfamily
  rw [(hg t).userId, (hg t').userId]
  exact h t ht t' ht' hfamily

/-- A token that is issued joins the tokens of its own user, or none. -/
theorem OwnerInv.issued (hw : OwnerInv w) {ticket : Ticket} {iat : ℤ} (late : Bool)
    (howns : w.Owns ticket) :
    (w.issue cfg ticket.claims ticket.familyId iat ticket.checkedAfter late).OneOwner := by
  -- whoever is in the family already is the user of the ticket
  have hnew : ∀ t ∈ w.refreshTokens, t.familyId = ticket.familyId.getD (w.fresh + 1) →
      t.userId = ticket.claims.sub := by
    intro t ht hfamily
    cases hf : ticket.familyId with
    | none =>
        rw [hf] at hfamily
        have hlt := hw.families t ht
        rw [show t.familyId = w.fresh + 1 from hfamily] at hlt
        exact absurd hlt (not_lt.mpr (Nat.le_succ _))
    | some f =>
        rw [hf] at hfamily
        obtain ⟨t', ht', hfamily', huser'⟩ := howns f hf
        exact (hw.owner t ht t' ht' (hfamily.trans hfamily'.symm)).trans huser'
  intro x hx y hy hfamily
  rcases List.mem_append.mp hx with hx | hx <;> rcases List.mem_append.mp hy with hy | hy
  · exact hw.owner x hx y hy hfamily
  · rw [List.mem_singleton.mp hy] at hfamily ⊢
    exact hnew x hx hfamily
  · rw [List.mem_singleton.mp hx] at hfamily ⊢
    exact (hnew y hy hfamily.symm).symm
  · rw [List.mem_singleton.mp hx, List.mem_singleton.mp hy]

end

/-! ## §3. One owner. -/

/-- A statement that leaves the tokens alone keeps their invariant. -/
theorem tokenInv_of_tokens {w w' : World} (hw : TokenInv w)
    (htokens : w'.refreshTokens = w.refreshTokens) (hfresh : w.fresh ≤ w'.fresh) : TokenInv w' where
  fresh t ht := lt_of_lt_of_le (hw.fresh t (htokens ▸ ht)) hfresh
  nodup := by
    rw [htokens]
    exact hw.nodup
  families t ht := lt_of_lt_of_le (hw.families t (htokens ▸ ht)) hfresh

theorem grown_of_tokens {w w' : World} (htokens : w'.refreshTokens = w.refreshTokens)
    (hfresh : w.fresh ≤ w'.fresh) : Grown w w' where
  kept t ht := ⟨t, htokens ▸ ht, .refl t⟩
  origin t ht := .inl ⟨t, htokens ▸ ht, .refl t⟩
  fresh := hfresh

theorem ownerInv_of_tokens {w w' : World} (hw : OwnerInv w)
    (htokens : w'.refreshTokens = w.refreshTokens) (hfresh : w.fresh ≤ w'.fresh) : OwnerInv w' where
  toTokenInv := tokenInv_of_tokens hw.toTokenInv htokens hfresh
  owner := hw.owner.revoked .refl (htokens.trans (List.map_id _).symm)

/-- A statement of a session request. -/
theorem ownerInv_next {w : World} {t : Task} (hw : OwnerInv w) (hknow : KnowsToken w t)
    (howns : Owns w t) : OwnerInv (next cfg w t).1 := by
  have hstep := next_tokenStep cfg w t
  generalize (next cfg w t).1 = w' at hstep
  cases hstep with
  | revoked _ g hg htokens hfresh =>
      exact ⟨hw.toTokenInv.revoked hg htokens hfresh, hw.owner.revoked hg htokens⟩
  | issued late =>
      exact ⟨hw.toTokenInv.issued _ _ late (World.Continues.lt hknow hw.toTokenInv),
        hw.issued late howns⟩

/-- The obligations, for statements that consume no cookie of another user. -/
theorem owner_relyGuarantee (cfg : AuthConfig) :
    (accountService cfg).RelyGuarantee OwnCookie (fun a => OwnerInv a.world) KnowsOwner
      (fun a a' => Grown a.world a'.world) where
  receive a r t _ hreceive := by
    cases r with
    | session r =>
        obtain ⟨s, hs, rfl⟩ := Option.map_eq_some_iff.mp hreceive
        cases receive_task hs with
        | _ => exact ⟨trivial, trivial⟩
    | register | acceptInvite | requestPasswordReset =>
        cases hreceive
        trivial
  next a t hw h hcookie := by
    -- only the session calls touch tokens; the others can end in signing one without a family
    by_cases hsession : ∃ s, t = .session s
    · obtain ⟨s, rfl⟩ := hsession
      refine ⟨ownerInv_next hw h.1 h.2, (next_tokenStep cfg a.world s).grown, ?_⟩
      intro t' hnext
      obtain ⟨s', hs', rfl⟩ := Option.map_eq_some_iff.mp hnext
      refine ⟨knowsToken_next hw.toTokenKeys h.1 hs', owns_next h.1 h.2 ?_ hs'⟩
      rintro ticket existing rfl
      exact hcookie
    · have hnot : ∀ s, t ≠ .session s := fun s hs => hsession ⟨s, hs⟩
      obtain ⟨htokens, hfresh⟩ := nextAccount_tokens cfg a hnot
      refine ⟨ownerInv_of_tokens hw htokens hfresh, grown_of_tokens htokens hfresh, ?_⟩
      intro t' hnext
      cases t' with
      | session s =>
          obtain ⟨ticket, rfl, hnone⟩ := nextAccount_signs hnot hnext
          exact ⟨continues_none hnone, owns_none hnone⟩
      | _ => trivial
  env a e hw := by
    cases e with
    -- neither time nor the staff pages write a token
    | elapses elapsed =>
        exact ⟨ownerInv_of_tokens hw rfl (le_refl _), grown_of_tokens rfl (le_refl _)⟩
    | staff directory staffInvites branches auditLogs =>
        exact ⟨ownerInv_of_tokens hw rfl (le_refl _), grown_of_tokens rfl (le_refl _)⟩
  stable a a' t _ hg h := by
    cases t with
    | session s => exact ⟨knowsToken_grown hg h.1, owns_grown hg h.2⟩
    | _ => trivial

/-- The requests of all accounts, from tables in which the tokens of a family belong to
one user. -/
def accounts (cfg : AuthConfig) :
    System (InFlight Accounts AccountTask) (ServiceEvent AccountRequest Outside) :=
  (accountService cfg).interleaved fun a => OwnerInv a.world

/-- The tokens of a family belong to one user, and so does the one that a request in
flight is about to insert. -/
def FamiliesOwned (c : InFlight Accounts AccountTask) : Prop :=
  c.shared.world.OneOwner ∧ ∀ i t, c.running i = some (.session t) → Owns c.shared.world t

/-- **The run lemma**: tokens and requests in flight have their owners. -/
theorem familiesOwned_of_reachable {c : InFlight Accounts AccountTask}
    (h : ((accounts cfg).restrict (Service.Allowed OwnCookie)).Reachable c) :
    OwnerInv c.shared.world ∧ (∀ i t, c.running i = some t → KnowsOwner c.shared t)
      ∧ FamiliesOwned c := by
  obtain ⟨hw, hknows⟩ := Service.rely_guarantee (owner_relyGuarantee cfg) (fun _ hw => hw) h
  exact ⟨hw, hknows, hw.owner, fun i t hi => (hknows i _ hi).2⟩

/-- A cookie of another user, consumed, is what ties a family to two users. -/
theorem ownCookie_of_owned {c c' : InFlight Accounts AccountTask}
    {e : ServiceEvent AccountRequest Outside}
    (hknows : ∀ i t, c.running i = some t → KnowsOwner c.shared t)
    (hact : (accountService cfg).act c e = some c') (howned : FamiliesOwned c') :
    Service.Allowed OwnCookie c e := by
  cases e with
  | run i =>
      intro t hi
      cases t with
      | session s =>
          cases s with
          | consumeCookie ticket existing =>
              simp only [Service.act, hi] at hact
              cases hact
              obtain ⟨-, hrow⟩ := (hknows i _ hi).1
              -- the token consumed is in the family still, and one of the ticket's user
              obtain ⟨t, ht, hb⟩ := (hrow.grown (next_tokenStep cfg c.shared.world
                (.consumeCookie ticket existing)).grown).present
              obtain ⟨t', ht', hfamily, huser⟩ := howned.2 i _ (Function.update_self ..)
                existing.familyId rfl
              have hsame := howned.1 t ht t' ht' (hb.familyId.trans hfamily.symm)
              show existing.userId = ticket.claims.sub
              rw [← hb.userId, hsame]
              exact huser
          | _ => trivial
      | _ => trivial
  | _ => trivial

/-- **A token family has one owner**, in the runs in which no request consumes the cookie
of another user; and a step ties a family to two users if and only if it does. -/
theorem family_has_one_owner (cfg : AuthConfig) {c : InFlight Accounts AccountTask}
    (h : ((accounts cfg).restrict (Service.Allowed OwnCookie)).Reachable c) :
    c.shared.world.OneOwner ∧ ∀ e c', (accounts cfg).step c e c' →
      (FamiliesOwned c' ↔ Service.Allowed OwnCookie c e) := by
  obtain ⟨hw, hknows, -⟩ := familiesOwned_of_reachable h
  refine ⟨hw.owner, fun e c' hstep => ⟨ownCookie_of_owned hknows hstep, ?_⟩⟩
  intro hcookie
  exact (familiesOwned_of_reachable (h.step ⟨hcookie, hstep⟩)).2.2

/-! ## §4. Two owners. -/

/-- The manager of a restaurant, a second user, and an invite to the restaurant. -/
def twoUsers : Accounts where
  world := { oneManager with
    users := oneManager.users ++ [⟨2, "bina@example.com", "bcrypt:chai", true, none⟩] }
  profiles := [⟨1, "Asha", "asha@example.com"⟩, ⟨2, "Bina", "bina@example.com"⟩]
  roles := []
  staffInvites := [⟨50, 9, "chet@example.com", ⟨.cashier, "Cashier", []⟩, 60, 9000000, none, none,
    some 1⟩]
  branches := []
  auditLogs := []

/-- Nobody in flight. -/
def nobodyIn : InFlight Accounts AccountTask := ⟨twoUsers, fun _ => none⟩

theorem nobodyIn_init : (accounts demoConfig).init nobodyIn :=
  ⟨⟨⟨⟨nofun, List.nodup_nil⟩, nofun⟩, nofun⟩, fun _ => rfl⟩

/-- Two users sign in, one after the other in the same browser: the cookie is the
second's when a page of the first selects a restaurant. -/
def selectedWithForeignCookie : List (ServiceEvent AccountRequest Outside) :=
  [.begin 0 (.session signIn), .run 0, .run 0, .run 0, .run 0, .run 0,
    .begin 1 (.session (.login "bina@example.com" "chai")), .run 1, .run 1, .run 1, .run 1, .run 1,
    .begin 2 (.session (.selectRestaurant managerAccess 9 (some 102))), .run 2, .run 2, .run 2,
    .run 2, .run 2, .run 2]

theorem selectedWithForeignCookie_runs :
    (System.replay (accountService demoConfig).act selectedWithForeignCookie nobodyIn).isSome
      = true := by
  decide +kernel

/-- A family with a token of either user. -/
theorem two_owners :
    ∃ c, (accounts demoConfig).Reachable c ∧
      (c.shared.world.refreshTokens.filter fun t => decide (t.familyId = 103)).map (·.userId)
        = [2, 1] := by
  refine ⟨_, System.replay_reachable (M := accounts demoConfig)
    (f := (accountService demoConfig).act) (fun _ _ _ h => h) selectedWithForeignCookie nobodyIn
    nobodyIn_init (Option.some_get selectedWithForeignCookie_runs).symm, ?_⟩
  decide +kernel

instance (a : Accounts) (t : AccountTask) : Decidable (OwnCookie a t) := by
  unfold OwnCookie
  split <;> infer_instance

/-- The invite is accepted, and the manager selects the restaurant with their own
cookie. -/
def selectedWithOwnCookie : List (ServiceEvent AccountRequest Outside) :=
  [.begin 0 (.acceptInvite 60 ⟨"Chet", "bcrypt:lassi"⟩), .run 0, .run 0, .run 0, .run 0, .run 0,
    .begin 1 (.session signIn), .run 1, .run 1, .run 1, .run 1, .run 1,
    .begin 2 (.session (.selectRestaurant managerAccess 9 (some 104))), .run 2, .run 2, .run 2,
    .run 2, .run 2, .run 2]

theorem selectedWithOwnCookie_runs :
    (System.replay ((accountService demoConfig).actIf OwnCookie) selectedWithOwnCookie
      nobodyIn).isSome = true := by
  decide +kernel

/-- Three tokens: the invitee's, and two of the manager's family. -/
theorem family_has_one_owner_selected :
    ∃ c : InFlight Accounts AccountTask,
      c.shared.world.refreshTokens.map (fun t => (t.familyId, t.userId))
        = [(103, 100), (105, 1), (105, 1)] ∧ c.shared.world.OneOwner := by
  have h := System.replay_reachable
    (M := (accounts demoConfig).restrict (Service.Allowed OwnCookie))
    (f := (accountService demoConfig).actIf OwnCookie) Service.actIf_step selectedWithOwnCookie
    nobodyIn nobodyIn_init (Option.some_get selectedWithOwnCookie_runs).symm
  refine ⟨_, ?_, (family_has_one_owner demoConfig h).1⟩
  decide +kernel

end OraOS.Auth
