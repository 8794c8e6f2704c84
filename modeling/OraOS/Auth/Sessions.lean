/-
  OraOS.Auth.Sessions — the requests that start, renew and end sessions, one
  statement at a time.

  Every `await` of `AuthService` and `TokenService` that reads or writes ends a
  statement; what the request knows until the next one is its `Task`.  The sweep of
  `revokeAllForUser` and its commit are two statements: what enters the table in
  between is not swept.
-/
import OraOS.Auth.Tables
import OraOS.Lib.Requests

namespace OraOS.Auth

open OraOS.Api
open OraOS.Lib
open OraOS.Tenancy

/-! ## §1. Requests and what is left of them. -/

/-- The requests that start, renew and end sessions. -/
inductive Request where
  | login (email password : String)
  | refresh (presented : Uuid)
  | selectRestaurant (access : AccessToken) (restaurantId : Uuid) (presentedRefresh : Option Uuid)
  | logout (presented : Uuid)
  | logoutAll (userId : Uuid)
  | resetPassword (token : Uuid) (passwordHash : String)

/-- The request a pair of tokens is issued by. -/
inductive Source where
  | login
  | refresh
  | selectRestaurant
  deriving DecidableEq, Repr

/-- What is about to be issued; `since` counts the revocations of the user when the
request passed its check. -/
structure Ticket where
  source : Source
  claims : Claims
  familyId : Option Uuid
  checkedAfter : ℕ
  since : ℕ

/-- The statement a request is at, with what it has read so far. -/
inductive Task where
  -- login
  | readUser (email password : String)
  | comparePassword (user : Option UserRow) (password : String) (since : ℕ)
  | loginClaims (user : UserRow) (since : ℕ)
  -- rotate, then the rest of refresh
  | findToken (presented : Uuid)
  | readEpoch (existing : RefreshToken)
  | readFamily (existing : RefreshToken) (epoch : Instant)
  | claim (existing : RefreshToken)
  | readActive (existing : RefreshToken) (since : ℕ)
  | refreshClaims (user : UserRow) (existing : RefreshToken) (since : ℕ)
  | revokeFamily (familyId : Uuid)
  -- selectRestaurant
  | checkAccess (access : AccessToken) (restaurantId : Uuid) (presentedRefresh : Option Uuid)
  | readMembership (access : AccessToken) (restaurantId : Uuid) (presentedRefresh : Option Uuid)
      (since : ℕ)
  | findCookie (ticket : Ticket) (presented : Uuid)
  | consumeCookie (ticket : Ticket) (existing : RefreshToken)
  -- issue
  | sign (ticket : Ticket)
  | insert (ticket : Ticket) (iat : ℤ)
  -- logout, logoutAll, resetPassword
  | logout (presented : Uuid)
  | readClock (userId : Uuid)
  | sweep (userId : Uuid) (at_ : Instant)
  | revokeAll (userId : Uuid) (at_ : Instant) (swept : List Uuid)
  | findReset (token : Uuid) (passwordHash : String)
  | claimReset (record : PasswordResetToken) (passwordHash : String)

/-! ## §2. The statements. -/

variable (cfg : AuthConfig)

/-- Compared against when no user has the email, to keep the timing flat. -/
def DUMMY_HASH : String := "$2b$12$C6UzMDM.H6dfI/f/IKcEe.7VfCkBqO8kZ8yPOF3zVEcXvGUnhfPFe"

/-- The statement of a task, and what the request does next. -/
def next (w : World) : Task → World × Option Task
  | .readUser email password =>
      match w.users.find? fun u => decide (u.email = email) with
      | some u => (w, some (.comparePassword (some u) password (w.revocations u.id)))
      | none => (w, some (.comparePassword none password 0))
  | .comparePassword user password since =>
      let ok := cfg.compare password ((user.map (·.passwordHash)).getD DUMMY_HASH)
      match user with
      | some u => (w, if ok && u.isActive then some (.loginClaims u since) else none)
      | none => (w, none)
  | .loginClaims u since =>
      (w, some (.sign ⟨.login, buildClaims w.directory u.id u.email, none, since, since⟩))
  | .findToken presented =>
      match w.findToken presented with
      | none => (w, none)
      | some existing =>
          -- reuse: replay or theft, and either way the family goes
          if existing.revokedAt.isSome then (w, some (.revokeFamily existing.familyId))
          else if existing.expiresAt < w.now then (w, none)
          else (w, some (.readEpoch existing))
  | .readEpoch existing =>
      match w.epochOf existing.userId with
      -- the user has never signed out everywhere
      | none => (w, some (.claim existing))
      | some epoch => (w, some (.readFamily existing epoch))
  | .readFamily existing epoch =>
      -- the family began before the user last signed out everywhere
      if (w.familyStart existing.familyId).any fun startedAt => decide (startedAt < epoch) then
        (w, some (.revokeFamily existing.familyId))
      else (w, some (.claim existing))
  | .claim existing =>
      -- UPDATE … WHERE revoked_at IS NULL: one winner, and none after a sweep
      if w.live existing.token then
        (w.revokeByToken existing.token,
          some (.readActive existing (w.revocations existing.userId)))
      else (w, none)
  | .readActive existing since =>
      match w.findUser existing.userId with
      | some u => if u.isActive then (w, some (.refreshClaims u existing since))
          else (w, some (.revokeFamily existing.familyId))
      | none => (w, some (.revokeFamily existing.familyId))
  | .refreshClaims u existing since =>
      (w, some (.sign ⟨.refresh, buildClaims w.directory u.id u.email, some existing.familyId,
        existing.checkedAfter, since⟩))
  | .revokeFamily familyId => (w.revokeFamily familyId, none)
  | .checkAccess access restaurantId presentedRefresh =>
      -- the last look at the epoch before the issue
      if w.stale access then (w, none)
      else (w, some (.readMembership access restaurantId presentedRefresh
        (w.revocations access.claims.sub)))
  | .readMembership access restaurantId presentedRefresh since =>
      match findMembership w.directory access.claims.sub restaurantId with
      | none => (w, none)
      | some m =>
          let ticket : Ticket := ⟨.selectRestaurant,
            .ofMembership access.claims.sub access.claims.email m, none, access.checkedAfter, since⟩
          match presentedRefresh with
          | some presented => (w, some (.findCookie ticket presented))
          | none => (w, some (.sign ticket))
  | .findCookie ticket presented =>
      match w.findToken presented with
      -- a revoked or unknown cookie starts a family of its own
      | some existing => if existing.revokedAt.isSome then (w, some (.sign ticket))
          else (w, some (.consumeCookie ticket existing))
      | none => (w, some (.sign ticket))
  | .consumeCookie ticket existing =>
      -- unlike the claim of `rotate`, whatever has become of the token since
      (w.stamp (fun t => decide (t.token = existing.token)) w.now,
        some (.sign { ticket with familyId := some existing.familyId }))
  | .sign ticket => (w, some (.insert ticket (w.now / 1000)))
  | .insert ticket iat =>
      (w.issue cfg ticket.claims ticket.familyId iat ticket.checkedAfter
        (decide (ticket.since ≠ w.revocations ticket.claims.sub)), none)
  | .logout presented => (w.revokeByToken presented, none)
  | .readClock userId => (w, some (.sweep userId w.now))
  | .sweep userId at_ =>
      -- `user.update` on nobody rolls the transaction back
      if (w.findUser userId).isSome then (w, some (.revokeAll userId at_ (w.sweep userId)))
      else (w, none)
  | .revokeAll userId at_ swept => (w.revokeAll userId at_ swept, none)
  | .findReset token passwordHash =>
      match w.resetTokens.find? fun r => decide (r.token = token) with
      | none => (w, none)
      | some record =>
          if record.usedAt.isSome || decide (record.expiresAt < w.now) then (w, none)
          else (w, some (.claimReset record passwordHash))
  | .claimReset record passwordHash =>
      -- the link is claimed once; the revocation is a transaction of its own
      if w.resetTokens.any fun r => decide (r.token = record.token) && r.usedAt.isNone then
        (w.resetPassword record passwordHash, some (.readClock record.userId))
      else (w, none)

/-- Who is let in: `selectRestaurant` is behind the access token, which has to be
one that was signed and has not expired. -/
def receive (w : World) : Request → Option Task
  | .login email password => some (.readUser email password)
  | .refresh presented => some (.findToken presented)
  | .selectRestaurant access restaurantId presentedRefresh =>
      if access ∈ w.issued ∧ w.now / 1000 < access.iat + cfg.jwtAccessTtlSeconds then
        some (.checkAccess access restaurantId presentedRefresh)
      else none
  | .logout presented => some (.logout presented)
  | .logoutAll userId => some (.readClock userId)
  | .resetPassword token passwordHash => some (.findReset token passwordHash)

/-- Time passes between the statements. -/
def tick (w : World) (elapsed : ℕ) : World := { w with now := w.now + elapsed }

/-- The requests over the tables; the environment is the clock. -/
def authService : Service World Task Request ℕ where
  receive := receive cfg
  next := next cfg
  env := tick

/-- A world to start from: any users, any tokens of the past, and the count of
revocations at zero. -/
structure World.Opening (w : World) : Prop where
  tokens_fresh : ∀ t ∈ w.refreshTokens, t.token < w.fresh
  tokens_nodup : (w.refreshTokens.map (·.token)).Nodup
  created : ∀ t ∈ w.refreshTokens, t.createdAt ≤ w.now
  epoch_past : ∀ u epoch, w.epochOf u = some epoch → epoch ≤ w.now
  iat_ne : ∀ a ∈ w.issued, a.iat ≠ 0
  clock : 1000 ≤ w.now
  revocations : ∀ u, w.revocations u = 0
  tokens_counted : ∀ t ∈ w.refreshTokens, t.checkedAfter = 0
  issued_counted : ∀ a ∈ w.issued, a.checkedAfter = 0

/-- Any number of requests at once, their statements in any order. -/
def sessions : System (InFlight World Task) (ServiceEvent Request ℕ) :=
  (authService cfg).interleaved World.Opening

end OraOS.Auth
